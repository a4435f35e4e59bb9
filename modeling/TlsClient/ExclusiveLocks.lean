import TlsClient.EventDriven
import Mathlib.Logic.Function.Basic

/-!
# Exclusive locks

What a family of locks is for: at any time a lock has at most one owner, a
thread becomes the owner of a lock that has none, and gives up what it owns.
-/

namespace ExclusiveLocks

variable {Thread Lock : Type*}

inductive Action (Thread Lock : Type*)
  | acquire (thread : Thread) (lock : Lock)
  | release (thread : Thread) (lock : Lock)
  deriving DecidableEq, Repr

def step [DecidableEq Thread] [DecidableEq Lock] (owner : Lock → Option Thread) :
    Action Thread Lock → Option (Lock → Option Thread)
  | .acquire thread lock =>
      if owner lock = none then some (Function.update owner lock (some thread)) else none
  | .release thread lock =>
      if owner lock = some thread then some (Function.update owner lock none) else none

/-- The threads inside a lock are its owner. -/
def Describes (owner : Lock → Option Thread) (inside : Thread → Lock → Prop) : Prop :=
  ∀ thread lock, inside thread lock ↔ owner lock = some thread

variable {owner : Lock → Option Thread} {inside after : Thread → Lock → Prop}

theorem Describes.exclusive (describes : Describes owner inside) {first second : Thread}
    {lock : Lock} (one : inside first lock) (other : inside second lock) : first = second :=
  Option.some.inj (((describes first lock).mp one).symm.trans ((describes second lock).mp other))

variable [DecidableEq Thread] [DecidableEq Lock]

theorem Describes.acquire (describes : Describes owner inside) {thread : Thread} {lock : Lock}
    (free : ∀ other, ¬ inside other lock)
    (entered : ∀ other held, after other held ↔
      inside other held ∨ (other = thread ∧ held = lock)) :
    ∃ reached, step owner (.acquire thread lock) = some reached ∧ Describes reached after := by
  have unowned : owner lock = none := by
    cases owned : owner lock with
    | none => rfl
    | some other => exact absurd ((describes other lock).mpr owned) (free other)
  refine ⟨_, if_pos unowned, fun other held => ?_⟩
  rw [entered]
  by_cases same : held = lock
  · subst held
    simp [free other, eq_comm]
  · simp [same, describes other held]

theorem Describes.release (describes : Describes owner inside) {thread : Thread} {lock : Lock}
    (holds : inside thread lock)
    (left : ∀ other held, after other held ↔ inside other held ∧ held ≠ lock) :
    ∃ reached, step owner (.release thread lock) = some reached ∧ Describes reached after := by
  refine ⟨_, if_pos ((describes thread lock).mp holds), fun other held => ?_⟩
  rw [left]
  by_cases same : held = lock
  · subst held
    simp
  · simp [same, describes other held]

end ExclusiveLocks
