import TlsClient.EventDriven
import Mathlib.Data.List.Basic
import Mathlib.Data.Prod.Basic

/-!
# The lifetime of objects

A program makes objects, works with them, and gives them up.  A trace of such
actions is in order when each of them finds its object alive; what is alive
behind it is then determined by the trace.
-/

namespace ObjectLifetime

open EventDriven

variable {Object : Type*} [DecidableEq Object]

inductive Action (Object : Type*)
  | creates (object : Object)
  | uses (object : Object)
  | destroys (object : Object)
  deriving DecidableEq, Repr

/-- The objects alive after an action; there are none if the action is not in
order. -/
def step (live : List Object) : Action Object → Option (List Object)
  | .creates object => if object ∈ live then none else some (object :: live)
  | .uses object => if object ∈ live then some live else none
  | .destroys object => if object ∈ live then some (live.erase object) else none

theorem step_destroys {live : List Object} {object : Object} (alive : object ∈ live) :
    step live (.destroys object) = some (live.erase object) :=
  if_pos alive

theorem nodup_step {live next : List Object} {action : Action Object} (nodup : live.Nodup)
    (moved : step live action = some next) : next.Nodup := by
  cases action with
  | creates object =>
      simp only [step, Option.ite_none_left_eq_some, Option.some.injEq] at moved
      obtain ⟨fresh, rfl⟩ := moved
      exact List.nodup_cons.mpr ⟨fresh, nodup⟩
  | uses object =>
      simp only [step, Option.ite_none_right_eq_some, Option.some.injEq] at moved
      obtain ⟨_, rfl⟩ := moved
      exact nodup
  | destroys object =>
      simp only [step, Option.ite_none_right_eq_some, Option.some.injEq] at moved
      obtain ⟨_, rfl⟩ := moved
      exact nodup.erase object

theorem nodup_exec {live next : List Object} {actions : List (Action Object)}
    (nodup : live.Nodup) (run : exec step live actions = some next) : next.Nodup :=
  exec_invariant List.Nodup nodup (fun _ _ _ kept moved => nodup_step kept moved) run

theorem mem_step {live next : List Object} {action : Action Object} {object : Object}
    (alive : object ∈ live) (kept : action ≠ .destroys object)
    (moved : step live action = some next) : object ∈ next := by
  cases action with
  | creates other =>
      simp only [step, Option.ite_none_left_eq_some, Option.some.injEq] at moved
      obtain ⟨_, rfl⟩ := moved
      exact List.mem_cons_of_mem _ alive
  | uses other =>
      simp only [step, Option.ite_none_right_eq_some, Option.some.injEq] at moved
      obtain ⟨_, rfl⟩ := moved
      exact alive
  | destroys other =>
      simp only [step, Option.ite_none_right_eq_some, Option.some.injEq] at moved
      obtain ⟨_, rfl⟩ := moved
      have apart : object ≠ other := by
        rintro rfl
        exact kept rfl
      exact (List.mem_erase_of_ne apart).mpr alive

/-- An object that nothing destroys stays alive. -/
theorem mem_exec {live next : List Object} {actions : List (Action Object)} {object : Object}
    (alive : object ∈ live) (kept : .destroys object ∉ actions)
    (run : exec step live actions = some next) : object ∈ next := by
  refine exec_history (fun past live => .destroys object ∉ past → object ∈ live)
    (fun _ => alive) ?_ run kept
  intro past live action next alive moved absent
  rw [List.mem_append, List.mem_singleton, not_or] at absent
  exact mem_step (alive absent.1) (Ne.symm absent.2) moved

namespace Action

def object : Action Object → Object
  | creates object => object
  | uses object => object
  | destroys object => object

def map {Other : Type*} (rename : Object → Other) : Action Object → Action Other
  | creates object => creates (rename object)
  | uses object => uses (rename object)
  | destroys object => destroys (rename object)

end Action

theorem step_frame {live frame : List Object} {action : Action Object}
    (apart : action.object ∉ frame) :
    step (live ++ frame) action = (step live action).map (· ++ frame) := by
  cases action with
  | creates object =>
      simp only [Action.object] at apart
      by_cases alive : object ∈ live <;> simp [step, alive, apart]
  | uses object =>
      simp only [Action.object] at apart
      by_cases alive : object ∈ live <;> simp [step, alive, apart]
  | destroys object =>
      simp only [Action.object] at apart
      by_cases alive : object ∈ live <;> simp [step, alive, apart, List.erase_append]

/-- The frame rule: a trace leaves alone the objects it does not mention. -/
theorem exec_frame {live frame : List Object} {actions : List (Action Object)}
    (apart : ∀ action ∈ actions, action.object ∉ frame) :
    exec step (live ++ frame) actions = (exec step live actions).map (· ++ frame) := by
  induction actions generalizing live with
  | nil => rfl
  | cons action actions ih =>
      rw [exec_cons, exec_cons, step_frame (apart action (by simp))]
      cases step live action with
      | none => rfl
      | some next => exact ih fun later member => apart later (by simp [member])

theorem step_map {Other : Type*} [DecidableEq Other] {rename : Object → Other}
    (injective : Function.Injective rename) (live : List Object) (action : Action Object) :
    step (live.map rename) (action.map rename) =
      (step live action).map (List.map rename) := by
  cases action with
  | creates object =>
      by_cases alive : object ∈ live <;> simp [step, Action.map, injective.eq_iff, alive]
  | uses object =>
      by_cases alive : object ∈ live <;> simp [step, Action.map, injective.eq_iff, alive]
  | destroys object =>
      by_cases alive : object ∈ live <;>
        simp [step, Action.map, injective.eq_iff, alive, List.map_erase injective]

theorem exec_map {Other : Type*} [DecidableEq Other] {rename : Object → Other}
    (injective : Function.Injective rename) (live : List Object)
    (actions : List (Action Object)) :
    exec step (live.map rename) (actions.map (Action.map rename)) =
      (exec step live actions).map (List.map rename) := by
  induction actions generalizing live with
  | nil => rfl
  | cons action actions ih =>
      rw [List.map_cons, exec_cons, exec_cons, step_map injective]
      cases step live action with
      | none => rfl
      | some next => exact ih next

/-- A trace that is in order on its own is so, under other names, among objects that
do not bear these names. -/
theorem exec_renamed {Other : Type*} [DecidableEq Other] {rename : Object → Other}
    (injective : Function.Injective rename) {frame : List Other}
    (others : ∀ object, rename object ∉ frame) (actions : List (Action Object)) :
    exec step frame (actions.map (Action.map rename)) =
      (exec step [] actions).map fun left => left.map rename ++ frame := by
  have apart : ∀ action ∈ actions.map (Action.map rename), action.object ∉ frame := by
    intro action member
    obtain ⟨plain, _, rfl⟩ := List.mem_map.mp member
    cases plain with
    | creates object => exact others object
    | uses object => exact others object
    | destroys object => exact others object
  have framed : exec step ([] ++ frame) _ = _ := exec_frame apart
  rw [List.nil_append] at framed
  have renamed := exec_map injective [] actions
  rw [List.map_nil] at renamed
  rw [framed, renamed, Option.map_map]
  rfl

/-- Objects of a kind can be made anew in every round. -/
theorem exec_tagged {Tag : Type*} [DecidableEq Tag] {tag : Tag} {frame : List (Tag × Object)}
    (others : ∀ object ∈ frame, object.1 ≠ tag) (actions : List (Action Object)) :
    exec step frame (actions.map (Action.map (Prod.mk tag))) =
      (exec step [] actions).map fun left => left.map (Prod.mk tag) ++ frame :=
  exec_renamed (Prod.mk_right_injective tag) (fun _ present => others _ present rfl) actions

theorem exec_of_uses {live : List Object} {actions : List (Action Object)}
    (onlyUses : ∀ action ∈ actions, ∃ object ∈ live, action = .uses object) :
    exec step live actions = some live := by
  induction actions with
  | nil => rfl
  | cons action actions ih =>
      obtain ⟨object, alive, rfl⟩ := onlyUses action (by simp)
      rw [exec_cons_of_step (if_pos alive)]
      exact ih fun later member => onlyUses later (by simp [member])

/-- No trace that destroys an object and goes on to use it is in order. -/
theorem exec_use_after_destroys {live : List Object} (nodup : live.Nodup) (object : Object)
    (before rest : List (Action Object)) :
    exec step live (before ++ .destroys object :: .uses object :: rest) = none := by
  rw [exec_append]
  cases reached : exec step live before with
  | none => rfl
  | some middle =>
      have unique := nodup_exec nodup reached
      rw [Option.bind_some]
      by_cases alive : object ∈ middle
      · have dead : object ∉ middle.erase object := unique.not_mem_erase
        rw [exec_cons_of_step (step_destroys alive), exec_cons]
        simp [step, dead]
      · simp [exec_cons, step, alive]

end ObjectLifetime
