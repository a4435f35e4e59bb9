import Mathlib.Data.List.Count
import Mathlib.Data.List.Induction
import Mathlib.Data.List.Nodup
import Mathlib.Data.List.Perm.Subperm

/-!
# Resources acquired and released

The calls by which a program acquires and releases resources, in the order in
which they are made.  What the program holds is determined by them.
-/

namespace ResourceLedger

variable {α : Type*} [DecidableEq α]

inductive Entry (α : Type*)
  | acquired (resource : α)
  | released (resource : α)
  deriving DecidableEq, Repr

def hold (held : List α) : Entry α → List α
  | .acquired resource => held ++ [resource]
  | .released resource => held.erase resource

def held (ledger : List (Entry α)) : List α :=
  ledger.foldl hold []

@[simp]
theorem held_concat (ledger : List (Entry α)) (entry : Entry α) :
    held (ledger ++ [entry]) = hold (held ledger) entry := by
  simp [held]

theorem acquired_of_mem_held {ledger : List (Entry α)} {resource : α}
    (holds : resource ∈ held ledger) : .acquired resource ∈ ledger := by
  induction ledger using List.reverseRecOn with
  | nil => simp [held] at holds
  | append_singleton ledger entry ih =>
      rw [held_concat] at holds
      cases entry with
      | acquired other =>
          rcases List.mem_append.mp holds with earlier | new
          · exact List.mem_append_left _ (ih earlier)
          · obtain rfl := List.mem_singleton.mp new
            simp
      | released other => exact List.mem_append_left _ (ih (List.mem_of_mem_erase holds))

/-- Everything acquired besides `kept` has been released exactly once, and
`kept` is all that is held. -/
structure Balanced (kept : α) (ledger : List (Entry α)) : Prop where
  holds : ∀ resource, resource ∈ held ledger ↔ resource = kept
  released : ∀ resource, resource ≠ kept →
    ledger.count (.released resource) = ledger.count (.acquired resource)

theorem mem_held_of_no_release {ledger : List (Entry α)}
    (noRelease : ∀ resource, .released resource ∉ ledger) (resource : α) :
    resource ∈ held ledger ↔ .acquired resource ∈ ledger := by
  induction ledger using List.reverseRecOn with
  | nil => simp [held]
  | append_singleton ledger entry ih =>
      have earlier := ih fun other member => noRelease other (by simp [member])
      rw [held_concat]
      cases entry with
      | acquired other => simp [hold, earlier]
      | released other => exact absurd (by simp) (noRelease other)

/-- Without a release, the ledger is balanced only if nothing but `kept` has
been acquired. -/
theorem balanced_iff_of_no_release {kept : α} {ledger : List (Entry α)}
    (noRelease : ∀ resource, .released resource ∉ ledger)
    (keeps : .acquired kept ∈ ledger) :
    Balanced kept ledger ↔ ∀ resource, .acquired resource ∈ ledger → resource = kept := by
  constructor
  · intro balanced resource acquired
    exact (balanced.holds resource).mp ((mem_held_of_no_release noRelease resource).mpr acquired)
  · intro only
    constructor
    · intro resource
      rw [mem_held_of_no_release noRelease]
      exact ⟨only resource, fun same => same ▸ keeps⟩
    · intro resource other
      rw [List.count_eq_zero.mpr (noRelease resource), eq_comm, List.count_eq_zero]
      exact fun acquired => other (only resource acquired)

theorem nodup_held_concat {ledger : List (Entry α)} {resource : α}
    (distinct : (held ledger).Nodup) (free : resource ∉ held ledger) :
    (held (ledger ++ [.acquired resource])).Nodup := by
  rw [held_concat, hold, List.nodup_append]
  refine ⟨distinct, List.nodup_singleton resource, ?_⟩
  rintro earlier member other new rfl
  exact free (List.mem_singleton.mp new ▸ member)

end ResourceLedger
