import TlsClient.EventDriven
import Mathlib.Data.Stream.Init

/-!
# Ranks

A rank bounds the steps that a system can still take, the steps on idle events not
counted.  A run then has at most as many other events as the rank of its first
state, and a loop returns unless its environment keeps it idle for ever.
-/

namespace EventDriven

section Ranks

variable {State Event : Type*}

/-- Where the invariant holds, every step keeps it, and a step on an event that is
not idle lowers the rank. -/
structure Ranked (step : State → Event → Option State) (Invariant : State → Prop)
    (idle : Event → Bool) (rank : State → Nat) : Prop where
  keeps : ∀ state event next, Invariant state → step state event = some next → Invariant next
  waits : ∀ state event next, Invariant state → step state event = some next →
    rank next ≤ rank state
  spends : ∀ state event next, Invariant state → step state event = some next →
    idle event = false → rank next < rank state

def busyCount (idle : Event → Bool) (events : List Event) : Nat :=
  events.countP fun event => !idle event

theorem busyCount_cons (idle : Event → Bool) (event : Event) (events : List Event) :
    busyCount idle (event :: events) =
      busyCount idle events + if idle event = true then 0 else 1 := by
  cases test : idle event <;> simp [busyCount, test]

theorem busyCount_append (idle : Event → Bool) (first second : List Event) :
    busyCount idle (first ++ second) = busyCount idle first + busyCount idle second :=
  List.countP_append

variable {step : State → Event → Option State} {Invariant : State → Prop}
  {idle : Event → Bool} {rank : State → Nat}

theorem Ranked.bounds (ranked : Ranked step Invariant idle rank) {initial final : State}
    {events : List Event} (holds : Invariant initial)
    (run : exec step initial events = some final) :
    busyCount idle events + rank final ≤ rank initial := by
  induction events generalizing initial with
  | nil =>
      obtain rfl : initial = final := by simpa using run
      simp [busyCount]
  | cons event events ih =>
      rw [exec_cons] at run
      obtain ⟨next, moved, rest⟩ := Option.bind_eq_some_iff.mp run
      have counted := ih (ranked.keeps initial event next holds moved) rest
      rw [busyCount_cons]
      cases test : idle event with
      | true =>
          have kept := ranked.waits initial event next holds moved
          simp only [if_true]
          omega
      | false =>
          have spent := ranked.spends initial event next holds moved test
          simp only [Bool.false_eq_true, if_false]
          omega

/-- From every point on, some event is not idle. -/
def NeverOnlyIdle (idle : Event → Bool) (events : Stream' Event) : Prop :=
  ∀ start, ∃ later, start ≤ later ∧ idle (events.get later) = false

def alternating (first second : Event) : Stream' Event := fun index =>
  if index % 2 = 0 then first else second

theorem neverOnlyIdle_alternating {first second : Event} (works : idle second = false) :
    NeverOnlyIdle idle (alternating first second) := by
  intro start
  refine ⟨2 * start + 1, by omega, ?_⟩
  have odd : ¬ (2 * start + 1) % 2 = 0 := by omega
  change idle (if (2 * start + 1) % 2 = 0 then first else second) = false
  rw [if_neg odd, works]

theorem busyCount_take_le (idle : Event → Bool) (events : Stream' Event) (length more : Nat) :
    busyCount idle (events.take length) ≤ busyCount idle (events.take (length + more)) := by
  induction more with
  | zero => exact Nat.le_refl _
  | succ more ih =>
      rw [← Nat.add_assoc, Stream'.take_succ', busyCount_append]
      omega

theorem exists_le_busyCount {events : Stream' Event} (busy : NeverOnlyIdle idle events)
    (count : Nat) : ∃ length, count ≤ busyCount idle (events.take length) := by
  induction count with
  | zero => exact ⟨0, Nat.zero_le _⟩
  | succ count ih =>
      obtain ⟨length, enough⟩ := ih
      obtain ⟨later, behind, works⟩ := busy length
      obtain ⟨more, rfl⟩ := Nat.exists_eq_add_of_le behind
      refine ⟨length + more + 1, ?_⟩
      have shorter := busyCount_take_le idle events length more
      rw [Stream'.take_succ', busyCount_append, busyCount_cons, works]
      simp only [Bool.false_eq_true, if_false]
      omega

/-- A ranked system cannot take step after step on events that are never only
idle. -/
theorem Ranked.stops (ranked : Ranked step Invariant idle rank) {initial : State}
    (holds : Invariant initial) {events : Stream' Event} (busy : NeverOnlyIdle idle events) :
    ∃ length, exec step initial (events.take length) = none := by
  obtain ⟨length, many⟩ := exists_le_busyCount busy (rank initial + 1)
  refine ⟨length, ?_⟩
  cases run : exec step initial (events.take length) with
  | none => rfl
  | some final =>
      have few := ranked.bounds holds run
      omega

end Ranks

namespace Loop

variable {State Event Result : Type*} {loop : Loop State Event Result}
  {idle : Event → Bool} {rank : State → Nat}

/-- A variant of a loop: positive while its test succeeds, and lower behind every
pass that is not idle and goes round. -/
structure Variant (loop : Loop State Event Result) (idle : Event → Bool)
    (rank : State → Nat) : Prop where
  positive : ∀ state, loop.continues state = true → 0 < rank state
  waits : ∀ state event next, loop.continues state = true →
    loop.possible state event = true → loop.body state event = .again next →
      rank next ≤ rank state
  spends : ∀ state event next, loop.continues state = true →
    loop.possible state event = true → loop.body state event = .again next →
      idle event = false → rank next < rank state

def controlRank (rank : State → Nat) : Control State Result → Nat
  | .running state => rank state
  | .returned _ _ => 0

/-- The test of the loop has succeeded, unless the loop has returned. -/
def Tested (loop : Loop State Event Result) : Control State Result → Prop
  | .running state => loop.continues state = true
  | .returned _ _ => True

theorem tested_of_running {control : Control State Result}
    (running : ∀ state, control = .running state → loop.continues state = true) :
    loop.Tested control := by
  cases control with
  | running state => exact running state rfl
  | returned state result => trivial

theorem controlRank_head_le (state : State) :
    controlRank rank (loop.head state) ≤ rank state := by
  unfold Loop.head
  split
  · exact Nat.le_refl _
  · exact Nat.zero_le _

theorem Variant.afterPass_le (decreasing : loop.Variant idle rank) {state : State}
    {event : Event} (continues : loop.continues state = true)
    (possible : loop.possible state event = true) :
    controlRank rank (loop.afterPass (loop.body state event)) ≤ rank state := by
  cases pass : loop.body state event with
  | again next =>
      exact Nat.le_trans (controlRank_head_le next)
        (decreasing.waits state event next continues possible pass)
  | done final result => exact Nat.zero_le _

theorem Variant.afterPass_lt (decreasing : loop.Variant idle rank) {state : State}
    {event : Event} (continues : loop.continues state = true)
    (possible : loop.possible state event = true) (works : idle event = false) :
    controlRank rank (loop.afterPass (loop.body state event)) < rank state := by
  cases pass : loop.body state event with
  | again next =>
      exact Nat.lt_of_le_of_lt (controlRank_head_le next)
        (decreasing.spends state event next continues possible pass works)
  | done final result => exact decreasing.positive state continues

theorem Variant.ranked (decreasing : loop.Variant idle rank) :
    Ranked loop.step loop.Tested idle (controlRank rank) where
  keeps control event next _ moved := by
    obtain ⟨state, rfl, possible, rfl⟩ := step_eq_some moved
    exact tested_of_running fun _ => continues_of_afterPass
  waits control event next tested moved := by
    obtain ⟨state, rfl, possible, rfl⟩ := step_eq_some moved
    exact decreasing.afterPass_le tested possible
  spends control event next tested moved works := by
    obtain ⟨state, rfl, possible, rfl⟩ := step_eq_some moved
    exact decreasing.afterPass_lt tested possible works

theorem tested_head (state : State) : loop.Tested (loop.head state) :=
  tested_of_running fun _ => continues_of_head

theorem Variant.bounds (decreasing : loop.Variant idle rank) {initial : State}
    {events : List Event} {control : Control State Result}
    (run : loop.run initial events = some control) :
    busyCount idle events + controlRank rank control ≤ rank initial :=
  Nat.le_trans (decreasing.ranked.bounds (tested_head initial) run) (controlRank_head_le initial)

/-- The events that are asked for are possible. -/
def Served (loop : Loop State Event Result) (initial : State) (events : Stream' Event) : Prop :=
  ∀ length state, loop.run initial (events.take length) = some (.running state) →
    loop.possible state (events.get length) = true

/-- A loop with a variant returns, unless it is kept idle for ever. -/
theorem Variant.returns (decreasing : loop.Variant idle rank) {initial : State}
    {events : Stream' Event} (served : loop.Served initial events)
    (busy : NeverOnlyIdle idle events) :
    ∃ length final result,
      loop.run initial (events.take length) = some (.returned final result) := by
  obtain ⟨length, stopped⟩ := decreasing.ranked.stops (tested_head initial) busy
  change loop.run initial (events.take length) = none at stopped
  -- One of the steps before that point is the last.
  induction length with
  | zero => simp at stopped
  | succ length ih =>
      cases run : loop.run initial (events.take length) with
      | none => exact ih run
      | some control =>
          cases control with
          | running state =>
              have further := run_concat_of_running run (served length state run)
              rw [← Stream'.take_succ', stopped] at further
              cases further
          | returned final result => exact ⟨length, final, result, run⟩

end Loop

end EventDriven
