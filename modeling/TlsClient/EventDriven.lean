import Mathlib.Data.List.Induction

/-!
# Runs driven by the answers of an environment

A program that only talks to its environment is a partial transition function:
the environment answers, and the program moves.  A run is a finite list of
answers, and it exists when each of them is possible in the state it meets.
`Loop` packages a `while` loop of such a program, with the test at its head,
the value produced when the test fails, and a body that goes round again or
returns.

The rules below are the induction principles of the development: an invariant
that knows the past answers, the corresponding rule for loops, and forward
simulation between two systems.
-/

namespace EventDriven

section Runs

variable {State Event : Type*} (step : State → Event → Option State)

/-- Consume a list of events; `none` as soon as one of them is impossible. -/
def exec : State → List Event → Option State
  | state, [] => some state
  | state, event :: events => (step state event).bind fun next => exec next events

@[simp]
theorem exec_nil (state : State) : exec step state [] = some state :=
  rfl

theorem exec_cons (state : State) (event : Event) (events : List Event) :
    exec step state (event :: events) =
      (step state event).bind fun next => exec step next events :=
  rfl

@[simp]
theorem exec_singleton (state : State) (event : Event) :
    exec step state [event] = step state event := by
  simp [exec_cons]

theorem exec_append (state : State) (first second : List Event) :
    exec step state (first ++ second) =
      (exec step state first).bind fun middle => exec step middle second := by
  induction first generalizing state with
  | nil => rfl
  | cons event events ih =>
      rw [List.cons_append, exec_cons, exec_cons]
      cases moved : step state event with
      | none => rfl
      | some next => simpa using ih next

theorem exec_concat (state : State) (events : List Event) (event : Event) :
    exec step state (events ++ [event]) =
      (exec step state events).bind fun middle => step middle event := by
  rw [exec_append]
  congr 1
  funext middle
  simp [exec_cons]

variable {step}

theorem exec_cons_of_step {state next : State} {event : Event}
    (moved : step state event = some next) (events : List Event) :
    exec step state (event :: events) = exec step next events := by
  rw [exec_cons, moved]
  rfl

/-- An invariant may mention the events consumed so far. -/
theorem exec_history (Invariant : List Event → State → Prop) {initial : State}
    (start : Invariant [] initial)
    (preserved : ∀ past state event next, Invariant past state →
      step state event = some next → Invariant (past ++ [event]) next)
    {events : List Event} {final : State}
    (run : exec step initial events = some final) :
    Invariant events final := by
  induction events using List.reverseRecOn generalizing final with
  | nil =>
      obtain rfl : initial = final := by simpa using run
      exact start
  | append_singleton events event ih =>
      rw [exec_concat] at run
      obtain ⟨middle, before, moved⟩ := Option.bind_eq_some_iff.mp run
      exact preserved events middle event final (ih before) moved

theorem exec_invariant (Invariant : State → Prop) {initial : State}
    (start : Invariant initial)
    (preserved : ∀ state event next, Invariant state →
      step state event = some next → Invariant next)
    {events : List Event} {final : State}
    (run : exec step initial events = some final) :
    Invariant final :=
  exec_history (fun _ state => Invariant state) start
    (fun _ state event next holds moved => preserved state event next holds moved) run

/-- Forward simulation: each concrete step is matched by finitely many
abstract ones. -/
theorem exec_simulation {Abstract Action : Type*}
    {abstractStep : Abstract → Action → Option Abstract}
    {Related : State → Abstract → Prop}
    (matched : ∀ state event next abstract, Related state abstract →
      step state event = some next →
        ∃ actions reached, exec abstractStep abstract actions = some reached ∧
          Related next reached)
    {initial : State} {abstract : Abstract} (start : Related initial abstract)
    {events : List Event} {final : State}
    (run : exec step initial events = some final) :
    ∃ actions reached, exec abstractStep abstract actions = some reached ∧
      Related final reached := by
  refine exec_invariant
    (fun state => ∃ actions reached,
      exec abstractStep abstract actions = some reached ∧ Related state reached)
    ⟨[], abstract, rfl, start⟩ ?_ run
  rintro state event next ⟨actions, reached, taken, related⟩ moved
  obtain ⟨more, target, further, relatedNext⟩ :=
    matched state event next reached related moved
  exact ⟨actions ++ more, target, by rw [exec_append, taken]; exact further, relatedNext⟩

end Runs

section Registers

variable {Event Value : Type*} (sets : Event → Option Value)

end Registers

/-- What one pass through a loop body does. -/
inductive Pass (State Result : Type*)
  | again (state : State)
  | done (state : State) (result : Result)
  deriving DecidableEq, Repr

inductive Control (State Result : Type*)
  | running (state : State)
  | returned (state : State) (result : Result)
  deriving DecidableEq, Repr

def Pass.state {State Result : Type*} : Pass State Result → State
  | .again state => state
  | .done state _ => state

/-- A second part of the program, taken when the first one goes on. -/
def Pass.andThen {State Result : Type*} (pass : Pass State Result)
    (next : State → Pass State Result) : Pass State Result :=
  match pass with
  | .again state => next state
  | .done state result => .done state result

@[simp]
theorem Pass.andThen_again {State Result : Type*} (state : State)
    (next : State → Pass State Result) : (Pass.again state).andThen next = next state :=
  rfl

@[simp]
theorem Pass.andThen_done {State Result : Type*} (state : State) (result : Result)
    (next : State → Pass State Result) :
    (Pass.done state result).andThen next = .done state result :=
  rfl

theorem Pass.andThen_eq_again {State Result : Type*} {pass : Pass State Result}
    {next : State → Pass State Result} {final : State}
    (again : pass.andThen next = .again final) :
    ∃ middle, pass = .again middle ∧ next middle = .again final := by
  cases pass with
  | again middle => exact ⟨middle, rfl, again⟩
  | done middle result => cases again

def Control.state {State Result : Type*} : Control State Result → State
  | .running state => state
  | .returned state _ => state

def Pass.map {State Abstract Result : Type*} (project : State → Abstract) :
    Pass State Result → Pass Abstract Result
  | .again state => .again (project state)
  | .done state result => .done (project state) result

def Control.map {State Abstract Result : Type*} (project : State → Abstract) :
    Control State Result → Control Abstract Result
  | .running state => .running (project state)
  | .returned state result => .returned (project state) result

/-- A `while` loop whose body consumes one event a pass.  `possible` says which
events the environment can produce in a state. -/
structure Loop (State Event Result : Type*) where
  continues : State → Bool
  fallsOut : State → Result
  body : State → Event → Pass State Result
  possible : State → Event → Bool

namespace Loop

variable {State Event Result : Type*} (loop : Loop State Event Result)

def head (state : State) : Control State Result :=
  if loop.continues state then .running state else .returned state (loop.fallsOut state)

def afterPass : Pass State Result → Control State Result
  | .again state => loop.head state
  | .done state result => .returned state result

def step : Control State Result → Event → Option (Control State Result)
  | .running state, event =>
      if loop.possible state event then some (loop.afterPass (loop.body state event)) else none
  | .returned _ _, _ => none

def run (state : State) (events : List Event) : Option (Control State Result) :=
  exec loop.step (loop.head state) events

@[simp]
theorem run_nil (state : State) : loop.run state [] = some (loop.head state) :=
  rfl

theorem head_of_continues {state : State} (continues : loop.continues state = true) :
    loop.head state = .running state := by
  simp [head, continues]

theorem run_nil_of_continues {state : State} (continues : loop.continues state = true) :
    loop.run state [] = some (.running state) := by
  rw [run_nil, loop.head_of_continues continues]

theorem head_of_stops {state : State} (stops : loop.continues state = false) :
    loop.head state = .returned state (loop.fallsOut state) := by
  simp [head, stops]

@[simp]
theorem head_state (state : State) : (loop.head state).state = state := by
  cases test : loop.continues state <;> simp [head, test, Control.state]

@[simp]
theorem afterPass_state (pass : Pass State Result) :
    (loop.afterPass pass).state = pass.state := by
  cases pass with
  | again state => exact loop.head_state state
  | done state result => rfl

variable {loop}

theorem step_eq_some {control next : Control State Result} {event : Event}
    (moved : loop.step control event = some next) :
    ∃ state, control = .running state ∧ loop.possible state event = true ∧
      next = loop.afterPass (loop.body state event) := by
  cases control with
  | running state =>
      simp only [step, Option.ite_none_right_eq_some, Option.some.injEq] at moved
      exact ⟨state, rfl, moved.1, moved.2.symm⟩
  | returned state result => simp [step] at moved

theorem run_cons_running {state final : State} {event : Event} {events : List Event}
    (continues : loop.continues state = true) :
    loop.run state (event :: events) = some (.running final) ↔
      loop.possible state event = true ∧ ∃ next, loop.body state event = .again next ∧
        loop.run next events = some (.running final) := by
  rw [run, head_of_continues loop continues, exec_cons, step]
  by_cases possible : loop.possible state event = true
  · rw [if_pos possible, Option.bind_some]
    cases loop.body state event with
    | again next => simp [afterPass, possible, run]
    | done last result =>
        cases events with
        | nil => simp [afterPass]
        | cons event events => simp [afterPass, exec_cons, step]
  · simp [possible]

theorem run_cons_again {state next : State} {event : Event}
    (continues : loop.continues state = true) (possible : loop.possible state event = true)
    (again : loop.body state event = .again next) (events : List Event) :
    loop.run state (event :: events) = loop.run next events := by
  have moved : loop.step (.running state) event = some (loop.head next) := by
    rw [step, if_pos possible, again]
    rfl
  rw [run, head_of_continues loop continues, exec_cons_of_step moved]
  rfl

theorem run_cons_done {state final : State} {result : Result} {event : Event}
    (continues : loop.continues state = true) (possible : loop.possible state event = true)
    (done : loop.body state event = .done final result) :
    loop.run state [event] = some (.returned final result) := by
  rw [run, head_of_continues loop continues, exec_singleton, step, if_pos possible, done]
  rfl

/-- A run that has returned cannot be continued, so the environment's answers
determine where it ends. -/
theorem run_returned_unique {state final other : State} {result otherResult : Result}
    {first second events : List Event} (firstPrefix : first <+: events)
    (secondPrefix : second <+: events)
    (ends : loop.run state first = some (.returned final result))
    (endsToo : loop.run state second = some (.returned other otherResult)) :
    first = second := by
  have extension : ∀ {shorter rest : List Event} {last final : State} {value result : Result},
      loop.run state shorter = some (.returned last value) →
        loop.run state (shorter ++ rest) = some (.returned final result) → rest = [] := by
    intro shorter rest last final value result ends further
    rw [run] at ends
    rw [run, exec_append, ends, Option.bind_some] at further
    cases rest with
    | nil => rfl
    | cons event rest => simp [exec_cons, step] at further
  rcases List.prefix_or_prefix_of_prefix firstPrefix secondPrefix with
    ⟨rest, rfl⟩ | ⟨rest, rfl⟩
  · rw [extension ends endsToo, List.append_nil]
  · rw [extension endsToo ends, List.append_nil]

theorem run_concat_of_running {initial state : State} {events : List Event} {event : Event}
    (run : loop.run initial events = some (.running state))
    (possible : loop.possible state event = true) :
    loop.run initial (events ++ [event]) = some (loop.afterPass (loop.body state event)) := by
  rw [Loop.run] at run
  rw [Loop.run, exec_concat, run, Option.bind_some, step, if_pos possible]

theorem run_control (Holds : List Event → Control State Result → Prop) {initial : State}
    (start : Holds [] (loop.head initial))
    (preserved : ∀ past state event, Holds past (.running state) →
      loop.possible state event = true →
        Holds (past ++ [event]) (loop.afterPass (loop.body state event)))
    {events : List Event} {control : Control State Result}
    (run : loop.run initial events = some control) :
    Holds events control := by
  refine exec_history Holds start ?_ run
  intro past control event next holds moved
  obtain ⟨state, rfl, possible, rfl⟩ := step_eq_some moved
  exact preserved past state event holds possible

/-- What a loop rule establishes at the head of the loop and at its exits. -/
def Satisfies (loop : Loop State Event Result) (Invariant : State → Prop)
    (Post : State → Result → Prop) : Control State Result → Prop
  | .running state => loop.continues state = true ∧ Invariant state
  | .returned state result => Post state result

theorem satisfies_head {Invariant : State → Prop} {Post : State → Result → Prop}
    {state : State} (holds : Invariant state)
    (falls : loop.continues state = false → Post state (loop.fallsOut state)) :
    loop.Satisfies Invariant Post (loop.head state) := by
  cases test : loop.continues state with
  | true => simpa [head, test, Satisfies] using holds
  | false => simpa [head, test, Satisfies] using falls test

theorem satisfies_of_again {Invariant : State → Prop} {Post : State → Result → Prop}
    {pass : Pass State Result} {next : State} (again : pass = .again next)
    (holds : Invariant next)
    (falls : loop.continues next = false → Post next (loop.fallsOut next)) :
    loop.Satisfies Invariant Post (loop.afterPass pass) := by
  rw [again]
  exact satisfies_head holds falls

theorem satisfies_of_done {Invariant : State → Prop} {Post : State → Result → Prop}
    {pass : Pass State Result} {final : State} {result : Result}
    (done : pass = .done final result) (post : Post final result) :
    loop.Satisfies Invariant Post (loop.afterPass pass) := by
  rw [done]
  exact post

/-- The `while` rule.  The invariant is assumed at the head of the loop, when
its test has succeeded, and a pass re-establishes it or the postcondition. -/
theorem run_satisfies (Invariant : List Event → State → Prop)
    (Post : List Event → State → Result → Prop) {initial : State}
    (start : Invariant [] initial)
    (falls : loop.continues initial = false → Post [] initial (loop.fallsOut initial))
    (preserved : ∀ past state event, Invariant past state → loop.continues state = true →
      loop.possible state event = true →
        loop.Satisfies (Invariant (past ++ [event])) (Post (past ++ [event]))
          (loop.afterPass (loop.body state event)))
    {events : List Event} {control : Control State Result}
    (run : loop.run initial events = some control) :
    loop.Satisfies (Invariant events) (Post events) control := by
  refine run_control
    (fun past control => loop.Satisfies (Invariant past) (Post past) control)
    (satisfies_head start falls) ?_ run
  rintro past state event ⟨continues, holds⟩ possible
  exact preserved past state event holds continues possible

/-- An invariant of the variables, whether or not the loop has returned. -/
theorem run_state (Holds : List Event → State → Prop) {initial : State}
    (start : Holds [] initial)
    (preserved : ∀ past state event, Holds past state → loop.continues state = true →
      loop.possible state event = true →
        Holds (past ++ [event]) (loop.body state event).state)
    {events : List Event} {control : Control State Result}
    (run : loop.run initial events = some control) :
    Holds events control.state := by
  have satisfied : loop.Satisfies (Holds events) (fun state _ => Holds events state) control := by
    refine run_satisfies Holds (fun past state _ => Holds past state) start
      (fun _ => start) ?_ run
    intro past state event holds continues possible
    have kept := preserved past state event holds continues possible
    cases outcome : loop.body state event with
    | again next =>
        rw [outcome] at kept
        exact satisfies_of_again rfl kept fun _ => kept
    | done final result =>
        rw [outcome] at kept
        exact satisfies_of_done rfl kept
  cases control with
  | running state => exact satisfied.2
  | returned state result => exact satisfied

section Projection

variable {Abstract AbstractEvent : Type*} (plain : Loop Abstract AbstractEvent Result)

/-- The rest of a state does not matter to the loop over a part of it. -/
structure Projects (loop : Loop State Event Result) (project : State → Abstract)
    (translate : State → Event → AbstractEvent) : Prop where
  continues : ∀ state, plain.continues (project state) = loop.continues state
  fallsOut : ∀ state, plain.fallsOut (project state) = loop.fallsOut state
  possible : ∀ state event, loop.possible state event = true →
    plain.possible (project state) (translate state event) = true
  body : ∀ state event, loop.possible state event = true →
    plain.body (project state) (translate state event) = (loop.body state event).map project

variable {plain} {project : State → Abstract} {translate : State → Event → AbstractEvent}

theorem Projects.head (projects : Projects plain loop project translate) (state : State) :
    plain.head (project state) = (loop.head state).map project := by
  unfold Loop.head
  rw [projects.continues, projects.fallsOut]
  cases loop.continues state <;> rfl

theorem Projects.afterPass (projects : Projects plain loop project translate)
    (pass : Pass State Result) :
    plain.afterPass (pass.map project) = (loop.afterPass pass).map project := by
  cases pass with
  | again state => exact projects.head state
  | done state result => rfl

theorem Projects.run (projects : Projects plain loop project translate) {initial : State}
    {events : List Event} {control : Control State Result}
    (run : loop.run initial events = some control) :
    ∃ translated, plain.run (project initial) translated = some (control.map project) := by
  refine run_control
    (fun _ control => ∃ translated,
      plain.run (project initial) translated = some (control.map project))
    ⟨[], by rw [run_nil, projects.head]⟩ ?_ run
  rintro past state event ⟨translated, taken⟩ possible
  refine ⟨translated ++ [translate state event], ?_⟩
  rw [run_concat_of_running taken (projects.possible state event possible),
    projects.body state event possible, projects.afterPass]

end Projection

section Restriction

/-- The loop in an environment that gives it the allowed events only. -/
def restrict (loop : Loop State Event Result) (allowed : Event → Bool) :
    Loop State Event Result :=
  { loop with possible := fun state event => loop.possible state event && allowed event }

theorem run_restrict {allowed : Event → Bool} {events : List Event}
    (all : ∀ event ∈ events, allowed event = true) (initial : State) :
    (loop.restrict allowed).run initial events = loop.run initial events := by
  have same : ∀ control, exec (loop.restrict allowed).step control events =
      exec loop.step control events := by
    induction events with
    | nil => exact fun control => rfl
    | cons event events ih =>
        intro control
        have stepped : (loop.restrict allowed).step control event = loop.step control event := by
          cases control with
          | running state => simp [step, restrict, all event List.mem_cons_self]; rfl
          | returned state result => rfl
        rw [exec_cons, exec_cons, stepped]
        congr 1
        exact funext (ih fun other member => all other (List.mem_cons_of_mem _ member))
  exact same (loop.head initial)

end Restriction

section Stuttering

/-- The passes end alike, in states that are the same to the loop. -/
def AlikePass (Same : State → State → Prop) : Pass State Result → Pass State Result → Prop
  | .again first, .again second => Same first second
  | .done first result, .done second other => Same first second ∧ result = other
  | _, _ => False

def AlikeControl (Same : State → State → Prop) :
    Control State Result → Control State Result → Prop
  | .running first, .running second => Same first second
  | .returned first result, .returned second other => Same first second ∧ result = other
  | _, _ => False

/-- The loop stutters at the `idle` events: it goes round in what is the same state
to it. -/
structure Stutters (loop : Loop State Event Result) (idle : Event → Bool)
    (Same : State → State → Prop) : Prop where
  refl : ∀ state, Same state state
  continues : ∀ first second, Same first second →
    loop.continues first = loop.continues second
  fallsOut : ∀ first second, Same first second → loop.continues first = false →
    loop.fallsOut first = loop.fallsOut second
  stutter : ∀ first second event, Same first second → loop.continues first = true →
    loop.possible first event = true → idle event = true →
      ∃ next, loop.body first event = .again next ∧ Same next second
  step : ∀ first second event, Same first second → loop.continues first = true →
    loop.possible first event = true → idle event = false →
      loop.possible second event = true ∧
        AlikePass Same (loop.body first event) (loop.body second event)

variable {idle : Event → Bool} {Same : State → State → Prop}

theorem Stutters.head (stutters : loop.Stutters idle Same) {first second : State}
    (same : Same first second) : AlikeControl Same (loop.head first) (loop.head second) := by
  have continues := stutters.continues first second same
  cases test : loop.continues first with
  | true =>
      rw [loop.head_of_continues test, loop.head_of_continues (continues ▸ test)]
      exact same
  | false =>
      rw [loop.head_of_stops test, loop.head_of_stops (continues ▸ test)]
      exact ⟨same, stutters.fallsOut first second same test⟩

theorem Stutters.afterPass (stutters : loop.Stutters idle Same) {first second : Pass State Result}
    (alike : AlikePass Same first second) :
    AlikeControl Same (loop.afterPass first) (loop.afterPass second) := by
  cases first with
  | again state =>
      cases second with
      | again other => exact stutters.head alike
      | done other result => exact alike.elim
  | done state result =>
      cases second with
      | again other => exact alike.elim
      | done other result => exact alike

theorem alike_running {state : State} {control : Control State Result}
    (alike : AlikeControl Same (.running state) control) :
    ∃ other, control = .running other ∧ Same state other := by
  cases control with
  | running other => exact ⟨other, rfl, alike⟩
  | returned other result => exact alike.elim

theorem continues_of_head {state other : State}
    (running : loop.head state = .running other) : loop.continues other = true := by
  unfold Loop.head at running
  split at running
  · cases running
    assumption
  · cases running

theorem continues_of_afterPass {pass : Pass State Result} {state : State}
    (running : loop.afterPass pass = .running state) : loop.continues state = true := by
  cases pass with
  | again next => exact continues_of_head running
  | done next result => cases running

theorem Stutters.afterPass_body (stutters : loop.Stutters idle Same) {first second : State}
    {event : Event} (same : Same first second) (continues : loop.continues first = true)
    (possible : loop.possible first event = true) (works : idle event = false) :
    loop.possible second event = true ∧
      AlikeControl Same (loop.afterPass (loop.body first event))
        (loop.afterPass (loop.body second event)) := by
  obtain ⟨possibleToo, alike⟩ :=
    stutters.step first second event same continues possible works
  exact ⟨possibleToo, stutters.afterPass alike⟩

/-- Without the idle events, a run ends alike. -/
theorem Stutters.run (stutters : loop.Stutters idle Same) {initial : State}
    {events : List Event} {control : Control State Result}
    (run : loop.run initial events = some control) :
    ∃ other, loop.run initial (events.filter fun event => !idle event) = some other ∧
      AlikeControl Same control other := by
  have kept := run_control
    (fun past control => (∃ other,
      loop.run initial (past.filter fun event => !idle event) = some other ∧
        AlikeControl Same control other) ∧
      ∀ state, control = .running state → loop.continues state = true) ?_ ?_ run
  · exact kept.1
  · exact ⟨⟨_, rfl, stutters.head (stutters.refl initial)⟩, fun _ => continues_of_head⟩
  rintro past state event ⟨⟨other, taken, alike⟩, running⟩ possible
  refine ⟨?_, fun _ => continues_of_afterPass⟩
  obtain ⟨second, rfl, same⟩ := alike_running alike
  have continues := running state rfl
  cases idles : idle event with
  | true =>
      obtain ⟨next, again, sameNext⟩ :=
        stutters.stutter state second event same continues possible idles
      refine ⟨.running second, by simpa [idles] using taken, ?_⟩
      have head := stutters.head sameNext
      have goesOn : loop.continues second = true :=
        stutters.continues state second same ▸ continues
      rw [again]
      rwa [loop.head_of_continues goesOn] at head
  | false =>
      obtain ⟨possibleToo, alikeNext⟩ :=
        stutters.afterPass_body same continues possible idles
      refine ⟨_, ?_, alikeNext⟩
      have filtered : (past ++ [event]).filter (fun event => !idle event) =
          past.filter (fun event => !idle event) ++ [event] := by
        simp [idles]
      rw [filtered, run_concat_of_running taken possibleToo]

theorem alikePass_refl (refl : ∀ state, Same state state) (pass : Pass State Result) :
    AlikePass Same pass pass := by
  cases pass with
  | again state => exact refl state
  | done state result => exact ⟨refl state, rfl⟩

/-- Events that leave the state as it is can be left out. -/
theorem stutters_of_again
    (again : ∀ state event, loop.continues state = true → loop.possible state event = true →
      idle event = true → loop.body state event = .again state) :
    loop.Stutters idle Eq where
  refl _ := rfl
  continues := by rintro first _ rfl; rfl
  fallsOut := by rintro first _ rfl _; rfl
  stutter := by
    rintro first _ event rfl continues possible idles
    exact ⟨first, again first event continues possible idles, rfl⟩
  step := by
    rintro first _ event rfl _ possible _
    exact ⟨possible, alikePass_refl (fun _ => rfl) _⟩

theorem eq_of_alikeControl {first second : Control State Result}
    (alike : AlikeControl Eq first second) : second = first := by
  cases first with
  | running state =>
      obtain ⟨other, rfl, rfl⟩ := alike_running alike
      rfl
  | returned state result =>
      cases second with
      | running other => exact alike.elim
      | returned other result =>
          obtain ⟨rfl, rfl⟩ := alike
          rfl

end Stuttering

end Loop

end EventDriven
