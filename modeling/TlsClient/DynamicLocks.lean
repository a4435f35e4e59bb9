import TlsClient.LockCallbacks

/-!
# The dynamic locks

OpenSSL makes further locks while it runs.  `dyn_create_function` hands out the
address of a mutex, and the mutex is locked, unlocked and destroyed by that
address.  The table that `ssl_thread_setup` replaces has no part in this.
-/

namespace TlsClient

open EventDriven ExclusiveLocks

inductive DynlockObject
  | value (address : Nat)
  | mutex (address : Nat)
  deriving DecidableEq, Repr

/-- The call `dyn_lock_function` makes. -/
inductive DynlockCall
  | pthread_mutex_lock (address : Nat)
  | pthread_mutex_unlock (address : Nat)
  deriving DecidableEq, Repr

/-- `dyn_create_function`, with the address that `malloc` returns. -/
def dynCreateFunction (malloc : Option Nat) :
    Option Nat × List (ObjectLifetime.Action DynlockObject) :=
  match malloc with
  | none => (none, [])
  | some value =>
      (some value, [.creates (.value value), .uses (.value value), .creates (.mutex value)])

def dynLockFunction (mode : LockMode) (l : Nat) : DynlockCall :=
  match mode with
  | .lock => .pthread_mutex_lock l
  | .unlock => .pthread_mutex_unlock l

def dynDestroyFunction (l : Nat) : List (ObjectLifetime.Action DynlockObject) :=
  [.uses (.value l), .destroys (.mutex l), .destroys (.value l)]

def DynlockCall.mutex : DynlockCall → Nat
  | pthread_mutex_lock address => address
  | pthread_mutex_unlock address => address

/-- The process: the table of the static locks, the addresses of its tables, the
dynamic locks of OpenSSL, the mutexes that are locked, and what the threads are
doing, a thread being given with the lock it waits for or is inside. -/
structure DynlockState (Thread : Type) where
  locks : LockTable
  tables : List Nat
  values : List Nat
  locked : List Nat
  waiting : List (Thread × Nat)
  inside : List (Thread × Nat)
  actions : List (ObjectLifetime.Action DynlockObject)
  deriving DecidableEq, Repr

inductive DynlockEvent (Thread : Type)
  | setup (thread : Thread) (malloc : Option Nat)
  | creates (thread : Thread) (malloc : Option Nat)
  | calls (thread : Thread) (mode : LockMode) (l : Nat)
  | acquires (thread : Thread)
  | destroys (thread : Thread) (l : Nat)
  deriving DecidableEq, Repr

namespace DynlockState

variable {Thread : Type}

def initial : DynlockState Thread where
  locks := .initial
  tables := []
  values := []
  locked := []
  waiting := []
  inside := []
  actions := []

def blocked [DecidableEq Thread] (state : DynlockState Thread) (thread : Thread) : Bool :=
  state.waiting.any fun waits => decide (waits.1 = thread)

/-- `malloc` returns no address that is in use. -/
def fresh (state : DynlockState Thread) (malloc : Option Nat) : Prop :=
  ∀ address ∈ malloc, address ∉ state.tables ∧ address ∉ state.values

instance (state : DynlockState Thread) (malloc : Option Nat) : Decidable (state.fresh malloc) :=
  inferInstanceAs (Decidable (∀ address ∈ malloc, _))

def setUp (numLocks : Nat) (state : DynlockState Thread) (malloc : Option Nat) :
    DynlockState Thread :=
  { state with
    locks := (sslThreadSetup numLocks malloc state.locks).locks
    tables := malloc.toList ++ state.tables }

def create (state : DynlockState Thread) (malloc : Option Nat) : DynlockState Thread :=
  { state with
    values := (dynCreateFunction malloc).1.toList ++ state.values
    actions := state.actions ++ (dynCreateFunction malloc).2 }

/-- The call of `pthread_mutex_lock`. -/
def await (state : DynlockState Thread) (thread : Thread) (l : Nat) : DynlockState Thread :=
  let mutex := (dynLockFunction .lock l).mutex
  { state with
    waiting := (thread, l) :: state.waiting
    actions := state.actions ++ [.uses (.value l), .uses (.mutex mutex)] }

/-- Its return. -/
def enter [DecidableEq Thread] (state : DynlockState Thread) (holding : Thread × Nat) :
    DynlockState Thread :=
  let mutex := (dynLockFunction .lock holding.2).mutex
  { state with
    locked := mutex :: state.locked
    waiting := state.waiting.erase holding
    inside := holding :: state.inside
    actions := state.actions ++ [.uses (.mutex mutex)] }

def unlock [DecidableEq Thread] (state : DynlockState Thread) (holding : Thread × Nat) :
    DynlockState Thread :=
  let mutex := (dynLockFunction .unlock holding.2).mutex
  { state with
    locked := state.locked.filter fun other => decide (other ≠ mutex)
    inside := state.inside.erase holding
    actions := state.actions ++ [.uses (.value holding.2), .uses (.mutex mutex)] }

def destroy (state : DynlockState Thread) (l : Nat) : DynlockState Thread :=
  { state with
    values := state.values.erase l
    actions := state.actions ++ dynDestroyFunction l }

end DynlockState

section

variable {Thread : Type}

/-- One step of a thread that is not blocked, or the end of a wait.  OpenSSL calls a
registered callback only; it counts the references to its dynamic locks, and
destroys one that no thread is inside or waits for. -/
def dynlockStep [DecidableEq Thread] (numLocks : Nat) (state : DynlockState Thread) :
    DynlockEvent Thread → Option (DynlockState Thread)
  | .setup thread malloc =>
      if state.blocked thread = false ∧ state.fresh malloc then
        some (state.setUp numLocks malloc)
      else none
  | .creates thread malloc =>
      if state.blocked thread = false ∧ state.locks.callbacks.dynlockCreate = true ∧
          state.fresh malloc then
        some (state.create malloc)
      else none
  | .calls thread .lock l =>
      if state.blocked thread = false ∧ state.locks.callbacks.dynlockLock = true ∧
          l ∈ state.values then
        some (state.await thread l)
      else none
  | .calls thread .unlock l =>
      if state.blocked thread = false ∧ (thread, l) ∈ state.inside then
        some (state.unlock (thread, l))
      else none
  | .acquires thread =>
      match state.waiting.find? fun waits => decide (waits.1 = thread) with
      | some waits =>
          if (dynLockFunction .lock waits.2).mutex ∈ state.locked then none
          else some (state.enter waits)
      | none => none
  | .destroys thread l =>
      if state.blocked thread = false ∧ state.locks.callbacks.dynlockDestroy = true ∧
          l ∈ state.values ∧ ∀ holding ∈ state.inside ++ state.waiting, holding.2 ≠ l then
        some (state.destroy l)
      else none

def dynlockObjects (value : Nat) : List DynlockObject :=
  [.mutex value, .value value]

/-- The dynamic locks do what exclusive locks are for, and what is alive is theirs. -/
structure DynlockOwned (state : DynlockState Thread) (owner : Nat → Option Thread) : Prop where
  describes : Describes owner fun thread l => (thread, l) ∈ state.inside
  known : ∀ holding ∈ state.inside ++ state.waiting, holding.2 ∈ state.values
  locked : ∀ l, l ∈ state.locked ↔ ∃ thread, (thread, l) ∈ state.inside
  distinct : state.inside.Nodup
  live : exec ObjectLifetime.step [] state.actions =
    some (state.values.flatMap dynlockObjects)

theorem dynlockOwned_initial :
    DynlockOwned (DynlockState.initial : DynlockState Thread) fun _ => none where
  describes := by simp [Describes, DynlockState.initial]
  known := by simp [DynlockState.initial]
  locked := by simp [DynlockState.initial]
  distinct := List.nodup_nil
  live := rfl

theorem mem_dynlockObjects_iff {values : List Nat} {object : DynlockObject} :
    object ∈ values.flatMap dynlockObjects ↔
      ∃ value ∈ values, object = .mutex value ∨ object = .value value := by
  simp [dynlockObjects]

theorem dynlockObjects_erase (values : List Nat) (l : Nat) :
    ((values.flatMap dynlockObjects).erase (.mutex l)).erase (.value l) =
      (values.erase l).flatMap dynlockObjects := by
  induction values with
  | nil => rfl
  | cons value values ih =>
      by_cases same : value = l
      · simp [dynlockObjects, same]
      · simp only [List.flatMap_cons, dynlockObjects, List.cons_append, List.nil_append]
        rw [List.erase_cons_tail (by simpa using same), List.erase_cons_tail (by simp),
          List.erase_cons_tail (by simp), List.erase_cons_tail (by simpa using same), ih,
          List.erase_cons_tail (by simpa using same), List.flatMap_cons]
        rfl

section

variable {state : DynlockState Thread} {owner : Nat → Option Thread}

/-- Calls on the mutex of a lock that is there find it alive. -/
theorem DynlockOwned.live_of_uses (owned : DynlockOwned state owner) {l : Nat}
    (present : l ∈ state.values) {actions : List (ObjectLifetime.Action DynlockObject)}
    (uses : ∀ action ∈ actions, action = .uses (.value l) ∨ action = .uses (.mutex l)) :
    exec ObjectLifetime.step [] (state.actions ++ actions) =
      some (state.values.flatMap dynlockObjects) := by
  rw [exec_append, owned.live, Option.bind_some]
  apply ObjectLifetime.exec_of_uses
  intro action member
  rcases uses action member with rfl | rfl
  · exact ⟨.value l, mem_dynlockObjects_iff.mpr ⟨l, present, Or.inr rfl⟩, rfl⟩
  · exact ⟨.mutex l, mem_dynlockObjects_iff.mpr ⟨l, present, Or.inl rfl⟩, rfl⟩

theorem DynlockOwned.setUp (owned : DynlockOwned state owner) (numLocks : Nat)
    (malloc : Option Nat) : DynlockOwned (state.setUp numLocks malloc) owner where
  describes := owned.describes
  known := owned.known
  locked := owned.locked
  distinct := owned.distinct
  live := owned.live

theorem DynlockOwned.create (owned : DynlockOwned state owner) {malloc : Option Nat}
    (fresh : state.fresh malloc) : DynlockOwned (state.create malloc) owner where
  describes := owned.describes
  known holding member := List.mem_append_right _ (owned.known holding member)
  locked := owned.locked
  distinct := owned.distinct
  live := by
    cases malloc with
    | none => simpa [DynlockState.create, dynCreateFunction] using owned.live
    | some value =>
        have unused : value ∉ state.values := (fresh value rfl).2
        rw [DynlockState.create, dynCreateFunction, exec_append, owned.live, Option.bind_some]
        simp [exec_cons, ObjectLifetime.step, unused, dynlockObjects]

theorem DynlockOwned.await (owned : DynlockOwned state owner) (thread : Thread) {l : Nat}
    (present : l ∈ state.values) : DynlockOwned (state.await thread l) owner where
  describes := owned.describes
  known := by
    intro holding member
    rcases List.mem_append.mp member with inside | waiting
    · exact owned.known holding (List.mem_append_left _ inside)
    · rcases List.mem_cons.mp waiting with rfl | earlier
      · exact present
      · exact owned.known holding (List.mem_append_right _ earlier)
  locked := owned.locked
  distinct := owned.distinct
  live := owned.live_of_uses present (by simp [dynLockFunction, DynlockCall.mutex])

theorem DynlockOwned.destroy (owned : DynlockOwned state owner) {l : Nat}
    (present : l ∈ state.values)
    (unused : ∀ holding ∈ state.inside ++ state.waiting, holding.2 ≠ l) :
    DynlockOwned (state.destroy l) owner where
  describes := owned.describes
  known holding member :=
    (List.mem_erase_of_ne (unused holding member)).mpr (owned.known holding member)
  locked := owned.locked
  distinct := owned.distinct
  live := by
    have value : DynlockObject.value l ∈ state.values.flatMap dynlockObjects :=
      mem_dynlockObjects_iff.mpr ⟨l, present, Or.inr rfl⟩
    have mutex : DynlockObject.mutex l ∈ state.values.flatMap dynlockObjects :=
      mem_dynlockObjects_iff.mpr ⟨l, present, Or.inl rfl⟩
    have kept : DynlockObject.value l ∈
        (state.values.flatMap dynlockObjects).erase (.mutex l) :=
      (List.mem_erase_of_ne (by simp)).mpr value
    rw [DynlockState.destroy, dynDestroyFunction, exec_append, owned.live, Option.bind_some,
      exec_cons_of_step (if_pos value),
      exec_cons_of_step (ObjectLifetime.step_destroys mutex), exec_singleton,
      ObjectLifetime.step_destroys kept, dynlockObjects_erase]

variable [DecidableEq Thread]

theorem DynlockOwned.enter (owned : DynlockOwned state owner) {holding : Thread × Nat}
    (waits : holding ∈ state.waiting) (free : holding.2 ∉ state.locked) :
    ∃ reached,
      ExclusiveLocks.step owner (.acquire holding.1 holding.2) = some reached ∧
      DynlockOwned (state.enter holding) reached := by
  have unused : ∀ other, (other, holding.2) ∉ state.inside := fun other inside =>
    free ((owned.locked _).mpr ⟨other, inside⟩)
  have entered : ∀ other l, (other, l) ∈ (state.enter holding).inside ↔
      (other, l) ∈ state.inside ∨ (other = holding.1 ∧ l = holding.2) := by
    intro other l
    rw [DynlockState.enter, List.mem_cons, Prod.ext_iff, or_comm]
  obtain ⟨reached, taken, describes⟩ := owned.describes.acquire unused entered
  refine ⟨reached, taken, ?_⟩
  exact
    { describes := describes
      known := by
        intro other member
        rcases List.mem_append.mp member with inside | waiting
        · rcases List.mem_cons.mp inside with rfl | earlier
          · exact owned.known other (List.mem_append_right _ waits)
          · exact owned.known other (List.mem_append_left _ earlier)
        · exact owned.known other (List.mem_append_right _ (List.mem_of_mem_erase waiting))
      locked := by
        intro l
        simp only [entered]
        rw [DynlockState.enter, List.mem_cons, owned.locked]
        constructor
        · rintro (rfl | ⟨thread, inside⟩)
          · exact ⟨holding.1, Or.inr ⟨rfl, rfl⟩⟩
          · exact ⟨thread, Or.inl inside⟩
        · rintro ⟨thread, inside | ⟨_, rfl⟩⟩
          · exact Or.inr ⟨thread, inside⟩
          · exact Or.inl rfl
      distinct := List.nodup_cons.mpr ⟨unused holding.1, owned.distinct⟩
      live := owned.live_of_uses (owned.known holding (List.mem_append_right _ waits))
        (by simp [dynLockFunction, DynlockCall.mutex]) }

theorem DynlockOwned.unlock (owned : DynlockOwned state owner) {holding : Thread × Nat}
    (inside : holding ∈ state.inside) :
    ∃ reached,
      ExclusiveLocks.step owner (.release holding.1 holding.2) = some reached ∧
      DynlockOwned (state.unlock holding) reached := by
  have left : ∀ other l, (other, l) ∈ (state.unlock holding).inside ↔
      (other, l) ∈ state.inside ∧ l ≠ holding.2 := by
    intro other l
    rw [DynlockState.unlock, owned.distinct.mem_erase_iff]
    constructor
    · rintro ⟨apart, member⟩
      refine ⟨member, ?_⟩
      rintro rfl
      exact apart (Prod.ext (owned.describes.exclusive member inside) rfl)
    · rintro ⟨member, apart⟩
      exact ⟨fun same => apart (congrArg Prod.snd same), member⟩
  obtain ⟨reached, taken, describes⟩ := owned.describes.release inside left
  refine ⟨reached, taken, ?_⟩
  exact
    { describes := describes
      known := by
        intro other member
        rcases List.mem_append.mp member with kept | waiting
        · exact owned.known other (List.mem_append_left _ (List.mem_of_mem_erase kept))
        · exact owned.known other (List.mem_append_right _ waiting)
      locked := by
        intro l
        simp only [left]
        rw [DynlockState.unlock, List.mem_filter, decide_eq_true_eq, owned.locked]
        constructor
        · rintro ⟨⟨thread, member⟩, apart⟩
          exact ⟨thread, member, apart⟩
        · rintro ⟨thread, member, apart⟩
          exact ⟨⟨thread, member⟩, apart⟩
      distinct := owned.distinct.erase holding
      live := owned.live_of_uses (owned.known holding (List.mem_append_left _ inside))
        (by simp [dynLockFunction, DynlockCall.mutex]) }

end

variable [DecidableEq Thread]

/-- Every step, a set-up among them, keeps the dynamic locks exclusive. -/
theorem dynlockStep_simulates {numLocks : Nat} {state next : DynlockState Thread}
    {event : DynlockEvent Thread} {owner : Nat → Option Thread}
    (owned : DynlockOwned state owner)
    (moved : dynlockStep numLocks state event = some next) :
    ∃ actions reached, exec ExclusiveLocks.step owner actions = some reached ∧
      DynlockOwned next reached := by
  cases event with
  | setup thread malloc =>
      simp only [dynlockStep, Option.ite_none_right_eq_some, Option.some.injEq] at moved
      obtain ⟨_, rfl⟩ := moved
      exact ⟨[], owner, rfl, owned.setUp numLocks malloc⟩
  | creates thread malloc =>
      simp only [dynlockStep, Option.ite_none_right_eq_some, Option.some.injEq] at moved
      obtain ⟨⟨_, _, fresh⟩, rfl⟩ := moved
      exact ⟨[], owner, rfl, owned.create fresh⟩
  | acquires thread =>
      simp only [dynlockStep] at moved
      split at moved
      · rename_i holding found
        simp only [Option.ite_none_left_eq_some, Option.some.injEq] at moved
        obtain ⟨free, rfl⟩ := moved
        obtain ⟨reached, taken, kept⟩ := owned.enter (List.mem_of_find?_eq_some found) free
        exact ⟨_, reached, (exec_singleton _ _ _).trans taken, kept⟩
      · cases moved
  | destroys thread l =>
      simp only [dynlockStep, Option.ite_none_right_eq_some, Option.some.injEq] at moved
      obtain ⟨⟨_, _, present, unused⟩, rfl⟩ := moved
      exact ⟨[], owner, rfl, owned.destroy present unused⟩
  | calls thread mode l =>
      cases mode with
      | lock =>
          simp only [dynlockStep, Option.ite_none_right_eq_some, Option.some.injEq] at moved
          obtain ⟨⟨_, _, present⟩, rfl⟩ := moved
          exact ⟨[], owner, rfl, owned.await thread present⟩
      | unlock =>
          simp only [dynlockStep, Option.ite_none_right_eq_some, Option.some.injEq] at moved
          obtain ⟨⟨_, inside⟩, rfl⟩ := moved
          obtain ⟨reached, taken, kept⟩ := owned.unlock inside
          exact ⟨_, reached, (exec_singleton _ _ _).trans taken, kept⟩

/-- In every run, whenever the static locks are set up anew: a dynamic lock has one
thread inside at most, every call on it finds its mutex initialised and not yet
destroyed, and what is allocated are the dynamic locks that OpenSSL has. -/
theorem dynamicLocks_safe {numLocks : Nat} {events : List (DynlockEvent Thread)}
    {final : DynlockState Thread}
    (run : exec (dynlockStep numLocks) DynlockState.initial events = some final) :
    (∀ first second l, (first, l) ∈ final.inside → (second, l) ∈ final.inside →
      first = second) ∧
    (∀ holding ∈ final.inside ++ final.waiting, holding.2 ∈ final.values) ∧
    exec ObjectLifetime.step [] final.actions =
      some (final.values.flatMap dynlockObjects) := by
  obtain ⟨_, owner, _, owned⟩ :=
    exec_simulation (fun _ _ _ _ owned moved => dynlockStep_simulates owned moved)
      dynlockOwned_initial run
  exact ⟨fun _ _ _ one other => owned.describes.exclusive one other, owned.known, owned.live⟩

/-- Thread 0 is inside a dynamic lock while thread 1 sets up the static locks anew,
and thread 1 has to wait for it. -/
theorem dynamicLocks_safe_across_setup :
    ∃ final : DynlockState Nat,
      exec (dynlockStep 2) DynlockState.initial
          [.setup 0 (some 100), .creates 0 (some 300), .calls 0 .lock 300, .acquires 0,
            .setup 1 (some 200), .calls 1 .lock 300] = some final ∧
        final.inside = [(0, 300)] ∧ final.waiting = [(1, 300)] ∧
        exec ObjectLifetime.step [] final.actions =
          some (final.values.flatMap dynlockObjects) :=
  ⟨_, rfl, rfl, rfl,
    (@dynamicLocks_safe Nat _ 2
      [.setup 0 (some 100), .creates 0 (some 300), .calls 0 .lock 300, .acquires 0,
        .setup 1 (some 200), .calls 1 .lock 300] _ rfl).2.2⟩

end

end TlsClient
