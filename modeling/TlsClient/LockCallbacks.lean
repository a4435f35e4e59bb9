import TlsClient.LockTable
import TlsClient.ExclusiveLocks

/-!
# `locking_function` under concurrent set-ups

Every `tlsmanager::init` runs `ssl_thread_setup`, which puts a fresh table in
the place of the current one.  A lock and its unlock look the table up each on
their own, so they agree on a mutex only if the table stays in between.
-/

namespace TlsClient

open EventDriven ExclusiveLocks

inductive LockMode
  | lock
  | unlock
  deriving DecidableEq, Repr

/-- The call `locking_function` makes. -/
inductive MutexCall
  | pthread_mutex_lock (mutex : Mutex)
  | pthread_mutex_unlock (mutex : Mutex)
  deriving DecidableEq, Repr

/-- `locking_function`.  Without a table there is no mutex at the address it
computes. -/
def lockingFunction (locks : LockTable) (mode : LockMode) (n : Nat) : Option MutexCall :=
  locks.mutexBuf.map fun mutexBuf =>
    match mode with
    | .lock => .pthread_mutex_lock ⟨mutexBuf, n⟩
    | .unlock => .pthread_mutex_unlock ⟨mutexBuf, n⟩

/-- A thread and the mutex it waits for, or has acquired. -/
@[ext]
structure Holding (Thread : Type) where
  thread : Thread
  mutex : Mutex
  deriving DecidableEq, Repr

/-- An unlock: the mutex that the matching lock acquired, and the one released. -/
structure Unlock where
  acquired : Mutex
  released : Option Mutex
  deriving DecidableEq, Repr

/-- The process: the global table, the addresses `malloc` has given to tables
(none is ever freed), the mutexes that are locked, and what the threads are
doing.  The latest lock is the first one of `inside`. -/
structure LockState (Thread : Type) where
  locks : LockTable
  tables : List Nat
  locked : List Mutex
  waiting : List (Holding Thread)
  inside : List (Holding Thread)
  unlocks : List Unlock
  deriving DecidableEq, Repr

/-- The steps of the threads.  A lock is two of them, the call of
`pthread_mutex_lock` and its return. -/
inductive LockEvent (Thread : Type)
  | setup (thread : Thread) (malloc : Option Nat)
  | calls (thread : Thread) (mode : LockMode) (n : Nat)
  | acquires (thread : Thread)
  deriving DecidableEq, Repr

namespace LockState

variable {Thread : Type}

def initial : LockState Thread where
  locks := .initial
  tables := []
  locked := []
  waiting := []
  inside := []
  unlocks := []

/-- No thread is inside a lock or waiting for one. -/
def Idle (state : LockState Thread) : Prop :=
  state.inside = [] ∧ state.waiting = []

def Inside (state : LockState Thread) (thread : Thread) (n : Nat) : Prop :=
  ∃ holding ∈ state.inside, holding.thread = thread ∧ holding.mutex.index = n

/-- At most one thread is inside each lock, and what is released is what was
acquired. -/
structure Safe (state : LockState Thread) : Prop where
  exclusive : ∀ first second n, state.Inside first n → state.Inside second n → first = second
  matched : ∀ unlock ∈ state.unlocks, unlock.released = some unlock.acquired

def blocked [DecidableEq Thread] (state : LockState Thread) (thread : Thread) : Bool :=
  state.waiting.any fun holding => decide (holding.thread = thread)

/-- The call of `pthread_mutex_lock`. -/
def await (state : LockState Thread) (holding : Holding Thread) : LockState Thread :=
  { state with waiting := holding :: state.waiting }

/-- Its return. -/
def enter [DecidableEq Thread] (state : LockState Thread) (holding : Holding Thread) :
    LockState Thread :=
  { state with
    locked := holding.mutex :: state.locked
    waiting := state.waiting.erase holding
    inside := holding :: state.inside }

/-- `pthread_mutex_unlock`, called by the thread that has acquired `holding`. -/
def unlock [DecidableEq Thread] (state : LockState Thread) (holding : Holding Thread)
    (released : Option Mutex) : LockState Thread :=
  { state with
    locked := state.locked.filter fun mutex => decide (some mutex ≠ released)
    inside := state.inside.erase holding
    unlocks := state.unlocks ++ [⟨holding.mutex, released⟩] }

end LockState

section

variable {Thread : Type}

/-- One step of a thread that is not blocked, or the end of a wait.  OpenSSL
calls a registered callback only, and a thread unlocks only what it has locked.
A lock without a table crashes. -/
def lockStep [DecidableEq Thread] (numLocks : Nat) (state : LockState Thread) :
    LockEvent Thread → Option (LockState Thread)
  | .setup thread malloc =>
      if state.blocked thread = false ∧ ∀ address ∈ malloc, address ∉ state.tables then
        some
          { state with
            locks := (sslThreadSetup numLocks malloc state.locks).locks
            tables := malloc.toList ++ state.tables }
      else none
  | .calls thread .lock n =>
      if state.blocked thread = false ∧ n < numLocks ∧ state.locks.callbacks.locking = true then
        match lockingFunction state.locks .lock n with
        | some (.pthread_mutex_lock mutex) => some (state.await ⟨thread, mutex⟩)
        | _ => none
      else none
  | .calls thread .unlock n =>
      if state.blocked thread = false then
        match state.inside.find? fun holding =>
          decide (holding.thread = thread ∧ holding.mutex.index = n) with
        | some holding =>
            match lockingFunction state.locks .unlock n with
            | some (.pthread_mutex_unlock mutex) => some (state.unlock holding (some mutex))
            | _ => some (state.unlock holding none)
        | none => none
      else none
  | .acquires thread =>
      match state.waiting.find? fun holding => decide (holding.thread = thread) with
      | some holding =>
          if holding.mutex ∈ state.locked then none else some (state.enter holding)
      | none => none

def LockEvent.setsUp : LockEvent Thread → Bool
  | .setup _ _ => true
  | _ => false

instance [DecidableEq Thread] (state : LockState Thread) : Decidable state.Idle :=
  inferInstanceAs (Decidable (state.inside = [] ∧ state.waiting = []))

/-- A step of a run in which every set-up finds the locks idle. -/
def quietStep [DecidableEq Thread] (numLocks : Nat) (state : LockState Thread)
    (event : LockEvent Thread) : Option (LockState Thread) :=
  if event.setsUp = true ∧ ¬ state.Idle then none else lockStep numLocks state event

/-- The locks do what exclusive locks are for: their owners are the threads
inside, and all of them are in the current table. -/
structure Owned (numLocks : Nat) (state : LockState Thread)
    (owner : Nat → Option Thread) : Prop where
  describes : Describes owner state.Inside
  current : ∀ holding ∈ state.inside ++ state.waiting,
    state.locks.mutexBuf = some holding.mutex.table ∧ holding.mutex.index < numLocks
  locked : ∀ mutex, mutex ∈ state.locked ↔ ∃ thread, ⟨thread, mutex⟩ ∈ state.inside
  distinct : state.inside.Nodup
  allocated : ∀ address, state.locks.mutexBuf = some address → address ∈ state.tables
  matched : ∀ unlock ∈ state.unlocks, unlock.released = some unlock.acquired

theorem owned_initial (numLocks : Nat) :
    Owned numLocks (LockState.initial : LockState Thread) fun _ => none where
  describes := by simp [Describes, LockState.Inside, LockState.initial]
  current := by simp [LockState.initial]
  locked := by simp [LockState.initial]
  distinct := List.nodup_nil
  allocated := by simp [LockState.initial, LockTable.initial]
  matched := by simp [LockState.initial]

theorem Owned.safe {numLocks : Nat} {state : LockState Thread} {owner : Nat → Option Thread}
    (owned : Owned numLocks state owner) : state.Safe where
  exclusive _ _ _ one other := owned.describes.exclusive one other
  matched := owned.matched

/-- With the locks idle, a set-up only changes the table. -/
theorem Owned.setup {numLocks : Nat} {state : LockState Thread} {owner : Nat → Option Thread}
    (owned : Owned numLocks state owner) (idle : state.Idle) (malloc : Option Nat) :
    Owned numLocks
      { state with
        locks := (sslThreadSetup numLocks malloc state.locks).locks
        tables := malloc.toList ++ state.tables } owner where
  describes := owned.describes
  current := by simp [idle.1, idle.2]
  locked := owned.locked
  distinct := owned.distinct
  allocated := by
    cases malloc with
    | none => simp [sslThreadSetup]
    | some address => simp [sslThreadSetup]
  matched := owned.matched

theorem Owned.calls {numLocks : Nat} {state : LockState Thread} {owner : Nat → Option Thread}
    (owned : Owned numLocks state owner) {thread : Thread} {mutex : Mutex}
    (current : state.locks.mutexBuf = some mutex.table) (known : mutex.index < numLocks) :
    Owned numLocks (state.await ⟨thread, mutex⟩) owner where
  describes := owned.describes
  current := by
    intro holding member
    rcases List.mem_append.mp member with inside | waiting
    · exact owned.current holding (List.mem_append_left _ inside)
    · rcases List.mem_cons.mp waiting with rfl | earlier
      · exact ⟨current, known⟩
      · exact owned.current holding (List.mem_append_right _ earlier)
  locked := owned.locked
  distinct := owned.distinct
  allocated := owned.allocated
  matched := owned.matched

theorem Owned.mutex_eq {numLocks : Nat} {state : LockState Thread} {owner : Nat → Option Thread}
    (owned : Owned numLocks state owner) {first second : Holding Thread}
    (one : first ∈ state.inside ++ state.waiting) (other : second ∈ state.inside ++ state.waiting)
    (same : first.mutex.index = second.mutex.index) : first.mutex = second.mutex := by
  have tables := (owned.current first one).1.symm.trans (owned.current second other).1
  exact Mutex.ext (Option.some.inj tables) same

/-- Only one thread is inside a lock. -/
theorem Owned.holding_eq {numLocks : Nat} {state : LockState Thread} {owner : Nat → Option Thread}
    (owned : Owned numLocks state owner) {first second : Holding Thread}
    (one : first ∈ state.inside) (other : second ∈ state.inside)
    (same : first.mutex.index = second.mutex.index) : first = second := by
  ext1
  · exact owned.describes.exclusive ⟨first, one, rfl, same⟩ ⟨second, other, rfl, rfl⟩
  · exact owned.mutex_eq (List.mem_append_left _ one) (List.mem_append_left _ other) same

variable [DecidableEq Thread]

theorem Owned.acquires {numLocks : Nat} {state : LockState Thread} {owner : Nat → Option Thread}
    (owned : Owned numLocks state owner) {holding : Holding Thread}
    (waits : holding ∈ state.waiting) (free : holding.mutex ∉ state.locked) :
    ∃ reached,
      ExclusiveLocks.step owner (.acquire holding.thread holding.mutex.index) = some reached ∧
      Owned numLocks (state.enter holding) reached := by
  have unused : ∀ other, ¬ state.Inside other holding.mutex.index := by
    rintro other ⟨earlier, inside, rfl, same⟩
    apply free
    rw [← owned.mutex_eq (List.mem_append_left _ inside) (List.mem_append_right _ waits) same]
    exact (owned.locked _).mpr ⟨earlier.thread, inside⟩
  have entered : ∀ other n, (state.enter holding).Inside other n ↔
      state.Inside other n ∨ (other = holding.thread ∧ n = holding.mutex.index) := by
    intro other n
    simp only [LockState.Inside, LockState.enter, List.mem_cons, exists_eq_or_imp]
    rw [or_comm, eq_comm, @eq_comm _ n]
  obtain ⟨reached, taken, describes⟩ := owned.describes.acquire unused entered
  refine ⟨reached, taken, ?_⟩
  exact
    { describes := describes
      current := by
        intro other member
        rcases List.mem_append.mp member with inside | waiting
        · rcases List.mem_cons.mp inside with rfl | earlier
          · exact owned.current other (List.mem_append_right _ waits)
          · exact owned.current other (List.mem_append_left _ earlier)
        · exact owned.current other
            (List.mem_append_right _ (List.mem_of_mem_erase waiting))
      locked := by
        intro mutex
        rw [LockState.enter, List.mem_cons, owned.locked]
        constructor
        · rintro (rfl | ⟨thread, inside⟩)
          · exact ⟨holding.thread, List.mem_cons_self⟩
          · exact ⟨thread, List.mem_cons_of_mem _ inside⟩
        · rintro ⟨thread, member⟩
          rcases List.mem_cons.mp member with rfl | inside
          · exact Or.inl rfl
          · exact Or.inr ⟨thread, inside⟩
      distinct := by
        refine List.nodup_cons.mpr ⟨fun inside => ?_, owned.distinct⟩
        exact free ((owned.locked _).mpr ⟨holding.thread, inside⟩)
      allocated := owned.allocated
      matched := owned.matched }

theorem Owned.unlock {numLocks : Nat} {state : LockState Thread} {owner : Nat → Option Thread}
    (owned : Owned numLocks state owner) {holding : Holding Thread}
    (inside : holding ∈ state.inside) :
    ∃ reached,
      ExclusiveLocks.step owner (.release holding.thread holding.mutex.index) = some reached ∧
      Owned numLocks (state.unlock holding (some holding.mutex)) reached := by
  have remaining : ∀ other, other ∈ state.inside.erase holding ↔
      other ∈ state.inside ∧ other.mutex.index ≠ holding.mutex.index := by
    intro other
    rw [owned.distinct.mem_erase_iff]
    constructor
    · rintro ⟨apart, member⟩
      exact ⟨member, fun same => apart (owned.holding_eq member inside same)⟩
    · rintro ⟨member, apart⟩
      exact ⟨fun same => apart (by rw [same]), member⟩
  have left : ∀ other n, (state.unlock holding (some holding.mutex)).Inside other n ↔
      state.Inside other n ∧ n ≠ holding.mutex.index := by
    intro other n
    simp only [LockState.Inside, LockState.unlock, remaining]
    constructor
    · rintro ⟨earlier, ⟨member, apart⟩, rfl, rfl⟩
      exact ⟨⟨earlier, member, rfl, rfl⟩, apart⟩
    · rintro ⟨⟨earlier, member, rfl, rfl⟩, apart⟩
      exact ⟨earlier, ⟨member, apart⟩, rfl, rfl⟩
  obtain ⟨reached, taken, describes⟩ :=
    owned.describes.release ⟨holding, inside, rfl, rfl⟩ left
  refine ⟨reached, taken, ?_⟩
  exact
    { describes := describes
      current := by
        intro other member
        rcases List.mem_append.mp member with kept | waiting
        · exact owned.current other (List.mem_append_left _ (List.mem_of_mem_erase kept))
        · exact owned.current other (List.mem_append_right _ waiting)
      locked := by
        intro mutex
        simp only [LockState.unlock, List.mem_filter, decide_eq_true_eq, ne_eq,
          Option.some.injEq, remaining, owned.locked]
        constructor
        · rintro ⟨⟨thread, member⟩, apart⟩
          refine ⟨thread, member, fun same => apart ?_⟩
          exact owned.mutex_eq (List.mem_append_left _ member) (List.mem_append_left _ inside) same
        · rintro ⟨thread, member, apart⟩
          exact ⟨⟨thread, member⟩, fun same => apart (by rw [same])⟩
      distinct := owned.distinct.erase holding
      allocated := owned.allocated
      matched := by
        intro unlock member
        rcases List.mem_append.mp member with earlier | new
        · exact owned.matched unlock earlier
        · obtain rfl := List.mem_singleton.mp new
          rfl }

/-- What a step can do: replace the table, begin a wait in the current table,
end a wait, or unlock in the current table. -/
theorem lockStep_cases {numLocks : Nat} {state next : LockState Thread}
    {event : LockEvent Thread} (moved : lockStep numLocks state event = some next) :
    (∃ malloc, event.setsUp = true ∧ next =
      { state with
        locks := (sslThreadSetup numLocks malloc state.locks).locks
        tables := malloc.toList ++ state.tables }) ∨
    (∃ thread mutex, state.locks.mutexBuf = some mutex.table ∧ mutex.index < numLocks ∧
      next = state.await ⟨thread, mutex⟩) ∨
    (∃ holding ∈ state.waiting, holding.mutex ∉ state.locked ∧ next = state.enter holding) ∨
    ∃ holding ∈ state.inside, next = state.unlock holding
      (state.locks.mutexBuf.map fun mutexBuf => ⟨mutexBuf, holding.mutex.index⟩) := by
  cases event with
  | setup thread malloc =>
      simp only [lockStep, Option.ite_none_right_eq_some, Option.some.injEq] at moved
      exact Or.inl ⟨malloc, rfl, moved.2.symm⟩
  | acquires thread =>
      simp only [lockStep] at moved
      split at moved
      · rename_i holding found
        simp only [Option.ite_none_left_eq_some, Option.some.injEq] at moved
        exact Or.inr (Or.inr (Or.inl
          ⟨holding, List.mem_of_find?_eq_some found, moved.1, moved.2.symm⟩))
      · cases moved
  | calls thread mode n =>
      cases mode with
      | lock =>
          simp only [lockStep, Option.ite_none_right_eq_some] at moved
          obtain ⟨⟨_, known, _⟩, moved⟩ := moved
          right; left
          cases current : state.locks.mutexBuf with
          | none => simp [lockingFunction, current] at moved
          | some mutexBuf =>
              simp only [lockingFunction, current, Option.map_some, Option.some.injEq] at moved
              exact ⟨thread, ⟨mutexBuf, n⟩, rfl, known, moved.symm⟩
      | unlock =>
          simp only [lockStep, Option.ite_none_right_eq_some] at moved
          obtain ⟨_, moved⟩ := moved
          right; right; right
          split at moved
          · rename_i holding found
            have matching := List.find?_some found
            simp only [decide_eq_true_eq] at matching
            refine ⟨holding, List.mem_of_find?_eq_some found, ?_⟩
            rw [matching.2]
            cases current : state.locks.mutexBuf with
            | none => simpa [lockingFunction, current, eq_comm] using moved
            | some mutexBuf => simpa [lockingFunction, current, eq_comm] using moved
          · cases moved

theorem quietStep_simulates {numLocks : Nat} {state next : LockState Thread}
    {event : LockEvent Thread} {owner : Nat → Option Thread}
    (owned : Owned numLocks state owner)
    (moved : quietStep numLocks state event = some next) :
    ∃ actions reached, exec ExclusiveLocks.step owner actions = some reached ∧
      Owned numLocks next reached := by
  simp only [quietStep, Option.ite_none_left_eq_some] at moved
  obtain ⟨quiet, moved⟩ := moved
  rcases lockStep_cases moved with ⟨malloc, setsUp, rfl⟩ | ⟨thread, mutex, current, known, rfl⟩ |
    ⟨holding, waits, free, rfl⟩ | ⟨holding, inside, rfl⟩
  · have idle : state.Idle := by
      by_contra busy
      exact quiet ⟨setsUp, busy⟩
    exact ⟨[], owner, rfl, owned.setup idle malloc⟩
  · exact ⟨[], owner, rfl, owned.calls current known⟩
  · obtain ⟨reached, taken, kept⟩ := owned.acquires waits free
    exact ⟨_, reached, (exec_singleton _ _ _).trans taken, kept⟩
  · have current := (owned.current holding (List.mem_append_left _ inside)).1
    rw [current, Option.map_some]
    obtain ⟨reached, taken, kept⟩ := owned.unlock inside
    exact ⟨_, reached, (exec_singleton _ _ _).trans taken, kept⟩

theorem owned_run {numLocks : Nat} {events : List (LockEvent Thread)}
    {final : LockState Thread}
    (run : exec (quietStep numLocks) LockState.initial events = some final) :
    ∃ owner, Owned numLocks final owner := by
  obtain ⟨_, owner, _, owned⟩ :=
    exec_simulation (fun _ _ _ _ owned moved => quietStep_simulates owned moved)
      (owned_initial numLocks) run
  exact ⟨owner, owned⟩

theorem quietStep_of_not_setsUp {numLocks : Nat} {state : LockState Thread}
    {event : LockEvent Thread} (working : event.setsUp = false) :
    quietStep numLocks state event = lockStep numLocks state event :=
  if_neg fun stops => by simp [working] at stops

theorem lockStep_acquires {numLocks : Nat} {state : LockState Thread} {thread : Thread}
    {holding : Holding Thread}
    (waits : state.waiting.find? (fun other => decide (other.thread = thread)) = some holding)
    (free : holding.mutex ∉ state.locked) :
    lockStep numLocks state (.acquires thread) = some (state.enter holding) := by
  simp only [lockStep, waits, if_neg free]

/-- A thread that finds a lock free in the new table joins the one that holds it
in the old table. -/
theorem unsafe_of_rival {numLocks : Nat} {state : LockState Thread} {holding : Holding Thread}
    (latecomer : Holding Thread) (inside : holding ∈ state.inside)
    (rival : holding.thread ≠ latecomer.thread)
    (same : holding.mutex.index = latecomer.mutex.index)
    (replaced : state.locks = ⟨some latecomer.mutex.table, .registered⟩)
    (running : state.blocked latecomer.thread = false)
    (known : latecomer.mutex.index < numLocks) (free : latecomer.mutex ∉ state.locked) :
    ∃ events final, exec (quietStep numLocks) state events = some final ∧ ¬ final.Safe := by
  have calls : lockStep numLocks state
      (.calls latecomer.thread .lock latecomer.mutex.index) = some (state.await latecomer) := by
    simp [lockStep, running, known, replaced, Callbacks.registered, lockingFunction]
  have acquires : lockStep numLocks (state.await latecomer) (.acquires latecomer.thread) =
      some ((state.await latecomer).enter latecomer) :=
    lockStep_acquires (by simp [LockState.await]) free
  refine ⟨[.calls latecomer.thread .lock latecomer.mutex.index, .acquires latecomer.thread],
    (state.await latecomer).enter latecomer, ?_, ?_⟩
  · rw [exec_cons_of_step ((quietStep_of_not_setsUp rfl).trans calls), exec_singleton,
      quietStep_of_not_setsUp rfl, acquires]
  · intro safe
    apply rival
    exact safe.exclusive _ _ latecomer.mutex.index
      ⟨holding, List.mem_cons_of_mem _ inside, rfl, same⟩
      ⟨latecomer, List.mem_cons_self, rfl, rfl⟩

/-- A thread that holds a lock in the old table unlocks a mutex of the new one. -/
theorem unsafe_of_mismatch {numLocks : Nat} {state : LockState Thread} {address : Nat}
    {holding : Holding Thread} (inside : holding ∈ state.inside)
    (replaced : state.locks = ⟨some address, .registered⟩)
    (running : state.blocked holding.thread = false)
    (apart : ∀ holding ∈ state.inside, holding.mutex.table ≠ address) :
    ∃ events final, exec (quietStep numLocks) state events = some final ∧ ¬ final.Safe := by
  have present : (state.inside.find? fun other =>
      decide (other.thread = holding.thread ∧ other.mutex.index = holding.mutex.index)).isSome := by
    rw [List.find?_isSome]
    exact ⟨holding, inside, by simp⟩
  obtain ⟨latest, found⟩ := Option.isSome_iff_exists.mp present
  have unlocks : lockStep numLocks state (.calls holding.thread .unlock holding.mutex.index) =
      some (state.unlock latest (some ⟨address, holding.mutex.index⟩)) := by
    simp only [lockStep, if_pos running, found, lockingFunction, replaced, Option.map_some]
  refine ⟨[.calls holding.thread .unlock holding.mutex.index],
    state.unlock latest (some ⟨address, holding.mutex.index⟩), ?_, fun safe => ?_⟩
  · rw [exec_singleton, quietStep_of_not_setsUp rfl, unlocks]
  · have same := safe.matched ⟨latest.mutex, some ⟨address, holding.mutex.index⟩⟩
      (by simp [LockState.unlock])
    apply apart latest (List.mem_of_find?_eq_some found)
    exact (congrArg Mutex.table (Option.some.inj same)).symm

theorem blocked_eq_false_iff (state : LockState Thread) (thread : Thread) :
    state.blocked thread = false ↔ ∀ holding ∈ state.waiting, holding.thread ≠ thread := by
  simp [LockState.blocked]

/-- A thread that waits for a lock of the old table gets it, and is joined. -/
theorem unsafe_of_waiting {numLocks : Nat} {state : LockState Thread} {thread : Thread}
    {address : Nat} {waiting : Holding Thread} (waits : waiting ∈ state.waiting)
    (replaced : state.locks = ⟨some address, .registered⟩)
    (running : state.blocked thread = false) (unlocked : state.locked = [])
    (old : ∀ holding ∈ state.waiting,
      holding.mutex.index < numLocks ∧ holding.mutex.table ≠ address) :
    ∃ events final, exec (quietStep numLocks) state events = some final ∧ ¬ final.Safe := by
  have present : (state.waiting.find? fun other =>
      decide (other.thread = waiting.thread)).isSome := by
    rw [List.find?_isSome]
    exact ⟨waiting, waits, by simp⟩
  obtain ⟨holding, found⟩ := Option.isSome_iff_exists.mp present
  have member := List.mem_of_find?_eq_some found
  have acquires : lockStep numLocks state (.acquires waiting.thread) =
      some (state.enter holding) :=
    lockStep_acquires found (by simp [unlocked])
  have others := (blocked_eq_false_iff state thread).mp running
  have stillRunning : (state.enter holding).blocked thread = false := by
    rw [blocked_eq_false_iff]
    intro other remains
    exact others other (List.mem_of_mem_erase remains)
  have free : ⟨address, holding.mutex.index⟩ ∉ (state.enter holding).locked := by
    simp only [LockState.enter, unlocked, List.mem_singleton]
    intro same
    apply (old holding member).2
    rw [← same]
  have inside : holding ∈ (state.enter holding).inside := List.mem_cons_self
  obtain ⟨events, final, run, wrong⟩ := unsafe_of_rival ⟨thread, ⟨address, holding.mutex.index⟩⟩
    inside (others holding member) rfl replaced stillRunning (old holding member).1 free
  refine ⟨.acquires waiting.thread :: events, final, ?_, wrong⟩
  rw [exec_cons_of_step ((quietStep_of_not_setsUp rfl).trans acquires), run]

/-- A set-up that does not find the locks idle leads to a state that is not
safe. -/
theorem unsafe_of_busy {numLocks : Nat} {state next : LockState Thread} {thread : Thread}
    {address : Nat} {owner : Nat → Option Thread} (owned : Owned numLocks state owner)
    (busy : ¬ state.Idle)
    (moved : lockStep numLocks state (.setup thread (some address)) = some next) :
    ∃ events final, exec (quietStep numLocks) next events = some final ∧ ¬ final.Safe := by
  simp only [lockStep, Option.ite_none_right_eq_some, Option.some.injEq] at moved
  obtain ⟨⟨running, fresh⟩, became⟩ := moved
  have replaced : next.locks = ⟨some address, .registered⟩ := by
    rw [← became]
    rfl
  have sameInside : next.inside = state.inside := by rw [← became]
  have sameWaiting : next.waiting = state.waiting := by rw [← became]
  have sameLocked : next.locked = state.locked := by rw [← became]
  have stillRunning : next.blocked thread = false := by
    rwa [blocked_eq_false_iff, sameWaiting, ← blocked_eq_false_iff]
  have apart : ∀ holding ∈ state.inside ++ state.waiting, holding.mutex.table ≠ address := by
    rintro holding member rfl
    exact fresh _ rfl (owned.allocated _ (owned.current holding member).1)
  by_cases empty : state.inside = []
  · have waits : state.waiting ≠ [] := fun none => busy ⟨empty, none⟩
    obtain ⟨waiting, member⟩ := List.exists_mem_of_ne_nil _ waits
    rw [← sameWaiting] at member
    apply unsafe_of_waiting member replaced stillRunning
    · rw [sameLocked, List.eq_nil_iff_forall_not_mem]
      intro mutex locked
      obtain ⟨_, inside⟩ := (owned.locked mutex).mp locked
      simp [empty] at inside
    · intro holding waiting
      rw [sameWaiting] at waiting
      have old := List.mem_append_right state.inside waiting
      exact ⟨(owned.current holding old).2, apart holding old⟩
  · obtain ⟨holding, inside⟩ := List.exists_mem_of_ne_nil _ empty
    have known := (owned.current holding (List.mem_append_left _ inside)).2
    rw [← sameInside] at inside
    by_cases rival : holding.thread = thread
    · apply unsafe_of_mismatch inside replaced (by rw [rival]; exact stillRunning)
      intro other member
      rw [sameInside] at member
      exact apart other (List.mem_append_left _ member)
    · apply unsafe_of_rival ⟨thread, ⟨address, holding.mutex.index⟩⟩ inside rival rfl replaced
        stillRunning known
      rw [sameLocked]
      intro locked
      obtain ⟨_, member⟩ := (owned.locked _).mp locked
      exact apart _ (List.mem_append_left _ member) rfl

/-- In every run whose set-ups find the locks idle, each lock has one thread
inside at most and is released as it was acquired.  A successful set-up that
does not find them idle is followed by a run in which this fails. -/
theorem lockCallbacks_safe_iff (Thread : Type) [DecidableEq Thread] (numLocks : Nat) :
    (∀ (events : List (LockEvent Thread)) final,
      exec (quietStep numLocks) LockState.initial events = some final → final.Safe) ∧
    ∀ (events : List (LockEvent Thread)) state thread address next,
      exec (quietStep numLocks) LockState.initial events = some state →
      lockStep numLocks state (.setup thread (some address)) = some next →
        ((∀ more final, exec (quietStep numLocks) next more = some final → final.Safe) ↔
          state.Idle) := by
  constructor
  · intro events final run
    obtain ⟨_, owned⟩ := owned_run run
    exact owned.safe
  · intro events state thread address next run moved
    obtain ⟨owner, owned⟩ := owned_run run
    constructor
    · intro safe
      by_contra busy
      obtain ⟨more, final, further, wrong⟩ := unsafe_of_busy owned busy moved
      exact wrong (safe more final further)
    · intro idle more final further
      have quiet : quietStep numLocks state (.setup thread (some address)) = some next := by
        rw [quietStep, if_neg (by simp [idle]), moved]
      obtain ⟨_, _, _, ownedNext⟩ := quietStep_simulates owned quiet
      obtain ⟨_, _, _, ownedFinal⟩ :=
        exec_simulation (fun _ _ _ _ owned moved => quietStep_simulates owned moved)
          ownedNext further
      exact ownedFinal.safe

/-- Thread 0 locks and unlocks lock 1 of the first table, and thread 1 sets up a
second one. -/
theorem lockCallbacks_safe_iff_two :
    ∃ final : LockState Nat,
      exec (quietStep 2) LockState.initial
          [.setup 0 (some 100), .calls 0 .lock 1, .acquires 0, .calls 0 .unlock 1,
            .setup 1 (some 200)] = some final ∧ final.Safe :=
  ⟨_, rfl, (lockCallbacks_safe_iff Nat 2).1
    [.setup 0 (some 100), .calls 0 .lock 1, .acquires 0, .calls 0 .unlock 1,
      .setup 1 (some 200)] _ rfl⟩

def crowdedLock : LockState Nat where
  locks := ⟨some 200, .registered⟩
  tables := [200, 100]
  locked := [⟨200, 1⟩, ⟨100, 1⟩]
  waiting := []
  inside := [⟨1, ⟨200, 1⟩⟩, ⟨0, ⟨100, 1⟩⟩]
  unlocks := []

/-- A second `tlsmanager::init` while thread 0 is inside lock 1: thread 1 gets
lock 1 as well, in the new table. -/
theorem two_threads_inside_one_lock :
    exec (lockStep 2) LockState.initial
        [.setup 0 (some 100), .calls 0 .lock 1, .acquires 0, .setup 1 (some 200),
          .calls 1 .lock 1, .acquires 1] = some crowdedLock ∧
      ¬ crowdedLock.Safe := by
  refine ⟨by decide, fun safe => ?_⟩
  have first : crowdedLock.Inside 0 1 := ⟨⟨0, ⟨100, 1⟩⟩, by decide, rfl, rfl⟩
  have second : crowdedLock.Inside 1 1 := ⟨⟨1, ⟨200, 1⟩⟩, by decide, rfl, rfl⟩
  exact absurd (safe.exclusive 0 1 1 first second) (by decide)

end

end TlsClient
