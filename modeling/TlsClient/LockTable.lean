import TlsClient.ObjectLifetime

/-!
# The lock table of OpenSSL

`ssl_thread_setup` makes a table of mutexes and registers the callbacks that
use it; `ssl_thread_cleanup` is to take both down again.  Its `free` stands
inside the loop over the mutexes.
-/

namespace TlsClient

open EventDriven ObjectLifetime

/-- A mutex, by the address of the table it stands in. -/
@[ext]
structure Mutex where
  table : Nat
  index : Nat
  deriving DecidableEq, Repr

inductive LockObject
  | table (address : Nat)
  | mutex (mutex : Mutex)
  deriving DecidableEq, Repr

/-- Which callbacks are registered with OpenSSL. -/
structure Callbacks where
  id : Bool
  locking : Bool
  dynlockCreate : Bool
  dynlockLock : Bool
  dynlockDestroy : Bool
  deriving DecidableEq, Repr

def Callbacks.registered : Callbacks :=
  ⟨true, true, true, true, true⟩

def Callbacks.unset : Callbacks :=
  ⟨false, false, false, false, false⟩

structure LockTable where
  mutexBuf : Option Nat
  callbacks : Callbacks
  deriving DecidableEq, Repr

def LockTable.initial : LockTable :=
  ⟨none, .unset⟩

/-- A call of OpenSSL can lock: without `locking_function` it does not, and with it
it needs the table. -/
def LockTable.lockable (locks : LockTable) : Bool :=
  !locks.callbacks.locking || locks.mutexBuf.isSome

/-- What a call of one of the two functions returns, leaves behind, and does to
the heap. -/
structure LockCall where
  ret : Int
  locks : LockTable
  actions : List (Action LockObject)
  deriving DecidableEq, Repr

/-- `pthread_mutex_init ( &(mutex_buf[i]), NULL )`. -/
def initMutex (address index : Nat) : List (Action LockObject) :=
  [.uses (.table address), .creates (.mutex ⟨address, index⟩)]

/-- `ssl_thread_setup`, with the address that `malloc` returns. -/
def sslThreadSetup (numLocks : Nat) (malloc : Option Nat) (locks : LockTable) : LockCall :=
  match malloc with
  | none => ⟨0, { locks with mutexBuf := none }, []⟩
  | some address =>
      ⟨1, ⟨some address, .registered⟩,
        .creates (.table address) :: (List.range numLocks).flatMap (initMutex address)⟩

/-- A failed set-up takes the table away and leaves the callbacks. -/
theorem lockable_sslThreadSetup (numLocks : Nat) (malloc : Option Nat) (locks : LockTable) :
    (sslThreadSetup numLocks malloc locks).locks.lockable = true ↔
      malloc.isSome = true ∨ locks.callbacks.locking = false := by
  cases malloc with
  | none => simp [sslThreadSetup, LockTable.lockable]
  | some address => simp [sslThreadSetup, LockTable.lockable]

/-- The body of the loop of `ssl_thread_cleanup`. -/
def destroyMutex (address index : Nat) : List (Action LockObject) :=
  [.uses (.table address), .destroys (.mutex ⟨address, index⟩), .destroys (.table address)]

def sslThreadCleanup (numLocks : Nat) (locks : LockTable) : LockCall :=
  match locks.mutexBuf with
  | none => ⟨0, locks, []⟩
  | some address =>
      ⟨1, ⟨none, .unset⟩, (List.range numLocks).flatMap (destroyMutex address)⟩

/-- Pairs of a successful set-up and a clean-up; a clean-up is recorded with the
address of its table. -/
structure LockHistory where
  locks : LockTable
  actions : List (Action LockObject)
  cleanups : List (Nat × List (Action LockObject))
  deriving DecidableEq, Repr

def setupAndCleanup (numLocks : Nat) (history : LockHistory) (address : Nat) : LockHistory :=
  let setup := sslThreadSetup numLocks (some address) history.locks
  let cleanup := sslThreadCleanup numLocks setup.locks
  { locks := cleanup.locks
    actions := history.actions ++ (setup.actions ++ cleanup.actions)
    cleanups := history.cleanups ++ [(address, cleanup.actions)] }

def setupsAndCleanups (numLocks : Nat) (addresses : List Nat) : LockHistory :=
  addresses.foldl (setupAndCleanup numLocks) ⟨.initial, [], []⟩

/-- A clean-up destroys every mutex once and frees the table once, at its end. -/
structure CleansUp (numLocks address : Nat) (actions : List (Action LockObject)) : Prop where
  destroyed : ∀ index < numLocks, actions.count (.destroys (.mutex ⟨address, index⟩)) = 1
  freed : actions.count (.destroys (.table address)) = 1
  freedLast : actions.getLast? = some (.destroys (.table address))

/-- The clean-ups undo the set-ups: every mutex is initialised and destroyed in
an allocated table, and nothing is left. -/
structure UndoesSetups (numLocks : Nat) (history : LockHistory) : Prop where
  inOrder : exec ObjectLifetime.step [] history.actions = some []
  cleanups : ∀ cleanup ∈ history.cleanups, CleansUp numLocks cleanup.1 cleanup.2
  mutexBuf : history.locks.mutexBuf = none
  callbacks : history.locks.callbacks = .unset

def pairActions (numLocks address : Nat) : List (Action LockObject) :=
  .creates (.table address) :: (List.range numLocks).flatMap (initMutex address) ++
    (List.range numLocks).flatMap (destroyMutex address)

theorem setupsAndCleanups_eq (numLocks : Nat) (addresses : List Nat) :
    setupsAndCleanups numLocks addresses =
      { locks := .initial
        actions := addresses.flatMap (pairActions numLocks)
        cleanups := addresses.map fun address =>
          (address, (List.range numLocks).flatMap (destroyMutex address)) } := by
  induction addresses using List.reverseRecOn with
  | nil => rfl
  | append_singleton addresses address ih =>
      rw [setupsAndCleanups, List.foldl_append, ← setupsAndCleanups, ih]
      simp [setupAndCleanup, sslThreadSetup, sslThreadCleanup, pairActions, LockTable.initial]

theorem pairActions_one (address : Nat) :
    exec ObjectLifetime.step [] (pairActions 1 address) = some [] := by
  simp [pairActions, initMutex, destroyMutex, exec_cons, ObjectLifetime.step]

theorem undoesSetups_one (addresses : List Nat) :
    UndoesSetups 1 (setupsAndCleanups 1 addresses) := by
  rw [setupsAndCleanups_eq]
  constructor
  · induction addresses with
    | nil => rfl
    | cons address addresses ih =>
        rw [List.flatMap_cons, exec_append, pairActions_one]
        exact ih
  · intro cleanup member
    obtain ⟨address, _, rfl⟩ := List.mem_map.mp member
    constructor
    · intro index single
      obtain rfl : index = 0 := by omega
      simp [destroyMutex]
    · simp [destroyMutex]
    · rfl
  · rfl
  · rfl

theorem leaks_of_no_locks (address : Nat) (addresses : List Nat) :
    exec ObjectLifetime.step [] ((address :: addresses).flatMap (pairActions 0)) ≠ some [] := by
  intro run
  rw [List.flatMap_cons, exec_append] at run
  have kept : .destroys (.table address) ∉ addresses.flatMap (pairActions 0) := by
    simp [pairActions]
  have alive : LockObject.table address ∈ [LockObject.table address] := by simp
  exact absurd (mem_exec alive kept run) (by simp)

/-- With two locks or more, the second pass of the loop works in a table that the
first one has freed. -/
theorem misuse_of_two_locks (numLocks address : Nat) (rest : List (Action LockObject)) :
    exec ObjectLifetime.step [] (pairActions (numLocks + 2) address ++ rest) = none := by
  have split : ∃ before after, pairActions (numLocks + 2) address ++ rest =
      before ++ .destroys (.table address) :: .uses (.table address) :: after := by
    refine ⟨.creates (.table address) ::
        (List.range (numLocks + 2)).flatMap (initMutex address) ++
          [.uses (.table address), .destroys (.mutex ⟨address, 0⟩)],
      .destroys (.mutex ⟨address, 1⟩) :: .destroys (.table address) ::
        ((List.range numLocks).map (· + 2)).flatMap (destroyMutex address) ++ rest, ?_⟩
    simp [pairActions, List.range_succ_eq_map, destroyMutex, Function.comp_def]
  obtain ⟨before, after, split⟩ := split
  rw [split]
  exact exec_use_after_destroys List.nodup_nil _ before after

/-- The clean-ups undo the set-ups exactly if there are none, or if the table has
a single lock. -/
theorem cleanup_undoes_setup_iff (numLocks : Nat) (addresses : List Nat) :
    UndoesSetups numLocks (setupsAndCleanups numLocks addresses) ↔
      addresses = [] ∨ numLocks = 1 := by
  constructor
  · intro undoes
    have inOrder := undoes.inOrder
    rw [setupsAndCleanups_eq] at inOrder
    cases addresses with
    | nil => exact Or.inl rfl
    | cons address addresses =>
        right
        match numLocks with
        | 0 => exact absurd inOrder (leaks_of_no_locks address addresses)
        | 1 => rfl
        | numLocks + 2 =>
            rw [List.flatMap_cons, misuse_of_two_locks] at inOrder
            cases inOrder
  · rintro (rfl | rfl)
    · exact
        { inOrder := rfl
          cleanups := by simp [setupsAndCleanups]
          mutexBuf := rfl
          callbacks := rfl }
    · exact undoesSetups_one addresses

/-- Two locks: the table is freed in the first pass of the loop, and the second
one destroys a mutex in it and frees it again. -/
theorem cleanup_frees_table_twice :
    ¬ UndoesSetups 2 (setupsAndCleanups 2 [1]) ∧
      (setupsAndCleanups 2 [1]).actions.count (.destroys (.table 1)) = 2 := by
  refine ⟨fun undoes => ?_, by decide⟩
  exact absurd undoes.inOrder (by decide)

end TlsClient
