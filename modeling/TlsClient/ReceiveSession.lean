import TlsClient.ReceiveMessage

/-!
# Successive calls of `receive_message` on one socket

A receiver calls `receive_message` again and again, whether or not the previous
call succeeded.  The session below keeps the position the socket has reached in
the peer's stream.  A call that fails has its part of the stream in a buffer
that is given up, so the account of the stream has two kinds of entries.
-/

namespace TlsClient

open EventDriven IndexedMemory

/-- A call of `receive_message` that has returned.  `buffer` is what stands in
the first `length` cells of its buffer. -/
structure CallRecord where
  length : Nat
  taken : List UInt8
  succeeded : Bool
  buffer : List UInt8
  deriving DecidableEq, Repr

structure CallInProgress where
  length : Nat
  taken : List UInt8
  loop : ReceiveLoop

structure ReceiveSession where
  position : Nat
  current : Option CallInProgress
  finished : List CallRecord

inductive SessionEvent
  | calls (length : Nat) (buffer : Int → UInt8)
  | passes (call : ReceiveCall)

def openSession : ReceiveSession where
  position := 0
  current := none
  finished := []

/-- The state after a pass of the call in progress.  A call that runs into
`exit` (the peer has closed, or `recv` reports a hard error) ends the process
and has no successor here. -/
def afterPass (session : ReceiveSession) (current : CallInProgress) (bytes : List UInt8) :
    Control ReceiveLoop (Ended Int) → Option ReceiveSession
  | .running loop => some
      { session with
        position := session.position + bytes.length
        current := some { current with taken := current.taken ++ bytes, loop := loop } }
  | .returned final ended =>
      match receiveMessage ended with
      | .returned succeeded => some
          { position := session.position + bytes.length
            current := none
            finished := session.finished ++
              [{ length := current.length
                 taken := current.taken ++ bytes
                 succeeded := succeeded
                 buffer := load final.buffer 0 current.length }] }
      | .exited => none

/-- One event of the receiver.  `recv` returns the next bytes of the stream. -/
def sessionStep (stream : List UInt8) (session : ReceiveSession) :
    SessionEvent → Option ReceiveSession
  | .calls length buffer =>
      match session.current with
      | none =>
          if 0 < length ∧ length < 2 ^ 63 then
            some { session with current := some ⟨length, [], receiveEntry length buffer⟩ }
          else none
      | some _ => none
  | .passes call =>
      match session.current with
      | none => none
      | some current =>
          if call.recv.answer.bytes.isPrefixOf (stream.drop session.position) then
            (receive.step (.running current.loop) call).bind
              (afterPass session current call.recv.answer.bytes)
          else none

/-- What the caller gets from the calls that return `true`, in call order. -/
def deliveredBytes (finished : List CallRecord) : List UInt8 :=
  (finished.filter fun record => record.succeeded).flatMap fun record => record.buffer

/-- A call that succeeds hands over what it took, and a call that fails has
taken less than it was asked for. -/
def CallRecord.Accounted (record : CallRecord) : Prop :=
  if record.succeeded then record.buffer = record.taken ∧ record.taken.length = record.length
  else record.taken.length < record.length

def ReceiveSession.inProgress (session : ReceiveSession) : List UInt8 :=
  match session.current with
  | none => []
  | some current => current.taken

/-- The session invariant, when `popped` has been taken off the socket. -/
structure SessionInvariant (popped : List UInt8) (session : ReceiveSession) : Prop where
  account : (session.finished.flatMap fun record => record.taken) ++ session.inProgress = popped
  finished : ∀ record ∈ session.finished, record.Accounted
  current : ∀ current, session.current = some current →
    current.length < 2 ^ 63 ∧ receive.continues current.loop = true ∧
      Filled current.length current.taken current.loop

theorem sessionInvariant_openSession : SessionInvariant [] openSession where
  account := rfl
  finished := by simp [openSession]
  current := by simp [openSession]

theorem take_append_of_prefix_drop {stream bytes : List UInt8} {position : Nat}
    (next : bytes <+: stream.drop position) :
    stream.take position ++ bytes = stream.take (position + bytes.length) := by
  rw [List.take_add, List.prefix_iff_eq_take.mp next, List.length_take]
  congr 1
  rw [List.take_eq_take_iff]
  omega

theorem accounted_of_receiveEnds {length : Nat} {taken : List UInt8}
    {final : ReceiveLoop} {ended : Ended Int} {succeeded : Bool}
    (ends : ReceiveEnds length taken final ended)
    (returns : receiveMessage ended = .returned succeeded) :
    CallRecord.Accounted ⟨length, taken, succeeded, load final.buffer 0 length⟩ := by
  cases ended with
  | exited => simp [receiveMessage] at returns
  | returned value =>
      obtain rfl : decide (value > 0) = succeeded := by simpa [receiveMessage] using returns
      rcases ends with ⟨rfl, short⟩ | ⟨positive, whole, contents⟩
      · simpa [CallRecord.Accounted] using short
      · simp [CallRecord.Accounted, positive, contents, whole]

theorem sessionInvariant_calls {popped : List UInt8} {session : ReceiveSession}
    {length : Nat} {buffer : Int → UInt8} (holds : SessionInvariant popped session)
    (idle : session.current = none) (positive : 0 < length) (fits : length < 2 ^ 63) :
    SessionInvariant popped
      { session with current := some ⟨length, [], receiveEntry length buffer⟩ } := by
  have filled := filled_receiveEntry positive (by omega) buffer
  have whole : (receiveEntry length buffer).nLeft = length := by simpa using filled.remaining
  constructor
  · simpa [ReceiveSession.inProgress, idle] using holds.account
  · exact holds.finished
  · rintro _ ⟨⟩
    exact ⟨fits, by simpa [receive, whole] using positive, filled⟩

theorem sessionInvariant_passes {popped : List UInt8} {session next : ReceiveSession}
    {current : CallInProgress} {call : ReceiveCall}
    (holds : SessionInvariant popped session) (calling : session.current = some current)
    (possible : receivePossible current.loop call = true)
    (moved : afterPass session current call.recv.answer.bytes
      (receive.afterPass (receivePass current.loop call)) = some next) :
    SessionInvariant (popped ++ call.recv.answer.bytes) next := by
  obtain ⟨fits, continues, filled⟩ := holds.current current calling
  have account : (session.finished.flatMap fun record => record.taken) ++
      (current.taken ++ call.recv.answer.bytes) = popped ++ call.recv.answer.bytes := by
    rw [← List.append_assoc, ← holds.account]
    simp [ReceiveSession.inProgress, calling]
  have satisfied := receive_afterPass (by omega) filled continues possible
  cases control : receive.afterPass (receivePass current.loop call) with
  | running loop =>
      rw [control] at moved satisfied
      obtain rfl := Option.some.inj moved
      exact
        { account := account
          finished := holds.finished
          current := by
            rintro _ ⟨⟩
            exact ⟨fits, satisfied⟩ }
  | returned final ended =>
      rw [control] at moved satisfied
      cases returns : receiveMessage ended with
      | exited => simp [afterPass, returns] at moved
      | returned succeeded =>
          simp only [afterPass, returns, Option.some.injEq] at moved
          subst next
          constructor
          · simpa [ReceiveSession.inProgress] using account
          · intro record member
            rcases List.mem_append.mp member with old | new
            · exact holds.finished record old
            · obtain rfl := List.mem_singleton.mp new
              exact accounted_of_receiveEnds satisfied returns
          · simp

theorem afterPass_position {session next : ReceiveSession} {current : CallInProgress}
    {bytes : List UInt8} {control : Control ReceiveLoop (Ended Int)}
    (moved : afterPass session current bytes control = some next) :
    next.position = session.position + bytes.length := by
  cases control with
  | running loop =>
      obtain rfl := Option.some.inj moved
      rfl
  | returned final ended =>
      cases returns : receiveMessage ended with
      | exited => simp [afterPass, returns] at moved
      | returned succeeded =>
          simp only [afterPass, returns, Option.some.injEq] at moved
          subst next
          rfl

theorem sessionInvariant_step {stream : List UInt8} {session next : ReceiveSession}
    {event : SessionEvent}
    (holds : SessionInvariant (stream.take session.position) session)
    (moved : sessionStep stream session event = some next) :
    SessionInvariant (stream.take next.position) next := by
  cases event with
  | calls length buffer =>
      cases calling : session.current with
      | some current => simp [sessionStep, calling] at moved
      | none =>
          simp only [sessionStep, calling, Option.ite_none_right_eq_some,
            Option.some.injEq] at moved
          obtain ⟨⟨positive, fits⟩, rfl⟩ := moved
          exact sessionInvariant_calls holds calling positive fits
  | passes call =>
      cases calling : session.current with
      | none => simp [sessionStep, calling] at moved
      | some current =>
          simp only [sessionStep, calling, Option.ite_none_right_eq_some] at moved
          obtain ⟨arrives, moved⟩ := moved
          obtain ⟨control, stepped, moved⟩ := Option.bind_eq_some_iff.mp moved
          obtain ⟨_, ⟨⟩, possible, rfl⟩ := Loop.step_eq_some stepped
          rw [afterPass_position moved,
            ← take_append_of_prefix_drop (List.isPrefixOf_iff_prefix.mp arrives)]
          exact sessionInvariant_passes holds calling possible moved

theorem deliveredBytes_eq_taken {finished : List CallRecord}
    (handed : ∀ record ∈ finished, record.succeeded = true → record.buffer = record.taken)
    (untouched : ∀ record ∈ finished, record.succeeded = false → record.taken = []) :
    deliveredBytes finished = finished.flatMap fun record => record.taken := by
  induction finished with
  | nil => rfl
  | cons record finished ih =>
      have tail := ih (fun other member => handed other (by simp [member]))
        (fun other member => untouched other (by simp [member]))
      rw [deliveredBytes] at tail ⊢
      cases success : record.succeeded with
      | true => simp [success, tail, handed record (by simp) success]
      | false => simp [success, tail, untouched record (by simp) success]

/-- Along every session the stream taken off the socket is, in call order, the
buffers of the calls that return `true` and the parts of messages that calls
returning `false` have taken.  Only these parts are missing between the
buffers. -/
theorem receiveMessage_accounts_for_stream (stream : List UInt8)
    (events : List SessionEvent) (final : ReceiveSession)
    (run : exec (sessionStep stream) openSession events = some final) :
    (final.finished.flatMap fun record => record.taken) ++ final.inProgress =
        stream.take final.position ∧
      (∀ record ∈ final.finished, record.succeeded = true →
        record.buffer = record.taken ∧ record.taken.length = record.length) ∧
      (∀ record ∈ final.finished, record.succeeded = false →
        record.taken.length < record.length) ∧
      ((∀ record ∈ final.finished, record.succeeded = false → record.taken = []) →
        deliveredBytes final.finished <+: stream) := by
  have start : SessionInvariant (stream.take openSession.position) openSession :=
    sessionInvariant_openSession
  have holds : SessionInvariant (stream.take final.position) final := by
    apply exec_invariant (fun session => SessionInvariant (stream.take session.position) session)
      start _ run
    intro session event next holds moved
    exact sessionInvariant_step holds moved
  have succeeded : ∀ record ∈ final.finished, record.succeeded = true →
      record.buffer = record.taken ∧ record.taken.length = record.length := by
    intro record member success
    simpa [CallRecord.Accounted, success] using holds.finished record member
  refine ⟨holds.account, succeeded, ?_, ?_⟩
  · intro record member failure
    simpa [CallRecord.Accounted, failure] using holds.finished record member
  · intro untouched
    have delivered : deliveredBytes final.finished =
        final.finished.flatMap fun record => record.taken :=
      deliveredBytes_eq_taken (fun record member success => (succeeded record member success).1)
        untouched
    rw [delivered]
    exact (List.prefix_append _ _).trans (holds.account ▸ List.take_prefix _ _)

/-- Two calls for two bytes each: the first takes one byte and times out, the
second takes the next two. -/
def interruptedSession : List SessionEvent :=
  [.calls 2 fun _ => 0,
    .passes ⟨⟨.received [1], none⟩, ⟨.timedOut, none⟩⟩,
    .passes ⟨⟨.failed, some .EAGAIN⟩, ⟨.timedOut, none⟩⟩,
    .calls 2 fun _ => 0,
    .passes ⟨⟨.received [2, 3], none⟩, ⟨.timedOut, none⟩⟩]

theorem receiveMessage_drops_partial_message :
    ∃ final, exec (sessionStep [1, 2, 3, 4]) openSession interruptedSession = some final ∧
      ¬ deliveredBytes final.finished <+: [1, 2, 3, 4] := by
  exact ⟨_, rfl, by decide⟩

theorem receiveMessage_accounts_for_interruptedSession :
    ∃ final, exec (sessionStep [1, 2, 3, 4]) openSession interruptedSession = some final ∧
      (final.finished.flatMap fun record => record.taken) ++ final.inProgress =
        [1, 2, 3, 4].take final.position :=
  ⟨_, rfl, (receiveMessage_accounts_for_stream [1, 2, 3, 4] interruptedSession _ rfl).1⟩

end TlsClient
