import TlsClient.Connect
import TlsClient.ReceiveMessage
import TlsClient.SendMessage

/-!
# Interrupted calls

An interrupted call is made again.  The loops of `receive` and of `connect` come
out of it as they went in, so what they return does not depend on interrupts;
the loop of `tls_connect` counts them.  The loop of `send_message` remembers them in
`err`, and looks at it again when the count of a successful `::send` is lost.
-/

namespace TlsClient

open EventDriven IndexedMemory

/-- A pass of `receive` that ends with a `continue` and has read nothing: `recv` was
interrupted, or would have blocked, and the wait was interrupted or found input. -/
def ReceiveCall.isWait (call : ReceiveCall) : Bool :=
  match call.recv.answer with
  | .received _ => false
  | .failed =>
      decide (call.recv.errno = some .EINTR) ||
        decide (call.recv.errno = some .EAGAIN) &&
          match call.poll.answer with
          | .failed => decide (call.poll.errno = some .EINTR)
          | .timedOut => false
          | .ready revents => revents.POLLIN

def readingCalls (calls : List ReceiveCall) : List ReceiveCall :=
  calls.filter fun call => !call.isWait

/-- The variables of `receive` that the next pass, or the caller, looks at. -/
structure SameProgress (first second : ReceiveLoop) : Prop where
  nLeft : first.nLeft = second.nLeft
  data : first.data = second.data
  buffer : first.buffer = second.buffer
  nread : first.nLeft = 0 → first.nread = second.nread

theorem sameProgress_refl (loop : ReceiveLoop) : SameProgress loop loop :=
  ⟨rfl, rfl, rfl, fun _ => rfl⟩

theorem receivePass_of_isWait (loop : ReceiveLoop) {call : ReceiveCall}
    (waits : call.isWait = true) :
    ∃ err, receivePass loop call = .again { loop with nread := -1, err := err } := by
  cases answer : call.recv.answer with
  | received bytes => simp [ReceiveCall.isWait, answer] at waits
  | failed =>
      rw [receivePass_of_failed loop answer]
      by_cases interrupted : call.recv.errno = some .EINTR
      · exact ⟨call.recv.errno, if_pos interrupted⟩
      simp only [ReceiveCall.isWait, answer, interrupted, decide_false, Bool.false_or,
        Bool.and_eq_true, decide_eq_true_eq] at waits
      obtain ⟨blocked, waited⟩ := waits
      rw [if_neg interrupted, if_pos blocked]
      cases polled : call.poll.answer with
      | failed =>
          simp only [polled, decide_eq_true_eq] at waited
          exact ⟨call.poll.errno, by simp only [receiveWait, polled, if_pos waited]⟩
      | timedOut => simp [polled] at waited
      | ready revents =>
          simp only [polled] at waited
          exact ⟨call.recv.errno, by simp only [receiveWait, polled, if_pos waited]⟩

/-- A pass that reads nothing sets `nread` and `err` anew, and one that reads does not
look at them. -/
theorem receivePass_alike {first second : ReceiveLoop} (same : SameProgress first second)
    (call : ReceiveCall) :
    Loop.AlikePass SameProgress (receivePass first call) (receivePass second call) := by
  obtain ⟨nLeft, data, nread, err, buffer⟩ := first
  obtain ⟨_, _, otherRead, otherErr, _⟩ := second
  obtain ⟨rfl, rfl, rfl, _⟩ := same
  by_cases nothing : call.recv.answer.value ≤ 0
  · have read : receiveFromSocket ⟨nLeft, data, nread, err, buffer⟩ call.recv =
        receiveFromSocket ⟨nLeft, data, otherRead, otherErr, buffer⟩ call.recv := by
      simp [receiveFromSocket, nothing]
    have passes : receivePass ⟨nLeft, data, nread, err, buffer⟩ call =
        receivePass ⟨nLeft, data, otherRead, otherErr, buffer⟩ call := by
      simp only [receivePass, read]
    rw [passes]
    exact Loop.alikePass_refl sameProgress_refl _
  · have advances : ∀ (nread : Int) (err : Option Errno),
        receivePass ⟨nLeft, data, nread, err, buffer⟩ call =
          .again (receiveAdvance (receiveFromSocket ⟨nLeft, data, nread, err, buffer⟩ call.recv)) :=
      fun nread err => if_neg nothing
    rw [advances, advances]
    exact ⟨rfl, rfl, rfl, fun _ => rfl⟩

theorem receive_stutters : receive.Stutters ReceiveCall.isWait SameProgress where
  refl := sameProgress_refl
  continues first second same := by
    change decide _ = decide _
    rw [same.nLeft]
  fallsOut first second same stops := by
    have none : first.nLeft = 0 := by simpa [receive] using stops
    change Ended.returned _ = Ended.returned _
    rw [same.nread none]
  stutter := by
    intro first second call same continues _ waits
    obtain ⟨err, again⟩ := receivePass_of_isWait first waits
    refine ⟨_, again, same.nLeft, same.data, same.buffer, fun none => ?_⟩
    have left : 0 < first.nLeft := by simpa [receive] using continues
    exact absurd none (by simpa using Nat.ne_of_gt left)
  step := by
    intro first second call same _ possible _
    refine ⟨?_, receivePass_alike same call⟩
    change receivePossible second call = true
    change receivePossible first call = true at possible
    simpa [receivePossible, same.nLeft] using possible

theorem receive_without_waits {loop : ReceiveLoop} {calls : List ReceiveCall}
    {control : Control ReceiveLoop (Ended Int)} (run : receive.run loop calls = some control) :
    ∃ other, receive.run loop (readingCalls calls) = some other ∧
      Loop.AlikeControl SameProgress control other :=
  receive_stutters.run run

/-- Two calls of `receive_message` that differ only in interrupts and successful waits
return the same value and leave the same bytes in the buffer. -/
theorem receiveMessage_ignores_waits {length : Int} {buffer : Int → UInt8}
    {firstCalls secondCalls : List ReceiveCall} {first second : ReceiveLoop}
    {firstResult secondResult : Ended Int}
    (same : readingCalls firstCalls = readingCalls secondCalls)
    (firstRun : receive.run (receiveEntry length buffer) firstCalls =
      some (.returned first firstResult))
    (secondRun : receive.run (receiveEntry length buffer) secondCalls =
      some (.returned second secondResult)) :
    receiveMessage firstResult = receiveMessage secondResult ∧ first.buffer = second.buffer := by
  obtain ⟨firstPlain, firstTaken, firstAlike⟩ := receive_without_waits firstRun
  obtain ⟨secondPlain, secondTaken, secondAlike⟩ := receive_without_waits secondRun
  rw [same, secondTaken] at firstTaken
  obtain rfl : secondPlain = firstPlain := Option.some.inj firstTaken
  cases secondPlain with
  | running plain => exact firstAlike.elim
  | returned plain result =>
      obtain ⟨firstSame, rfl⟩ := firstAlike
      obtain ⟨secondSame, rfl⟩ := secondAlike
      exact ⟨rfl, firstSame.buffer.trans secondSame.buffer.symm⟩

/-- A wait of `send_message` that ends with a `continue`. -/
def sendResumes (poll : Answered PollAnswer) : Bool :=
  match poll.answer with
  | .failed => decide (poll.errno = some .EINTR)
  | .timedOut => false
  | .ready revents => revents.POLLOUT || !(revents.POLLNVAL || revents.POLLERR || revents.POLLHUP)

/-- A pass of `send_message` that ends with a `continue` and has sent nothing. -/
def SendCall.isWait (call : SendCall) : Bool :=
  match call.send.answer with
  | .accepted _ => false
  | .failed =>
      decide (call.unspecified ≤ 0) &&
        (decide (call.send.errno = some .EINTR) ||
          decide (call.send.errno = some .EAGAIN) && sendResumes call.poll)

/-- `::send` has accepted bytes and the caller of `send_to_socket` finds no count: it
decides by the `err` of an earlier pass. -/
def SendCall.losesCount (call : SendCall) : Bool :=
  decide (0 < toInt call.send.answer.value) && decide (call.unspecified ≤ 0)

def sendingCalls (calls : List SendCall) : List SendCall :=
  calls.filter fun call => !call.isWait

/-- What the loop of `send_message` has left, apart from `err`, and what has been
accepted. -/
structure SameSends (first second : SendLoop) : Prop where
  nLeft : first.nLeft = second.nLeft
  offset : first.offset = second.offset
  accepted : acceptedPositions first.sends = acceptedPositions second.sends

theorem sendWait_of_resumes {poll : Answered PollAnswer} (resumes : sendResumes poll = true)
    (loop : SendLoop) : ∃ err, sendWait poll loop = .again { loop with err := err } := by
  cases answer : poll.answer with
  | failed =>
      simp only [sendResumes, answer, decide_eq_true_eq] at resumes
      exact ⟨poll.errno, by simp only [sendWait, answer, if_pos resumes]⟩
  | timedOut => simp [sendResumes, answer] at resumes
  | ready revents =>
      have resumed : sendWait poll loop = .again { loop with err := loop.err } := by
        cases output : revents.POLLOUT with
        | true => simp [sendWait, answer, output]
        | false =>
            simp only [sendResumes, answer, output, Bool.false_or, Bool.not_or, Bool.and_eq_true,
              Bool.not_eq_true'] at resumes
            simp [sendWait, answer, output, resumes.1.1, resumes.1.2, resumes.2]
      exact ⟨loop.err, resumed⟩

theorem sendWait_alike {first second : SendLoop} (same : SameSends first second)
    (poll : Answered PollAnswer) :
    Loop.AlikePass SameSends (sendWait poll first) (sendWait poll second) := by
  have kept (err : Option Errno) :
      SameSends { first with err := err } { second with err := err } :=
    ⟨same.nLeft, same.offset, same.accepted⟩
  unfold sendWait
  cases poll.answer with
  | failed =>
      by_cases interrupted : poll.errno = some .EINTR
      · simp only [if_pos interrupted]
        exact kept poll.errno
      · simp only [if_neg interrupted]
        exact ⟨kept poll.errno, rfl⟩
  | timedOut => exact ⟨same, rfl⟩
  | ready revents =>
      dsimp only
      cases revents.POLLOUT with
      | true => exact same
      | false =>
          cases revents.POLLNVAL with
          | true => exact ⟨same, rfl⟩
          | false =>
              cases revents.POLLERR with
              | true => exact ⟨same, rfl⟩
              | false =>
                  cases revents.POLLHUP with
                  | true => exact ⟨same, rfl⟩
                  | false => exact same

theorem sendPass_of_isWait (loop : SendLoop) {call : SendCall} (waits : call.isWait = true) :
    ∃ err, sendPass loop call =
      .again { loop with err := err, sends := loop.sends ++ [sendRecord loop call] } := by
  cases answer : call.send.answer with
  | accepted count => simp [SendCall.isWait, answer] at waits
  | failed =>
      simp only [SendCall.isWait, answer, Bool.and_eq_true, decide_eq_true_eq,
        Bool.or_eq_true] at waits
      obtain ⟨nothing, waited⟩ := waits
      have passed : sendPass loop call =
          let sent : SendLoop :=
            { loop with
              err := call.send.errno, sends := loop.sends ++ [sendRecord loop call] }
          if call.send.errno = some .EINTR then .again sent
          else if call.send.errno = some .EAGAIN then sendWait call.poll sent
          else .done sent false := by
        have failed : toInt (-1) ≤ 0 := by decide
        simp [sendPass, sendToSocket, answer, SendAnswer.value, nothing, failed]
      rw [passed]
      by_cases interrupted : call.send.errno = some .EINTR
      · exact ⟨call.send.errno, if_pos interrupted⟩
      · obtain ⟨blocked, resumes⟩ := waited.resolve_left interrupted
        obtain ⟨err, again⟩ := sendWait_of_resumes resumes
          { loop with err := call.send.errno, sends := loop.sends ++ [sendRecord loop call] }
        exact ⟨err, by simp only [if_neg interrupted, if_pos blocked, again]⟩

/-- A pass that looks at `err` has set it, unless a count is lost. -/
theorem sendPass_alike {first second : SendLoop} (same : SameSends first second)
    {call : SendCall} (keeps : call.losesCount = false) :
    Loop.AlikePass SameSends (sendPass first call) (sendPass second call) := by
  have record : sendRecord first call = sendRecord second call := by
    simp only [sendRecord, same.nLeft, same.offset]
  have accepted : acceptedPositions (first.sends ++ [sendRecord first call]) =
      acceptedPositions (second.sends ++ [sendRecord second call]) := by
    rw [acceptedPositions_append, acceptedPositions_append, same.accepted, record]
  by_cases nothing : call.unspecified ≤ 0
  · have failed : toInt call.send.answer.value ≤ 0 := by
      simpa [SendCall.losesCount, nothing] using keeps
    simp only [sendPass, sendToSocket, if_pos nothing, if_pos failed]
    have sent : SameSends
        { first with
          err := call.send.errno, sends := first.sends ++ [sendRecord first call] }
        { second with
          err := call.send.errno, sends := second.sends ++ [sendRecord second call] } :=
      ⟨same.nLeft, same.offset, accepted⟩
    by_cases interrupted : call.send.errno = some .EINTR
    · simp only [if_pos interrupted]
      exact sent
    · simp only [if_neg interrupted]
      by_cases blocked : call.send.errno = some .EAGAIN
      · simp only [if_pos blocked]
        exact sendWait_alike sent call.poll
      · simp only [if_neg blocked]
        exact ⟨sent, rfl⟩
  · have advances (loop : SendLoop) : sendPass loop call = .again
        { nLeft := loop.nLeft - call.unspecified
          offset := loop.offset + call.unspecified.toNat
          err := (sendToSocket call loop.err).2
          sends := loop.sends ++ [sendRecord loop call] } := if_neg nothing
    rw [advances, advances]
    exact ⟨by rw [same.nLeft], by rw [same.offset], accepted⟩

theorem sendMessage_stutters :
    (sendMessage.restrict fun call => !call.losesCount).Stutters SendCall.isWait SameSends where
  refl _ := ⟨rfl, rfl, rfl⟩
  continues first second same := by
    change decide _ = decide _
    rw [same.nLeft]
  fallsOut _ _ _ _ := rfl
  stutter := by
    intro first second call same _ _ waits
    obtain ⟨err, again⟩ := sendPass_of_isWait first waits
    refine ⟨_, again, same.nLeft, same.offset, ?_⟩
    have nothing : (sendRecord first call).accepted = 0 := by
      cases answer : call.send.answer with
      | accepted count => simp [SendCall.isWait, answer] at waits
      | failed => simp [sendRecord, answer, SendAnswer.taken]
    simp only [acceptedPositions_append, acceptedPositions_singleton, nothing, List.range'_zero,
      List.append_nil]
    exact same.accepted
  step := by
    intro first second call same _ possible _
    change (sendPossible first call && !call.losesCount) = true at possible
    obtain ⟨asked, keeps⟩ := Bool.and_eq_true_iff.mp possible
    constructor
    · change (sendPossible second call && !call.losesCount) = true
      rw [keeps, Bool.and_true]
      simpa only [sendPossible, same.nLeft] using asked
    · exact sendPass_alike same (by simpa using keeps)

theorem send_without_waits {loop : SendLoop} {calls : List SendCall}
    {control : Control SendLoop Bool} (keeps : ∀ call ∈ calls, call.losesCount = false)
    (run : sendMessage.run loop calls = some control) :
    ∃ other, sendMessage.run loop (sendingCalls calls) = some other ∧
      Loop.AlikeControl SameSends control other := by
  have allowed : ∀ call ∈ calls, (!call.losesCount) = true := by
    intro call member
    rw [keeps call member]
    rfl
  rw [← Loop.run_restrict allowed] at run
  obtain ⟨other, taken, alike⟩ := sendMessage_stutters.run run
  have fewer : ∀ call ∈ sendingCalls calls, (!call.losesCount) = true :=
    fun call member => allowed call (List.mem_of_mem_filter member)
  exact ⟨other, (Loop.run_restrict fewer loop).symm.trans taken, alike⟩

/-- Unless the count of a successful `::send` is lost, two calls of `send_message` that
differ only in interrupts and successful waits return the same value and have the same
bytes accepted. -/
theorem sendMessage_ignores_waits {length : Int} {firstCalls secondCalls : List SendCall}
    {first second : SendLoop} {firstResult secondResult : Bool}
    (keeps : ∀ call ∈ firstCalls ++ secondCalls, call.losesCount = false)
    (same : sendingCalls firstCalls = sendingCalls secondCalls)
    (firstRun : sendMessage.run (sendEntry length) firstCalls =
      some (.returned first firstResult))
    (secondRun : sendMessage.run (sendEntry length) secondCalls =
      some (.returned second secondResult)) :
    firstResult = secondResult ∧
      acceptedPositions first.sends = acceptedPositions second.sends := by
  obtain ⟨firstPlain, firstTaken, firstAlike⟩ := send_without_waits
    (fun call member => keeps call (List.mem_append_left _ member)) firstRun
  obtain ⟨secondPlain, secondTaken, secondAlike⟩ := send_without_waits
    (fun call member => keeps call (List.mem_append_right _ member)) secondRun
  rw [same, secondTaken] at firstTaken
  obtain rfl : secondPlain = firstPlain := Option.some.inj firstTaken
  cases secondPlain with
  | running plain => exact firstAlike.elim
  | returned plain result =>
      obtain ⟨firstSame, rfl⟩ := firstAlike
      obtain ⟨secondSame, rfl⟩ := secondAlike
      exact ⟨rfl, firstSame.accepted.trans secondSame.accepted.symm⟩

def interruptedThenBlockedSend : List SendCall :=
  [⟨⟨.failed, some .EINTR⟩, -1, ⟨.timedOut, none⟩⟩,
    ⟨⟨.failed, some .EAGAIN⟩, -1, ⟨.ready { POLLOUT := true }, none⟩⟩]

/-- Two bytes are accepted, and `found` is the count the loop goes on with. -/
def twoBytesSent (found : Int) : SendCall :=
  ⟨⟨.accepted 2, none⟩, found, ⟨.timedOut, none⟩⟩

theorem sendMessage_ignores_waits_two :
    ∃ first second firstResult secondResult,
      sendMessage.run (sendEntry 2) (interruptedThenBlockedSend ++ [twoBytesSent 2]) =
        some (.returned first firstResult) ∧
      sendMessage.run (sendEntry 2) [twoBytesSent 2] = some (.returned second secondResult) ∧
      firstResult = secondResult ∧
        acceptedPositions first.sends = acceptedPositions second.sends :=
  ⟨_, _, _, _, rfl, rfl, @sendMessage_ignores_waits 2
    (interruptedThenBlockedSend ++ [twoBytesSent 2]) [twoBytesSent 2] _ _ _ _
    (by decide) (by decide) rfl rfl⟩

-- With the count lost, the message is given up, or sent again for an earlier interrupt.
example :
    (∃ final, sendMessage.run (sendEntry 2) [twoBytesSent 0] = some (.returned final false)) ∧
      ∃ loop, sendMessage.run (sendEntry 2)
        [⟨⟨.failed, some .EINTR⟩, -1, ⟨.timedOut, none⟩⟩, twoBytesSent 0] =
          some (.running loop) :=
  ⟨⟨_, rfl⟩, _, rfl⟩

/-- The wait of `poll` was interrupted, or the connect is reported to be still under
way. -/
def ConnectEvent.isInterrupt : ConnectEvent → Bool
  | .polls ⟨.failed, errno⟩ =>
      decide (errno = some .EINTR ∨ errno = some .EINPROGRESS ∨ errno = some .EALREADY)
  | _ => false

theorem connect_stutters (report : ErrorReport) :
    (connect report).Stutters ConnectEvent.isInterrupt Eq := by
  apply Loop.stutters_of_again
  intro loop event _ _ interrupted
  cases event with
  | settles error => cases interrupted
  | polls poll =>
      obtain ⟨answer, errno⟩ := poll
      cases answer with
      | failed =>
          have retries := of_decide_eq_true interrupted
          change connectPass report loop (.polls ⟨.failed, errno⟩) = .again loop
          simp only [connectPass, pollTurn, if_pos retries]
      | timedOut => cases interrupted
      | ready revents => cases interrupted

/-- No number of interrupts changes what `connect` returns, or uses up one of its
three attempts. -/
theorem connect_ignores_interrupts {report : ErrorReport} {start : ConnectLoop}
    {events : List ConnectEvent} {control : Control ConnectLoop Bool}
    (run : (connect report).run start events = some control) :
    (connect report).run start (events.filter fun event => !event.isInterrupt) =
      some control := by
  obtain ⟨other, taken, alike⟩ := (connect_stutters report).run run
  rw [taken, Loop.eq_of_alikeControl alike]

def twoBytes : ReceiveCall :=
  ⟨⟨.received [1, 2], none⟩, ⟨.timedOut, none⟩⟩

def interruptedThenBlocked : List ReceiveCall :=
  [⟨⟨.failed, some .EINTR⟩, ⟨.timedOut, none⟩⟩,
    ⟨⟨.failed, some .EAGAIN⟩, ⟨.ready { POLLIN := true }, none⟩⟩]

theorem receiveMessage_ignores_waits_two :
    ∃ first second firstResult secondResult,
      receive.run (receiveEntry 2 fun _ => 0) (interruptedThenBlocked ++ [twoBytes]) =
        some (.returned first firstResult) ∧
      receive.run (receiveEntry 2 fun _ => 0) [twoBytes] =
        some (.returned second secondResult) ∧
      receiveMessage firstResult = receiveMessage secondResult ∧
        first.buffer = second.buffer :=
  ⟨_, _, _, _, rfl, rfl, @receiveMessage_ignores_waits 2 (fun _ => 0)
    (interruptedThenBlocked ++ [twoBytes]) [twoBytes] _ _ _ _ (by decide) rfl rfl⟩

theorem connect_ignores_interrupts_one :
    (connect .byArgument).run ⟨0, .established⟩
        ([.polls ⟨.failed, some .EINTR⟩, .polls ⟨.ready { POLLOUT := true }, none⟩].filter
          fun event => !event.isInterrupt) =
      some (.returned ⟨0, .established⟩ true) :=
  @connect_ignores_interrupts .byArgument ⟨0, .established⟩
    [.polls ⟨.failed, some .EINTR⟩, .polls ⟨.ready { POLLOUT := true }, none⟩]
    (.returned ⟨0, .established⟩ true) (by decide)

end TlsClient
