import TlsClient.BoundedRuns
import TlsClient.ClientProcess
import TlsClient.Interruptions
import TlsClient.SendDelivery

/-!
# Loops that return

None of the loops has a limit on its waits.  Each of them has a rank that its other
passes lower, so only an environment that keeps it waiting for ever can keep it from
returning.
-/

namespace TlsClient

open EventDriven IndexedMemory

theorem toSize_le (value : Nat) : toSize value ≤ value := by
  unfold toSize
  omega

theorem receivePass_waits {loop next : ReceiveLoop} {call : ReceiveCall}
    (failed : call.recv.answer = .failed) (possible : receivePossible loop call = true)
    (again : receivePass loop call = .again next) : call.isWait = true := by
  rw [receivePass_of_failed loop failed] at again
  simp only [ReceiveCall.isWait, failed, Bool.or_eq_true, Bool.and_eq_true, decide_eq_true_eq]
  by_cases interrupted : call.recv.errno = some .EINTR
  · exact Or.inl interrupted
  right
  rw [if_neg interrupted] at again
  by_cases blocked : call.recv.errno = some .EAGAIN
  · refine ⟨blocked, ?_⟩
    simp only [receivePossible, Bool.and_eq_true] at possible
    rw [if_pos blocked, receiveWait] at again
    cases polled : call.poll.answer with
    | failed =>
        simp only [polled] at again
        by_cases retries : call.poll.errno = some .EINTR
        · simpa using retries
        · simp [retries, receiveBreak] at again
    | timedOut => simp [polled, receiveBreak] at again
    | ready revents =>
        simp only [polled, ite_reportsError] at possible again
        by_cases readable : revents.POLLIN = true
        · exact readable
        · have error : revents.reportsError = true := by
            simpa [Revents.reportsInput, Revents.reportsError, readable, or_comm, or_left_comm]
              using possible.2
          rw [if_neg readable, if_pos error] at again
          cases again
  · rw [if_neg blocked] at again
    cases again

theorem nLeft_of_again {loop next : ReceiveLoop} {call : ReceiveCall}
    (possible : receivePossible loop call = true)
    (again : receivePass loop call = .again next) :
    next.nLeft = loop.nLeft ∧ call.isWait = true ∨ next.nLeft < loop.nLeft := by
  rcases receivePass_cases possible with ⟨failed, err, waits | breaks⟩ | ⟨final, exits⟩ |
    ⟨nonempty, room, advances⟩
  · left
    have waited := receivePass_waits failed possible again
    rw [waits] at again
    cases again
    exact ⟨rfl, waited⟩
  · rw [breaks] at again
    cases again
  · rw [exits] at again
    cases again
  · right
    rw [advances] at again
    cases again
    have positive := List.length_pos_of_ne_nil nonempty
    have reduced := toSize_le (loop.nLeft - call.recv.answer.bytes.length)
    rw [Int.ofNat_sub room] at reduced
    change toSize ((loop.nLeft : Int) - call.recv.answer.bytes.length) < loop.nLeft
    omega

theorem receive_variant : receive.Variant ReceiveCall.isWait ReceiveLoop.nLeft where
  positive loop continues := by simpa [receive] using continues
  waits loop call next _ possible again := by
    rcases nLeft_of_again possible again with ⟨same, _⟩ | less
    · exact Nat.le_of_eq same
    · exact Nat.le_of_lt less
  spends loop call next _ possible again works := by
    rcases nLeft_of_again possible again with ⟨_, waited⟩ | less
    · rw [works] at waited
      cases waited
    · exact less

/-- `receive` is totally correct where its peer does not keep it waiting for ever: it
ends as it should, behind at most one reading pass for each byte of the buffer. -/
theorem receive_ends {length : Nat} (positive : 0 < length) (fits : length < 2 ^ 64)
    {buffer : Int → UInt8} {answers : Stream' ReceiveCall}
    (served : receive.Served (receiveEntry length buffer) answers)
    (busy : NeverOnlyIdle ReceiveCall.isWait answers) :
    ∃ passes final ended,
      receive.run (receiveEntry length buffer) (answers.take passes) =
          some (.returned final ended) ∧
        ReceiveEnds length (takenBytes (answers.take passes)) final ended ∧
        busyCount ReceiveCall.isWait (answers.take passes) ≤ length := by
  obtain ⟨passes, final, ended, run⟩ := receive_variant.returns served busy
  have ends := receive_satisfies positive fits run
  have bounded := receive_variant.bounds run
  have whole : (receiveEntry length buffer).nLeft = length := toSize_of_lt fits
  rw [whole] at bounded
  exact ⟨passes, final, ended, run, ends, Nat.le_of_add_right_le bounded⟩

/-- Every second `::recv` is interrupted, and the others read one byte. -/
def interruptedReads : Stream' ReceiveCall :=
  alternating ⟨⟨.failed, some .EINTR⟩, ⟨.timedOut, none⟩⟩
    ⟨⟨.received [1], none⟩, ⟨.timedOut, none⟩⟩

theorem receive_ends_interrupted :
    ∃ passes final ended,
      receive.run (receiveEntry 2 fun _ => 0) (interruptedReads.take passes) =
          some (.returned final ended) ∧
        ReceiveEnds 2 (takenBytes (interruptedReads.take passes)) final ended ∧
        busyCount ReceiveCall.isWait (interruptedReads.take passes) ≤ 2 := by
  apply @receive_ends 2 (by decide) (by decide) (fun _ => 0) interruptedReads
  · intro passes state run
    match passes with
    | 0 | 1 | 2 | 3 => cases run; rfl
    | 4 | passes + 5 => cases run
  · exact neverOnlyIdle_alternating rfl

/-- The caller of `send_to_socket` finds no count to advance by. -/
def SendCall.findsNothing (call : SendCall) : Bool :=
  decide (call.unspecified ≤ 0)

theorem sendMessage_variant :
    sendMessage.Variant SendCall.findsNothing fun loop => loop.nLeft.toNat where
  positive loop continues := by
    simp only [sendMessage, decide_eq_true_eq] at continues
    omega
  waits loop call next _ _ again := by
    change sendPass loop call = .again next at again
    rcases sendPass_cases loop call with ⟨_, err, goes | ends⟩ | ⟨_, goes⟩
    · rw [goes] at again
      cases again
      exact Nat.le_refl _
    · rw [ends] at again
      cases again
    · rw [goes] at again
      cases again
      simp only
      omega
  spends loop call next continues _ again works := by
    change sendPass loop call = .again next at again
    simp only [sendMessage, decide_eq_true_eq] at continues
    simp only [SendCall.findsNothing, decide_eq_false_iff_not] at works
    rcases sendPass_cases loop call with ⟨nonpositive, _⟩ | ⟨_, goes⟩
    · exact absurd nonpositive works
    · rw [goes] at again
      cases again
      simp only
      omega

/-- `send_message` returns, unless from some point on it never finds a count again,
and it advances at most once for each byte of the message. -/
theorem sendMessage_ends {length : Nat} {answers : Stream' SendCall}
    (served : sendMessage.Served (sendEntry length) answers)
    (busy : NeverOnlyIdle SendCall.findsNothing answers) :
    ∃ passes final result,
      sendMessage.run (sendEntry length) (answers.take passes) = some (.returned final result) ∧
        busyCount SendCall.findsNothing (answers.take passes) ≤ length ∧
        (length < 2 ^ 31 → (∀ call ∈ answers.take passes, call.Agrees) →
          Delivered length final result) := by
  obtain ⟨passes, final, result, run⟩ := sendMessage_variant.returns served busy
  have bounded := sendMessage_variant.bounds run
  exact ⟨passes, final, result, run, Nat.le_of_add_right_le bounded,
    fun fits => delivered_of_agrees fits run⟩

def sentByte : SendCall :=
  ⟨⟨.accepted 1, none⟩, 1, ⟨.timedOut, none⟩⟩

/-- Every second `::send` finds the socket's buffer full, and the others send one
byte. -/
def blockedSends : Stream' SendCall :=
  alternating ⟨⟨.failed, some .EAGAIN⟩, -1, ⟨.ready { POLLOUT := true }, none⟩⟩ sentByte

theorem sendMessage_ends_blocked :
    ∃ passes final result,
      sendMessage.run (sendEntry 2) (blockedSends.take passes) =
          some (.returned final result) ∧
        busyCount SendCall.findsNothing (blockedSends.take passes) ≤ 2 ∧
        (2 < 2 ^ 31 → (∀ call ∈ blockedSends.take passes, call.Agrees) →
          Delivered 2 final result) := by
  apply @sendMessage_ends 2 blockedSends
  · intro passes state run
    match passes with
    | 0 | 1 | 2 | 3 => cases run; rfl
    | 4 | passes + 5 => cases run
  · exact neverOnlyIdle_alternating rfl

def ConnectLoop.rank (loop : ConnectLoop) : Nat :=
  3 - loop.i + if loop.connection = .inProgress then 1 else 0

theorem getsockopt_inProgress (report : ErrorReport) (connection : Connection) :
    (getsockopt report connection).2 = .inProgress ↔ connection = .inProgress := by
  cases connection with
  | inProgress => rfl
  | established => rfl
  | failed pending =>
      cases pending with
      | none => rfl
      | some pending => cases report <;> simp [getsockopt]

theorem pollTurn_cases (report : ErrorReport) (connection : Connection)
    (poll : Answered PollAnswer) :
    (pollTurn report connection poll = .again connection ∧
      (ConnectEvent.polls poll).isInterrupt = true) ∨
    ∃ after ret, pollTurn report connection poll = .done after ret ∧
      (after = .inProgress ↔ connection = .inProgress) := by
  obtain ⟨answer, errno⟩ := poll
  cases answer with
  | failed =>
      by_cases retries : errno = some .EINTR ∨ errno = some .EINPROGRESS ∨ errno = some .EALREADY
      · exact Or.inl ⟨if_pos retries, decide_eq_true retries⟩
      · exact Or.inr ⟨connection, false, if_neg retries, Iff.rfl⟩
  | timedOut => exact Or.inr ⟨connection, false, rfl, Iff.rfl⟩
  | ready revents =>
      right
      by_cases ready : (revents.POLLOUT || revents.POLLIN) = true
      · exact ⟨_, _, if_pos ready, getsockopt_inProgress report connection⟩
      · simp only [pollTurn, if_neg ready, ite_reportsError]
        cases revents.reportsError with
        | true => exact ⟨connection, false, rfl, Iff.rfl⟩
        | false => exact ⟨connection, true, rfl, Iff.rfl⟩

/-- `connect` polls at most three times, interrupts not counted. -/
theorem connectPass_again_cases {report : ErrorReport} {loop next : ConnectLoop}
    {event : ConnectEvent} (continues : loop.i ≤ 2)
    (possible : connectPossible loop event = true)
    (again : connectPass report loop event = .again next) :
    (next = loop ∧ event.isInterrupt = true) ∨ next.rank < loop.rank := by
  cases event with
  | settles error =>
      right
      have waiting : loop.connection = .inProgress := by simpa [connectPossible] using possible
      cases error with
      | none =>
          cases again
          simp [ConnectLoop.rank, waiting]
      | some error =>
          cases again
          simp [ConnectLoop.rank, waiting]
  | polls poll =>
      rcases pollTurn_cases report loop.connection poll with
        ⟨turn, interrupt⟩ | ⟨after, ret, turn, same⟩
      · simp only [connectPass, turn] at again
        cases again
        exact Or.inl ⟨rfl, interrupt⟩
      · right
        cases ret with
        | true => simp [connectPass, turn] at again
        | false =>
            simp only [connectPass, turn] at again
            cases again
            simp only [ConnectLoop.rank, same]
            omega

theorem connect_variant (report : ErrorReport) :
    (connect report).Variant ConnectEvent.isInterrupt ConnectLoop.rank := by
  constructor
  · intro loop continues
    simp only [connect, decide_eq_true_eq] at continues
    unfold ConnectLoop.rank
    omega
  · intro loop event next continues possible again
    simp only [connect, decide_eq_true_eq] at continues
    rcases connectPass_again_cases continues possible again with ⟨rfl, _⟩ | less
    · exact Nat.le_refl _
    · exact Nat.le_of_lt less
  · intro loop event next continues possible again works
    simp only [connect, decide_eq_true_eq] at continues
    rcases connectPass_again_cases continues possible again with ⟨_, interrupt⟩ | less
    · rw [works] at interrupt
      cases interrupt
    · exact less

def Handshake.rank (handshake : Handshake) : Nat :=
  3 - handshake.attempt

theorem attempt_of_again {handshake next : Handshake} {call : HandshakeCall}
    (again : handshakeTurn handshake call = .again next) :
    next.attempt = handshake.attempt + 1 := by
  have state := congrArg Pass.state again
  unfold handshakeTurn at again state
  by_cases success : call.sslConnect = 1
  · simp [success] at again
  · cases error : call.sslError with
    | WANT_WRITE =>
        simp only [if_neg success, error, handshakeWait_state] at state
        exact congrArg Handshake.attempt state.symm
    | WANT_READ =>
        simp only [if_neg success, error, handshakeWait_state] at state
        exact congrArg Handshake.attempt state.symm
    | other code => simp [success, error] at again

theorem tlsConnect_variant : tlsConnect.Variant (fun _ => false) Handshake.rank := by
  have passes : ∀ handshake call next, tlsConnect.continues handshake = true →
      tlsConnect.body handshake call = .again next → next.rank < handshake.rank := by
    intro handshake call next continues again
    simp only [tlsConnect, decide_eq_true_eq] at continues
    have counted := attempt_of_again again
    unfold Handshake.rank
    omega
  constructor
  · intro handshake continues
    simp only [tlsConnect, decide_eq_true_eq] at continues
    unfold Handshake.rank
    omega
  · intro handshake call next continues _ again
    exact Nat.le_of_lt (passes handshake call next continues again)
  · intro handshake call next continues _ again _
    exact passes handshake call next continues again

/-- The steps the sender, and the receiver it has yet to create, can still take. -/
def ClientPhase.rank : ClientPhase → Nat
  | .connecting loop => loop.rank + 11
  | .connectReturned ret => if ret then 11 else 1
  | .closed => 0
  | .spawned => 7
  | .initialised => 6
  | .handshaking handshake => handshake.rank + 2
  | .handshaken _ => 2
  | .written _ => 1
  | .finished _ => 0

def ReceiverPhase.rank : ReceiverPhase → Nat
  | .starting => 3
  | .created _ => 2
  | .read _ _ => 1
  | _ => 0

def ClientProcess.rank (process : ClientProcess) : Nat :=
  process.phase.rank + process.receiver.rank

def ClientEvent.isInterrupt : ClientEvent → Bool
  | .connects event => event.isInterrupt
  | _ => false

/-- A loop the sender is in has passed its test. -/
def ClientProcess.Tested (report : ErrorReport) (process : ClientProcess) : Prop :=
  (∀ loop, process.phase = .connecting loop → (connect report).continues loop = true) ∧
    ∀ handshake, process.phase = .handshaking handshake → tlsConnect.continues handshake = true

theorem rank_connectPhase (control : Control ConnectLoop Bool) :
    (connectPhase control).rank ≤ Loop.controlRank ConnectLoop.rank control + 11 := by
  cases control with
  | running loop => exact Nat.le_refl _
  | returned loop ret => cases ret <;> simp [connectPhase, ClientPhase.rank]

theorem rank_handshakePhase (control : Control Handshake Unit) :
    (handshakePhase control).rank = Loop.controlRank Handshake.rank control + 2 := by
  cases control with
  | running handshake => rfl
  | returned handshake result => simp [handshakePhase, ClientPhase.rank, Loop.controlRank]

theorem connecting_of_connectPhase {control : Control ConnectLoop Bool} {loop : ConnectLoop}
    (phase : connectPhase control = .connecting loop) : control = .running loop := by
  cases control with
  | running state => cases phase; rfl
  | returned state ret => cases phase

theorem handshaking_of_handshakePhase {control : Control Handshake Unit} {handshake : Handshake}
    (phase : handshakePhase control = .handshaking handshake) : control = .running handshake := by
  cases control with
  | running state => cases phase; rfl
  | returned state result => cases phase

theorem tested_step {report : ErrorReport} {process next : ClientProcess} {event : ClientEvent}
    (tested : process.Tested report) (moved : clientStep report process event = some next) :
    next.Tested report := by
  cases clientMove_of_clientStep moved with
  | connects phase possible =>
      constructor
      · intro loop running
        exact Loop.continues_of_afterPass (connecting_of_connectPhase running)
      · intro handshake running
        generalize (connect report).afterPass _ = control at running
        cases control <;> cases running
  | handshakes call phase =>
      constructor
      · intro loop running
        generalize tlsConnect.afterPass _ = control at running
        cases control <;> cases running
      · intro handshake running
        exact Loop.continues_of_afterPass (handshaking_of_handshakePhase running)
  | attaches bioNewSocket phase =>
      constructor
      · nofun
      · intro handshake running
        cases running
        rfl
  | receiverCreates receiver fresh => exact tested
  | receiverReads receiver => exact tested
  | receiverAdds added receiver => exact tested
  | closes answers phase => exact ⟨nofun, nofun⟩
  | spawns created phase => exact ⟨nofun, nofun⟩
  | inits phase => exact ⟨nofun, nofun⟩
  | writes phase => exact ⟨nofun, nofun⟩
  | shutsDown phase => exact ⟨nofun, nofun⟩

/-- Whatever a step does, but for an interrupted wait of `connect`, is done once. -/
theorem rank_step {report : ErrorReport} {process next : ClientProcess} {event : ClientEvent}
    (tested : process.Tested report) (moved : clientStep report process event = some next) :
    next.rank ≤ process.rank ∧ (event.isInterrupt = false → next.rank < process.rank) := by
  have spent : next.rank < process.rank →
      next.rank ≤ process.rank ∧ (event.isInterrupt = false → next.rank < process.rank) :=
    fun less => ⟨Nat.le_of_lt less, fun _ => less⟩
  cases clientMove_of_clientStep moved with
  | @connects event loop phase possible =>
      have continues := tested.1 loop phase
      have after := rank_connectPhase
        ((connect report).afterPass ((connect report).body loop event))
      have kept := (connect_variant report).afterPass_le continues possible
      have before : process.phase.rank = loop.rank + 11 := by rw [phase]; rfl
      simp only [ClientProcess.rank]
      constructor
      · omega
      · intro works
        have less := (connect_variant report).afterPass_lt continues possible works
        omega
  | @handshakes call handshake phase =>
      apply spent
      have after := rank_handshakePhase (tlsConnect.afterPass (tlsConnect.body handshake call))
      have less : Loop.controlRank Handshake.rank
          (tlsConnect.afterPass (tlsConnect.body handshake call)) < handshake.rank :=
        tlsConnect_variant.afterPass_lt (tested.2 handshake phase) rfl rfl
      have before : process.phase.rank = handshake.rank + 2 := by rw [phase]; rfl
      simp only [ClientProcess.rank]
      omega
  | spawns created phase =>
      apply spent
      have before : process.phase.rank = 11 := by rw [phase]; rfl
      cases created with
      | true =>
          change 7 + 3 < process.phase.rank + process.receiver.rank
          omega
      | false =>
          change 7 + process.receiver.rank < process.phase.rank + process.receiver.rank
          omega
  | closes answers phase =>
      apply spent
      simp [ClientProcess.rank, ClientPhase.rank, phase]
  | inits phase =>
      apply spent
      simp [ClientProcess.rank, ClientPhase.rank, phase]
  | attaches bioNewSocket phase =>
      apply spent
      simp [ClientProcess.rank, ClientPhase.rank, phase, Handshake.rank, handshakeEntry]
  | writes phase =>
      apply spent
      simp [ClientProcess.rank, ClientPhase.rank, phase]
  | shutsDown phase =>
      apply spent
      simp [ClientProcess.rank, ClientPhase.rank, phase]
  | receiverCreates receiver fresh =>
      apply spent
      simp [ClientProcess.rank, ReceiverPhase.rank, receiver]
  | receiverReads receiver =>
      apply spent
      simp [ClientProcess.rank, ReceiverPhase.rank, receiver]
  | receiverAdds added receiver =>
      apply spent
      simp [ClientProcess.rank, ReceiverPhase.rank, receiver]

theorem clientProcess_ranked (report : ErrorReport) :
    Ranked (clientStep report) (ClientProcess.Tested report) ClientEvent.isInterrupt
      ClientProcess.rank where
  keeps _ _ _ tested moved := tested_step tested moved
  waits _ _ _ tested moved := (rank_step tested moved).1
  spends _ _ _ tested moved := (rank_step tested moved).2

/-- Both threads of the client together take at most fifteen steps, interrupted waits
of `connect` not counted: the connect is settled, it polls three times, the handshake
makes three attempts, and everything else happens once. -/
theorem client_ends {report : ErrorReport} {protocol : Protocol} {fd : Nat}
    {answer : ConnectAnswer} {start : ConnectLoop} {events : List ClientEvent}
    {final : ClientProcess} (entered : connectEntry answer = .returned start)
    (run : exec (clientStep report) (clientEntry protocol fd start) events = some final) :
    busyCount ClientEvent.isInterrupt events ≤ 15 := by
  have continues := (connectHistory_entry report entered).2
  have tested : (clientEntry protocol fd start).Tested report := by
    constructor
    · intro loop connecting
      cases connecting
      exact continues
    · nofun
  have bounded := (clientProcess_ranked report).bounds tested run
  have entry : (clientEntry protocol fd start).rank ≤ 15 := by
    simp only [ClientProcess.rank, clientEntry, ClientPhase.rank, ReceiverPhase.rank,
      ConnectLoop.rank]
    split <;> omega
  omega

/-- Two polls time out and the handshake is left unfinished: all fifteen steps, and an
interrupt. -/
def longestClient : List ClientEvent :=
  [.connects (.polls ⟨.failed, some .EINTR⟩), .connects (.polls ⟨.timedOut, none⟩),
    .connects (.polls ⟨.timedOut, none⟩), .connects (.settles none),
    .connects (.polls ⟨.ready { POLLOUT := true }, none⟩), .spawns true, .inits (.returned ()),
    .attaches true true, .receiverCreates (some 4), .receiverReads, .receiverAdds true] ++
  List.replicate 3 (.handshakes ⟨-1, .WANT_READ, ⟨.ready { POLLIN := true }, none⟩⟩) ++
  [.writes, .shutsDown]

theorem client_ends_longest :
    ∃ final,
      exec (clientStep .byArgument) (clientEntry .tcp 3 ⟨0, .inProgress⟩) longestClient =
          some final ∧
        busyCount ClientEvent.isInterrupt longestClient = 15 ∧
        busyCount ClientEvent.isInterrupt longestClient ≤ 15 :=
  ⟨_, rfl, rfl, @client_ends .byArgument .tcp 3 (.failed (some .EINPROGRESS)) ⟨0, .inProgress⟩
    longestClient _ rfl rfl⟩

end TlsClient
