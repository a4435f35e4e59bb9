import TlsClient.SendDelivery
import TlsClient.ReceiveSession
import TlsClient.FifoTransfer

/-!
# Two endpoints over a byte channel

One endpoint sends a list of messages with `send_message`, the other calls
`receive_message` with their lengths.  The two loops take their passes in any
order; the channel between them is a queue of bytes.  The link is related to
the abstract transfer of `FifoTransfer` pass by pass, and the agreement of the
two endpoints is the agreement of that transfer.
-/

namespace TlsClient

open EventDriven IndexedMemory FifoTransfer

/-- A message `send_message` can be given: not empty, and of a length an `int`
can hold. -/
structure Message where
  bytes : List UInt8
  nonempty : 0 < bytes.length
  fits : bytes.length < 2 ^ 31

structure SenderSide where
  pending : List Message
  current : Option (Message × SendLoop)
  finished : List (Message × Bool)

structure ReceiverSide where
  pending : List Nat
  session : ReceiveSession

structure Link where
  sender : SenderSide
  channel : List UInt8
  receiver : ReceiverSide

inductive LinkEvent
  | senderCalls
  | senderPasses (call : SendCall)
  | receiverCalls (buffer : Int → UInt8)
  | receiverPasses (call : ReceiveCall)

def openLink (messages : List Message) : Link where
  sender := ⟨messages, none, []⟩
  channel := []
  receiver := ⟨messages.map fun message => message.bytes.length, openSession⟩

def SenderSide.afterPass (sender : SenderSide) (message : Message) :
    Control SendLoop Bool → SenderSide
  | .running loop => { sender with current := some (message, loop) }
  | .returned _ result =>
      { sender with current := none, finished := sender.finished ++ [(message, result)] }

def sentBytes (message : Message) (loop : SendLoop) (call : SendCall) : List UInt8 :=
  (message.bytes.drop loop.offset).take call.send.answer.taken

/-- One event of the link.  The value behind `send_to_socket` is taken to be the
count `::send` accepted, and `::send` accepts no more than the channel has room
for. -/
def linkStep (capacity : Nat) (link : Link) : LinkEvent → Option Link
  | .senderCalls =>
      match link.sender.current, link.sender.pending with
      | none, message :: pending => some
          { link with
            sender :=
              { link.sender with
                pending := pending
                current := some (message, sendEntry message.bytes.length) } }
      | _, _ => none
  | .senderPasses call =>
      match link.sender.current with
      | none => none
      | some (message, loop) =>
          if call.Agrees ∧
              link.channel.length + (sentBytes message loop call).length ≤ capacity then
            (sendMessage.step (.running loop) call).map fun control =>
              { link with
                channel := link.channel ++ sentBytes message loop call
                sender := link.sender.afterPass message control }
          else none
  | .receiverCalls buffer =>
      match link.receiver.session.current, link.receiver.pending with
      | none, length :: pending => some
          { link with
            receiver :=
              { pending := pending
                session :=
                  { link.receiver.session with
                    current := some ⟨length, [], receiveEntry length buffer⟩ } } }
      | _, _ => none
  | .receiverPasses call =>
      match link.receiver.session.current with
      | none => none
      | some current =>
          if call.recv.answer.bytes.isPrefixOf link.channel then
            (receive.step (.running current.loop) call).bind fun control =>
              (TlsClient.afterPass link.receiver.session current call.recv.answer.bytes
                control).map fun session =>
                  { link with
                    channel := link.channel.drop call.recv.answer.bytes.length
                    receiver := { link.receiver with session := session } }
          else none

structure Link.AllReturnedTrue (link : Link) : Prop where
  nothingToSend : link.sender.pending = [] ∧ link.sender.current = none
  allSent : ∀ call ∈ link.sender.finished, call.2 = true
  nothingToReceive : link.receiver.pending = [] ∧ link.receiver.session.current = none
  allReceived : ∀ record ∈ link.receiver.session.finished, record.succeeded = true

def SenderSide.inProgress (sender : SenderSide) : List UInt8 :=
  match sender.current with
  | none => []
  | some (message, loop) => message.bytes.take loop.offset

def SenderSide.schedule (sender : SenderSide) : List Message :=
  sender.finished.map Prod.fst ++ (sender.current.map Prod.fst).toList ++ sender.pending

def ReceiverSide.schedule (receiver : ReceiverSide) : List Nat :=
  (receiver.session.finished.map fun record => record.length) ++
    (receiver.session.current.map fun current => current.length).toList ++ receiver.pending

/-- As long as every call of `send_message` has succeeded, the channel has been
given the finished messages and the sent part of the current one. -/
structure SenderInvariant (messages : List Message) (pushed : List UInt8)
    (sender : SenderSide) : Prop where
  schedule : sender.schedule = messages
  account : (∀ call ∈ sender.finished, call.2 = true) →
    (sender.finished.flatMap fun call => call.1.bytes) ++ sender.inProgress = pushed
  current : ∀ message loop, sender.current = some (message, loop) →
    0 < loop.nLeft ∧ InStep message.bytes.length loop

structure ReceiverInvariant (messages : List Message) (popped : List UInt8)
    (receiver : ReceiverSide) : Prop where
  schedule : receiver.schedule = messages.map fun message => message.bytes.length
  session : SessionInvariant popped receiver.session

structure Linked (messages : List Message) (link : Link) (transfer : Transfer UInt8) :
    Prop where
  queue : transfer.queue = link.channel
  sender : SenderInvariant messages transfer.pushed link.sender
  receiver : ReceiverInvariant messages transfer.popped link.receiver

theorem linked_openLink (messages : List Message) :
    Linked messages (openLink messages) FifoTransfer.empty where
  queue := rfl
  sender :=
    { schedule := rfl
      account := fun _ => rfl
      current := by simp [openLink] }
  receiver :=
    { schedule := rfl
      session := sessionInvariant_openSession }

theorem InStep.offset_eq {length : Nat} {loop next : SendLoop} {record : SendRecord}
    (before : InStep length loop) (after : InStep length next)
    (sends : next.sends = loop.sends ++ [record]) :
    next.offset = loop.offset + record.accepted := by
  have positions := congrArg List.length after.positions
  rw [sends, acceptedPositions_append, before.positions] at positions
  simpa using positions.symm

/-- A pass that reads the accepted count keeps the loop in step and moves the
pointer by it; if the call returns, `true` means that the message is through. -/
theorem sendMessage_afterPass {message : Message} {loop : SendLoop} {call : SendCall}
    (before : InStep message.bytes.length loop) (continues : 0 < loop.nLeft)
    (possible : sendPossible loop call = true) (agrees : call.Agrees) :
    sendMessage.Satisfies
      (fun next => InStep message.bytes.length next ∧
        next.offset = loop.offset + call.send.answer.taken)
      (fun _ result => result = true →
        loop.offset + call.send.answer.taken = message.bytes.length)
      (sendMessage.afterPass (sendPass loop call)) := by
  have sends := sendPass_sends loop call
  rcases sendPass_inStep message.fits before continues possible agrees with
    ⟨next, again, kept⟩ | ⟨_, done, _⟩
  · rw [again] at sends
    have moved : next.offset = loop.offset + call.send.answer.taken :=
      before.offset_eq kept sends
    apply Loop.satisfies_of_again again ⟨kept, moved⟩
    intro stops _
    have finished : ¬ 0 < next.nLeft := by simpa [sendMessage] using stops
    have := kept.remaining
    have := kept.nonnegative
    omega
  · exact Loop.satisfies_of_done done fun falsity => absurd falsity (by simp)

theorem senderInvariant_passes {messages : List Message} {pushed : List UInt8}
    {sender : SenderSide} {message : Message} {loop : SendLoop} {call : SendCall}
    (holds : SenderInvariant messages pushed sender)
    (calling : sender.current = some (message, loop))
    (possible : sendPossible loop call = true) (agrees : call.Agrees) :
    SenderInvariant messages (pushed ++ sentBytes message loop call)
      (sender.afterPass message (sendMessage.afterPass (sendPass loop call))) := by
  obtain ⟨continues, inStep⟩ := holds.current message loop calling
  have extended : message.bytes.take loop.offset ++ sentBytes message loop call =
      message.bytes.take (loop.offset + call.send.answer.taken) :=
    List.take_add.symm
  have account : (∀ call ∈ sender.finished, call.2 = true) →
      (sender.finished.flatMap fun call => call.1.bytes) ++
          message.bytes.take (loop.offset + call.send.answer.taken) =
        pushed ++ sentBytes message loop call := by
    intro succeeded
    rw [← extended, ← List.append_assoc, ← holds.account succeeded]
    simp [SenderSide.inProgress, calling]
  have satisfied := sendMessage_afterPass inStep continues possible agrees
  cases control : sendMessage.afterPass (sendPass loop call) with
  | running next =>
      rw [control] at satisfied
      obtain ⟨goesOn, kept, moved⟩ := satisfied
      constructor
      · simpa [SenderSide.afterPass, SenderSide.schedule, calling] using holds.schedule
      · simpa [SenderSide.afterPass, SenderSide.inProgress, moved] using account
      · rintro _ _ ⟨⟩
        exact ⟨by simpa [sendMessage] using goesOn, kept⟩
  | returned final result =>
      rw [control] at satisfied
      constructor
      · simpa [SenderSide.afterPass, SenderSide.schedule, calling] using holds.schedule
      · intro succeeded
        have whole := satisfied (succeeded (message, result) (by simp [SenderSide.afterPass]))
        have earlier := account fun call member =>
          succeeded call (by simp [SenderSide.afterPass, member])
        rw [whole, List.take_length] at earlier
        simpa [SenderSide.afterPass, SenderSide.inProgress] using earlier
      · simp [SenderSide.afterPass]

theorem receiverInvariant_passes {messages : List Message} {popped : List UInt8}
    {receiver : ReceiverSide} {current : CallInProgress} {call : ReceiveCall}
    {session : ReceiveSession} (holds : ReceiverInvariant messages popped receiver)
    (calling : receiver.session.current = some current)
    (possible : receivePossible current.loop call = true)
    (moved : afterPass receiver.session current call.recv.answer.bytes
      (receive.afterPass (receivePass current.loop call)) = some session) :
    ReceiverInvariant messages (popped ++ call.recv.answer.bytes)
      { receiver with session := session } where
  schedule := by
    rw [← holds.schedule]
    cases control : receive.afterPass (receivePass current.loop call) with
    | running loop =>
        rw [control] at moved
        obtain rfl := Option.some.inj moved
        simp [ReceiverSide.schedule, calling]
    | returned final ended =>
        rw [control] at moved
        cases returns : receiveMessage ended with
        | exited => simp [afterPass, returns] at moved
        | returned succeeded =>
            simp only [afterPass, returns, Option.some.injEq] at moved
            subst session
            simp [ReceiverSide.schedule, calling]
  session := sessionInvariant_passes holds.session calling possible moved

theorem linkStep_simulates {capacity : Nat} {messages : List Message} {link next : Link}
    {event : LinkEvent} {transfer : Transfer UInt8}
    (linked : Linked messages link transfer)
    (moved : linkStep capacity link event = some next) :
    ∃ actions reached, exec (FifoTransfer.step capacity) transfer actions = some reached ∧
      Linked messages next reached := by
  cases event with
  | senderCalls =>
      refine ⟨[], transfer, rfl, ?_⟩
      cases calling : link.sender.current with
      | some current => simp [linkStep, calling] at moved
      | none =>
          cases pending : link.sender.pending with
          | nil => simp [linkStep, calling, pending] at moved
          | cons message rest =>
              simp only [linkStep, calling, pending, Option.some.injEq] at moved
              subst next
              refine ⟨linked.queue, ⟨?_, ?_, ?_⟩, linked.receiver⟩
              · simpa [SenderSide.schedule, calling, pending] using linked.sender.schedule
              · simpa [SenderSide.inProgress, calling, sendEntry] using linked.sender.account
              · rintro _ _ ⟨⟩
                exact ⟨by simpa [sendEntry] using message.nonempty, inStep_sendEntry _⟩
  | senderPasses call =>
      cases calling : link.sender.current with
      | none => simp [linkStep, calling] at moved
      | some current =>
          obtain ⟨message, loop⟩ := current
          simp only [linkStep, calling, Option.ite_none_right_eq_some] at moved
          obtain ⟨⟨agrees, room⟩, moved⟩ := moved
          obtain ⟨control, stepped, rfl⟩ := Option.map_eq_some_iff.mp moved
          obtain ⟨_, ⟨⟩, possible, rfl⟩ := Loop.step_eq_some stepped
          refine ⟨[.push (sentBytes message loop call)],
            { transfer with
              pushed := transfer.pushed ++ sentBytes message loop call
              queue := transfer.queue ++ sentBytes message loop call }, ?_, ?_⟩
          · simp [exec_cons, FifoTransfer.step, linked.queue, room]
          · exact
              { queue := by rw [linked.queue]
                sender := senderInvariant_passes linked.sender calling possible agrees
                receiver := linked.receiver }
  | receiverCalls buffer =>
      refine ⟨[], transfer, rfl, ?_⟩
      cases calling : link.receiver.session.current with
      | some current => simp [linkStep, calling] at moved
      | none =>
          cases pending : link.receiver.pending with
          | nil => simp [linkStep, calling, pending] at moved
          | cons length rest =>
              simp only [linkStep, calling, pending, Option.some.injEq] at moved
              subst next
              have schedule := linked.receiver.schedule
              have agreed : length ∈ messages.map fun message => message.bytes.length := by
                rw [← schedule]
                simp [ReceiverSide.schedule, pending]
              obtain ⟨message, _, rfl⟩ := List.mem_map.mp agreed
              have fits := message.fits
              refine ⟨linked.queue, linked.sender, ?_,
                sessionInvariant_calls linked.receiver.session calling message.nonempty
                  (by omega)⟩
              simpa [ReceiverSide.schedule, calling, pending] using schedule
  | receiverPasses call =>
      cases calling : link.receiver.session.current with
      | none => simp [linkStep, calling] at moved
      | some current =>
          simp only [linkStep, calling, Option.ite_none_right_eq_some] at moved
          obtain ⟨arrives, moved⟩ := moved
          obtain ⟨control, stepped, moved⟩ := Option.bind_eq_some_iff.mp moved
          obtain ⟨session, passed, rfl⟩ := Option.map_eq_some_iff.mp moved
          obtain ⟨_, ⟨⟩, possible, rfl⟩ := Loop.step_eq_some stepped
          have front := List.isPrefixOf_iff_prefix.mp arrives
          refine ⟨[.pop call.recv.answer.bytes.length],
            { transfer with
              queue := transfer.queue.drop call.recv.answer.bytes.length
              popped := transfer.popped ++ call.recv.answer.bytes }, ?_, ?_⟩
          · have room := front.length_le
            simp [exec_cons, FifoTransfer.step, linked.queue, room,
              ← List.prefix_iff_eq_take.mp front]
          · exact
              { queue := by rw [linked.queue]
                sender := linked.sender
                receiver :=
                  receiverInvariant_passes linked.receiver calling possible passed }

/-- When all calls have returned `true`, the receiver's buffers are the messages,
in order, and the channel is empty. -/
theorem endpoints_agree (capacity : Nat) (messages : List Message)
    (events : List LinkEvent) (final : Link)
    (run : exec (linkStep capacity) (openLink messages) events = some final)
    (succeeded : final.AllReturnedTrue) :
    (final.receiver.session.finished.map fun record => record.buffer) =
        messages.map (fun message => message.bytes) ∧
      final.channel = [] := by
  obtain ⟨actions, transfer, taken, linked⟩ :=
    exec_simulation (fun _ _ _ _ related moved => linkStep_simulates related moved)
      (linked_openLink messages) run
  obtain ⟨⟨noMessage, noSend⟩, allSent, ⟨noLength, noReceive⟩, allReceived⟩ := succeeded
  have sent : final.sender.finished.map Prod.fst = messages := by
    simpa [SenderSide.schedule, noMessage, noSend] using linked.sender.schedule
  have pushed : (messages.map fun message => message.bytes).flatten = transfer.pushed := by
    rw [← linked.sender.account allSent, ← sent]
    simp [SenderSide.inProgress, noSend, List.flatMap_def, Function.comp_def]
  have handedOver : ∀ record ∈ final.receiver.session.finished,
      record.buffer = record.taken ∧ record.taken.length = record.length := by
    intro record member
    simpa [CallRecord.Accounted, allReceived record member] using
      linked.receiver.session.finished record member
  have buffers : (final.receiver.session.finished.map fun record => record.buffer) =
      final.receiver.session.finished.map fun record => record.taken :=
    List.map_congr_left fun record member => (handedOver record member).1
  have popped : (final.receiver.session.finished.map fun record => record.buffer).flatten =
      transfer.popped := by
    rw [buffers, ← linked.receiver.session.account]
    simp [ReceiveSession.inProgress, noReceive, List.flatMap_def]
  have lengths : (final.receiver.session.finished.map fun record => record.buffer).map
        List.length =
      (messages.map fun message => message.bytes).map List.length := by
    have schedule := linked.receiver.schedule
    simp only [ReceiverSide.schedule, noReceive, noLength, Option.map_none,
      Option.toList_none, List.append_nil] at schedule
    rw [buffers, List.map_map, List.map_map]
    refine Eq.trans (List.map_congr_left ?_) schedule
    intro record member
    exact (handedOver record member).2
  rw [← linked.queue]
  apply agreement lengths
  rw [pushed, popped]
  exact conservation taken

def threeBytes : Message :=
  ⟨[7, 8, 9], by decide, by decide⟩

def twoMoreBytes : Message :=
  ⟨[1, 2], by decide, by decide⟩

/-- The second message follows in pieces while the first is still being received. -/
def fragmentedRun : List LinkEvent :=
  [.senderCalls,
    .senderPasses ⟨⟨.accepted 1, none⟩, 1, ⟨.timedOut, none⟩⟩,
    .receiverCalls fun _ => 0,
    .senderPasses ⟨⟨.failed, some .EAGAIN⟩, -1, ⟨.ready { POLLOUT := true }, none⟩⟩,
    .receiverPasses ⟨⟨.failed, some .EINTR⟩, ⟨.timedOut, none⟩⟩,
    .senderPasses ⟨⟨.accepted 2, none⟩, 2, ⟨.timedOut, none⟩⟩,
    .senderCalls,
    .senderPasses ⟨⟨.accepted 1, none⟩, 1, ⟨.timedOut, none⟩⟩,
    .receiverPasses ⟨⟨.received [7, 8], none⟩, ⟨.timedOut, none⟩⟩,
    .senderPasses ⟨⟨.accepted 1, none⟩, 1, ⟨.timedOut, none⟩⟩,
    .receiverPasses ⟨⟨.received [9], none⟩, ⟨.timedOut, none⟩⟩,
    .receiverCalls fun _ => 0,
    .receiverPasses ⟨⟨.received [1, 2], none⟩, ⟨.timedOut, none⟩⟩]

def fragmentedLink : Link :=
  (exec (linkStep 4) (openLink [threeBytes, twoMoreBytes]) fragmentedRun).getD (openLink [])

set_option maxRecDepth 8000 in
theorem exec_fragmentedRun :
    exec (linkStep 4) (openLink [threeBytes, twoMoreBytes]) fragmentedRun =
      some fragmentedLink :=
  rfl

theorem endpoints_agree_fragmentedRun :
    (fragmentedLink.receiver.session.finished.map fun record => record.buffer) =
        [threeBytes, twoMoreBytes].map (fun message => message.bytes) ∧
      fragmentedLink.channel = [] :=
  endpoints_agree 4 [threeBytes, twoMoreBytes] fragmentedRun fragmentedLink exec_fragmentedRun
    { nothingToSend := ⟨rfl, rfl⟩
      allSent := by decide
      nothingToReceive := ⟨rfl, rfl⟩
      allReceived := by decide }

end TlsClient
