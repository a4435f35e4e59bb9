import TlsClient.ByteChannel
import TlsClient.Termination
import Mathlib.Algebra.GroupWithZero.Nat

/-!
# Progress of two endpoints

Two endpoints that agree on the lengths of their messages never wait for each other: the
receiver still asks for what the sender still has and for what the channel holds.  So as
long as no call has failed, the transfer can be completed, and there is a limit to the
passes it takes.
-/

namespace TlsClient

open EventDriven IndexedMemory FifoTransfer

def totalBytes (messages : List Message) : Nat :=
  (messages.map fun message => message.bytes.length).sum

/-- The bytes that the sender has yet to send. -/
def SenderSide.remaining (sender : SenderSide) : Nat :=
  (sender.current.map fun current => current.2.nLeft.toNat).getD 0 + totalBytes sender.pending

/-- The bytes that the receiver has yet to ask for. -/
def ReceiverSide.remaining (receiver : ReceiverSide) : Nat :=
  (receiver.session.current.map fun current => current.loop.nLeft).getD 0 + receiver.pending.sum

structure Link.Unfailed (link : Link) : Prop where
  sent : ∀ call ∈ link.sender.finished, call.2 = true
  received : ∀ record ∈ link.receiver.session.finished, record.succeeded = true

theorem totalBytes_append (first second : List Message) :
    totalBytes (first ++ second) = totalBytes first + totalBytes second := by
  simp [totalBytes]

theorem length_flatMap_bytes (calls : List (Message × Bool)) :
    (calls.flatMap fun call => call.1.bytes).length = totalBytes (calls.map Prod.fst) := by
  induction calls with
  | nil => rfl
  | cons call calls ih => simpa [totalBytes] using ih

theorem length_flatMap_taken {records : List CallRecord}
    (whole : ∀ record ∈ records, record.taken.length = record.length) :
    (records.flatMap fun record => record.taken).length =
      (records.map fun record => record.length).sum := by
  induction records with
  | nil => rfl
  | cons record records ih =>
      have rest := ih fun other member => whole other (List.mem_cons_of_mem _ member)
      rw [List.flatMap_cons, List.length_append, rest, whole record List.mem_cons_self,
        List.map_cons, List.sum_cons]

theorem SenderInvariant.remaining {messages : List Message} {pushed : List UInt8}
    {sender : SenderSide} (holds : SenderInvariant messages pushed sender)
    (sent : ∀ call ∈ sender.finished, call.2 = true) :
    pushed.length + sender.remaining = totalBytes messages := by
  rw [← holds.account sent, ← holds.schedule, SenderSide.schedule, totalBytes_append,
    totalBytes_append, List.length_append, length_flatMap_bytes]
  cases calling : sender.current with
  | none => simp [SenderSide.inProgress, SenderSide.remaining, calling, totalBytes]
  | some current =>
      obtain ⟨message, loop⟩ := current
      obtain ⟨_, inStep⟩ := holds.current message loop calling
      have split := inStep.remaining
      have nonnegative := inStep.nonnegative
      simp only [SenderSide.inProgress, SenderSide.remaining, calling, Option.map_some,
        Option.getD_some, Option.toList_some, totalBytes, List.map_singleton, List.sum_singleton,
        List.length_take]
      omega

theorem ReceiverInvariant.remaining {messages : List Message} {popped : List UInt8}
    {receiver : ReceiverSide} (holds : ReceiverInvariant messages popped receiver)
    (received : ∀ record ∈ receiver.session.finished, record.succeeded = true) :
    popped.length + receiver.remaining = totalBytes messages := by
  have whole : ∀ record ∈ receiver.session.finished, record.taken.length = record.length := by
    intro record member
    have accounted := holds.session.finished record member
    rw [CallRecord.Accounted, if_pos (received record member)] at accounted
    exact accounted.2
  have total : totalBytes messages = receiver.schedule.sum := by rw [holds.schedule]; rfl
  rw [total, ← holds.session.account, List.length_append, length_flatMap_taken whole,
    ReceiverSide.schedule, List.sum_append, List.sum_append]
  cases calling : receiver.session.current with
  | none => simp [ReceiveSession.inProgress, ReceiverSide.remaining, calling]
  | some current =>
      have split := (holds.session.current current calling).2.2.remaining
      simp only [ReceiveSession.inProgress, ReceiverSide.remaining, calling, Option.map_some,
        Option.getD_some, Option.toList_some, List.sum_singleton]
      omega

theorem linked_run {capacity : Nat} {messages : List Message} {events : List LinkEvent}
    {link : Link} (run : exec (linkStep capacity) (openLink messages) events = some link) :
    ∃ transfer, Linked messages link transfer ∧
      transfer.pushed = transfer.popped ++ transfer.queue := by
  obtain ⟨actions, transfer, taken, linked⟩ :=
    exec_simulation (fun _ _ _ _ related moved => linkStep_simulates related moved)
      (linked_openLink messages) run
  exact ⟨transfer, linked, conservation taken⟩

/-- The receiver asks for what the sender still has and what is on its way. -/
theorem remaining_balance {capacity : Nat} {messages : List Message} {events : List LinkEvent}
    {link : Link} (run : exec (linkStep capacity) (openLink messages) events = some link)
    (unfailed : link.Unfailed) :
    link.receiver.remaining = link.sender.remaining + link.channel.length := by
  obtain ⟨transfer, linked, conserved⟩ := linked_run run
  have sends := linked.sender.remaining unfailed.sent
  have receives := linked.receiver.remaining unfailed.received
  have queued := congrArg List.length conserved
  rw [List.length_append, linked.queue] at queued
  omega

/-- The calls still to be made, and the bytes still to go through each of the loops. -/
def Link.rank (link : Link) : Nat :=
  link.sender.pending.length + link.receiver.pending.length + link.sender.remaining +
    link.receiver.remaining

/-- A pass that moves no byte and goes round, or may go round. -/
def LinkEvent.isIdle : LinkEvent → Bool
  | .senderPasses call => call.findsNothing
  | .receiverPasses call => call.isWait
  | _ => false

theorem remaining_afterPass (sender : SenderSide) (message : Message)
    (control : Control SendLoop Bool) :
    (sender.afterPass message control).remaining =
      Loop.controlRank (fun loop => loop.nLeft.toNat) control + totalBytes sender.pending := by
  cases control with
  | running loop => rfl
  | returned loop result => simp [SenderSide.afterPass, SenderSide.remaining, Loop.controlRank]

theorem remaining_of_afterPass {receiver : ReceiverSide} {current : CallInProgress}
    {bytes : List UInt8} {control : Control ReceiveLoop (Ended Int)} {session : ReceiveSession}
    (moved : afterPass receiver.session current bytes control = some session) :
    ReceiverSide.remaining { receiver with session := session } =
      Loop.controlRank ReceiveLoop.nLeft control + receiver.pending.sum := by
  cases control with
  | running loop =>
      cases moved
      rfl
  | returned loop ended =>
      simp only [afterPass] at moved
      split at moved
      · cases moved
        rfl
      · cases moved

theorem SenderSide.pass_lowers {sender : SenderSide} {message : Message} {loop : SendLoop}
    {call : SendCall} (calling : sender.current = some (message, loop))
    (continues : sendMessage.continues loop = true)
    (possible : sendMessage.possible loop call = true) :
    let next := sender.afterPass message (sendMessage.afterPass (sendMessage.body loop call))
    next.pending = sender.pending ∧ next.remaining ≤ sender.remaining ∧
      (call.findsNothing = false → next.remaining < sender.remaining) := by
  have kept := sendMessage_variant.afterPass_le continues possible
  have spent := sendMessage_variant.afterPass_lt continues possible
  have before : sender.remaining = loop.nLeft.toNat + totalBytes sender.pending := by
    simp [SenderSide.remaining, calling]
  simp only [remaining_afterPass, before]
  refine ⟨?_, by omega, fun works => ?_⟩
  · cases sendMessage.afterPass (sendMessage.body loop call) <;> rfl
  · have less := spent works
    omega

theorem ReceiverSide.pass_lowers {receiver : ReceiverSide} {current : CallInProgress}
    {call : ReceiveCall} {bytes : List UInt8} {session : ReceiveSession}
    (calling : receiver.session.current = some current)
    (continues : receive.continues current.loop = true)
    (possible : receive.possible current.loop call = true)
    (moved : afterPass receiver.session current bytes
      (receive.afterPass (receive.body current.loop call)) = some session) :
    let next : ReceiverSide := { receiver with session := session }
    next.remaining ≤ receiver.remaining ∧
      (call.isWait = false → next.remaining < receiver.remaining) := by
  have kept := receive_variant.afterPass_le continues possible
  have spent := receive_variant.afterPass_lt continues possible
  have before : receiver.remaining = current.loop.nLeft + receiver.pending.sum := by
    simp [ReceiverSide.remaining, calling]
  simp only [remaining_of_afterPass moved, before]
  refine ⟨by omega, fun works => ?_⟩
  have less := spent works
  omega

theorem rank_linkStep {capacity : Nat} {messages : List Message} {link next : Link}
    {event : LinkEvent} (related : ∃ transfer, Linked messages link transfer)
    (moved : linkStep capacity link event = some next) :
    next.rank ≤ link.rank ∧ (event.isIdle = false → next.rank < link.rank) := by
  obtain ⟨transfer, linked⟩ := related
  cases event with
  | senderCalls =>
      cases calling : link.sender.current with
      | some current => simp [linkStep, calling] at moved
      | none =>
          cases pending : link.sender.pending with
          | nil => simp [linkStep, calling, pending] at moved
          | cons message rest =>
              simp only [linkStep, calling, pending, Option.some.injEq] at moved
              subst next
              simp [Link.rank, SenderSide.remaining, calling, pending, totalBytes, sendEntry]
  | senderPasses call =>
      cases calling : link.sender.current with
      | none => simp [linkStep, calling] at moved
      | some current =>
          obtain ⟨message, loop⟩ := current
          simp only [linkStep, calling, Option.ite_none_right_eq_some] at moved
          obtain ⟨_, moved⟩ := moved
          obtain ⟨control, stepped, rfl⟩ := Option.map_eq_some_iff.mp moved
          obtain ⟨_, ⟨⟩, possible, rfl⟩ := Loop.step_eq_some stepped
          obtain ⟨positive, _⟩ := linked.sender.current message loop calling
          have continues : sendMessage.continues loop = true := by
            simpa [sendMessage] using positive
          obtain ⟨same, kept, spent⟩ := SenderSide.pass_lowers calling continues possible
          simp only [Link.rank, same]
          exact ⟨by omega, fun works => by have less := spent works; omega⟩
  | receiverCalls buffer =>
      cases calling : link.receiver.session.current with
      | some current => simp [linkStep, calling] at moved
      | none =>
          cases pending : link.receiver.pending with
          | nil => simp [linkStep, calling, pending] at moved
          | cons length rest =>
              simp only [linkStep, calling, pending, Option.some.injEq] at moved
              subst next
              have whole := toSize_le length
              simp [Link.rank, ReceiverSide.remaining, calling, pending, receiveEntry]
              omega
  | receiverPasses call =>
      cases calling : link.receiver.session.current with
      | none => simp [linkStep, calling] at moved
      | some current =>
          simp only [linkStep, calling, Option.ite_none_right_eq_some] at moved
          obtain ⟨_, moved⟩ := moved
          obtain ⟨control, stepped, moved⟩ := Option.bind_eq_some_iff.mp moved
          obtain ⟨session, passed, rfl⟩ := Option.map_eq_some_iff.mp moved
          obtain ⟨_, ⟨⟩, possible, rfl⟩ := Loop.step_eq_some stepped
          have continues := (linked.receiver.session.current current calling).2.1
          obtain ⟨kept, spent⟩ := ReceiverSide.pass_lowers calling continues possible passed
          simp only [Link.rank]
          exact ⟨by omega, fun works => by have less := spent works; omega⟩

theorem link_ranked (capacity : Nat) (messages : List Message) :
    Ranked (linkStep capacity) (fun link => ∃ transfer, Linked messages link transfer)
      LinkEvent.isIdle Link.rank where
  keeps _ _ _ related moved := by
    obtain ⟨transfer, linked⟩ := related
    obtain ⟨_, reached, _, linkedNext⟩ := linkStep_simulates linked moved
    exact ⟨reached, linkedNext⟩
  waits _ _ _ related moved := (rank_linkStep related moved).1
  spends _ _ _ related moved := (rank_linkStep related moved).2

theorem rank_openLink (messages : List Message) :
    (openLink messages).rank = 2 * messages.length + 2 * totalBytes messages := by
  have lengths : ((openLink messages).receiver.pending).sum = totalBytes messages := rfl
  simp only [Link.rank, SenderSide.remaining, ReceiverSide.remaining, lengths]
  simp [openLink, openSession]
  omega

/-- However the two loops interleave, a transfer takes at most two calls for each
message and two passes for each byte, the passes that move no byte not counted. -/
theorem link_bounded {capacity : Nat} {messages : List Message} {events : List LinkEvent}
    {link : Link} (run : exec (linkStep capacity) (openLink messages) events = some link) :
    busyCount LinkEvent.isIdle events ≤ 2 * messages.length + 2 * totalBytes messages := by
  have bounded := (link_ranked capacity messages).bounds ⟨_, linked_openLink messages⟩ run
  rw [rank_openLink] at bounded
  omega

theorem link_bounded_fragmentedRun :
    busyCount LinkEvent.isIdle fragmentedRun ≤
      2 * [threeBytes, twoMoreBytes].length + 2 * totalBytes [threeBytes, twoMoreBytes] :=
  link_bounded exec_fragmentedRun

def receivesByte (byte : UInt8) : ReceiveCall :=
  ⟨⟨.received [byte], none⟩, ⟨.timedOut, none⟩⟩

theorem receivesByte_possible {loop : ReceiveLoop} (continues : receive.continues loop = true)
    (byte : UInt8) : receivePossible loop (receivesByte byte) = true := by
  have room : 0 < loop.nLeft := by simpa [receive] using continues
  have atLeast : 1 ≤ loop.nLeft := room
  simpa [receivePossible, receivesByte, RecvAnswer.bytes] using atLeast

/-- A call that is handed a byte goes on, or returns `true`. -/
theorem afterPass_receivesByte (session : ReceiveSession) (current : CallInProgress)
    (byte : UInt8) :
    ∃ next, afterPass session current [byte]
        (receive.afterPass (receivePass current.loop (receivesByte byte))) = some next ∧
      ∀ record ∈ next.finished, record ∈ session.finished ∨ record.succeeded = true := by
  let read : ReceiveLoop := receiveFromSocket current.loop (receivesByte byte).recv
  have passed : receivePass current.loop (receivesByte byte) = .again (receiveAdvance read) := rfl
  rw [passed]
  cases test : receive.continues (receiveAdvance read) with
  | true =>
      rw [Loop.afterPass, Loop.head_of_continues _ test]
      exact ⟨_, rfl, fun record member => Or.inl member⟩
  | false =>
      rw [Loop.afterPass, Loop.head_of_stops _ test]
      refine ⟨_, rfl, fun record member => ?_⟩
      rcases List.mem_append.mp member with old | new
      · exact Or.inl old
      · obtain rfl := List.mem_singleton.mp new
        exact Or.inr rfl

theorem sentByte_possible {message : Message} {loop : SendLoop} (positive : 0 < loop.nLeft)
    (inStep : InStep message.bytes.length loop) : sendPossible loop sentByte = true := by
  have split := inStep.remaining
  have fits := message.fits
  have requested := requestedCount_of_lt inStep.nonnegative (by omega)
  have room : 1 ≤ requestedCount loop.nLeft := by omega
  simp [sendPossible, sentByte, room]

theorem afterPass_sentByte (sender : SenderSide) (message : Message) (loop : SendLoop) :
    ∀ call ∈ (sender.afterPass message
        (sendMessage.afterPass (sendPass loop sentByte))).finished,
      call ∈ sender.finished ∨ call.2 = true := by
  intro call member
  have passed : ∃ next, sendPass loop sentByte = .again next := ⟨_, rfl⟩
  obtain ⟨next, passed⟩ := passed
  rw [passed] at member
  cases test : sendMessage.continues next with
  | true =>
      rw [Loop.afterPass, Loop.head_of_continues _ test] at member
      exact Or.inl member
  | false =>
      rw [Loop.afterPass, Loop.head_of_stops _ test] at member
      rcases List.mem_append.mp member with old | new
      · exact Or.inl old
      · obtain rfl := List.mem_singleton.mp new
        exact Or.inr rfl

/-- A step of the transfer that moves a byte or begins a call, with no call failing. -/
def CanGoOn (capacity : Nat) (link : Link) : Prop :=
  ∃ event next, linkStep capacity link event = some next ∧ event.isIdle = false ∧ next.Unfailed

theorem receiver_goesOn {capacity : Nat} {messages : List Message} {link : Link}
    {transfer : Transfer UInt8} (linked : Linked messages link transfer)
    (unfailed : link.Unfailed) {current : CallInProgress}
    (calling : link.receiver.session.current = some current) {byte : UInt8}
    {rest : List UInt8} (channel : link.channel = byte :: rest) : CanGoOn capacity link := by
  have continues := (linked.receiver.session.current current calling).2.1
  have possible := receivesByte_possible continues byte
  obtain ⟨session, passed, records⟩ :=
    afterPass_receivesByte link.receiver.session current byte
  have arrives : (receivesByte byte).recv.answer.bytes.isPrefixOf link.channel = true := by
    simp [channel, receivesByte, RecvAnswer.bytes]
  have stepped : receive.step (.running current.loop) (receivesByte byte) =
      some (receive.afterPass (receivePass current.loop (receivesByte byte))) := if_pos possible
  refine ⟨.receiverPasses (receivesByte byte),
    { link with channel := rest, receiver := { link.receiver with session := session } }, ?_, rfl,
    unfailed.sent, fun record member => ?_⟩
  · simp only [linkStep, calling, if_pos arrives, stepped, Option.bind_some]
    change (afterPass link.receiver.session current [byte] _).map _ = _
    rw [passed, channel]
    rfl
  · rcases records record member with old | success
    · exact unfailed.received record old
    · exact success

theorem sender_goesOn {capacity : Nat} (room : 0 < capacity) {messages : List Message}
    {link : Link} {transfer : Transfer UInt8} (linked : Linked messages link transfer)
    (unfailed : link.Unfailed) {message : Message} {loop : SendLoop}
    (calling : link.sender.current = some (message, loop)) (channel : link.channel = []) :
    CanGoOn capacity link := by
  obtain ⟨positive, inStep⟩ := linked.sender.current message loop calling
  have possible := sentByte_possible positive inStep
  have stepped : sendMessage.step (.running loop) sentByte =
      some (sendMessage.afterPass (sendPass loop sentByte)) := if_pos possible
  have enters : sentByte.Agrees ∧
      link.channel.length + (sentBytes message loop sentByte).length ≤ capacity := by
    refine ⟨rfl, ?_⟩
    have short : (sentBytes message loop sentByte).length ≤ 1 := List.length_take_le _ _
    rw [channel, List.length_nil]
    omega
  have moved : linkStep capacity link (.senderPasses sentByte) =
      some
        { link with
          channel := link.channel ++ sentBytes message loop sentByte
          sender := link.sender.afterPass message
            (sendMessage.afterPass (sendPass loop sentByte)) } := by
    simp only [linkStep, calling, if_pos enters, stepped, Option.map_some]
  refine ⟨_, _, moved, rfl, fun call member => ?_, unfailed.received⟩
  rcases afterPass_sentByte link.sender message loop call member with old | success
  · exact unfailed.sent call old
  · exact success

theorem sender_calls {capacity : Nat} {link : Link} (unfailed : link.Unfailed)
    (idle : link.sender.current = none) {message : Message} {rest : List Message}
    (pending : link.sender.pending = message :: rest) : CanGoOn capacity link := by
  have moved : linkStep capacity link .senderCalls =
      some
        { link with
          sender :=
            { link.sender with
              pending := rest
              current := some (message, sendEntry message.bytes.length) } } := by
    simp only [linkStep, idle, pending]
  exact ⟨_, _, moved, rfl, unfailed.sent, unfailed.received⟩

theorem receiver_calls {capacity : Nat} {link : Link} (unfailed : link.Unfailed)
    (idle : link.receiver.session.current = none) {length : Nat} {rest : List Nat}
    (pending : link.receiver.pending = length :: rest) : CanGoOn capacity link := by
  let buffer : Int → UInt8 := fun _ => 0
  have moved : linkStep capacity link (.receiverCalls buffer) =
      some
        { link with
          receiver :=
            { pending := rest
              session :=
                { link.receiver.session with
                  current := some ⟨length, [], receiveEntry length buffer⟩ } } } := by
    simp only [linkStep, idle, pending]
  exact ⟨_, _, moved, rfl, unfailed.sent, unfailed.received⟩

theorem sender_done {messages : List Message} {link : Link} {transfer : Transfer UInt8}
    (linked : Linked messages link transfer) (nothing : link.sender.remaining = 0) :
    link.sender.pending = [] ∧ link.sender.current = none := by
  constructor
  · cases pending : link.sender.pending with
    | nil => rfl
    | cons message rest =>
        have positive := message.nonempty
        simp only [SenderSide.remaining, pending, totalBytes, List.map_cons,
          List.sum_cons] at nothing
        omega
  · cases sending : link.sender.current with
    | none => rfl
    | some current =>
        obtain ⟨message, loop⟩ := current
        have positive := (linked.sender.current message loop sending).1
        simp only [SenderSide.remaining, sending, Option.map_some, Option.getD_some] at nothing
        omega

/-- Nothing waits for ever: as long as no call has failed, the transfer is complete or
one of the two sides can go on. -/
theorem complete_or_canGoOn {capacity : Nat} (room : 0 < capacity) {messages : List Message}
    {events : List LinkEvent} {link : Link}
    (run : exec (linkStep capacity) (openLink messages) events = some link)
    (unfailed : link.Unfailed) : link.AllReturnedTrue ∨ CanGoOn capacity link := by
  obtain ⟨transfer, linked, _⟩ := linked_run run
  have balance := remaining_balance run unfailed
  cases receiving : link.receiver.session.current with
  | some current =>
      right
      cases channel : link.channel with
      | cons byte rest => exact receiver_goesOn linked unfailed receiving channel
      | nil =>
          cases sending : link.sender.current with
          | some sent => exact sender_goesOn room linked unfailed sending channel
          | none =>
              cases pending : link.sender.pending with
              | cons message rest => exact sender_calls unfailed sending pending
              | nil =>
                  -- The receiver would be waiting for bytes that nobody has.
                  have waits : 0 < current.loop.nLeft := by
                    simpa [receive] using
                      (linked.receiver.session.current current receiving).2.1
                  simp only [ReceiverSide.remaining, receiving, SenderSide.remaining, sending,
                    pending, channel, totalBytes, Option.map_some, Option.map_none,
                    Option.getD_some, Option.getD_none, List.map_nil, List.sum_nil,
                    List.length_nil] at balance
                  omega
  | none =>
      cases asking : link.receiver.pending with
      | cons length rest => exact Or.inr (receiver_calls unfailed receiving asking)
      | nil =>
          left
          simp only [ReceiverSide.remaining, receiving, asking, Option.map_none, Option.getD_none,
            List.sum_nil] at balance
          have done := sender_done linked (by omega)
          exact ⟨done, unfailed.sent, ⟨asking, receiving⟩, unfailed.received⟩

/-- From every state that is reached without a failed call, whatever the order of the
passes and the pieces the messages were cut into, the transfer can be completed. -/
theorem link_completes {capacity : Nat} (room : 0 < capacity) {messages : List Message}
    {events : List LinkEvent} {link : Link}
    (run : exec (linkStep capacity) (openLink messages) events = some link)
    (unfailed : link.Unfailed) :
    ∃ more final, exec (linkStep capacity) link more = some final ∧ final.AllReturnedTrue := by
  induction measure : link.rank using Nat.strongRecOn generalizing events link with
  | ind rank ih =>
      rcases complete_or_canGoOn room run unfailed with complete | ⟨event, next, moved, works, kept⟩
      · exact ⟨[], link, rfl, complete⟩
      · obtain ⟨transfer, linked, _⟩ := linked_run run
        have less := (rank_linkStep ⟨transfer, linked⟩ moved).2 works
        have further : exec (linkStep capacity) (openLink messages) (events ++ [event]) =
            some next := by
          rw [exec_concat, run, Option.bind_some, moved]
        obtain ⟨more, final, rest, complete⟩ :=
          ih next.rank (measure ▸ less) further kept rfl
        exact ⟨event :: more, final, by rw [exec_cons_of_step moved, rest], complete⟩

/-- The channel holds the last byte of the first message and the first of the second. -/
def halfwayLink : Link :=
  (exec (linkStep 4) (openLink [threeBytes, twoMoreBytes]) (fragmentedRun.take 9)).getD
    (openLink [])

theorem link_completes_halfway :
    ∃ more final, exec (linkStep 4) halfwayLink more = some final ∧ final.AllReturnedTrue :=
  @link_completes 4 (by decide) [threeBytes, twoMoreBytes] (fragmentedRun.take 9) halfwayLink rfl
    ⟨by decide, by decide⟩

end TlsClient
