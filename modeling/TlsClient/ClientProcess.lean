import TlsClient.CloseSocket
import TlsClient.Connect
import TlsClient.Handshake

/-!
# The client process

The thread of `SocketSender` connects, creates the thread of `SocketReceiver`, and
goes on to its TLS session while that thread takes its own steps.  Both of them
read `m_socket`, which on a client nothing but `close` writes again.
-/

namespace TlsClient

open EventDriven ResourceLedger

/-- How far `SocketSender::start_thread` is. -/
inductive ClientPhase
  | connecting (loop : ConnectLoop)
  | connectReturned (ret : Bool)
  | closed
  | spawned
  | initialised
  | handshaking (handshake : Handshake)
  | handshaken (handshake : Handshake)
  | written (handshake : Handshake)
  | finished (handshake : Handshake)
  deriving DecidableEq, Repr

/-- `bioFd` is the descriptor given to `BIO_new_socket`, if there is a BIO, and
`calls` are the calls on the TLS session. -/
structure ClientProcess where
  transport : Transport
  descriptors : List (Entry Int)
  phase : ClientPhase
  receiver : ReceiverPhase
  bioFd : Option Int
  calls : List SslCall
  deriving DecidableEq, Repr

inductive ClientEvent
  | connects (event : ConnectEvent)
  | closes (answers : CloseAnswers)
  | spawns (created : Bool)
  | inits (init : Ended Unit)
  | attaches (sslNew bioNewSocket : Bool)
  | handshakes (call : HandshakeCall)
  | writes
  | shutsDown
  | receiverCreates (epollFd : Option Nat)
  | receiverReads
  | receiverAdds (added : Bool)
  deriving DecidableEq, Repr

def connectPhase : Control ConnectLoop Bool → ClientPhase
  | .running loop => .connecting loop
  | .returned _ ret => .connectReturned ret

def handshakePhase : Control Handshake Unit → ClientPhase
  | .running handshake => .handshaking handshake
  | .returned handshake () => .handshaken handshake

/-- One step of one of the two threads.  A step that ends the process has no
successor: an `exit ( 0 )` in `tlsmanager::init` or in the receiver, a session that
could not be made, or a signal in one of the calls of OpenSSL. -/
def clientStep (report : ErrorReport) (process : ClientProcess) :
    ClientEvent → Option ClientProcess
  | .connects event =>
      match process.phase with
      | .connecting loop =>
          if (connect report).possible loop event then
            some
              { process with
                phase :=
                  connectPhase ((connect report).afterPass ((connect report).body loop event)) }
          else none
      | _ => none
  | .closes answers =>
      match process.phase with
      | .connectReturned false =>
          let (transport, calls) := close process.transport answers
          some
            { process with
              transport := transport
              descriptors := process.descriptors ++ releases calls
              phase := .closed }
      | _ => none
  | .spawns created =>
      match process.phase with
      | .connectReturned true =>
          some
            { process with
              phase := .spawned
              receiver := if created then .starting else process.receiver }
      | _ => none
  | .inits init =>
      match process.phase, init with
      | .spawned, .returned () => some { process with phase := .initialised }
      | _, _ => none
  | .attaches sslNew bioNewSocket =>
      match process.phase with
      | .initialised =>
          if sslNew then
            some
              { process with
                phase := .handshaking handshakeEntry
                bioFd :=
                  if process.transport.mProtocol = .tcp ∧ bioNewSocket = true then
                    some process.transport.mSocket
                  else none }
          else none
      | _ => none
  | .handshakes call =>
      match process.phase with
      | .handshaking handshake =>
          some
            { process with
              phase := handshakePhase (tlsConnect.afterPass (tlsConnect.body handshake call))
              calls := (tlsConnect.body handshake call).state.calls }
      | _ => none
  | .writes =>
      match process.phase with
      | .handshaken handshake =>
          some
            { process with
              phase := .written handshake, calls := process.calls ++ [.SSL_write] }
      | _ => none
  | .shutsDown =>
      match process.phase with
      | .written handshake =>
          some { process with phase := .finished handshake, calls := tlsShutdown process.calls }
      | _ => none
  | .receiverCreates epollFd =>
      match process.receiver, epollFd with
      | .starting, some epollFd =>
          if (epollFd : Int) ∉ held process.descriptors then
            some
              { process with
                receiver := .created epollFd
                descriptors := process.descriptors ++ [.acquired epollFd] }
          else none
      | _, _ => none
  | .receiverReads =>
      match process.receiver with
      | .created epollFd =>
          some { process with receiver := .read epollFd process.transport.mSocket }
      | _ => none
  | .receiverAdds added =>
      match process.receiver with
      | .read epollFd socket =>
          some { process with receiver := .ended epollFd (if added then some socket else none) }
      | _ => none

/-- The thread starts behind `create_socket`, which has put the descriptor of the
socket in both fields, and `::connect` has been called. -/
def clientEntry (protocol : Protocol) (fd : Nat) (start : ConnectLoop) : ClientProcess where
  transport := ⟨fd, fd, protocol, .client⟩
  descriptors := [.acquired fd]
  phase := .connecting start
  receiver := .notCreated
  bioFd := none
  calls := []

def ReceiverPhase.epoll : ReceiverPhase → List Int
  | .created epollFd => [(epollFd : Int)]
  | .read epollFd _ => [(epollFd : Int)]
  | .ended epollFd _ => [(epollFd : Int)]
  | _ => []

/-- The descriptor the receiver has read from `m_socket` and, once it has ended, the
one it has added to its epoll set. -/
def ReceiverPhase.socket : ReceiverPhase → Option Int
  | .read _ socket => some socket
  | .ended _ registered => registered
  | _ => none

/-- The loops the sender has gone through, by its phase, and the calls they account
for. -/
def PhaseHistory (report : ErrorReport) (start : ConnectLoop) (phase : ClientPhase)
    (calls : List SslCall) : Prop :=
  let connected (ret : Bool) := ∃ used last,
    (connect report).run start used = some (.returned last ret)
  let shaken (handshake : Handshake) := ∃ attempts,
    tlsConnect.run handshakeEntry attempts = some (.returned handshake ())
  match phase with
  | .connecting loop =>
      (∃ used, (connect report).run start used = some (.running loop)) ∧ calls = []
  | .connectReturned ret => connected ret ∧ calls = []
  | .closed => connected false ∧ calls = []
  | .spawned => connected true ∧ calls = []
  | .initialised => connected true ∧ calls = []
  | .handshaking handshake =>
      connected true ∧ (∃ attempts,
        tlsConnect.run handshakeEntry attempts = some (.running handshake)) ∧
        calls = handshake.calls
  | .handshaken handshake => connected true ∧ shaken handshake ∧ calls = handshake.calls
  | .written handshake =>
      connected true ∧ shaken handshake ∧ calls = handshake.calls ++ [.SSL_write]
  | .finished handshake =>
      connected true ∧ shaken handshake ∧
        calls = startSender ⟨.returned true, .returned (), true⟩ handshake

/-- What a step does, by the phase it is taken in. -/
inductive ClientMove (report : ErrorReport) (process : ClientProcess) :
    ClientEvent → ClientProcess → Prop
  | connects {event : ConnectEvent} {loop : ConnectLoop}
      (phase : process.phase = .connecting loop)
      (possible : (connect report).possible loop event = true) :
      ClientMove report process (.connects event)
        { process with
          phase :=
            connectPhase ((connect report).afterPass ((connect report).body loop event)) }
  | closes (answers : CloseAnswers) (phase : process.phase = .connectReturned false) :
      ClientMove report process (.closes answers)
        { process with
          transport := (close process.transport answers).1
          descriptors := process.descriptors ++ releases (close process.transport answers).2
          phase := .closed }
  | spawns (created : Bool) (phase : process.phase = .connectReturned true) :
      ClientMove report process (.spawns created)
        { process with
          phase := .spawned, receiver := if created then .starting else process.receiver }
  | inits (phase : process.phase = .spawned) :
      ClientMove report process (.inits (.returned ())) { process with phase := .initialised }
  | attaches (bioNewSocket : Bool) (phase : process.phase = .initialised) :
      ClientMove report process (.attaches true bioNewSocket)
        { process with
          phase := .handshaking handshakeEntry
          bioFd :=
            if process.transport.mProtocol = .tcp ∧ bioNewSocket = true then
              some process.transport.mSocket
            else none }
  | handshakes (call : HandshakeCall) {handshake : Handshake}
      (phase : process.phase = .handshaking handshake) :
      ClientMove report process (.handshakes call)
        { process with
          phase := handshakePhase (tlsConnect.afterPass (tlsConnect.body handshake call))
          calls := (tlsConnect.body handshake call).state.calls }
  | writes {handshake : Handshake} (phase : process.phase = .handshaken handshake) :
      ClientMove report process .writes
        { process with phase := .written handshake, calls := process.calls ++ [.SSL_write] }
  | shutsDown {handshake : Handshake} (phase : process.phase = .written handshake) :
      ClientMove report process .shutsDown
        { process with phase := .finished handshake, calls := tlsShutdown process.calls }
  | receiverCreates {epollFd : Nat} (receiver : process.receiver = .starting)
      (fresh : (epollFd : Int) ∉ held process.descriptors) :
      ClientMove report process (.receiverCreates (some epollFd))
        { process with
          receiver := .created epollFd
          descriptors := process.descriptors ++ [.acquired epollFd] }
  | receiverReads {epollFd : Nat} (receiver : process.receiver = .created epollFd) :
      ClientMove report process .receiverReads
        { process with receiver := .read epollFd process.transport.mSocket }
  | receiverAdds {epollFd : Nat} {socket : Int} (added : Bool)
      (receiver : process.receiver = .read epollFd socket) :
      ClientMove report process (.receiverAdds added)
        { process with receiver := .ended epollFd (if added then some socket else none) }

theorem clientMove_of_clientStep {report : ErrorReport} {process next : ClientProcess}
    {event : ClientEvent} (moved : clientStep report process event = some next) :
    ClientMove report process event next := by
  cases event with
  | connects event =>
      simp only [clientStep] at moved
      split at moved
      · rename_i loop phase
        simp only [Option.ite_none_right_eq_some, Option.some.injEq] at moved
        obtain ⟨possible, rfl⟩ := moved
        exact .connects phase possible
      · cases moved
  | attaches sslNew bioNewSocket =>
      simp only [clientStep] at moved
      split at moved
      · rename_i phase
        simp only [Option.ite_none_right_eq_some, Option.some.injEq] at moved
        obtain ⟨rfl, rfl⟩ := moved
        exact .attaches bioNewSocket phase
      · cases moved
  | receiverCreates epollFd =>
      simp only [clientStep] at moved
      split at moved
      · rename_i epollFd receiver
        simp only [Option.ite_none_right_eq_some, Option.some.injEq] at moved
        obtain ⟨fresh, rfl⟩ := moved
        exact .receiverCreates receiver fresh
      · cases moved
  | closes answers =>
      simp only [clientStep] at moved
      split at moved
      · rename_i phase
        cases moved
        exact .closes answers phase
      · cases moved
  | spawns created =>
      simp only [clientStep] at moved
      split at moved
      · rename_i phase
        cases moved
        exact .spawns created phase
      · cases moved
  | inits init =>
      simp only [clientStep] at moved
      split at moved
      · rename_i phase
        cases moved
        exact .inits phase
      · cases moved
  | handshakes call =>
      simp only [clientStep] at moved
      split at moved
      · rename_i phase
        cases moved
        exact .handshakes call phase
      · cases moved
  | writes =>
      simp only [clientStep] at moved
      split at moved
      · rename_i phase
        cases moved
        exact .writes phase
      · cases moved
  | shutsDown =>
      simp only [clientStep] at moved
      split at moved
      · rename_i phase
        cases moved
        exact .shutsDown phase
      · cases moved
  | receiverReads =>
      simp only [clientStep] at moved
      split at moved
      · rename_i receiver
        cases moved
        exact .receiverReads receiver
      · cases moved
  | receiverAdds added =>
      simp only [clientStep] at moved
      split at moved
      · rename_i receiver
        cases moved
        exact .receiverAdds added receiver
      · cases moved

theorem phaseHistory_step {report : ErrorReport} {start : ConnectLoop}
    {process next : ClientProcess} {event : ClientEvent}
    (history : PhaseHistory report start process.phase process.calls)
    (moved : clientStep report process event = some next) :
    PhaseHistory report start next.phase next.calls := by
  cases clientMove_of_clientStep moved with
  | @connects event loop phase possible =>
      rw [phase] at history
      obtain ⟨⟨used, run⟩, none⟩ := history
      have further := Loop.run_concat_of_running run possible
      cases outcome : (connect report).afterPass ((connect report).body loop event) with
      | running loop => exact ⟨⟨_, further.trans (congrArg some outcome)⟩, none⟩
      | returned last ret => exact ⟨⟨_, _, further.trans (congrArg some outcome)⟩, none⟩
  | closes answers phase =>
      rw [phase] at history
      exact history
  | spawns created phase =>
      rw [phase] at history
      exact history
  | inits phase =>
      rw [phase] at history
      exact history
  | attaches bioNewSocket phase =>
      rw [phase] at history
      exact ⟨history.1, ⟨[], rfl⟩, history.2⟩
  | @handshakes call handshake phase =>
      rw [phase] at history
      obtain ⟨connected, ⟨attempts, run⟩, _⟩ := history
      have further : tlsConnect.run handshakeEntry (attempts ++ [call]) = some _ :=
        Loop.run_concat_of_running run rfl
      have same := tlsConnect.afterPass_state (tlsConnect.body handshake call)
      cases outcome : tlsConnect.afterPass (tlsConnect.body handshake call) with
      | running later =>
          rw [outcome] at same further
          exact ⟨connected, ⟨_, further⟩, congrArg Handshake.calls same.symm⟩
      | returned last ret =>
          rw [outcome] at same further
          exact ⟨connected, ⟨_, further⟩, congrArg Handshake.calls same.symm⟩
  | writes phase =>
      rw [phase] at history
      obtain ⟨connected, shaken, calls⟩ := history
      exact ⟨connected, shaken, by rw [calls]⟩
  | shutsDown phase =>
      rw [phase] at history
      obtain ⟨connected, shaken, calls⟩ := history
      exact ⟨connected, shaken, by rw [calls]; rfl⟩
  | receiverCreates receiver fresh => exact history
  | receiverReads receiver => exact history
  | receiverAdds added receiver => exact history

def ClientEvent.givesBack : ClientEvent → Bool
  | .closes answers => decide (answers.shutdown ≠ 0)
  | _ => false

def ClientPhase.isEarly : ClientPhase → Bool
  | .connecting _ => true
  | .connectReturned _ => true
  | .closed => true
  | _ => false

/-- From `tls_connect` on there is a TLS session. -/
def ClientPhase.hasSession : ClientPhase → Bool
  | .handshaking _ => true
  | .handshaken _ => true
  | .written _ => true
  | .finished _ => true
  | _ => false

/-- Both threads work on the socket the client was given, and what is open is that
socket, unless it has been closed, and the epoll descriptor of the receiver. -/
structure OwnDescriptors (fd : Nat) (past : List ClientEvent) (process : ClientProcess) :
    Prop where
  socket : process.phase ≠ .closed → process.transport.mSocket = fd
  receiver : ∀ socket ∈ process.receiver.socket, socket = fd
  bio : ∀ socket ∈ process.bioFd, socket = fd
  early : process.phase.isEarly = true → process.receiver = .notCreated
  opened : held process.descriptors =
    (if past.any ClientEvent.givesBack then [] else [(fd : Int)]) ++ process.receiver.epoll
  kept : process.phase ≠ .closed → past.any ClientEvent.givesBack = false

theorem any_givesBack_append (past : List ClientEvent) (event : ClientEvent) :
    (past ++ [event]).any ClientEvent.givesBack =
      (past.any ClientEvent.givesBack || event.givesBack) := by
  simp

theorem isEarly_handshakePhase (control : Control Handshake Unit) :
    (handshakePhase control).isEarly = false := by
  cases control <;> rfl

/-- A step of the sender that leaves the descriptors alone. -/
theorem OwnDescriptors.sender {fd : Nat} {past : List ClientEvent} {process : ClientProcess}
    (own : OwnDescriptors fd past process) {event : ClientEvent} {phase : ClientPhase}
    {calls : List SslCall} (open' : process.phase ≠ .closed)
    (later : phase.isEarly = true → process.phase.isEarly = true)
    (keeps : event.givesBack = false) :
    OwnDescriptors fd (past ++ [event]) { process with phase := phase, calls := calls } where
  socket _ := own.socket open'
  receiver := own.receiver
  bio := own.bio
  early isEarly := own.early (later isEarly)
  opened := by
    rw [any_givesBack_append, keeps, Bool.or_false]
    exact own.opened
  kept _ := by rw [any_givesBack_append, own.kept open', keeps, Bool.or_false]

/-- `close` gives the socket back if `::shutdown` fails on it. -/
theorem OwnDescriptors.closes {fd : Nat} {past : List ClientEvent} {process : ClientProcess}
    (own : OwnDescriptors fd past process) (phase : process.phase = .connectReturned false)
    (answers : CloseAnswers) :
    OwnDescriptors fd (past ++ [.closes answers])
      { process with
        transport := (close process.transport answers).1
        descriptors := process.descriptors ++ releases (close process.transport answers).2
        phase := .closed } := by
  have running : process.phase ≠ .closed := by simp [phase]
  have socket := own.socket running
  have alone : process.receiver = .notCreated := own.early (by rw [phase]; rfl)
  have opened : held process.descriptors = [(fd : Int)] := by
    rw [own.opened, own.kept running, alone]
    rfl
  have valid : process.transport.mSocket ≠ -1 := by omega
  refine
    { socket := fun closed => absurd rfl closed
      receiver := own.receiver
      bio := own.bio
      early := fun _ => alone
      opened := ?_
      kept := fun closed => absurd rfl closed }
  rw [any_givesBack_append, own.kept running, Bool.false_or, alone]
  by_cases shutDown : answers.shutdown = 0
  · simp [close_of_shutdown valid shutDown, releases, opened, ClientEvent.givesBack, shutDown,
      ReceiverPhase.epoll]
  · rw [close_of_failed_shutdown valid shutDown]
    simp [releases, opened, ClientEvent.givesBack, shutDown, ReceiverPhase.epoll, hold, socket]

/-- A step of the receiver. -/
theorem OwnDescriptors.receives {fd : Nat} {past : List ClientEvent} {process : ClientProcess}
    (own : OwnDescriptors fd past process) {event : ClientEvent} {receiver : ReceiverPhase}
    {entries : List (Entry Int)} (spawned : process.receiver ≠ .notCreated)
    (socket : ∀ socket ∈ receiver.socket, socket = fd)
    (opened : held (process.descriptors ++ entries) =
      (if past.any ClientEvent.givesBack then [] else [(fd : Int)]) ++ receiver.epoll)
    (keeps : event.givesBack = false) :
    OwnDescriptors fd (past ++ [event])
      { process with receiver := receiver, descriptors := process.descriptors ++ entries } where
  socket := own.socket
  receiver := socket
  bio := own.bio
  early isEarly := absurd (own.early isEarly) spawned
  opened := by
    rw [any_givesBack_append, keeps, Bool.or_false]
    exact opened
  kept running := by rw [any_givesBack_append, own.kept running, keeps, Bool.or_false]

theorem OwnDescriptors.spawns {fd : Nat} {past : List ClientEvent} {process : ClientProcess}
    (own : OwnDescriptors fd past process) (phase : process.phase = .connectReturned true)
    (created : Bool) :
    OwnDescriptors fd (past ++ [.spawns created])
      { process with
        phase := .spawned, receiver := if created then .starting else process.receiver } := by
  have kept : OwnDescriptors fd (past ++ [.spawns created]) { process with phase := .spawned } :=
    own.sender (by simp [phase]) nofun rfl
  have alone : process.receiver = .notCreated := own.early (by rw [phase]; rfl)
  cases created with
  | false => exact kept
  | true =>
      have opened := kept.opened
      rw [alone] at opened
      exact
        { socket := kept.socket
          receiver := nofun
          bio := kept.bio
          early := nofun
          opened := opened
          kept := kept.kept }

theorem OwnDescriptors.attaches {fd : Nat} {past : List ClientEvent} {process : ClientProcess}
    (own : OwnDescriptors fd past process) (phase : process.phase = .initialised)
    (bioNewSocket : Bool) :
    OwnDescriptors fd (past ++ [.attaches true bioNewSocket])
      { process with
        phase := .handshaking handshakeEntry
        bioFd :=
          if process.transport.mProtocol = .tcp ∧ bioNewSocket = true then
            some process.transport.mSocket
          else none } := by
  have running : process.phase ≠ .closed := by simp [phase]
  have kept : OwnDescriptors fd (past ++ [.attaches true bioNewSocket])
      { process with phase := .handshaking handshakeEntry } := own.sender running nofun rfl
  refine
    { socket := kept.socket
      receiver := kept.receiver
      bio := ?_
      early := nofun
      opened := kept.opened
      kept := kept.kept }
  intro socket attached
  dsimp only at attached
  split at attached
  · cases attached
    exact own.socket running
  · cases attached

theorem OwnDescriptors.running {fd : Nat} {past : List ClientEvent} {process : ClientProcess}
    (own : OwnDescriptors fd past process) (spawned : process.receiver ≠ .notCreated) :
    process.phase ≠ .closed := by
  intro closed
  exact spawned (own.early (by rw [closed]; rfl))

theorem ownDescriptors_step {report : ErrorReport} {fd : Nat} {past : List ClientEvent}
    {process next : ClientProcess} {event : ClientEvent}
    (own : OwnDescriptors fd past process)
    (moved : clientStep report process event = some next) :
    OwnDescriptors fd (past ++ [event]) next := by
  cases clientMove_of_clientStep moved with
  | connects phase possible =>
      exact own.sender (by simp [phase]) (fun _ => by rw [phase]; rfl) rfl
  | closes answers phase => exact own.closes phase answers
  | spawns created phase => exact own.spawns phase created
  | inits phase => exact own.sender (by simp [phase]) nofun rfl
  | attaches bioNewSocket phase => exact own.attaches phase bioNewSocket
  | handshakes call phase =>
      refine own.sender (by simp [phase]) ?_ rfl
      rw [isEarly_handshakePhase]
      nofun
  | writes phase => exact own.sender (by simp [phase]) nofun rfl
  | shutsDown phase => exact own.sender (by simp [phase]) nofun rfl
  | receiverCreates receiver fresh =>
      refine own.receives (by simp [receiver]) nofun ?_ rfl
      rw [held_concat, own.opened, receiver]
      simp [hold, ReceiverPhase.epoll]
  | receiverReads receiver =>
      have spawned : process.receiver ≠ .notCreated := by simp [receiver]
      have opened := own.opened
      rw [receiver] at opened
      rw [← List.append_nil process.descriptors] at opened ⊢
      refine own.receives spawned ?_ opened rfl
      rintro socket ⟨rfl⟩
      exact own.socket (own.running spawned)
  | @receiverAdds epollFd socket added receiver =>
      have spawned : process.receiver ≠ .notCreated := by simp [receiver]
      have opened := own.opened
      have read := own.receiver
      rw [receiver] at opened read
      rw [← List.append_nil process.descriptors] at opened ⊢
      refine own.receives spawned ?_ opened rfl
      cases added with
      | true => exact read
      | false => simp [ReceiverPhase.socket]

theorem ownDescriptors_run {report : ErrorReport} {protocol : Protocol} {fd : Nat}
    {start : ConnectLoop} {events : List ClientEvent} {final : ClientProcess}
    (run : exec (clientStep report) (clientEntry protocol fd start) events = some final) :
    OwnDescriptors fd events final := by
  have initial : OwnDescriptors fd [] (clientEntry protocol fd start) :=
    { socket := fun _ => rfl
      receiver := nofun
      bio := nofun
      early := fun _ => rfl
      opened := rfl
      kept := fun _ => rfl }
  exact exec_history (OwnDescriptors fd) initial
    (fun _ _ _ _ own moved => ownDescriptors_step own moved) run

theorem connectHistory_entry (report : ErrorReport) {answer : ConnectAnswer} {start : ConnectLoop}
    (entered : connectEntry answer = .returned start) :
    ConnectHistory [] start ∧ (connect report).continues start = true := by
  cases answer with
  | connected =>
      cases entered
      exact ⟨by simp [ConnectHistory, Refused], rfl⟩
  | failed errno =>
      simp only [connectEntry] at entered
      split at entered
      · cases entered
        exact ⟨by simp [ConnectHistory, Refused, readyReports], rfl⟩
      · cases entered

theorem phaseHistory_run {report : ErrorReport} {protocol : Protocol} {fd : Nat}
    {answer : ConnectAnswer} {start : ConnectLoop} {events : List ClientEvent}
    {final : ClientProcess} (entered : connectEntry answer = .returned start)
    (run : exec (clientStep report) (clientEntry protocol fd start) events = some final) :
    PhaseHistory report start final.phase final.calls := by
  have continues := (connectHistory_entry report entered).2
  have initial : PhaseHistory report start (clientEntry protocol fd start).phase
      (clientEntry protocol fd start).calls :=
    ⟨⟨[], Loop.run_nil_of_continues _ continues⟩, rfl⟩
  exact exec_invariant (fun process => PhaseHistory report start process.phase process.calls)
    initial (fun _ _ _ history moved => phaseHistory_step history moved) run

/-- Past its early phases, the sender has had `true` from `connect`. -/
theorem PhaseHistory.connected {report : ErrorReport} {start : ConnectLoop}
    {phase : ClientPhase} {calls : List SslCall}
    (history : PhaseHistory report start phase calls) :
    (phase.isEarly = true ∧ phase.hasSession = false) ∨
      ∃ used last, (connect report).run start used = some (.returned last true) := by
  cases phase with
  | connecting loop => exact Or.inl ⟨rfl, rfl⟩
  | connectReturned ret => exact Or.inl ⟨rfl, rfl⟩
  | closed => exact Or.inl ⟨rfl, rfl⟩
  | spawned => exact Or.inr history.1
  | initialised => exact Or.inr history.1
  | handshaking handshake => exact Or.inr history.1
  | handshaken handshake => exact Or.inr history.1
  | written handshake => exact Or.inr history.1
  | finished handshake => exact Or.inr history.1

/-- The calls on the session are those of `startSender`, so what is said of these
holds of the process. -/
theorem client_calls_of_finished {report : ErrorReport} {protocol : Protocol} {fd : Nat}
    {answer : ConnectAnswer} {start : ConnectLoop} {events : List ClientEvent}
    {final : ClientProcess} {handshake : Handshake}
    (entered : connectEntry answer = .returned start)
    (run : exec (clientStep report) (clientEntry protocol fd start) events = some final)
    (finished : final.phase = .finished handshake) :
    (∃ attempts, tlsConnect.run handshakeEntry attempts = some (.returned handshake ())) ∧
      final.calls = startSender ⟨.returned true, .returned (), true⟩ handshake := by
  have history := phaseHistory_run entered run
  rw [finished] at history
  exact history.2

/-- In every state reached, the client has its socket open, and with it the epoll
descriptor once there is one: it gives the socket back only when `connect` has
returned `false` and `::shutdown` fails, and the epoll descriptor never. -/
theorem client_held {report : ErrorReport} {protocol : Protocol} {fd : Nat}
    {start : ConnectLoop} {events : List ClientEvent} {final : ClientProcess}
    (run : exec (clientStep report) (clientEntry protocol fd start) events = some final) :
    held final.descriptors =
      (if events.any ClientEvent.givesBack then [] else [(fd : Int)]) ++
        final.receiver.epoll :=
  (ownDescriptors_run run).opened

def timedOutThrice : List ClientEvent :=
  List.replicate 3 (.connects (.polls ⟨.timedOut, none⟩))

/-- `connect` gives up, and `::shutdown` succeeds: the socket stays open. -/
theorem client_held_unconnected :
    ∃ final,
      exec (clientStep .byArgument) (clientEntry .tcp 3 ⟨0, .inProgress⟩)
          (timedOutThrice ++ [.closes ⟨0, 0, 0⟩]) = some final ∧
        held final.descriptors = [3] :=
  ⟨_, rfl, @client_held .byArgument .tcp 3 ⟨0, .inProgress⟩
    (timedOutThrice ++ [.closes ⟨0, 0, 0⟩]) _ rfl⟩

end TlsClient
