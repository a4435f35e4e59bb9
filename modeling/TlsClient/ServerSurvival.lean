import TlsClient.ServerDescriptors

/-!
# The server among its peers

The process has more than one thread that can end it: the listener exits in the
middle of a turn, or is killed in a call of OpenSSL, and a receiver exits when it gets
no epoll descriptor.  A run of the process takes the turns of the listener and the
steps of the receivers in any order, up to the step that ends it.
-/

namespace TlsClient

open EventDriven

/-- The process, step by step.  A run ends when the process does, or when the
listener leaves its loop. -/
def serverProcess : Loop Server ServerEvent ListenerEnd where
  continues _ := true
  fallsOut _ := .leftLoop
  body server event := (processStep server event).getD (.again server)
  possible server event := (processStep server event).isSome

def ServerEvent.FromPeers : ServerEvent → Prop
  | .listener turn => turn.FromPeers
  | _ => True

/-- A connection gets through its turn, and a receiver gets its epoll descriptor. -/
def ServerEvent.GoesThrough (protocol : Protocol) : ServerEvent → Prop
  | .listener turn => turn.WakesUp → turn.GoesThrough protocol
  | .receiverCreates _ epollFd => epollFd.isSome = true
  | _ => True

/-- The process has not ended, and the listener polls the passive socket. -/
def BackAtPoll (transport : Transport) (control : Control Server ListenerEnd) : Prop :=
  ∃ server, control = .running server ∧ server.pollSet = [⟨transport.mPassiveSocket, true⟩]

/-- As long as the process goes on, its runs are those of the steps that have a
successor. -/
theorem serverProcess_running_iff (initial final : Server) (events : List ServerEvent) :
    serverProcess.run initial events = some (.running final) ↔
      exec serverStep initial events = some final := by
  induction events generalizing initial with
  | nil => simp [Loop.head, serverProcess]
  | cons event events ih =>
      have continues : serverProcess.continues initial = true := rfl
      simp only [Loop.run_cons_running continues, ih, exec_cons, Option.bind_eq_some_iff,
        serverStep_eq_some_iff]
      cases taken : processStep initial event with
      | none => simp [serverProcess, taken]
      | some pass => simp [serverProcess, taken]

theorem processStep_again_iff {server : Server} {event : ServerEvent}
    {pass : Pass Server ListenerEnd} (fromPeers : event.FromPeers)
    (taken : processStep server event = some pass) :
    (∃ next, pass = .again next) ↔ event.GoesThrough server.transport.mProtocol := by
  by_cases fromListener : ∃ turn, event = .listener turn
  · obtain ⟨turn, rfl⟩ := fromListener
    simp only [processStep, Option.ite_none_right_eq_some, Option.some.injEq] at taken
    obtain ⟨_, rfl⟩ := taken
    exact listenerTurn_again_iff server fromPeers
  · rcases processStep_thread taken fun turn same => fromListener ⟨turn, same⟩ with
      ⟨next, rfl, step⟩ | ⟨⟨index, rfl⟩, rfl⟩
    · refine iff_of_true ⟨next, rfl⟩ ?_
      cases step with
      | senderCreates created found => exact trivial
      | receiverCreates found fresh => exact rfl
      | receiverReads found => exact trivial
      | receiverAdds added found => exact trivial
    · simp [ServerEvent.GoesThrough]

theorem processStep_keeps {server next : Server} {event : ServerEvent}
    (again : processStep server event = some (.again next)) :
    next.pollSet = server.pollSet ∧
      next.transport.mProtocol = server.transport.mProtocol := by
  have moved := serverStep_eq_some_iff.mpr again
  by_cases fromListener : ∃ turn, event = .listener turn
  · obtain ⟨turn, rfl⟩ := fromListener
    rcases serverStep_listener moved with ⟨rfl, _⟩ | ⟨_, _, _, fd, ret, _, _, _, rfl⟩
    · exact ⟨rfl, rfl⟩
    · exact ⟨rfl, rfl⟩
  · cases threadStep_of_serverStep moved fun turn same => fromListener ⟨turn, same⟩ <;>
      exact ⟨rfl, rfl⟩

/-- What a process that is still running has behind it. -/
structure Survived (transport : Transport) (past : List ServerEvent) (server : Server) : Prop where
  watches : server.pollSet = [⟨transport.mPassiveSocket, true⟩]
  protocol : server.transport.mProtocol = transport.mProtocol
  through : ∀ event ∈ past, event.GoesThrough transport.mProtocol

theorem survived_again {transport : Transport} {past : List ServerEvent} {server next : Server}
    {event : ServerEvent} (survived : Survived transport past server)
    (fromPeers : event.FromPeers) (again : processStep server event = some (.again next)) :
    Survived transport (past ++ [event]) next := by
  obtain ⟨sameSet, sameProtocol⟩ := processStep_keeps again
  have goesThrough := (processStep_again_iff fromPeers again).mp ⟨next, rfl⟩
  rw [survived.protocol] at goesThrough
  constructor
  · exact sameSet.trans survived.watches
  · exact sameProtocol.trans survived.protocol
  · rw [List.forall_mem_append, List.forall_mem_singleton]
    exact ⟨survived.through, goesThrough⟩

theorem not_goesThrough_of_done {transport : Transport} {past : List ServerEvent}
    {server final : Server} {event : ServerEvent} {ended : ListenerEnd}
    (survived : Survived transport past server) (fromPeers : event.FromPeers)
    (done : processStep server event = some (.done final ended)) :
    ¬ event.GoesThrough transport.mProtocol := by
  intro goesThrough
  rw [← survived.protocol] at goesThrough
  obtain ⟨next, again⟩ := (processStep_again_iff fromPeers done).mpr goesThrough
  cases again

/-- Over any run with events from the peers, whatever order the threads step in, the
server survives exactly when every wake-up finds a connection that goes through, up to
the end of its shutdown, and every receiver gets an epoll descriptor. -/
theorem listener_survives_iff {transport : Transport} {events : List ServerEvent}
    {control : Control Server ListenerEnd} (fromPeers : ∀ event ∈ events, event.FromPeers)
    (run : serverProcess.run (listenerEntry transport) events = some control) :
    BackAtPoll transport control ↔
      ∀ event ∈ events, event.GoesThrough transport.mProtocol := by
  have satisfied := Loop.run_satisfies
    (fun past server => (∀ event ∈ past, event.FromPeers) → Survived transport past server)
    (fun past _ _ => (∀ event ∈ past, event.FromPeers) →
      ¬ ∀ event ∈ past, event.GoesThrough transport.mProtocol)
    (fun _ => ⟨rfl, rfl, by simp⟩) (fun stops => by cases stops) ?_ run
  · cases control with
    | running server =>
        have survived := satisfied.2 fromPeers
        exact iff_of_true ⟨server, rfl, survived.watches⟩ survived.through
    | returned server ended =>
        refine iff_of_false ?_ (satisfied fromPeers)
        rintro ⟨_, same, _⟩
        cases same
  intro past server event survived _ possible
  obtain ⟨pass, taken⟩ := Option.isSome_iff_exists.mp possible
  have body : serverProcess.body server event = pass := by
    simp only [serverProcess, taken, Option.getD_some]
  rw [body]
  cases pass with
  | again next =>
      apply Loop.satisfies_of_again rfl
      · intro peers
        rw [List.forall_mem_append, List.forall_mem_singleton] at peers
        exact survived_again (survived peers.1) peers.2 taken
      · intro stops
        cases stops
  | done final ended =>
      apply Loop.satisfies_of_done rfl
      intro peers through
      rw [List.forall_mem_append, List.forall_mem_singleton] at peers through
      exact not_goesThrough_of_done (survived peers.1) peers.2 taken through.2

theorem fromPeers_servedTurn (fd : Nat) (sslAccept : Int) :
    (servedTurn fd sslAccept).FromPeers := by
  simp [ListenerTurn.FromPeers, servedTurn]

/-- A connection with its receiver, then a handshake that fails. -/
theorem listener_survives_iff_served :
    ∃ control,
      serverProcess.run (listenerEntry ⟨0, 3, .tcp, .server⟩)
          (oneConnection ++ [.listener (servedTurn 6 (-1))]) = some control ∧
        BackAtPoll ⟨0, 3, .tcp, .server⟩ control := by
  refine ⟨_, rfl, (@listener_survives_iff ⟨0, 3, .tcp, .server⟩
    (oneConnection ++ [.listener (servedTurn 6 (-1))]) _ ?_ rfl).mpr ?_⟩
  · simp [oneConnection, ServerEvent.FromPeers, fromPeers_servedTurn]
  · simp [oneConnection, ServerEvent.GoesThrough, goesThrough_servedTurn]

def abortedTurn : ListenerTurn :=
  { servedTurn 5 1 with accept := ⟨⟨.failed, some .ECONNABORTED⟩, true, true, true⟩ }

/-- The peer has sent its `ClientHello` and closed the connection. -/
def hungUpTurn : ListenerTurn :=
  { servedTurn 4 1 with tlsAccept := ⟨true, true, .exited⟩ }

/-- Events from peers, behind which the listener is not back at its poll. -/
def Lost (protocol : Protocol) (events : List ServerEvent) : Prop :=
  (∀ event ∈ events, event.FromPeers) ∧
    ∃ control, serverProcess.run (listenerEntry ⟨0, 3, protocol, .server⟩) events = some control ∧
      ¬ BackAtPoll ⟨0, 3, protocol, .server⟩ control

theorem lost_of_returned {protocol : Protocol} {events : List ServerEvent} {final : Server}
    {ended : ListenerEnd} (fromPeers : ∀ event ∈ events, event.FromPeers)
    (run : serverProcess.run (listenerEntry ⟨0, 3, protocol, .server⟩) events =
      some (.returned final ended)) : Lost protocol events := by
  refine ⟨fromPeers, _, run, ?_⟩
  rintro ⟨_, same, _⟩
  cases same

/-- A client that aborts before it is accepted ends the process, one that hangs up in
the handshake does, any client of a server that speaks SCTP does, and so does a
connection for which there is no epoll descriptor. -/
theorem listener_exits_for_a_peer :
    Lost .tcp [.listener abortedTurn] ∧ Lost .tcp [.listener hungUpTurn] ∧
      Lost .sctp [.listener (servedTurn 4 1)] ∧
      Lost .tcp [.listener (servedTurn 4 1), .senderCreates 0 true, .receiverCreates 0 none] := by
  have aborted : abortedTurn.FromPeers := by
    simp [ListenerTurn.FromPeers, abortedTurn, servedTurn, isTransient]
  have hungUp : hungUpTurn.FromPeers := by
    simp [ListenerTurn.FromPeers, hungUpTurn, servedTurn]
  refine ⟨lost_of_returned ?_ rfl, lost_of_returned ?_ rfl, lost_of_returned ?_ rfl,
    lost_of_returned ?_ rfl⟩
  · simp [ServerEvent.FromPeers, aborted]
  · simp [ServerEvent.FromPeers, hungUp]
  · simp [ServerEvent.FromPeers, fromPeers_servedTurn]
  · simp [ServerEvent.FromPeers, fromPeers_servedTurn]

end TlsClient
