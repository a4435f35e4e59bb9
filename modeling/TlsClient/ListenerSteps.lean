import TlsClient.ServerDescriptors

/-!
# The listener between the steps of other threads

A turn of the listener takes long: `accept`, `tlsmanager::init`, the handshake
and a `sleep` before the shutdown.  Here the threads of all connections move in
between.  Seen from the poll, this makes no difference: what is reached is
reached by whole turns.
-/

namespace TlsClient

open EventDriven

/-- How far the listener is in its turn, with the answers met so far.  `bioFd` is
the descriptor `BIO_new_socket` has been given. -/
inductive ListenerPhase
  | polling
  | wokenUp (poll : Answered PollAnswer)
  | accepted (poll : Answered PollAnswer) (call : AcceptCall)
  | initialised (poll : Answered PollAnswer) (call : AcceptCall)
  | attached (poll : Answered PollAnswer) (call : AcceptCall) (bioFd : Int)
  | handshaken (poll : Answered PollAnswer) (call : AcceptCall) (bioFd : Int) (ret : Int)
  deriving DecidableEq, Repr

/-- The server in the middle of a turn.  `sockets` has the descriptor of each
connection served, and the one its session was attached to. -/
structure SteppedServer where
  server : Server
  phase : ListenerPhase
  sockets : List (AcceptAnswer × Int)
  deriving DecidableEq, Repr

inductive ListenerEvent
  | polls (poll : Answered PollAnswer)
  | accepts (call : AcceptCall)
  | inits (init : Ended Unit)
  | attaches (bioNewSocket sslNew : Bool)
  | handshakes (sslAccept : Ended Int)
  | shutsDown (sslShutdown : Ended Unit)
  | thread (event : ServerEvent)
  deriving DecidableEq, Repr

def Server.finish (server : Server) (sslAccept : Int) : Server :=
  { server with
    sessions := server.sessions ++ [tlsShutdown [.SSL_accept sslAccept]] }

/-- A poll of the listener: whether `process_listening_socket` goes on to
`accept`; `none` if the listener ends. -/
def pollPhase (poll : Answered PollAnswer) : Option ListenerPhase :=
  match poll.answer with
  | .failed =>
      if poll.errno = some .EINTR ∨ poll.errno = some .EAGAIN then some .polling else none
  | .timedOut => some .polling
  | .ready revents =>
      if revents.POLLIN then some (.wokenUp poll)
      else if revents.POLLNVAL then none
      else if revents.POLLERR then none
      else if revents.POLLHUP then none
      else some .polling

/-- One step of one thread.  A step of the listener belongs to the phase it is
in; one that ends the process, by an exit or by a signal, has no successor. -/
def steppedStep (state : SteppedServer) : ListenerEvent → Option SteppedServer
  | .polls poll =>
      match state.phase with
      | .polling => (pollPhase poll).map fun phase => { state with phase := phase }
      | _ => none
  | .accepts call =>
      match state.phase, call.accept.answer, accept state.server call with
      | .wokenUp poll, .accepted fd, .again next =>
          if state.server.fresh fd then
            some { state with server := next, phase := .accepted poll call }
          else none
      | _, _, _ => none
  | .inits init =>
      match state.phase, init with
      | .accepted poll call, .returned () => some { state with phase := .initialised poll call }
      | _, _ => none
  | .attaches bioNewSocket sslNew =>
      match state.phase, tlsAccept state.server.transport.mProtocol
        ⟨bioNewSocket, sslNew, .returned 0⟩ with
      | .initialised poll call, .returned _ =>
          some { state with phase := .attached poll call state.server.transport.mSocket }
      | _, _ => none
  | .handshakes sslAccept =>
      match state.phase, sslAccept with
      | .attached poll call bioFd, .returned ret =>
          some { state with phase := .handshaken poll call bioFd ret }
      | _, _ => none
  | .shutsDown sslShutdown =>
      match state.phase, sslShutdown with
      | .handshaken _ call bioFd ret, .returned () =>
          some
            { server := state.server.finish ret
              phase := .polling
              sockets := state.sockets ++ [(call.accept.answer, bioFd)] }
      | _, _ => none
  | .thread (.listener _) => none
  | .thread event => (serverStep state.server event).map fun next => { state with server := next }

def steppedEntry (transport : Transport) : SteppedServer where
  server := listenerEntry transport
  phase := .polling
  sockets := []

/-- The server is reached by whole turns. -/
def Reached (transport : Transport) (server : Server) : Prop :=
  ∃ events, exec serverStep (listenerEntry transport) events = some server

/-- What the whole-turn server has to offer for a server in the middle of a turn:
it reaches every state the turn can still end in, once the handshake's result is
known. -/
def Completes (transport : Transport) (state : SteppedServer) : Prop :=
  match state.phase with
  | .polling => Reached transport state.server
  | .wokenUp poll =>
      Reached transport state.server ∧
        ∃ revents, poll.answer = .ready revents ∧ revents.POLLIN = true
  | .accepted _ _ | .initialised _ _ =>
      state.server.transport.mProtocol = .tcp →
        ∀ sslAccept, Reached transport (state.server.finish sslAccept)
  | .attached _ _ _ => ∀ sslAccept, Reached transport (state.server.finish sslAccept)
  | .handshaken _ _ _ sslAccept => Reached transport (state.server.finish sslAccept)

/-- The session of the turn is attached to the descriptor its `accept` returned;
up to `BIO_new_socket` that descriptor is in `m_socket`. -/
def OwnSocket (state : SteppedServer) : Prop :=
  (∀ pair ∈ state.sockets, ∃ fd : Nat, pair = (.accepted fd, (fd : Int))) ∧
    match state.phase with
    | .polling | .wokenUp _ => True
    | .accepted _ call | .initialised _ call =>
        ∃ fd : Nat, call.accept.answer = .accepted fd ∧ state.server.transport.mSocket = fd
    | .attached _ call bioFd | .handshaken _ call bioFd _ =>
        ∃ fd : Nat, call.accept.answer = .accepted fd ∧ bioFd = fd

theorem Reached.step {transport : Transport} {server next : Server} {event : ServerEvent}
    (reached : Reached transport server) (moved : serverStep server event = some next) :
    Reached transport next := by
  obtain ⟨events, run⟩ := reached
  exact ⟨events ++ [event], by rw [exec_concat, run]; exact moved⟩

theorem threadStep_transport {server next : Server} {event : ServerEvent}
    (step : ThreadStep server event next) : next.transport = server.transport := by
  cases step <;> rfl

/-- The threads neither see nor touch what the end of a turn adds. -/
theorem threadStep_finish {server next : Server} {event : ServerEvent}
    (step : ThreadStep server event next) (sslAccept : Int) :
    ThreadStep (server.finish sslAccept) event (next.finish sslAccept) := by
  cases step with
  | senderCreates created found =>
      exact @ThreadStep.senderCreates (server.finish sslAccept) _ _ _ created found
  | receiverCreates found fresh =>
      exact @ThreadStep.receiverCreates (server.finish sslAccept) _ _ _ _ found fresh
  | receiverReads found =>
      exact @ThreadStep.receiverReads (server.finish sslAccept) _ _ _ _ found
  | receiverAdds added found =>
      exact @ThreadStep.receiverAdds (server.finish sslAccept) _ _ _ _ _ added found

theorem steppedStep_thread {state next : SteppedServer} {event : ServerEvent}
    (moved : steppedStep state (.thread event) = some next) :
    ∃ server, ThreadStep state.server event server ∧ next = { state with server := server } := by
  cases event with
  | listener turn => simp [steppedStep] at moved
  | _ =>
      simp only [steppedStep, Option.map_eq_some_iff] at moved
      obtain ⟨server, step, rfl⟩ := moved
      exact ⟨server, threadStep_of_serverStep step (by simp), rfl⟩

theorem steppedStep_of_thread {state : SteppedServer} {next : Server} {event : ServerEvent}
    (thread : ∀ turn, event ≠ .listener turn)
    (moved : serverStep state.server event = some next) :
    steppedStep state (.thread event) = some { state with server := next } := by
  cases event with
  | listener turn => exact absurd rfl (thread turn)
  | _ => simp only [steppedStep, moved, Option.map_some]

theorem pollPhase_cases {poll : Answered PollAnswer} {phase : ListenerPhase}
    (polled : pollPhase poll = some phase) :
    phase = .polling ∨
      (phase = .wokenUp poll ∧
        ∃ revents, poll.answer = .ready revents ∧ revents.POLLIN = true) := by
  unfold pollPhase at polled
  cases answer : poll.answer with
  | failed =>
      simp only [answer, Option.ite_none_right_eq_some, Option.some.injEq] at polled
      exact Or.inl polled.2.symm
  | timedOut =>
      simp only [answer, Option.some.injEq] at polled
      exact Or.inl polled.symm
  | ready revents =>
      simp only [answer] at polled
      by_cases input : revents.POLLIN = true
      · rw [if_pos input] at polled
        exact Or.inr ⟨(Option.some.inj polled).symm, revents, rfl, input⟩
      · simp only [input, Bool.false_eq_true, if_false, Option.ite_none_left_eq_some,
          Option.some.injEq] at polled
        exact Or.inl polled.2.2.2.symm

theorem pollPhase_of_wakesUp {turn : ListenerTurn} (wakes : turn.WakesUp) :
    pollPhase turn.poll = some (.wokenUp turn.poll) := by
  obtain ⟨revents, answer, input⟩ := wakes
  simp [pollPhase, answer, input]

/-- What a step does, by the phase it is taken in. -/
inductive ListenerMove (state : SteppedServer) : ListenerEvent → SteppedServer → Prop
  | sleeps {poll : Answered PollAnswer} (phase : state.phase = .polling)
      (asleep : pollPhase poll = some .polling) :
      ListenerMove state (.polls poll) { state with phase := .polling }
  | wakes {poll : Answered PollAnswer} {revents : Revents} (phase : state.phase = .polling)
      (answer : poll.answer = .ready revents) (input : revents.POLLIN = true) :
      ListenerMove state (.polls poll) { state with phase := .wokenUp poll }
  | accepts {poll : Answered PollAnswer} {call : AcceptCall} {fd : Nat}
      (phase : state.phase = .wokenUp poll) (accepted : call.accept.answer = .accepted fd)
      (fresh : state.server.fresh fd = true) (named : call.getsockname = true)
      (peer : call.getpeername = true) :
      ListenerMove state (.accepts call)
        { state with
          server := { state.server with
            transport := { state.server.transport with mSocket := fd }
            descriptors := state.server.descriptors ++ [.acquired (fd : Int)]
            threads := state.server.threads ++ newThreads fd call.spawned }
          phase := .accepted poll call }
  | inits {poll : Answered PollAnswer} {call : AcceptCall}
      (phase : state.phase = .accepted poll call) :
      ListenerMove state (.inits (.returned ())) { state with phase := .initialised poll call }
  | attaches {bioNewSocket sslNew : Bool} {poll : Answered PollAnswer} {call : AcceptCall}
      (phase : state.phase = .initialised poll call)
      (tcp : state.server.transport.mProtocol = .tcp) :
      ListenerMove state (.attaches bioNewSocket sslNew)
        { state with phase := .attached poll call state.server.transport.mSocket }
  | handshakes (sslAccept : Int) {poll : Answered PollAnswer} {call : AcceptCall} {bioFd : Int}
      (phase : state.phase = .attached poll call bioFd) :
      ListenerMove state (.handshakes (.returned sslAccept))
        { state with phase := .handshaken poll call bioFd sslAccept }
  | shutsDown {poll : Answered PollAnswer} {call : AcceptCall} {bioFd sslAccept : Int}
      (phase : state.phase = .handshaken poll call bioFd sslAccept) :
      ListenerMove state (.shutsDown (.returned ()))
        { server := state.server.finish sslAccept
          phase := .polling
          sockets := state.sockets ++ [(call.accept.answer, bioFd)] }
  | thread {event : ServerEvent} {server : Server}
      (step : ThreadStep state.server event server) :
      ListenerMove state (.thread event) { state with server := server }

theorem listenerMove_of_steppedStep {state next : SteppedServer} {event : ListenerEvent}
    (moved : steppedStep state event = some next) : ListenerMove state event next := by
  cases event with
  | polls poll =>
      simp only [steppedStep] at moved
      split at moved
      · rename_i phase
        obtain ⟨polled, phased, rfl⟩ := Option.map_eq_some_iff.mp moved
        rcases pollPhase_cases phased with rfl | ⟨rfl, revents, answer, input⟩
        · exact .sleeps phase phased
        · exact .wakes phase answer input
      · cases moved
  | accepts call =>
      simp only [steppedStep] at moved
      split at moved
      · rename_i poll fd after phase answer accepts
        simp only [Option.ite_none_right_eq_some, Option.some.injEq] at moved
        obtain ⟨fresh, rfl⟩ := moved
        rcases accept_cases state.server call with
          ⟨_, accepted, named, peer, became⟩ | ⟨⟨final, exits, _⟩, _⟩
        · obtain rfl : fd = _ := by simpa [answer] using accepted
          obtain rfl : after = _ := by simpa [accepts] using became
          exact .accepts phase answer fresh named peer
        · simp [accepts] at exits
      · cases moved
  | inits init =>
      simp only [steppedStep] at moved
      split at moved
      · rename_i phase
        cases moved
        exact .inits phase
      · cases moved
  | attaches bioNewSocket sslNew =>
      simp only [steppedStep] at moved
      split at moved
      · rename_i phase returned
        cases moved
        exact .attaches phase ((tlsAccept_returned_iff _ _ _).mp returned).1
      · cases moved
  | handshakes sslAccept =>
      simp only [steppedStep] at moved
      split at moved
      · rename_i phase
        cases moved
        exact .handshakes _ phase
      · cases moved
  | shutsDown sslShutdown =>
      simp only [steppedStep] at moved
      split at moved
      · rename_i phase
        cases moved
        exact .shutsDown phase
      · cases moved
  | thread event =>
      obtain ⟨server, step, rfl⟩ := steppedStep_thread moved
      exact .thread step

/-- A turn of the listener without its first half: from an accepted connection
on, it reaches what the whole turn reaches. -/
theorem reached_finish {transport : Transport} {server : Server} {poll : Answered PollAnswer}
    {call : AcceptCall} {revents : Revents} {fd : Nat} (reached : Reached transport server)
    (answer : poll.answer = .ready revents) (input : revents.POLLIN = true)
    (accepted : call.accept.answer = .accepted fd) (fresh : server.fresh fd = true)
    (named : call.getsockname = true) (peer : call.getpeername = true)
    (tcp : server.transport.mProtocol = .tcp) (sslAccept : Int) :
    Reached transport
      (Server.finish
        { server with
          transport := { server.transport with mSocket := fd }
          descriptors := server.descriptors ++ [.acquired (fd : Int)]
          threads := server.threads ++ newThreads fd call.spawned } sslAccept) := by
  let turn : ListenerTurn :=
    ⟨poll, call, .returned (), ⟨true, true, .returned sslAccept⟩, .returned ()⟩
  have wakes : turn.WakesUp := ⟨revents, answer, input⟩
  have through : turn.GoesThrough server.transport.mProtocol :=
    ⟨⟨sslAccept, ⟨fd, accepted⟩, ⟨named, peer⟩, tcp, ⟨rfl, rfl⟩, rfl⟩, rfl⟩
  exact reached.step (serverStep_of_goesThrough wakes rfl through accepted rfl fresh)

/-- What a step of another thread does can be done in the turns that complete the
state as well. -/
theorem Completes.thread {transport : Transport} {state : SteppedServer} {server : Server}
    {event : ServerEvent} (completes : Completes transport state)
    (step : ThreadStep state.server event server) :
    Completes transport { state with server := server } := by
  have later : ∀ sslAccept, Reached transport (state.server.finish sslAccept) →
      Reached transport (server.finish sslAccept) := fun sslAccept reached =>
    reached.step (serverStep_of_threadStep (threadStep_finish step sslAccept))
  simp only [Completes] at completes ⊢
  cases phase : state.phase with
  | polling =>
      rw [phase] at completes
      exact completes.step (serverStep_of_threadStep step)
  | wokenUp poll =>
      rw [phase] at completes
      exact ⟨completes.1.step (serverStep_of_threadStep step), completes.2⟩
  | accepted poll call | initialised poll call =>
      rw [phase] at completes
      intro tcp sslAccept
      rw [threadStep_transport step] at tcp
      exact later sslAccept (completes tcp sslAccept)
  | attached poll call bioFd =>
      rw [phase] at completes
      exact fun sslAccept => later sslAccept (completes sslAccept)
  | handshaken poll call bioFd sslAccept =>
      rw [phase] at completes
      exact later sslAccept completes

theorem completes_step {transport : Transport} {state next : SteppedServer}
    {event : ListenerEvent} (completes : Completes transport state)
    (moved : steppedStep state event = some next) : Completes transport next := by
  cases listenerMove_of_steppedStep moved with
  | sleeps phase asleep =>
      rw [Completes, phase] at completes
      exact completes
  | wakes phase answer input =>
      rw [Completes, phase] at completes
      exact ⟨completes, _, answer, input⟩
  | accepts phase accepted fresh named peer =>
      rw [Completes, phase] at completes
      obtain ⟨reached, revents, answer, input⟩ := completes
      intro tcp sslAccept
      exact reached_finish reached answer input accepted fresh named peer tcp sslAccept
  | inits phase =>
      rw [Completes, phase] at completes
      exact completes
  | attaches phase tcp =>
      rw [Completes, phase] at completes
      exact completes tcp
  | handshakes sslAccept phase =>
      rw [Completes, phase] at completes
      exact completes sslAccept
  | shutsDown phase =>
      rw [Completes, phase] at completes
      exact completes
  | thread step => exact completes.thread step

def AtPoll (server : Server) (state : SteppedServer) : Prop :=
  state.server = server ∧ state.phase = .polling

/-- A whole turn is taken by the stepped server without a step of the threads in
between. -/
theorem stepped_serves {state : SteppedServer} {next : Server} {turn : ListenerTurn}
    (polling : state.phase = .polling) (wakes : turn.WakesUp)
    (moved : serverStep state.server (.listener turn) = some next) :
    ∃ events reached, exec steppedStep state events = some reached ∧ AtPoll next reached := by
  rcases serverStep_listener moved with
    ⟨_, asleep⟩ | ⟨_, through, init, fd, ret, accepted, returned, fresh, rfl⟩
  · rw [(serves_iff_wakesUp turn).mpr wakes] at asleep
    cases asleep
  · obtain ⟨value, handshakes⟩ := through.handshakes
    refine ⟨[.polls turn.poll, .accepts turn.accept, .inits turn.init,
      .attaches turn.tlsAccept.bioNewSocket turn.tlsAccept.sslNew,
      .handshakes turn.tlsAccept.sslAccept, .shutsDown turn.sslShutdown],
      ⟨served state.server fd turn.accept.spawned ret, .polling,
        state.sockets ++ [(.accepted fd, (fd : Int))]⟩, ?_, rfl, rfl⟩
    rw [exec_cons_of_step (by simp [steppedStep, polling, pollPhase_of_wakesUp wakes]; rfl)]
    simp [exec_cons, steppedStep, accept, accepted, fresh, handshakes.named.1,
      handshakes.named.2, init, handshakes.tcp, handshakes.allocated.1, handshakes.allocated.2,
      returned, through.shutsDown, tlsAccept, served, Server.finish, tlsShutdown]

theorem stepped_matches {server next : Server} {state : SteppedServer} {event : ServerEvent}
    (atPoll : AtPoll server state) (moved : serverStep server event = some next) :
    ∃ events reached, exec steppedStep state events = some reached ∧ AtPoll next reached := by
  obtain ⟨rfl, polling⟩ := atPoll
  have alone : (∀ turn, event ≠ .listener turn) →
      ∃ events reached, exec steppedStep state events = some reached ∧ AtPoll next reached := by
    intro thread
    refine ⟨[.thread event], { state with server := next }, ?_, rfl, polling⟩
    rw [exec_singleton, steppedStep_of_thread thread moved]
  cases event with
  | listener turn =>
      by_cases wakes : turn.WakesUp
      · exact stepped_serves polling wakes moved
      · rcases serverStep_listener moved with ⟨rfl, _⟩ | ⟨serves, _⟩
        · exact ⟨[], state, rfl, rfl, polling⟩
        · exact absurd ((serves_iff_wakesUp turn).mp serves) wakes
  | senderCreates index created => exact alone (by simp)
  | receiverCreates index epollFd => exact alone (by simp)
  | receiverReads index => exact alone (by simp)
  | receiverAdds index added => exact alone (by simp)

/-- Seen from its poll, the listener works as if its turns were taken at once: the
states of the server are those that whole turns reach, in any order of the steps of
its threads. -/
theorem steppedServer_reaches_iff (transport : Transport) (server : Server) :
    (∃ events sockets,
        exec steppedStep (steppedEntry transport) events = some ⟨server, .polling, sockets⟩) ↔
      ∃ events, exec serverStep (listenerEntry transport) events = some server := by
  constructor
  · rintro ⟨events, sockets, run⟩
    have start : Completes transport (steppedEntry transport) := ⟨[], rfl⟩
    exact exec_invariant (Completes transport) start
      (fun _ _ _ completes moved => completes_step completes moved) run
  · rintro ⟨events, run⟩
    have start : AtPoll (listenerEntry transport) (steppedEntry transport) := ⟨rfl, rfl⟩
    obtain ⟨actions, reached, taken, same, polling⟩ :=
      exec_simulation (fun _ _ _ _ atPoll moved => stepped_matches atPoll moved) start run
    refine ⟨actions, reached.sockets, ?_⟩
    rw [taken, ← same, ← polling]

theorem ownSocket_step {state next : SteppedServer} {event : ListenerEvent}
    (own : OwnSocket state) (moved : steppedStep state event = some next) :
    OwnSocket next := by
  obtain ⟨sockets, current⟩ := own
  cases listenerMove_of_steppedStep moved with
  | sleeps phase asleep => exact ⟨sockets, trivial⟩
  | wakes phase answer input => exact ⟨sockets, trivial⟩
  | accepts phase accepted fresh named peer => exact ⟨sockets, _, accepted, rfl⟩
  | inits phase =>
      rw [phase] at current
      exact ⟨sockets, current⟩
  | attaches phase tcp =>
      rw [phase] at current
      exact ⟨sockets, current⟩
  | handshakes sslAccept phase =>
      rw [phase] at current
      exact ⟨sockets, current⟩
  | shutsDown phase =>
      rw [phase] at current
      obtain ⟨fd, accepted, rfl⟩ := current
      refine ⟨?_, trivial⟩
      intro pair member
      rcases List.mem_append.mp member with earlier | last
      · exact sockets pair earlier
      · exact ⟨fd, by rw [List.mem_singleton.mp last, accepted]⟩
  | thread step =>
      refine ⟨sockets, ?_⟩
      rw [threadStep_transport step]
      exact current

/-- Whatever the threads do during the turns, each session of the server is attached
to the descriptor of its own connection. -/
theorem sessions_on_own_sockets (transport : Transport) {events : List ListenerEvent}
    {final : SteppedServer}
    (run : exec steppedStep (steppedEntry transport) events = some final) :
    ∀ pair ∈ final.sockets, ∃ fd : Nat, pair = (.accepted fd, (fd : Int)) := by
  have start : OwnSocket (steppedEntry transport) := ⟨by simp [steppedEntry], trivial⟩
  have own : OwnSocket final := exec_invariant OwnSocket start
    (fun _ _ _ own moved => ownSocket_step own moved) run
  exact own.1

def interleavedSessions : List ListenerEvent :=
  [.polls (servedTurn 4 1).poll, .accepts (servedTurn 4 1).accept,
    .thread (.senderCreates 0 true), .inits (.returned ()), .attaches true true,
    .thread (.receiverCreates 0 (some 5)), .handshakes (.returned 1), .shutsDown (.returned ()),
    .polls (servedTurn 6 1).poll, .accepts (servedTurn 6 1).accept,
    .thread (.receiverReads 0), .inits (.returned ()), .thread (.receiverAdds 0 true),
    .attaches true true, .handshakes (.returned (-1)), .shutsDown (.returned ())]

/-- The receiver of the first connection registers the socket of the second, and
the sessions are attached as they should be. -/
theorem sessions_on_own_sockets_two :
    ∃ final, exec steppedStep (steppedEntry ⟨0, 3, .tcp, .server⟩) interleavedSessions =
        some final ∧
      final.server.descriptors = [.acquired 3, .acquired 4, .acquired 5, .acquired 6] ∧
      final.server.threads = [⟨4, .ended, .ended 5 (some 6)⟩, ⟨6, .starting, .notCreated⟩] ∧
      ∀ pair ∈ final.sockets, ∃ fd : Nat, pair = (.accepted fd, (fd : Int)) := by
  have run : exec steppedStep (steppedEntry ⟨0, 3, .tcp, .server⟩) interleavedSessions =
      some ⟨{ transport := ⟨6, 3, .tcp, .server⟩
              pollSet := [⟨3, true⟩]
              descriptors := [.acquired 3, .acquired 4, .acquired 5, .acquired 6]
              threads := [⟨4, .ended, .ended 5 (some 6)⟩, ⟨6, .starting, .notCreated⟩]
              sessions := [[.SSL_accept 1, .SSL_shutdown], [.SSL_accept (-1), .SSL_shutdown]] },
        .polling, [(.accepted 4, 4), (.accepted 6, 6)]⟩ := by
    decide
  exact ⟨_, run, rfl, rfl, sessions_on_own_sockets ⟨0, 3, .tcp, .server⟩ run⟩

end TlsClient
