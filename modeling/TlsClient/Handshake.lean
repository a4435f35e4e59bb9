import TlsClient.Listener

/-!
# TLS sessions on the client and on the server

`tlsmanager::tls_connect` tries the client side of the handshake up to three
times, waiting in between, and returns nothing: its callers go on to
`SSL_write` and `SSL_shutdown` whichever way it was left.  The server side
makes a single attempt and only logs its result.
-/

namespace TlsClient

open EventDriven

inductive SslError
  | WANT_WRITE
  | WANT_READ
  | other (code : Nat)
  deriving DecidableEq, Repr

structure HandshakeCall where
  sslConnect : Int
  sslError : SslError
  poll : Answered PollAnswer
  deriving DecidableEq, Repr

/-- The variables of `tls_connect`: the attempts made and the events it polls
for, with the calls made on its session. -/
structure Handshake where
  attempt : Nat
  events : Revents
  calls : List SslCall
  deriving DecidableEq, Repr

/-- The wait between two attempts.  After a timeout, `errno` is an old value. -/
def handshakeWait (poll : Answered PollAnswer) (handshake : Handshake) :
    Pass Handshake Unit :=
  match poll.answer with
  | .failed =>
      if poll.errno = some .EINTR then .again handshake else .done handshake ()
  | .timedOut =>
      if poll.errno = some .EINTR then .again handshake else .done handshake ()
  | .ready revents =>
      if revents.POLLOUT || revents.POLLIN then .again handshake
      else if revents.POLLNVAL || revents.POLLERR || revents.POLLHUP then .done handshake ()
      else .again handshake

def handshakeTurn (handshake : Handshake) (call : HandshakeCall) : Pass Handshake Unit :=
  let tried := { handshake with calls := handshake.calls ++ [.SSL_connect call.sslConnect] }
  if call.sslConnect = 1 then .done tried ()
  else
    let counted := { tried with attempt := handshake.attempt + 1 }
    match call.sslError with
    | .WANT_WRITE => handshakeWait call.poll { counted with events := { POLLOUT := true } }
    | .WANT_READ => handshakeWait call.poll { counted with events := { POLLIN := true } }
    | .other _ => .done counted ()

/-- `tlsmanager::tls_connect`, from the first test of its loop on. -/
def tlsConnect : Loop Handshake HandshakeCall Unit where
  continues handshake := decide (handshake.attempt < 3)
  fallsOut _ := ()
  body := handshakeTurn
  possible _ _ := true

def handshakeEntry : Handshake where
  attempt := 0
  events := {}
  calls := []

/-- What `SocketSender::start_thread` meets on a client before the handshake:
the result of `connect`, the end of `tlsmanager::init`, and whether `SSL_new`
returns an object (`SSL_set_bio` dereferences it). -/
structure ClientStart where
  connected : Ended Bool
  init : Ended Unit
  sslNew : Bool
  deriving DecidableEq, Repr

def ClientStart.reachesHandshake (start : ClientStart) : Bool :=
  start.connected = .returned true && start.init = .returned () && start.sslNew

/-- `SocketSender::start_thread` on a client: the calls made on its session when
`tls_connect` has returned with `handshake`. -/
def startSender (start : ClientStart) (handshake : Handshake) : List SslCall :=
  match start.connected with
  | .returned true =>
      match start.init with
      | .returned () =>
          if start.sslNew then tlsShutdown (handshake.calls ++ [.SSL_write]) else []
      | .exited => []
  | .returned false => []
  | .exited => []

def SslCall.isTraffic : SslCall → Bool
  | .SSL_write => true
  | .SSL_shutdown => true
  | _ => false

def SslCall.completes : SslCall → Bool
  | .SSL_connect ret => ret = 1
  | .SSL_accept ret => ret = 1
  | _ => false

/-- Before every `SSL_write` and `SSL_shutdown` on the session, its handshake has
returned success. -/
def TrafficAfterHandshake (calls : List SslCall) : Prop :=
  ∀ before call after, calls = before ++ call :: after → call.isTraffic = true →
    ∃ earlier ∈ before, earlier.completes = true

/-- The value `SSL_accept` returns in a turn of the listener, if the turn gets
that far. -/
def ListenerTurn.handshake (protocol : Protocol) (turn : ListenerTurn) : Option Int :=
  match turn.poll.answer, turn.accept.accept.answer, turn.init, turn.tlsAccept.sslAccept with
  | .ready revents, .accepted _, .returned (), .returned ret =>
      if revents.POLLIN && turn.accept.getsockname && turn.accept.getpeername &&
          decide (protocol = .tcp) && turn.tlsAccept.bioNewSocket && turn.tlsAccept.sslNew then
        some ret
      else none
  | _, _, _, _ => none

theorem trafficAfterHandshake_iff {handshake traffic : List SslCall}
    (quiet : ∀ call ∈ handshake, call.isTraffic = false) {first : SslCall}
    (speaks : first.isTraffic = true) :
    TrafficAfterHandshake (handshake ++ first :: traffic) ↔
      ∃ call ∈ handshake, call.completes = true := by
  constructor
  · intro ordered
    exact ordered handshake first traffic rfl speaks
  · rintro ⟨complete, member, completes⟩ before call after split speaks
    refine ⟨complete, ?_, completes⟩
    rcases List.append_eq_append_iff.mp split with ⟨rest, rfl, _⟩ | ⟨rest, rfl, tail⟩
    · exact List.mem_append_left _ member
    · cases rest with
      | nil => simpa using member
      | cons head rest =>
          obtain ⟨rfl, _⟩ := List.cons.inj tail
          have silent := quiet call (by simp)
          rw [silent] at speaks
          exact absurd speaks (by simp)

theorem handshakeWait_state (poll : Answered PollAnswer) (handshake : Handshake) :
    (handshakeWait poll handshake).state = handshake := by
  unfold handshakeWait
  cases poll.answer with
  | failed =>
      dsimp only
      split <;> rfl
  | timedOut =>
      dsimp only
      split <;> rfl
  | ready revents =>
      dsimp only
      by_cases ready : (revents.POLLOUT || revents.POLLIN) = true
      · rw [if_pos ready]
        rfl
      · rw [if_neg ready]
        split <;> rfl

theorem handshakeTurn_calls (handshake : Handshake) (call : HandshakeCall) :
    (handshakeTurn handshake call).state.calls =
      handshake.calls ++ [.SSL_connect call.sslConnect] := by
  unfold handshakeTurn
  by_cases success : call.sslConnect = 1
  · simp only [if_pos success]
    rfl
  · simp only [if_neg success]
    cases call.sslError with
    | WANT_WRITE => rw [handshakeWait_state]
    | WANT_READ => rw [handshakeWait_state]
    | other code => rfl

theorem tlsConnect_calls {events : List HandshakeCall} {final : Handshake}
    (run : tlsConnect.run handshakeEntry events = some (.returned final ())) :
    final.calls = events.map fun call => .SSL_connect call.sslConnect := by
  refine Loop.run_state
    (fun past handshake => handshake.calls = past.map fun call => .SSL_connect call.sslConnect)
    rfl ?_ run
  intro past handshake call recorded _ _
  rw [List.map_append, ← recorded]
  exact handshakeTurn_calls handshake call

theorem startSender_eq (start : ClientStart) (handshake : Handshake) :
    startSender start handshake =
      if start.reachesHandshake then handshake.calls ++ [.SSL_write, .SSL_shutdown] else [] := by
  obtain ⟨connected, init, sslNew⟩ := start
  rcases connected with (_ | _) | _ <;> cases init <;> cases sslNew <;>
    simp [startSender, ClientStart.reachesHandshake, tlsShutdown]

theorem trafficAfterHandshake_nil : TrafficAfterHandshake [] := by
  intro before call after split
  simp at split

theorem client_trafficAfterHandshake_iff (start : ClientStart) {events : List HandshakeCall}
    {final : Handshake}
    (run : tlsConnect.run handshakeEntry events = some (.returned final ())) :
    TrafficAfterHandshake (startSender start final) ↔
      (start.reachesHandshake = true → ∃ call ∈ events, call.sslConnect = 1) := by
  rw [startSender_eq, tlsConnect_calls run]
  by_cases reaches : start.reachesHandshake = true
  · rw [if_pos reaches, trafficAfterHandshake_iff _ rfl]
    · simp [SslCall.completes, reaches]
    · simp [SslCall.isTraffic]
  · simp [reaches, trafficAfterHandshake_nil]

def ListenerTurn.session (protocol : Protocol) (turn : ListenerTurn) :
    Option (List SslCall) :=
  (turn.handshake protocol).map fun ret => tlsShutdown [.SSL_accept ret]

theorem handshake_eq_some_iff (protocol : Protocol) (turn : ListenerTurn) (ret : Int) :
    turn.handshake protocol = some ret ↔
      turn.WakesUp ∧ turn.init = .returned () ∧ turn.Handshakes protocol ret := by
  constructor
  · intro reached
    simp only [ListenerTurn.handshake] at reached
    split at reached
    · rename_i revents fd value polled accepted init returned
      simp only [Option.ite_none_right_eq_some, Bool.and_eq_true, decide_eq_true_eq,
        Option.some.injEq] at reached
      obtain ⟨⟨⟨⟨⟨⟨input, named⟩, peer⟩, tcp⟩, bio⟩, ssl⟩, rfl⟩ := reached
      exact ⟨⟨revents, polled, input⟩, init, ⟨fd, accepted⟩, ⟨named, peer⟩, tcp, ⟨bio, ssl⟩,
        returned⟩
    · simp at reached
  · rintro ⟨⟨revents, polled, input⟩, init, ⟨fd, accepted⟩, ⟨named, peer⟩, tcp, ⟨bio, ssl⟩,
      returned⟩
    simp [ListenerTurn.handshake, polled, accepted, init, returned, input, named, peer, tcp, bio,
      ssl]

theorem handshake_eq_none {protocol : Protocol} {turn : ListenerTurn}
    (fails : ∀ ret, ¬ (turn.WakesUp ∧ turn.init = .returned () ∧
      turn.Handshakes protocol ret)) : turn.handshake protocol = none := by
  cases reached : turn.handshake protocol with
  | none => rfl
  | some ret => exact absurd ((handshake_eq_some_iff protocol turn ret).mp reached) (fails ret)

/-- A turn adds its session, if it has one, whether or not the process lives on. -/
theorem listenerTurn_sessions (server : Server) (turn : ListenerTurn) :
    (listenerTurn server turn).state.transport.mProtocol = server.transport.mProtocol ∧
      (listenerTurn server turn).state.sessions =
        server.sessions ++ (turn.session server.transport.mProtocol).toList := by
  by_cases wakes : turn.WakesUp
  · rcases listenerTurn_of_wakesUp server wakes with
      ⟨init, fd, ret, _, handshakes, serves⟩ | ⟨fails, final, exits, sessions, protocol⟩
    · have reached := (handshake_eq_some_iff server.transport.mProtocol turn ret).mpr
        ⟨wakes, init, handshakes⟩
      have state : (listenerTurn server turn).state =
          served server fd turn.accept.spawned ret := by
        rw [serves]
        cases turn.sslShutdown with
        | returned => rfl
        | exited => rfl
      simp [state, served, ListenerTurn.session, reached]
    · have none : turn.handshake server.transport.mProtocol = none :=
        handshake_eq_none fun ret reaches => fails reaches.2.1 ret reaches.2.2
      simp [exits, Pass.state, sessions, protocol, ListenerTurn.session, none]
  · have none : turn.handshake server.transport.mProtocol = none :=
      handshake_eq_none fun _ reaches => wakes reaches.1
    simp [listenerTurn_state_of_asleep server wakes, ListenerTurn.session, none]

theorem listener_sessions {transport : Transport} {turns : List ListenerTurn}
    {control : Control Server ListenerEnd}
    (run : startListener.run (listenerEntry transport) turns = some control) :
    control.state.sessions =
      turns.filterMap fun turn => turn.session transport.mProtocol := by
  have recorded := Loop.run_state
    (fun past server => server.transport.mProtocol = transport.mProtocol ∧
      server.sessions = past.filterMap fun turn => turn.session transport.mProtocol)
    ⟨rfl, rfl⟩ ?_ run
  · exact recorded.2
  rintro past server turn ⟨protocol, recorded⟩ _ _
  obtain ⟨sameProtocol, sessions⟩ := listenerTurn_sessions server turn
  refine ⟨sameProtocol.trans protocol, sessions.trans ?_⟩
  rw [recorded, protocol, List.filterMap_append]
  cases session : turn.session transport.mProtocol <;> simp [session]

theorem server_trafficAfterHandshake_iff {transport : Transport} {turns : List ListenerTurn}
    {control : Control Server ListenerEnd}
    (run : startListener.run (listenerEntry transport) turns = some control) :
    (∀ calls ∈ control.state.sessions, TrafficAfterHandshake calls) ↔
      ∀ turn ∈ turns, ∀ ret, turn.handshake transport.mProtocol = some ret → ret = 1 := by
  have one : ∀ ret, TrafficAfterHandshake (tlsShutdown [.SSL_accept ret]) ↔ ret = 1 := by
    intro ret
    rw [tlsShutdown, trafficAfterHandshake_iff (by simp [SslCall.isTraffic]) rfl]
    simp [SslCall.completes]
  rw [listener_sessions run]
  simp only [List.mem_filterMap, ListenerTurn.session, Option.map_eq_some_iff]
  constructor
  · intro quiet turn member ret reached
    exact (one ret).mp (quiet _ ⟨turn, member, ret, reached, rfl⟩)
  · rintro succeeded _ ⟨turn, member, ret, reached, rfl⟩
    exact (one ret).mpr (succeeded turn member ret reached)

/-- Client and server keep quiet on sessions whose handshake has not succeeded,
just in case no handshake that is begun fails. -/
theorem traffic_after_handshake_iff (start : ClientStart) {events : List HandshakeCall}
    {final : Handshake} {transport : Transport} {turns : List ListenerTurn}
    {control : Control Server ListenerEnd}
    (client : tlsConnect.run handshakeEntry events = some (.returned final ()))
    (server : startListener.run (listenerEntry transport) turns = some control) :
    (TrafficAfterHandshake (startSender start final) ↔
      (start.reachesHandshake = true → ∃ call ∈ events, call.sslConnect = 1)) ∧
    ((∀ calls ∈ control.state.sessions, TrafficAfterHandshake calls) ↔
      ∀ turn ∈ turns, ∀ ret, turn.handshake transport.mProtocol = some ret → ret = 1) :=
  ⟨client_trafficAfterHandshake_iff start client, server_trafficAfterHandshake_iff server⟩

theorem traffic_after_handshake_iff_completed :
    (TrafficAfterHandshake (startSender ⟨.returned true, .returned (), true⟩
        ⟨1, { POLLIN := true }, [.SSL_connect (-1), .SSL_connect 1]⟩) ↔
      (true = true → ∃ call ∈ [⟨-1, .WANT_READ, ⟨.ready { POLLIN := true }, none⟩⟩,
        ⟨1, .other 0, ⟨.timedOut, none⟩⟩], HandshakeCall.sslConnect call = 1)) ∧
    ((∀ calls ∈ (served (listenerEntry ⟨0, 3, .tcp, .server⟩) 4 true 1).sessions,
        TrafficAfterHandshake calls) ↔
      ∀ turn ∈ [servedTurn 4 1], ∀ ret, turn.handshake .tcp = some ret → ret = 1) :=
  @traffic_after_handshake_iff ⟨.returned true, .returned (), true⟩
    [⟨-1, .WANT_READ, ⟨.ready { POLLIN := true }, none⟩⟩, ⟨1, .other 0, ⟨.timedOut, none⟩⟩]
    ⟨1, { POLLIN := true }, [.SSL_connect (-1), .SSL_connect 1]⟩
    ⟨0, 3, .tcp, .server⟩ [servedTurn 4 1]
    (.running (served (listenerEntry ⟨0, 3, .tcp, .server⟩) 4 true 1))
    (by decide) (by decide)

/-- `SSL_connect` fails with an unhandled error, and `SSL_accept` fails: the
client writes all the same, and the server sends its shutdown. -/
theorem traffic_on_failed_sessions :
    (∃ final,
      tlsConnect.run handshakeEntry [⟨-1, .other 1, ⟨.timedOut, none⟩⟩] =
        some (.returned final ()) ∧
      ¬ TrafficAfterHandshake (startSender ⟨.returned true, .returned (), true⟩ final)) ∧
    ∃ server,
      startListener.run (listenerEntry ⟨0, 3, .tcp, .server⟩) [servedTurn 4 (-1)] =
        some (.running server) ∧
      ∃ calls ∈ server.sessions, ¬ TrafficAfterHandshake calls := by
  refine ⟨⟨⟨1, {}, [.SSL_connect (-1)]⟩, by decide, ?_⟩,
    served (listenerEntry ⟨0, 3, .tcp, .server⟩) 4 true (-1), by decide,
    [.SSL_accept (-1), .SSL_shutdown], by decide, ?_⟩
  · intro quiet
    exact absurd (quiet [.SSL_connect (-1)] .SSL_write [.SSL_shutdown] rfl rfl) (by decide)
  · intro quiet
    exact absurd (quiet [.SSL_accept (-1)] .SSL_shutdown [] rfl rfl) (by decide)

end TlsClient
