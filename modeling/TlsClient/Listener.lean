import TlsClient.SystemCalls
import TlsClient.ResourceLedger

/-!
# The listener thread

`socketlistener::start_thread` polls the passive socket for ever.  A wake-up
goes to `process_listening_socket`, which accepts one connection, initialises a
`tlsmanager` for it, runs the server side of the handshake and takes the
session down again.  Each of the functions on the way can end the process.
-/

namespace TlsClient

open EventDriven ResourceLedger

/-- The fields of a `TransportInterface` that the listener works with. -/
structure Transport where
  mSocket : Int
  mPassiveSocket : Int
  mProtocol : Protocol
  mType : TransportType
  deriving DecidableEq, Repr

structure PollEntry where
  fd : Int
  POLLIN : Bool
  deriving DecidableEq, Repr

/-- The calls of OpenSSL on one TLS session, with what they return. -/
inductive SslCall
  | SSL_connect (ret : Int)
  | SSL_accept (ret : Int)
  | SSL_write
  | SSL_shutdown
  deriving DecidableEq, Repr

/-- The thread of `SocketSender` that `accept` creates for a connection: it
creates the thread of `SocketReceiver` and ends. -/
inductive SenderPhase
  | starting
  | ended
  deriving DecidableEq, Repr

/-- The thread of `SocketReceiver`: it creates an epoll descriptor, reads
`m_socket`, adds what it has read to the epoll set, and ends.  The result of
`epoll_ctl` is not looked at; `registered` is what it has added. -/
inductive ReceiverPhase
  | notCreated
  | starting
  | created (epollFd : Nat)
  | read (epollFd : Nat) (socket : Int)
  | ended (epollFd : Nat) (registered : Option Int)
  deriving DecidableEq, Repr

structure ConnectionThreads where
  accepted : Nat
  sender : SenderPhase
  receiver : ReceiverPhase
  deriving DecidableEq, Repr

/-- The server process: what the listener keeps, the descriptors obtained and
closed so far, the threads, and the calls on each TLS session. -/
structure Server where
  transport : Transport
  pollSet : List PollEntry
  descriptors : List (Entry Int)
  threads : List ConnectionThreads
  sessions : List (List SslCall)
  deriving DecidableEq, Repr

/-- How the listener can come to an end: the process exits, or `start_thread`
breaks out of its loop. -/
inductive ListenerEnd
  | exited
  | leftLoop
  deriving DecidableEq, Repr

inductive AcceptAnswer
  | failed
  | accepted (fd : Nat)
  deriving DecidableEq, Repr

/-- The answers met by `TransportInterface::accept`; `getsockname` and
`getpeername` say whether these calls return 0, `spawned` whether
`pthread_create` does. -/
structure AcceptCall where
  accept : Answered AcceptAnswer
  getsockname : Bool
  getpeername : Bool
  spawned : Bool
  deriving DecidableEq, Repr

/-- The answers met by `tlsmanager::tls_accept`: whether `BIO_new_socket` and
`SSL_new` return an object, and what `SSL_accept` returns.  It writes to the socket,
and a peer that has closed its end kills the process by `SIGPIPE`. -/
structure TlsAcceptCall where
  bioNewSocket : Bool
  sslNew : Bool
  sslAccept : Ended Int
  deriving DecidableEq, Repr

/-- The answers met in a turn of the listener; `SSL_shutdown` writes as well. -/
structure ListenerTurn where
  poll : Answered PollAnswer
  accept : AcceptCall
  init : Ended Unit
  tlsAccept : TlsAcceptCall
  sslShutdown : Ended Unit
  deriving DecidableEq, Repr

def isTransient (err : Option Errno) : Bool :=
  err = some .EAGAIN || err = some .EINTR || err = some .ECONNABORTED || err = some .EPROTO

/-- The thread created at the end of `accept`; its return code is ignored. -/
def newThreads (fd : Nat) (spawned : Bool) : List ConnectionThreads :=
  if spawned then [⟨fd, .starting, .notCreated⟩] else []

/-- `TransportInterface::accept`.  After an error of `::accept`, the test for a
transient one only selects the log line; `exit ( 0 )` stands behind both. -/
def accept (server : Server) (call : AcceptCall) : Pass Server ListenerEnd :=
  match call.accept.answer with
  | .failed => .done server .exited
  | .accepted fd =>
      let opened : Server := { server with descriptors := server.descriptors ++ [.acquired fd] }
      let closed : Server := { opened with descriptors := opened.descriptors ++ [.released fd] }
      if call.getsockname = false then .done closed .exited
      else if call.getpeername = false then .done closed .exited
      else .again
        { opened with
          transport := { server.transport with mSocket := fd }
          threads := server.threads ++ newThreads fd call.spawned }

/-- `tlsmanager::tls_accept`.  For SCTP the creation of the BIO is commented
out.  A null session is dereferenced in `SSL_set_bio`, which ends the process
as well.  The result of `SSL_accept` is logged. -/
def tlsAccept (protocol : Protocol) (call : TlsAcceptCall) : Ended (List SslCall) :=
  let sbio := match protocol with
    | .tcp => call.bioNewSocket
    | .sctp => false
  if sbio = false then .exited
  else if call.sslNew = false then .exited
  else
    match call.sslAccept with
    | .exited => .exited
    | .returned ret => .returned [.SSL_accept ret]

def tlsShutdown (calls : List SslCall) : List SslCall :=
  calls ++ [.SSL_shutdown]

/-- The turn ends with `SSL_shutdown`, or the process does. -/
def afterShutdown (server : Server) (sslShutdown : Ended Unit) : Pass Server ListenerEnd :=
  match sslShutdown with
  | .returned () => .again server
  | .exited => .done server .exited

def processListeningSocket (server : Server) (revents : Revents) (turn : ListenerTurn) :
    Pass Server ListenerEnd :=
  if revents.POLLIN then
    match accept server turn.accept with
    | .done server ended => .done server ended
    | .again server =>
        match turn.init with
        | .exited => .done server .exited
        | .returned () =>
            match tlsAccept server.transport.mProtocol turn.tlsAccept with
            | .exited => .done server .exited
            | .returned calls =>
                afterShutdown { server with sessions := server.sessions ++ [tlsShutdown calls] }
                  turn.sslShutdown
  else if revents.POLLNVAL then .done server .exited
  else if revents.POLLERR then .done server .exited
  else if revents.POLLHUP then .done server .exited
  else .again server

def listenerTurn (server : Server) (turn : ListenerTurn) : Pass Server ListenerEnd :=
  match turn.poll.answer with
  | .failed =>
      if turn.poll.errno = some .EINTR ∨ turn.poll.errno = some .EAGAIN then .again server
      else .done server .leftLoop
  | .timedOut => .again server
  | .ready revents => processListeningSocket server revents turn

/-- `socketlistener::start_thread`, from its first poll on. -/
def startListener : Loop Server ListenerTurn ListenerEnd where
  continues _ := true
  fallsOut _ := .leftLoop
  body := listenerTurn
  possible _ _ := true

def listenerEntry (transport : Transport) : Server where
  transport := transport
  pollSet := [⟨transport.mPassiveSocket, true⟩]
  descriptors := [.acquired transport.mPassiveSocket]
  threads := []
  sessions := []

/-- The events the listener has to survive: the peers may be slow, abort, or
fail the handshake, but the listening socket works and `tlsmanager::init`
succeeds. -/
def ListenerTurn.FromPeers (turn : ListenerTurn) : Prop :=
  match turn.poll.answer with
  | .failed => turn.poll.errno = some .EINTR ∨ turn.poll.errno = some .EAGAIN
  | .timedOut => True
  | .ready revents =>
      revents.POLLNVAL = false ∧ revents.POLLERR = false ∧ revents.POLLHUP = false ∧
        turn.init = .returned () ∧
        (turn.accept.accept.answer = .failed → isTransient turn.accept.accept.errno = true)

/-- No call meets a failure between an accepted connection and the end of its
handshake, and the protocol is TCP. -/
structure ListenerTurn.Handshakes (protocol : Protocol) (turn : ListenerTurn) (ret : Int) :
    Prop where
  accepted : ∃ fd, turn.accept.accept.answer = .accepted fd
  named : turn.accept.getsockname = true ∧ turn.accept.getpeername = true
  tcp : protocol = .tcp
  allocated : turn.tlsAccept.bioNewSocket = true ∧ turn.tlsAccept.sslNew = true
  returned : turn.tlsAccept.sslAccept = .returned ret

/-- The connection gets through its handshake and its shutdown. -/
structure ListenerTurn.GoesThrough (protocol : Protocol) (turn : ListenerTurn) : Prop where
  handshakes : ∃ ret, turn.Handshakes protocol ret
  shutsDown : turn.sslShutdown = .returned ()

def ListenerTurn.WakesUp (turn : ListenerTurn) : Prop :=
  ∃ revents, turn.poll.answer = .ready revents ∧ revents.POLLIN = true

theorem accept_cases (server : Server) (call : AcceptCall) :
    (∃ fd, call.accept.answer = .accepted fd ∧ call.getsockname = true ∧
      call.getpeername = true ∧ accept server call = .again
        { server with
          transport := { server.transport with mSocket := fd }
          descriptors := server.descriptors ++ [.acquired (fd : Int)]
          threads := server.threads ++ newThreads fd call.spawned }) ∨
    ((∃ final, accept server call = .done final .exited ∧ final.sessions = server.sessions ∧
        final.transport = server.transport) ∧
      ¬ ((∃ fd, call.accept.answer = .accepted fd) ∧
        call.getsockname = true ∧ call.getpeername = true)) := by
  cases answer : call.accept.answer with
  | failed => exact Or.inr ⟨⟨server, by simp [accept, answer]⟩, by simp⟩
  | accepted fd =>
      by_cases named : call.getsockname = true
      · by_cases peer : call.getpeername = true
        · exact Or.inl ⟨fd, rfl, named, peer, by simp [accept, answer, named, peer]⟩
        · right
          refine ⟨?_, by simp [peer]⟩
          simp [accept, answer, named, peer]
      · right
        refine ⟨?_, by simp [named]⟩
        simp [accept, answer, named]

theorem tlsAccept_returned_iff (protocol : Protocol) (call : TlsAcceptCall)
    (calls : List SslCall) :
    tlsAccept protocol call = .returned calls ↔
      protocol = .tcp ∧ call.bioNewSocket = true ∧ call.sslNew = true ∧
        ∃ ret, call.sslAccept = .returned ret ∧ calls = [.SSL_accept ret] := by
  cases protocol <;> cases bio : call.bioNewSocket <;> cases ssl : call.sslNew <;>
    cases accepted : call.sslAccept <;> simp [tlsAccept, bio, ssl, accepted, eq_comm]

def served (server : Server) (fd : Nat) (spawned : Bool) (ret : Int) : Server :=
  { server with
    transport := { server.transport with mSocket := fd }
    descriptors := server.descriptors ++ [.acquired (fd : Int)]
    threads := server.threads ++ newThreads fd spawned
    sessions := server.sessions ++ [tlsShutdown [.SSL_accept ret]] }

/-- A wake-up whose handshake returns gets to `SSL_shutdown`; any other ends the
process before. -/
theorem listenerTurn_of_wakesUp (server : Server) {turn : ListenerTurn}
    (wakes : turn.WakesUp) :
    (turn.init = .returned () ∧ ∃ fd ret, turn.accept.accept.answer = .accepted fd ∧
      turn.Handshakes server.transport.mProtocol ret ∧
      listenerTurn server turn =
        afterShutdown (served server fd turn.accept.spawned ret) turn.sslShutdown) ∨
    ((turn.init = .returned () → ∀ ret, ¬ turn.Handshakes server.transport.mProtocol ret) ∧
      ∃ final, listenerTurn server turn = .done final .exited ∧
        final.sessions = server.sessions ∧
        final.transport.mProtocol = server.transport.mProtocol) := by
  obtain ⟨revents, answer, input⟩ := wakes
  simp only [listenerTurn, answer, processListeningSocket, input, if_true]
  rcases accept_cases server turn.accept with
    ⟨fd, accepted, named, peer, accepts⟩ | ⟨⟨final, exits, sessions, transport⟩, fails⟩
  · rw [accepts]
    cases init : turn.init with
    | exited => exact Or.inr ⟨by simp, _, rfl, rfl, rfl⟩
    | returned =>
        cases handshake : tlsAccept server.transport.mProtocol turn.tlsAccept with
        | exited =>
            right
            constructor
            · intro _ ret handshakes
              have returned := (tlsAccept_returned_iff _ turn.tlsAccept _).mpr
                ⟨handshakes.tcp, handshakes.allocated.1, handshakes.allocated.2, ret,
                  handshakes.returned, rfl⟩
              simp [handshake] at returned
            · simp only [handshake]
              exact ⟨_, rfl, rfl, rfl⟩
        | returned calls =>
            left
            obtain ⟨tcp, bio, ssl, ret, returned, rfl⟩ :=
              (tlsAccept_returned_iff _ _ _).mp handshake
            refine ⟨rfl, fd, ret, accepted, ⟨⟨fd, accepted⟩, ⟨named, peer⟩, tcp, ⟨bio, ssl⟩,
              returned⟩, ?_⟩
            simp only [handshake]
            rfl
  · rw [exits]
    right
    refine ⟨?_, final, rfl, sessions, by rw [transport]⟩
    intro _ ret handshakes
    exact fails ⟨handshakes.accepted, handshakes.named⟩

theorem listenerTurn_state_of_asleep (server : Server) {turn : ListenerTurn}
    (asleep : ¬ turn.WakesUp) : (listenerTurn server turn).state = server := by
  cases answer : turn.poll.answer with
  | failed =>
      simp only [listenerTurn, answer]
      split <;> rfl
  | timedOut => simp [listenerTurn, answer, Pass.state]
  | ready revents =>
      have input : ¬ revents.POLLIN = true := fun input => asleep ⟨revents, answer, input⟩
      simp only [listenerTurn, answer, processListeningSocket, if_neg input, ite_reportsError]
      cases revents.reportsError with
      | true => rfl
      | false => rfl

theorem listenerTurn_again {server next : Server} {turn : ListenerTurn}
    (again : listenerTurn server turn = .again next) :
    (next = server ∧ ¬ turn.WakesUp) ∨
      (turn.WakesUp ∧ turn.GoesThrough server.transport.mProtocol ∧
        turn.init = .returned () ∧ ∃ fd ret, turn.accept.accept.answer = .accepted fd ∧
          turn.tlsAccept.sslAccept = .returned ret ∧
          next = served server fd turn.accept.spawned ret) := by
  by_cases wakes : turn.WakesUp
  · right
    rcases listenerTurn_of_wakesUp server wakes with
      ⟨init, fd, ret, accepted, handshakes, serves⟩ | ⟨_, final, exits, _⟩
    · cases shutsDown : turn.sslShutdown with
      | returned =>
          rw [shutsDown] at serves
          cases again.symm.trans serves
          exact ⟨wakes, ⟨⟨ret, handshakes⟩, shutsDown⟩, init, fd, ret, accepted,
            handshakes.returned, rfl⟩
      | exited =>
          rw [shutsDown] at serves
          cases again.symm.trans serves
    · exact absurd (again.symm.trans exits) (by simp)
  · left
    have same := listenerTurn_state_of_asleep server wakes
    rw [again] at same
    exact ⟨same, wakes⟩

/-- The connection of a wake-up that goes through is served. -/
theorem listenerTurn_of_goesThrough (server : Server) {turn : ListenerTurn}
    (wakes : turn.WakesUp) (init : turn.init = .returned ())
    (through : turn.GoesThrough server.transport.mProtocol) {fd : Nat} {ret : Int}
    (accepted : turn.accept.accept.answer = .accepted fd)
    (returned : turn.tlsAccept.sslAccept = .returned ret) :
    listenerTurn server turn = .again (served server fd turn.accept.spawned ret) := by
  obtain ⟨⟨value, handshakes⟩, shutsDown⟩ := through
  rcases listenerTurn_of_wakesUp server wakes with
    ⟨_, other, result, answered, accepts, serves⟩ | ⟨fails, _⟩
  · obtain rfl : fd = other := by simpa using accepted.symm.trans answered
    obtain rfl : ret = result := by simpa using returned.symm.trans accepts.returned
    rw [serves, shutsDown]
    rfl
  · exact absurd handshakes (fails init value)

theorem listenerTurn_of_fromPeers (server : Server) {turn : ListenerTurn}
    (fromPeers : turn.FromPeers) (asleep : ¬ turn.WakesUp) :
    listenerTurn server turn = .again server := by
  cases answer : turn.poll.answer with
  | failed =>
      have retried : turn.poll.errno = some .EINTR ∨ turn.poll.errno = some .EAGAIN := by
        simpa [ListenerTurn.FromPeers, answer] using fromPeers
      simp [listenerTurn, answer, retried]
  | timedOut => simp [listenerTurn, answer]
  | ready revents =>
      have input : ¬ revents.POLLIN = true := fun input => asleep ⟨revents, answer, input⟩
      obtain ⟨valid, noError, noHangup, _⟩ : revents.POLLNVAL = false ∧
          revents.POLLERR = false ∧ revents.POLLHUP = false ∧ _ := by
        simpa [ListenerTurn.FromPeers, answer] using fromPeers
      simp [listenerTurn, answer, processListeningSocket, input, valid, noError, noHangup]

theorem ListenerTurn.FromPeers.init {turn : ListenerTurn} (fromPeers : turn.FromPeers)
    (wakes : turn.WakesUp) : turn.init = .returned () := by
  obtain ⟨revents, answer, _⟩ := wakes
  obtain ⟨_, _, _, init, _⟩ : _ ∧ _ ∧ _ ∧ turn.init = .returned () ∧ _ := by
    simpa only [ListenerTurn.FromPeers, answer] using fromPeers
  exact init

/-- From the peers' events, the listener goes back to its poll unless a wake-up
fails to go through. -/
theorem listenerTurn_again_iff (server : Server) {turn : ListenerTurn}
    (fromPeers : turn.FromPeers) :
    (∃ next, listenerTurn server turn = .again next) ↔
      (turn.WakesUp → turn.GoesThrough server.transport.mProtocol) := by
  by_cases wakes : turn.WakesUp
  · constructor
    · rintro ⟨next, again⟩ _
      rcases listenerTurn_again again with ⟨_, asleep⟩ | ⟨_, through, _⟩
      · exact absurd wakes asleep
      · exact through
    · intro through
      have goesThrough := through wakes
      obtain ⟨ret, handshakes⟩ := goesThrough.handshakes
      obtain ⟨fd, accepted⟩ := handshakes.accepted
      exact ⟨_, listenerTurn_of_goesThrough server wakes (fromPeers.init wakes) goesThrough
        accepted handshakes.returned⟩
  · simp [listenerTurn_of_fromPeers server fromPeers wakes, wakes]

def servedTurn (fd : Nat) (sslAccept : Int) : ListenerTurn where
  poll := ⟨.ready { POLLIN := true }, none⟩
  accept := ⟨⟨.accepted fd, none⟩, true, true, true⟩
  init := .returned ()
  tlsAccept := ⟨true, true, .returned sslAccept⟩
  sslShutdown := .returned ()

theorem goesThrough_servedTurn (fd : Nat) (sslAccept : Int) :
    (servedTurn fd sslAccept).GoesThrough .tcp :=
  ⟨⟨sslAccept, ⟨fd, rfl⟩, ⟨rfl, rfl⟩, rfl, ⟨rfl, rfl⟩, rfl⟩, rfl⟩

end TlsClient
