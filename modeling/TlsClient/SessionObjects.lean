import TlsClient.ContextSetup
import TlsClient.Handshake
import TlsClient.ServerDescriptors

/-!
# The objects of a session

A client makes one session, the server one for each connection: a `tlsmanager`,
a lock table, the objects of `tlsmanager::init`, the session itself, its BIO and
the certificate of its peer.  `free_ssl` and `free_ssl_ctx` stand at the end.
-/

namespace TlsClient

open EventDriven ObjectLifetime

inductive SessionObject
  | manager
  | lockTable
  | setup (object : SslObject)
  | ssl
  | sbio
  | peerCertificate
  deriving DecidableEq, Repr

/-- The calls made for a session; a flag says whether an object is returned or
handed on. -/
inductive ManagerCall
  | newTlsmanager
  | malloc (table : Bool)
  | init (call : OpensslCall)
  | SSL_new (created : Bool)
  | BIO_new_socket (created : Bool)
  | SSL_set_bio (sbio : Bool)
  | session (call : SslCall)
  | SSL_get_error
  | SSL_get_peer_certificate (present : Bool)
  | X509_NAME_oneline
  | SSL_get_current_cipher
  | SSL_free (sbio : Bool)
  | SSL_CTX_free
  deriving DecidableEq, Repr

/-- `SSL_free` takes the BIO with it and gives up the reference of the session to
its context, so that `SSL_CTX_free` gives up the last one, and the store with it.
The references the program got from the PEM readers and from
`SSL_get_peer_certificate` stay with it. -/
def ManagerCall.actions : ManagerCall → List (Action SessionObject)
  | newTlsmanager => [.creates .manager]
  | malloc table => if table then [.creates .lockTable] else []
  | init call => call.actions.map (Action.map .setup)
  | SSL_new created => .uses (.setup .ctx) :: if created then [.creates .ssl] else []
  | BIO_new_socket created => if created then [.creates .sbio] else []
  | SSL_set_bio sbio => .uses .ssl :: if sbio then [.uses .sbio] else []
  | session _ => [.uses .ssl]
  | SSL_get_error => [.uses .ssl]
  | SSL_get_peer_certificate present =>
      .uses .ssl :: if present then [.creates .peerCertificate] else []
  | X509_NAME_oneline => [.uses .peerCertificate]
  | SSL_get_current_cipher => [.uses .ssl]
  | SSL_free sbio => .destroys .ssl :: if sbio then [.destroys .sbio] else []
  | SSL_CTX_free => [.destroys (.setup .ctx), .destroys (.setup .store)]

def ManagerCall.sslCall : ManagerCall → Option SslCall
  | session call => some call
  | _ => none

/-- `BIO_new_socket`, which is commented out for SCTP: the calls, and whether there
is a BIO. -/
def newSocketBio (protocol : Protocol) (bioNewSocket : Bool) : List ManagerCall × Bool :=
  match protocol with
  | .tcp => ([.BIO_new_socket bioNewSocket], bioNewSocket)
  | .sctp => ([], false)

/-- One attempt of `tls_connect`; on a client every call on the session before
`SSL_write` is one. -/
def attemptCalls : SslCall → List ManagerCall
  | .SSL_connect ret =>
      .session (.SSL_connect ret) :: if ret = 1 then [] else [.SSL_get_error]
  | call => [.session call]

def printPeerCertificates (peer : Bool) : List ManagerCall :=
  .SSL_get_peer_certificate peer ::
    if peer then [.X509_NAME_oneline, .SSL_get_current_cipher] else []

/-- `tls_shutdown`, `free_ssl` and `free_ssl_ctx`. -/
def takeDown (sbio : Bool) : List ManagerCall :=
  [.session .SSL_shutdown, .SSL_free sbio, .SSL_CTX_free]

section

variable {Certificate Key : Type}

/-- How `init` ends for its caller. -/
def endOf (setup : Pass (Setup Certificate Key) Unit) : Ended Unit :=
  match setup with
  | .again _ => .returned ()
  | .done _ _ => .exited

/-- `new tlsmanager` and `init`. -/
def prepare (answers : InitAnswers) (setup : Setup Certificate Key) : List ManagerCall :=
  [.newTlsmanager, .malloc answers.malloc.isSome] ++ setup.calls.map .init

/-- What a client meets behind `init`: whether `SSL_new` and `BIO_new_socket` return
an object, where `tls_connect` has left the handshake, and whether the peer has
a certificate. -/
structure ClientSession where
  sslNew : Bool
  bioNewSocket : Bool
  handshake : Handshake
  peer : Bool
  deriving DecidableEq, Repr

/-- `SocketSender::start_thread` on a connected client.  A session that could not
be made is dereferenced in `SSL_set_bio`. -/
def clientCalls (protocol : Protocol) (answers : InitAnswers)
    (setup : Pass (Setup Certificate Key) Unit) (session : ClientSession) : List ManagerCall :=
  let sbio := newSocketBio protocol session.bioNewSocket
  let opened := prepare answers setup.state
  match setup with
  | .done _ _ => opened
  | .again _ =>
      let attached := opened ++ .SSL_new session.sslNew :: (sbio.1 ++ [.SSL_set_bio sbio.2])
      if session.sslNew = false then attached
      else
        attached ++ (session.handshake.calls.flatMap attemptCalls ++
          (printPeerCertificates session.peer ++ .session .SSL_write :: takeDown sbio.2))

/-- `process_listening_socket`, from `new tlsmanager` on; `tls_accept` exits without
a BIO.  Behind a call that ends the process there are no others. -/
def serverCalls (protocol : Protocol) (answers : InitAnswers)
    (setup : Pass (Setup Certificate Key) Unit) (call : TlsAcceptCall)
    (sslShutdown : Ended Unit) (peer : Bool) : List ManagerCall :=
  let sbio := newSocketBio protocol call.bioNewSocket
  let opened := prepare answers setup.state
  match setup with
  | .done _ _ => opened
  | .again _ =>
      if sbio.2 = false then opened ++ sbio.1
      else
        let attached := opened ++ (sbio.1 ++ [.SSL_new call.sslNew, .SSL_set_bio sbio.2])
        if call.sslNew = false then attached
        else
          match call.sslAccept with
          | .exited => attached
          | .returned ret =>
              let accepted :=
                attached ++ .session (.SSL_accept ret) :: printPeerCertificates peer
              match sslShutdown with
              | .exited => accepted ++ [.session .SSL_shutdown]
              | .returned () => accepted ++ takeDown sbio.2

end

/-- The objects alive behind some calls, unless one was made on an object that is
null or freed. -/
def liveAfter (calls : List ManagerCall) : Option (List SessionObject) :=
  exec ObjectLifetime.step [] (calls.flatMap ManagerCall.actions)

/-- Alive before the calls of `init`. -/
def outermost (answers : InitAnswers) : List SessionObject :=
  (if answers.malloc.isSome then [.lockTable] else []) ++ [.manager]

/-- Alive when `init` has returned as it should. -/
def afterInit (answers : InitAnswers) : List SessionObject :=
  [.setup .store, .setup (.parsed .caCert), .setup (.parsed .key),
    .setup (.parsed .certificate), .setup .ctx] ++ outermost answers

/-- What a session leaves behind. -/
def leftover (answers : InitAnswers) (peer : Bool) : List SessionObject :=
  (if peer then [.peerCertificate] else []) ++
    ([.setup (.parsed .caCert), .setup (.parsed .key), .setup (.parsed .certificate)] ++
      outermost answers)

section

variable {Certificate Key : Type} (library : TlsLibrary Certificate Key)
variable (answers : InitAnswers) (files : InitFiles)

/-- The context and its store could be made, and the store loaded. -/
def StoreLoads : Prop :=
  answers.sslCtxNew = true ∧ answers.storeNew = true ∧
    (loadedFile library answers files).isSome = true

instance : Decidable (StoreLoads library answers files) :=
  inferInstanceAs (Decidable (_ ∧ _ ∧ _))

theorem liveAfter_append (first second : List ManagerCall) :
    liveAfter (first ++ second) = (liveAfter first).bind fun live =>
      exec ObjectLifetime.step live (second.flatMap ManagerCall.actions) := by
  rw [liveAfter, List.flatMap_append, exec_append]
  rfl

theorem liveAfter_append_of_none {first : List ManagerCall} (dead : liveAfter first = none)
    (second : List ManagerCall) : liveAfter (first ++ second) = none := by
  rw [liveAfter_append, dead]
  rfl

theorem liveAfter_append_of_some {first : List ManagerCall} {live : List SessionObject}
    (alive : liveAfter first = some live) (second : List ManagerCall) :
    liveAfter (first ++ second) =
      exec ObjectLifetime.step live (second.flatMap ManagerCall.actions) := by
  rw [liveAfter_append, alive]
  rfl

theorem actions_init (calls : List OpensslCall) :
    (calls.map ManagerCall.init).flatMap ManagerCall.actions =
      (calls.flatMap OpensslCall.actions).map (Action.map SessionObject.setup) := by
  induction calls with
  | nil => rfl
  | cons call calls ih =>
      rw [List.map_cons, List.flatMap_cons, List.flatMap_cons, List.map_append, ih]
      rfl

/-- The objects of `init` among the two made before it. -/
theorem liveAfter_prepare (setup : Setup Certificate Key) :
    liveAfter (prepare answers setup) =
      setup.live.map fun left => left.map .setup ++ outermost answers := by
  have opened : liveAfter [.newTlsmanager, .malloc answers.malloc.isSome] =
      some (outermost answers) := by
    cases table : answers.malloc.isSome <;> simp [outermost, table] <;> rfl
  have injective : Function.Injective SessionObject.setup := fun _ _ same =>
    SessionObject.setup.inj same
  have others : ∀ object, SessionObject.setup object ∉ outermost answers := by
    intro object
    simp [outermost]
  rw [prepare, liveAfter_append_of_some opened, actions_init, exec_renamed injective others]
  rfl

theorem liveAfter_prepare_init {numLocks : Nat} {transport : Transport} {locks : LockTable}
    {final : Setup Certificate Key}
    (returned : init library answers files numLocks transport locks = .again final) :
    liveAfter (prepare answers final) =
      if Lockable answers locks ∧ StoreLoads library answers files then some (afterInit answers)
      else none := by
  rw [liveAfter_prepare]
  by_cases startsUp : StartsUp answers locks
  · rcases init_cases library answers files numLocks transport locks startsUp with
      ⟨certificate, key, other, leaves, ends⟩ | ⟨_, final, stopped, _⟩
    · obtain rfl : final = other := by simpa [returned] using ends
      rw [leaves.live]
      by_cases loads : answers.storeNew = true ∧
          (loadedFile library answers files).isSome = true
      · rw [if_pos loads, if_pos ⟨startsUp.1, startsUp.2, loads⟩]
        rfl
      · rw [if_neg loads, if_neg fun ready => loads ready.2.2]
        rfl
    · simp [returned] at stopped
  · have dead := dead_init library answers files numLocks transport locks startsUp
    rw [returned] at dead
    have lost : final.live = none := dead
    rw [lost, if_neg fun ready => startsUp ⟨ready.1, ready.2.1⟩]
    rfl

theorem exec_attempts {live : List SessionObject} (alive : .ssl ∈ live)
    (calls : List SslCall) :
    exec ObjectLifetime.step live
      ((calls.flatMap attemptCalls).flatMap ManagerCall.actions) = some live := by
  apply exec_of_uses
  intro action member
  obtain ⟨call, made, acts⟩ := List.mem_flatMap.mp member
  obtain ⟨attempt, _, made⟩ := List.mem_flatMap.mp made
  refine ⟨.ssl, alive, ?_⟩
  cases attempt with
  | SSL_connect ret =>
      by_cases success : ret = 1
      · simp only [attemptCalls, if_pos success, List.mem_singleton] at made
        simpa [made, ManagerCall.actions] using acts
      · simp only [attemptCalls, if_neg success, List.mem_cons, List.not_mem_nil,
          or_false] at made
        rcases made with rfl | rfl
        · simpa [ManagerCall.actions] using acts
        · simpa [ManagerCall.actions] using acts
  | _ =>
      simp only [attemptCalls, List.mem_singleton] at made
      simpa [made, ManagerCall.actions] using acts

theorem exec_attach (protocol : Protocol) (bioNewSocket sslNew : Bool) :
    exec ObjectLifetime.step (afterInit answers)
      ((.SSL_new sslNew :: ((newSocketBio protocol bioNewSocket).1 ++
        [.SSL_set_bio (newSocketBio protocol bioNewSocket).2])).flatMap
          ManagerCall.actions) =
      if sslNew then
        some ((if (newSocketBio protocol bioNewSocket).2 then [.sbio, .ssl] else [.ssl]) ++
          afterInit answers)
      else none := by
  unfold afterInit outermost
  cases protocol <;> cases bioNewSocket <;> cases sslNew <;> cases answers.malloc.isSome <;> rfl

theorem exec_clientEnd (sbio peer : Bool) :
    exec ObjectLifetime.step ((if sbio then [.sbio, .ssl] else [.ssl]) ++ afterInit answers)
      ((printPeerCertificates peer ++ .session .SSL_write :: takeDown sbio).flatMap
        ManagerCall.actions) = some (leftover answers peer) := by
  unfold afterInit leftover outermost
  cases sbio <;> cases peer <;> cases answers.malloc.isSome <;> rfl

theorem exec_serverSession (peer : Bool) (ret : Int) :
    exec ObjectLifetime.step (afterInit answers)
      (([ManagerCall.BIO_new_socket true, .SSL_new true, .SSL_set_bio true] ++
        (ManagerCall.session (.SSL_accept ret) :: printPeerCertificates peer ++
          takeDown true)).flatMap ManagerCall.actions) =
      some (leftover answers peer) := by
  unfold afterInit leftover outermost
  cases peer <;> cases answers.malloc.isSome <;> rfl

/-- A client's session and its BIO are made, used and freed; the certificate of its
peer is not. -/
theorem clientCalls_live {numLocks : Nat} {transport : Transport} {locks : LockTable}
    {final : Setup Certificate Key} (session : ClientSession)
    (returned : init library answers files numLocks transport locks = .again final) :
    liveAfter (clientCalls transport.mProtocol answers
        (init library answers files numLocks transport locks) session) =
      if (Lockable answers locks ∧ StoreLoads library answers files) ∧ session.sslNew = true then
        some (leftover answers session.peer)
      else none := by
  have prepared := liveAfter_prepare_init library answers files returned
  have attached := exec_attach answers transport.mProtocol session.bioNewSocket session.sslNew
  rw [returned]
  unfold clientCalls
  dsimp only [Pass.state]
  by_cases loads : Lockable answers locks ∧ StoreLoads library answers files
  · rw [if_pos loads] at prepared
    cases made : session.sslNew with
    | false =>
        rw [made] at attached
        rw [if_pos rfl, if_neg (by simp), liveAfter_append_of_some prepared, attached]
        rfl
    | true =>
        rw [made, if_pos rfl] at attached
        rw [← liveAfter_append_of_some prepared] at attached
        rw [if_neg (by simp), if_pos ⟨loads, rfl⟩, liveAfter_append_of_some attached,
          List.flatMap_append, exec_append, exec_attempts (by split <;> simp), Option.bind_some,
          exec_clientEnd]
  · rw [if_neg loads] at prepared
    rw [if_neg fun both => loads (And.left both)]
    cases session.sslNew with
    | false => exact liveAfter_append_of_none prepared _
    | true => exact liveAfter_append_of_none (liveAfter_append_of_none prepared _) _

theorem clientCalls_live_one :
    liveAfter (clientCalls .tcp (initAnswers true)
        (init tlsLibrary (initAnswers true) initFiles 1 ⟨4, 0, .tcp, .client⟩ .initial)
        ⟨true, true, ⟨1, {}, [.SSL_connect 1]⟩, true⟩) =
      if (Lockable (initAnswers true) .initial ∧
          StoreLoads tlsLibrary (initAnswers true) initFiles) ∧ true = true then
        some (leftover (initAnswers true) true)
      else none :=
  @clientCalls_live _ _ tlsLibrary (initAnswers true) initFiles 1 ⟨4, 0, .tcp, .client⟩ .initial _
    ⟨true, true, ⟨1, {}, [.SSL_connect 1]⟩, true⟩ rfl

theorem serverCalls_live {numLocks : Nat} {transport : Transport} {locks : LockTable}
    {final : Setup Certificate Key} {call : TlsAcceptCall} {ret : Int} (peer : Bool)
    (tcp : transport.mProtocol = .tcp) (bioNewSocket : call.bioNewSocket = true)
    (sslNew : call.sslNew = true) (accepts : call.sslAccept = .returned ret)
    (returned : init library answers files numLocks transport locks = .again final) :
    liveAfter (serverCalls transport.mProtocol answers
        (init library answers files numLocks transport locks) call (.returned ()) peer) =
      if Lockable answers locks ∧ StoreLoads library answers files then
        some (leftover answers peer)
      else none := by
  have prepared := liveAfter_prepare_init library answers files returned
  have served := exec_serverSession answers peer ret
  rw [returned]
  simp only [serverCalls, Pass.state, newSocketBio, tcp, bioNewSocket, sslNew, accepts,
    Bool.true_eq_false, if_false, List.append_assoc]
  by_cases loads : Lockable answers locks ∧ StoreLoads library answers files
  · rw [if_pos loads] at prepared
    rw [if_pos loads, liveAfter_append_of_some prepared]
    exact served
  · rw [if_neg loads] at prepared
    rw [if_neg loads, liveAfter_append_of_none prepared]

theorem sslCall_attempts (calls : List SslCall) :
    (calls.flatMap attemptCalls).filterMap ManagerCall.sslCall = calls := by
  induction calls with
  | nil => rfl
  | cons call calls ih =>
      rw [List.flatMap_cons, List.filterMap_append, ih]
      cases call with
      | SSL_connect ret =>
          by_cases success : ret = 1 <;> simp [attemptCalls, success, ManagerCall.sslCall]
      | _ => rfl

theorem sslCall_prepare (setup : Setup Certificate Key) :
    (prepare answers setup).filterMap ManagerCall.sslCall = [] := by
  simp [prepare, ManagerCall.sslCall]

/-- The calls on the session are those of `startSender`. -/
theorem clientCalls_sslCalls (protocol : Protocol) (setup : Pass (Setup Certificate Key) Unit)
    (session : ClientSession) :
    (clientCalls protocol answers setup session).filterMap ManagerCall.sslCall =
      startSender ⟨.returned true, endOf setup, session.sslNew⟩ session.handshake := by
  cases setup with
  | done final result => exact sslCall_prepare answers final
  | again final =>
      simp only [clientCalls, Pass.state, startSender, endOf]
      cases session.sslNew with
      | false =>
          rw [if_pos rfl, List.filterMap_append, sslCall_prepare]
          cases protocol <;> rfl
      | true =>
          have silent : List.filterMap ManagerCall.sslCall (.SSL_new true ::
              ((newSocketBio protocol session.bioNewSocket).1 ++
                [.SSL_set_bio (newSocketBio protocol session.bioNewSocket).2])) = [] := by
            cases protocol <;> rfl
          have spoken : (printPeerCertificates session.peer ++ .session .SSL_write ::
              takeDown (newSocketBio protocol session.bioNewSocket).2).filterMap
                ManagerCall.sslCall = [.SSL_write, .SSL_shutdown] := by
            cases session.peer <;> rfl
          rw [if_neg (by simp), if_pos rfl, List.filterMap_append, List.filterMap_append,
            List.filterMap_append, sslCall_prepare, sslCall_attempts, silent, spoken]
          simp [tlsShutdown]

end

/-- A turn of the listener, with the answers that `init` meets in it. -/
structure SessionTurn where
  poll : Answered PollAnswer
  accept : AcceptCall
  answers : InitAnswers
  files : InitFiles
  tlsAccept : TlsAcceptCall
  sslShutdown : Ended Unit
  peer : Bool

/-- The calls are kept with the number of their connection. -/
structure SessionServer where
  server : Server
  locks : LockTable
  calls : List (Nat × ManagerCall)
  deriving DecidableEq, Repr

def SessionTurn.wakesUp (turn : SessionTurn) : Bool :=
  match turn.poll.answer with
  | .ready revents => revents.POLLIN
  | _ => false

def taggedActions (calls : List (Nat × ManagerCall)) : List (Action (Nat × SessionObject)) :=
  calls.flatMap fun call => call.2.actions.map (Action.map (Prod.mk call.1))

def SessionServer.live (state : SessionServer) : Option (List (Nat × SessionObject)) :=
  exec ObjectLifetime.step [] (taggedActions state.calls)

def sessionEntry (transport : Transport) : SessionServer where
  server := listenerEntry transport
  locks := .initial
  calls := []

/-- What the connections served in these turns leave behind. -/
def leftBehind (turns : List SessionTurn) : List (Nat × SessionObject) :=
  turns.zipIdx.reverse.flatMap fun numbered =>
    (leftover numbered.1.answers numbered.1.peer).map (Prod.mk numbered.2)

section

variable {Certificate Key : Type} (library : TlsLibrary Certificate Key) (numLocks : Nat)

/-- `init` looks at the protocol and the type of the transport, which `accept` leaves
alone. -/
def SessionTurn.setUp (turn : SessionTurn) (state : SessionServer) :
    Pass (Setup Certificate Key) Unit :=
  init library turn.answers turn.files numLocks state.server.transport state.locks

def SessionTurn.plain (turn : SessionTurn) (state : SessionServer) : ListenerTurn where
  poll := turn.poll
  accept := turn.accept
  init := endOf (turn.setUp library numLocks state)
  tlsAccept := turn.tlsAccept
  sslShutdown := turn.sslShutdown

def SessionServer.serve (state : SessionServer) (turn : SessionTurn) (server : Server) :
    SessionServer :=
  let setup := turn.setUp library numLocks state
  let calls :=
    serverCalls state.server.transport.mProtocol turn.answers setup turn.tlsAccept
      turn.sslShutdown turn.peer
  { server := server
    locks := setup.state.locks
    calls := state.calls ++ calls.map (Prod.mk state.server.sessions.length) }

/-- A turn of the listener, with its objects.  Those of a turn that ends the process
end with it. -/
def sessionTurn (state : SessionServer) (turn : SessionTurn) :
    Pass SessionServer ListenerEnd :=
  match listenerTurn state.server (turn.plain library numLocks state) with
  | .done server ended => .done { state with server := server } ended
  | .again server =>
      if turn.wakesUp then .again (state.serve library numLocks turn server)
      else .again { state with server := server }

def sessionListener : Loop SessionServer SessionTurn ListenerEnd where
  continues _ := true
  fallsOut _ := .leftLoop
  body := sessionTurn library numLocks
  possible _ _ := true

def SessionTurn.StoreLoads (turn : SessionTurn) : Prop :=
  TlsClient.StoreLoads library turn.answers turn.files

instance (turn : SessionTurn) : Decidable (turn.StoreLoads library) :=
  inferInstanceAs (Decidable (TlsClient.StoreLoads library turn.answers turn.files))

/-- In all these turns a context and its store could be made, the store loaded, and the
lock table made as soon as one has been made before. -/
def InOrder (turns : List SessionTurn) : Prop :=
  (∀ turn ∈ turns, turn.StoreLoads library) ∧
    turns.Pairwise fun earlier later =>
      earlier.answers.malloc.isSome = true → later.answers.malloc.isSome = true

instance (turns : List SessionTurn) : Decidable (InOrder library turns) :=
  inferInstanceAs (Decidable (_ ∧ _))

theorem plain_wakesUp_iff (turn : SessionTurn) (state : SessionServer) :
    (turn.plain library numLocks state).WakesUp ↔ turn.wakesUp = true := by
  cases answer : turn.poll.answer <;>
    simp [ListenerTurn.WakesUp, SessionTurn.plain, SessionTurn.wakesUp, answer]

theorem endOf_eq_returned {setup : Pass (Setup Certificate Key) Unit}
    (returned : endOf setup = .returned ()) : ∃ final, setup = .again final := by
  cases setup with
  | again final => exact ⟨final, rfl⟩
  | done final result => cases returned

theorem sessionTurn_again {state next : SessionServer} {turn : SessionTurn}
    (again : sessionTurn library numLocks state turn = .again next) :
    (turn.wakesUp = false ∧ next = state) ∨
      (turn.wakesUp = true ∧
        (turn.plain library numLocks state).GoesThrough state.server.transport.mProtocol ∧
        (∃ final, turn.setUp library numLocks state = .again final) ∧
        ∃ fd ret, next = state.serve library numLocks turn
          (served state.server fd turn.accept.spawned ret)) := by
  simp only [sessionTurn] at again
  cases turned : listenerTurn state.server (turn.plain library numLocks state) with
  | done server ended => simp [turned] at again
  | again server =>
      simp only [turned] at again
      rcases listenerTurn_again turned with
        ⟨rfl, asleep⟩ | ⟨wakes, through, returned, fd, ret, _, _, became⟩
      · rw [plain_wakesUp_iff, Bool.not_eq_true] at asleep
        rw [asleep, if_neg (by simp)] at again
        cases again
        exact Or.inl ⟨asleep, rfl⟩
      · rw [plain_wakesUp_iff] at wakes
        rw [if_pos wakes] at again
        cases again
        exact Or.inr ⟨wakes, through, endOf_eq_returned returned, fd, ret, by rw [became]; rfl⟩

/-- One more turn is in order if it finds its locks. -/
theorem inOrder_concat (turns : List SessionTurn) (turn : SessionTurn) {locks : LockTable}
    (registered : locks.callbacks.locking = true ↔
      ∃ earlier ∈ turns, earlier.answers.malloc.isSome = true) :
    InOrder library (turns ++ [turn]) ↔
      InOrder library turns ∧ Lockable turn.answers locks ∧ turn.StoreLoads library := by
  have lockable : Lockable turn.answers locks ↔
      ∀ earlier ∈ turns, earlier.answers.malloc.isSome = true →
        turn.answers.malloc.isSome = true := by
    rw [Lockable, ← Bool.not_eq_true, registered]
    constructor
    · rintro (table | none) earlier member made
      · exact table
      · exact absurd ⟨earlier, member, made⟩ none
    · intro keeps
      by_cases made : ∃ earlier ∈ turns, earlier.answers.malloc.isSome = true
      · obtain ⟨earlier, member, table⟩ := made
        exact Or.inl (keeps earlier member table)
      · exact Or.inr made
  rw [lockable, InOrder, InOrder, List.forall_mem_append, List.forall_mem_singleton,
    List.pairwise_append]
  constructor
  · rintro ⟨⟨loads, last⟩, keeps, _, across⟩
    exact ⟨⟨loads, keeps⟩, fun earlier member => across earlier member turn (by simp), last⟩
  · rintro ⟨⟨loads, keeps⟩, across, last⟩
    refine ⟨⟨loads, last⟩, keeps, List.pairwise_singleton _ _, ?_⟩
    intro earlier member other same
    rw [List.mem_singleton.mp same]
    exact across earlier member

theorem taggedActions_append (first second : List (Nat × ManagerCall)) :
    taggedActions (first ++ second) = taggedActions first ++ taggedActions second :=
  List.flatMap_append

theorem taggedActions_map (number : Nat) (calls : List ManagerCall) :
    taggedActions (calls.map (Prod.mk number)) =
      (calls.flatMap ManagerCall.actions).map (Action.map (Prod.mk number)) := by
  rw [taggedActions, List.flatMap_map, List.map_flatMap]

theorem leftBehind_concat (turns : List SessionTurn) (turn : SessionTurn) :
    leftBehind (turns ++ [turn]) =
      (leftover turn.answers turn.peer).map (Prod.mk turns.length) ++ leftBehind turns := by
  simp [leftBehind, List.zipIdx_append]

theorem lt_of_mem_leftBehind {turns : List SessionTurn} {object : Nat × SessionObject}
    (member : object ∈ leftBehind turns) : object.1 < turns.length := by
  obtain ⟨⟨turn, number⟩, numbered, left⟩ := List.mem_flatMap.mp member
  obtain ⟨plain, _, rfl⟩ := List.mem_map.mp left
  have position := List.mem_zipIdx (List.mem_reverse.mp numbered)
  omega

/-- One connection among the leftovers of others. -/
theorem live_serve {state : SessionServer} {turn : SessionTurn} {server : Server}
    {frame : List (Nat × SessionObject)} {left : Option (List SessionObject)}
    (alive : state.live = some frame)
    (others : ∀ object ∈ frame, object.1 ≠ state.server.sessions.length)
    (leaves : liveAfter (serverCalls state.server.transport.mProtocol turn.answers
      (turn.setUp library numLocks state) turn.tlsAccept turn.sslShutdown turn.peer) = left) :
    (state.serve library numLocks turn server).live =
      left.map fun left => left.map (Prod.mk state.server.sessions.length) ++ frame := by
  have before : exec ObjectLifetime.step [] (taggedActions state.calls) = some frame := alive
  rw [SessionServer.live, SessionServer.serve, taggedActions_append, exec_append, before,
    Option.bind_some, taggedActions_map, exec_tagged others, ← leaves]
  rfl

/-- What is alive behind some turns, and whether the callbacks are registered. -/
structure ObjectHistory (past : List SessionTurn) (state : SessionServer) : Prop where
  numbered : state.server.sessions.length = (past.filter SessionTurn.wakesUp).length
  registered : state.locks.callbacks.locking = true ↔
    ∃ turn ∈ past.filter SessionTurn.wakesUp, turn.answers.malloc.isSome = true
  live : state.live =
    if InOrder library (past.filter SessionTurn.wakesUp) then
      some (leftBehind (past.filter SessionTurn.wakesUp))
    else none

theorem registered_sslThreadSetup (malloc : Option Nat) (locks : LockTable) :
    (sslThreadSetup numLocks malloc locks).locks.callbacks.locking = true ↔
      locks.callbacks.locking = true ∨ malloc.isSome = true := by
  cases malloc with
  | none => simp [sslThreadSetup]
  | some address => simp [sslThreadSetup, Callbacks.registered]

theorem objectHistory_turn {past : List SessionTurn} {state next : SessionServer}
    {turn : SessionTurn} (history : ObjectHistory library past state)
    (again : sessionTurn library numLocks state turn = .again next) :
    ObjectHistory library (past ++ [turn]) next := by
  obtain ⟨numbered, registered, live⟩ := history
  rcases sessionTurn_again library numLocks again with
    ⟨asleep, rfl⟩ | ⟨wakes, through, ⟨final, returned⟩, fd, ret, rfl⟩
  · have filtered : (past ++ [turn]).filter SessionTurn.wakesUp =
        past.filter SessionTurn.wakesUp := by
      simp [asleep]
    exact ⟨by rwa [filtered], by rwa [filtered], by rwa [filtered]⟩
  have filtered : (past ++ [turn]).filter SessionTurn.wakesUp =
      past.filter SessionTurn.wakesUp ++ [turn] := by
    simp [wakes]
  have locks : (turn.setUp library numLocks state).state.locks =
      (sslThreadSetup numLocks turn.answers.malloc state.locks).locks := by
    rw [returned]
    exact init_locks library turn.answers turn.files returned
  constructor
  · rw [filtered, List.length_append, ← numbered]
    simp [SessionServer.serve, served]
  · rw [filtered, SessionServer.serve, locks, registered_sslThreadSetup, registered]
    simp [or_and_right, exists_or]
  rw [filtered, if_congr (inOrder_concat library _ turn registered) rfl rfl]
  by_cases earlier : InOrder library (past.filter SessionTurn.wakesUp)
  · rw [if_pos earlier] at live
    have others : ∀ object ∈ leftBehind (past.filter SessionTurn.wakesUp),
        object.1 ≠ state.server.sessions.length := by
      intro object member
      have below := lt_of_mem_leftBehind member
      omega
    obtain ⟨value, handshakes⟩ := through.handshakes
    have leaves := serverCalls_live library turn.answers turn.files turn.peer handshakes.tcp
      handshakes.allocated.1 handshakes.allocated.2 handshakes.returned returned
    have shutsDown : turn.sslShutdown = .returned () := through.shutsDown
    rw [← shutsDown] at leaves
    rw [live_serve library numLocks live others leaves]
    by_cases ready : Lockable turn.answers state.locks ∧
        StoreLoads library turn.answers turn.files
    · rw [if_pos ready, if_pos ⟨earlier, ready⟩, leftBehind_concat, numbered]
      rfl
    · have missing : ¬ (InOrder library (past.filter SessionTurn.wakesUp) ∧
          Lockable turn.answers state.locks ∧ turn.StoreLoads library) := fun all => ready all.2
      rw [if_neg ready, if_neg missing]
      rfl
  · rw [if_neg earlier] at live
    have dead : exec ObjectLifetime.step [] (taggedActions state.calls) = none := live
    rw [if_neg fun all => earlier all.1]
    rw [SessionServer.live, SessionServer.serve, taggedActions_append, exec_append, dead]
    rfl

/-- At the poll of the listener, the objects of the connections served so far are
those each of them leaves behind, and no call has been made on a null or freed
one, unless a context or its store could not be made or loaded, or the lock table. -/
theorem listener_live {transport : Transport} {turns : List SessionTurn}
    {final : SessionServer}
    (run : (sessionListener library numLocks).run (sessionEntry transport) turns =
      some (.running final)) :
    final.live =
      if InOrder library (turns.filter SessionTurn.wakesUp) then
        some (leftBehind (turns.filter SessionTurn.wakesUp))
      else none := by
  have start : ObjectHistory library [] (sessionEntry transport) :=
    ⟨rfl, iff_of_false (by simp [sessionEntry, LockTable.initial, Callbacks.unset]) (by simp), rfl⟩
  have satisfied := Loop.run_satisfies (ObjectHistory library) (fun _ _ _ => True) start
    (fun _ => trivial) ?_ run
  · exact satisfied.2.live
  intro past state turn history _ _
  cases outcome : (sessionListener library numLocks).body state turn with
  | again next =>
      exact Loop.satisfies_of_again rfl (objectHistory_turn library numLocks history outcome)
        fun _ => trivial
  | done last ended => exact Loop.satisfies_of_done rfl trivial

def servedSession (fd : Nat) (loads peer : Bool) : SessionTurn where
  poll := ⟨.ready { POLLIN := true }, none⟩
  accept := ⟨⟨.accepted fd, none⟩, true, true, true⟩
  answers := initAnswers loads
  files := initFiles
  tlsAccept := ⟨true, true, .returned 1⟩
  sslShutdown := .returned ()
  peer := peer

/-- Two connections, of which the second shows a certificate. -/
theorem listener_live_two :
    ∃ final,
      (sessionListener tlsLibrary 1).run (sessionEntry ⟨0, 3, .tcp, .server⟩)
          [servedSession 4 true false, servedSession 5 true true] = some (.running final) ∧
        final.live =
          some (leftBehind [servedSession 4 true false, servedSession 5 true true]) := by
  refine ⟨_, rfl, ?_⟩
  rw [@listener_live _ _ tlsLibrary 1 ⟨0, 3, .tcp, .server⟩
    [servedSession 4 true false, servedSession 5 true true] _ rfl]
  exact if_pos (by decide)

/-- Without their objects, the turns are those of the listener. -/
theorem sessionListener_projects :
    Loop.Projects startListener (sessionListener library numLocks) SessionServer.server
      fun state turn => turn.plain library numLocks state where
  continues _ := rfl
  fallsOut _ := rfl
  possible _ _ _ := rfl
  body state turn _ := by
    change listenerTurn _ _ = (sessionTurn library numLocks state turn).map _
    unfold sessionTurn
    cases listenerTurn state.server (turn.plain library numLocks state) with
    | done server ended => rfl
    | again server => cases turn.wakesUp <;> rfl

theorem sessionListener_refines {transport : Transport} {turns : List SessionTurn}
    {control : Control SessionServer ListenerEnd}
    (run : (sessionListener library numLocks).run (sessionEntry transport) turns =
      some control) :
    ∃ plain, startListener.run (listenerEntry transport) plain =
      some (control.map SessionServer.server) :=
  (sessionListener_projects library numLocks).run run

end

end TlsClient
