import TlsClient.Listener

/-!
# `TransportInterface::close`

A transport gets `m_socket` from `socket` (as a client) or from `::accept`, and
before that the constructor has set it to 0.  `close` hands it to `::close` and
resets it in the branch for a failed `::shutdown` only.
-/

namespace TlsClient

open EventDriven ResourceLedger

/-- The calls `close` makes on a descriptor. -/
inductive CloseCall
  | setsockopt (fd : Int)
  | shutdown (fd : Int)
  | close (fd : Int)
  deriving DecidableEq, Repr

def CloseCall.fd : CloseCall → Int
  | setsockopt fd => fd
  | shutdown fd => fd
  | close fd => fd

/-- What these calls return. -/
structure CloseAnswers where
  setsockopt : Int
  shutdown : Int
  close : Int
  deriving DecidableEq, Repr

/-- `TransportInterface::close`: the transport behind it, and the calls made.
Failures of `setsockopt` and `::close` are logged. -/
def close (transport : Transport) (answers : CloseAnswers) : Transport × List CloseCall :=
  let fd := transport.mSocket
  if -1 ≠ fd then
    if answers.shutdown ≠ 0 then
      ({ transport with mSocket := -1 }, [.setsockopt fd, .shutdown fd, .close fd])
    else (transport, [.setsockopt fd, .shutdown fd])
  else (transport, [])

/-- Consecutive calls of `close`, with the calls each of them makes. -/
def closeRepeatedly (transport : Transport) : List CloseAnswers → List (List CloseCall)
  | [] => []
  | answers :: rest =>
      (close transport answers).2 :: closeRepeatedly (close transport answers).1 rest

/-- A transport, with the descriptors it has obtained and given back. -/
structure OwningTransport where
  transport : Transport
  descriptors : List (Entry Int)
  deriving DecidableEq, Repr

/-- What is done with a transport.  `fd` is the descriptor `socket` returns, and
`init` comes to its end. -/
inductive TransportEvent
  | init (type : TransportType) (protocol : Protocol) (fd : Nat)
  | accept (call : AcceptCall)
  | close (answers : CloseAnswers)
  deriving DecidableEq, Repr

/-- The constructor; it leaves `m_protocol` and `m_type` as they are. -/
def constructed (protocol : Protocol) (type : TransportType) : OwningTransport where
  transport := ⟨0, 0, protocol, type⟩
  descriptors := []

/-- `create_socket`: a client has one descriptor in both fields. -/
def createDescriptor (transport : Transport) (fd : Nat) : Transport :=
  match transport.mType with
  | .client => { transport with mSocket := fd, mPassiveSocket := fd }
  | .server => { transport with mPassiveSocket := fd }

def releases : List CloseCall → List (Entry Int)
  | [] => []
  | .close fd :: calls => .released fd :: releases calls
  | _ :: calls => releases calls

/-- One operation on a transport.  The kernel hands out descriptors that the
transport does not hold, and an `accept` that ends the process has no
successor. -/
def transportStep (owning : OwningTransport) : TransportEvent → Option OwningTransport
  | .init type protocol fd =>
      if (fd : Int) ∉ held owning.descriptors then
        some
          { transport :=
              createDescriptor { owning.transport with mType := type, mProtocol := protocol } fd
            descriptors := owning.descriptors ++ [.acquired fd] }
      else none
  | .accept call =>
      match call.accept.answer, accept ⟨owning.transport, [], owning.descriptors, [], []⟩ call with
      | .accepted fd, .again server =>
          if (fd : Int) ∉ held owning.descriptors then
            some ⟨server.transport, server.descriptors⟩
          else none
      | _, _ => none
  | .close answers =>
      let (transport, calls) := close owning.transport answers
      some ⟨transport, owning.descriptors ++ releases calls⟩

/-- What callers of `close` rely on, for the calls answered by `answers`. -/
structure ClosesProperly (owning : OwningTransport) (answers : List CloseAnswers) : Prop where
  releasedOnce : owning.transport.mSocket ∈ held owning.descriptors →
    (closeRepeatedly owning.transport answers).flatten.count
      (.close owning.transport.mSocket) = 1
  reset : ∀ first rest, answers = first :: rest →
    (close owning.transport first).1.mSocket = -1
  quiet : ∀ calls ∈ (closeRepeatedly owning.transport answers).tail, calls = []
  ownOnly : ∀ call ∈ (closeRepeatedly owning.transport answers).flatten,
    call.fd ∈ held owning.descriptors

theorem close_of_reset {transport : Transport} (reset : transport.mSocket = -1)
    (answers : CloseAnswers) : close transport answers = (transport, []) := by
  simp [close, reset]

theorem close_of_failed_shutdown {transport : Transport} {answers : CloseAnswers}
    (opened : transport.mSocket ≠ -1) (failed : answers.shutdown ≠ 0) :
    close transport answers =
      ({ transport with mSocket := -1 },
        [.setsockopt transport.mSocket, .shutdown transport.mSocket,
          .close transport.mSocket]) := by
  simp only [close, if_pos (Ne.symm opened), if_pos failed]

theorem close_of_shutdown {transport : Transport} {answers : CloseAnswers}
    (opened : transport.mSocket ≠ -1) (shutDown : answers.shutdown = 0) :
    close transport answers =
      (transport, [.setsockopt transport.mSocket, .shutdown transport.mSocket]) := by
  simp [close, Ne.symm opened, shutDown]

theorem closeRepeatedly_of_reset {transport : Transport} (reset : transport.mSocket = -1)
    (answers : List CloseAnswers) :
    ∀ calls ∈ closeRepeatedly transport answers, calls = [] := by
  induction answers with
  | nil => simp [closeRepeatedly]
  | cons first rest ih =>
      intro calls member
      rw [closeRepeatedly, close_of_reset reset] at member
      rcases List.mem_cons.mp member with now | later
      · exact now
      · exact ih calls later

/-- `m_socket` is reset, still the constructor's 0, or a descriptor the
transport holds. -/
structure Owns (owning : OwningTransport) : Prop where
  nonnegative : ∀ fd, .acquired fd ∈ owning.descriptors → 0 ≤ fd
  socket : owning.transport.mSocket = -1 ∨ owning.transport.mSocket = 0 ∨
    owning.transport.mSocket ∈ held owning.descriptors

theorem owns_constructed (protocol : Protocol) (type : TransportType) :
    Owns (constructed protocol type) where
  nonnegative := by simp [constructed]
  socket := Or.inr (Or.inl rfl)

theorem Owns.obtains {owning next : OwningTransport} {fd : Nat} (owns : Owns owning)
    (descriptors : next.descriptors = owning.descriptors ++ [.acquired (fd : Int)])
    (socket : next.transport.mSocket = fd ∨
      next.transport.mSocket = owning.transport.mSocket) : Owns next := by
  have grown : held next.descriptors = held owning.descriptors ++ [(fd : Int)] := by
    rw [descriptors, held_concat]
    rfl
  constructor
  · intro other acquired
    rw [descriptors] at acquired
    rcases List.mem_append.mp acquired with earlier | new
    · exact owns.nonnegative other earlier
    · cases List.mem_singleton.mp new
      omega
  · rw [grown, List.mem_append, List.mem_singleton]
    rcases socket with new | same
    · exact Or.inr (Or.inr (Or.inr new))
    · rw [same]
      rcases owns.socket with reset | initial | holds
      · exact Or.inl reset
      · exact Or.inr (Or.inl initial)
      · exact Or.inr (Or.inr (Or.inl holds))

theorem Owns.closes {owning : OwningTransport} (owns : Owns owning) (answers : CloseAnswers) :
    Owns ⟨(close owning.transport answers).1,
      owning.descriptors ++ releases (close owning.transport answers).2⟩ := by
  by_cases reset : owning.transport.mSocket = -1
  · rw [close_of_reset reset]
    simpa [releases] using owns
  by_cases shutDown : answers.shutdown = 0
  · rw [close_of_shutdown reset shutDown]
    simpa [releases] using owns
  · rw [close_of_failed_shutdown reset shutDown]
    exact
      { nonnegative := by simpa [releases] using owns.nonnegative
        socket := Or.inl rfl }

theorem owns_step {owning next : OwningTransport} {event : TransportEvent}
    (owns : Owns owning) (moved : transportStep owning event = some next) : Owns next := by
  cases event with
  | init type protocol fd =>
      simp only [transportStep, Option.ite_none_right_eq_some, Option.some.injEq] at moved
      obtain ⟨_, rfl⟩ := moved
      apply owns.obtains rfl
      cases type with
      | client => exact Or.inl rfl
      | server => exact Or.inr rfl
  | accept call =>
      rcases accept_cases ⟨owning.transport, [], owning.descriptors, [], []⟩ call with
        ⟨fd, answered, _, _, again⟩ | ⟨⟨final, done, _⟩, _⟩
      · simp only [transportStep, answered, again, Option.ite_none_right_eq_some,
          Option.some.injEq] at moved
        obtain ⟨_, rfl⟩ := moved
        exact owns.obtains rfl (Or.inl rfl)
      · simp [transportStep, done] at moved
  | close answers =>
      simp only [transportStep, Option.some.injEq] at moved
      subst next
      exact owns.closes answers

theorem owns_run {protocol : Protocol} {type : TransportType} {events : List TransportEvent}
    {owning : OwningTransport}
    (run : exec transportStep (constructed protocol type) events = some owning) :
    Owns owning :=
  exec_invariant Owns (owns_constructed protocol type)
    (fun _ _ _ owns moved => owns_step owns moved) run

theorem closesProperly_of_reset {owning : OwningTransport} (owns : Owns owning)
    (reset : owning.transport.mSocket = -1) (answers : List CloseAnswers) :
    ClosesProperly owning answers := by
  have silent := closeRepeatedly_of_reset reset answers
  constructor
  · intro holds
    have := owns.nonnegative _ (acquired_of_mem_held holds)
    omega
  · rintro first rest rfl
    rw [close_of_reset reset]
    exact reset
  · intro calls member
    exact silent calls (List.mem_of_mem_tail member)
  · intro call member
    obtain ⟨calls, made, present⟩ := List.mem_flatten.mp member
    rw [silent calls made] at present
    simp at present

theorem closesProperly_of_failed_shutdown {owning : OwningTransport}
    (opened : owning.transport.mSocket ≠ -1)
    (holds : owning.transport.mSocket ∈ held owning.descriptors) {first : CloseAnswers}
    (failed : first.shutdown ≠ 0) (rest : List CloseAnswers) :
    ClosesProperly owning (first :: rest) := by
  have silent : ∀ calls ∈
      closeRepeatedly { owning.transport with mSocket := -1 } rest, calls = [] :=
    closeRepeatedly_of_reset rfl rest
  have nothing : (closeRepeatedly { owning.transport with mSocket := -1 } rest).flatten = [] :=
    List.flatten_eq_nil_iff.mpr silent
  have split : closeRepeatedly owning.transport (first :: rest) =
      [.setsockopt owning.transport.mSocket, .shutdown owning.transport.mSocket,
        .close owning.transport.mSocket] ::
        closeRepeatedly { owning.transport with mSocket := -1 } rest := by
    rw [closeRepeatedly, close_of_failed_shutdown opened failed]
  constructor
  · intro _
    rw [split, List.flatten_cons, nothing]
    simp
  · rintro _ _ ⟨⟩
    rw [close_of_failed_shutdown opened failed]
  · rw [split]
    exact silent
  · rw [split, List.flatten_cons, nothing]
    simpa [CloseCall.fd] using holds

/-- In every state a transport gets to, the calls of `close` do what they are
for exactly when `m_socket` is reset already, or when it is a descriptor of the
transport and the first `::shutdown` fails on it. -/
theorem close_proper_iff (protocol : Protocol) (type : TransportType)
    (events : List TransportEvent) (owning : OwningTransport)
    (run : exec transportStep (constructed protocol type) events = some owning)
    (first : CloseAnswers) (rest : List CloseAnswers) :
    ClosesProperly owning (first :: rest) ↔
      owning.transport.mSocket = -1 ∨
        (owning.transport.mSocket ∈ held owning.descriptors ∧ first.shutdown ≠ 0) := by
  have owns := owns_run run
  constructor
  · intro proper
    by_cases reset : owning.transport.mSocket = -1
    · exact Or.inl reset
    right
    constructor
    · refine proper.ownOnly (.setsockopt owning.transport.mSocket) ?_
      by_cases shutDown : first.shutdown = 0
      · simp [closeRepeatedly, close_of_shutdown reset shutDown]
      · simp [closeRepeatedly, close_of_failed_shutdown reset shutDown]
    · intro shutDown
      have same := proper.reset first rest rfl
      rw [close_of_shutdown reset shutDown] at same
      exact reset same
  · rintro (reset | ⟨holds, failed⟩)
    · exact closesProperly_of_reset owns reset _
    · have opened : owning.transport.mSocket ≠ -1 := by
        have := owns.nonnegative _ (acquired_of_mem_held holds)
        omega
      exact closesProperly_of_failed_shutdown opened holds failed rest

def clientTransport : OwningTransport :=
  ⟨⟨3, 3, .tcp, .client⟩, [.acquired 3]⟩

theorem close_proper_iff_client :
    ClosesProperly clientTransport [⟨0, -1, 0⟩, ⟨0, 0, 0⟩] ↔
      clientTransport.transport.mSocket = -1 ∨
        (clientTransport.transport.mSocket ∈ held clientTransport.descriptors ∧
          ((⟨0, -1, 0⟩ : CloseAnswers).shutdown ≠ 0)) :=
  close_proper_iff .tcp .client [.init .client .tcp 3] clientTransport (by decide)
    ⟨0, -1, 0⟩ [⟨0, 0, 0⟩]

/-- A client whose `connect` has failed: `::shutdown` succeeds on its socket, so
`::close` is not called and `m_socket` stays 3. -/
theorem close_keeps_socket :
    exec transportStep (constructed .tcp .client) [.init .client .tcp 3] =
        some clientTransport ∧
      ¬ ClosesProperly clientTransport [⟨0, 0, 0⟩] := by
  refine ⟨by decide, fun proper => ?_⟩
  exact absurd (proper.releasedOnce (by decide)) (by decide)

end TlsClient
