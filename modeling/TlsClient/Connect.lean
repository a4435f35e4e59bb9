import TlsClient.SystemCalls

/-!
# `TransportInterface::connect` and `poll`

`connect` starts a non-blocking connect and calls `poll` up to three times;
`poll` waits for the socket and asks for its pending error.  The answer of
`poll` depends on the state of the socket, and asking for the error changes
that state: it is a small automaton that the kernel keeps and the program does
not see.
-/

namespace TlsClient

open EventDriven

/-- The socket on which a connect has been started.  A failed connect leaves a
pending error, until it is read. -/
inductive Connection
  | inProgress
  | established
  | failed (pending : Option Errno)
  deriving DecidableEq, Repr

/-- The two conventions of `getsockopt ( ..., SO_ERROR, ... )` that the code
provides for: "Linux case" and "Solaris case". -/
inductive ErrorReport
  | byArgument
  | byReturn
  deriving DecidableEq, Repr

structure SocketError where
  ret : Int
  errno : Option Errno
  value : Option Errno
  deriving DecidableEq, Repr

def getsockopt (report : ErrorReport) : Connection → SocketError × Connection
  | .failed (some pending) =>
      match report with
      | .byArgument => (⟨0, none, some pending⟩, .failed none)
      | .byReturn => (⟨-1, some pending, none⟩, .failed none)
  | connection => (⟨0, none, none⟩, connection)

/-- One turn of the `while ( 1 )` of `poll`: it goes round again, or `poll`
returns. -/
def pollTurn (report : ErrorReport) (connection : Connection)
    (poll : Answered PollAnswer) : Pass Connection Bool :=
  match poll.answer with
  | .failed =>
      if poll.errno = some .EINTR ∨ poll.errno = some .EINPROGRESS ∨
          poll.errno = some .EALREADY then .again connection
      else .done connection false
  | .timedOut => .done connection false
  | .ready revents =>
      if revents.POLLOUT || revents.POLLIN then
        let (reply, connection) := getsockopt report connection
        let err := if reply.ret < 0 then reply.errno else reply.value
        .done connection (err = none)
      else if revents.POLLNVAL then .done connection false
      else if revents.POLLERR then .done connection false
      else if revents.POLLHUP then .done connection false
      else .done connection true

inductive ConnectAnswer
  | connected
  | failed (errno : Option Errno)
  deriving DecidableEq, Repr

structure ConnectLoop where
  i : Nat
  connection : Connection
  deriving DecidableEq, Repr

def connectEntry : ConnectAnswer → Ended ConnectLoop
  | .connected => .returned ⟨0, .established⟩
  | .failed errno =>
      if errno = some .EINPROGRESS then .returned ⟨0, .inProgress⟩ else .exited

/-- The connect is settled by the peer (with an error, or without), or `::poll`
returns. -/
inductive ConnectEvent
  | settles (error : Option Errno)
  | polls (poll : Answered PollAnswer)
  deriving DecidableEq, Repr

/-- The body of the loop of `connect`, one turn of `poll` at a time: a `poll`
that returns `false` counts the attempt, a `poll` that goes round does not. -/
def connectPass (report : ErrorReport) (loop : ConnectLoop) :
    ConnectEvent → Pass ConnectLoop Bool
  | .settles none => .again { loop with connection := .established }
  | .settles (some error) => .again { loop with connection := .failed (some error) }
  | .polls poll =>
      match pollTurn report loop.connection poll with
      | .again connection => .again { loop with connection := connection }
      | .done connection true => .done { loop with connection := connection } true
      | .done connection false => .again ⟨loop.i + 1, connection⟩

/-- The socket is not ready while the connect is in progress.  An established
connection can be written to, and a failed one stays ready. -/
def connectPossible (loop : ConnectLoop) : ConnectEvent → Bool
  | .settles _ => loop.connection = .inProgress
  | .polls poll =>
      match poll.answer, loop.connection with
      | .failed, _ => true
      | .timedOut, connection => connection = .inProgress
      | .ready _, .inProgress => false
      | .ready revents, .established => revents.POLLOUT
      | .ready revents, .failed _ => (revents.POLLIN || revents.POLLOUT) && revents.POLLHUP

/-- `connect`, from the first test of its `for` loop on. -/
def connect (report : ErrorReport) : Loop ConnectLoop ConnectEvent Bool where
  continues loop := decide (loop.i ≤ 2)
  fallsOut _ := false
  body := connectPass report
  possible := connectPossible

def ConnectEvent.isReady : ConnectEvent → Bool
  | .polls ⟨.ready _, _⟩ => true
  | _ => false

def readyReports (events : List ConnectEvent) : Nat :=
  events.countP ConnectEvent.isReady

def Refused (events : List ConnectEvent) : Prop :=
  ∃ error, .settles (some error) ∈ events

/-- What the socket tells about the answers so far. -/
def ConnectHistory (past : List ConnectEvent) (loop : ConnectLoop) : Prop :=
  match loop.connection with
  | .inProgress => ¬ Refused past ∧ readyReports past = 0
  | .established => ¬ Refused past
  | .failed (some _) => Refused past ∧ readyReports past = 0
  | .failed none => Refused past ∧ readyReports past = 1

def ConnectEnds (past : List ConnectEvent) (final : ConnectLoop) : Bool → Prop
  | true =>
      (final.connection = .established ∧ ¬ Refused past) ∨
        (final.connection = .failed none ∧ Refused past ∧ readyReports past = 2)
  | false => ¬ Refused past ∨ readyReports past ≤ 1

theorem refused_append_polls (past : List ConnectEvent) (poll : Answered PollAnswer) :
    Refused (past ++ [.polls poll]) ↔ Refused past := by
  simp [Refused]

theorem readyReports_append (past : List ConnectEvent) (event : ConnectEvent) :
    readyReports (past ++ [event]) = readyReports past + if event.isReady then 1 else 0 := by
  simp [readyReports, List.countP_append, List.countP_singleton]

theorem pollTurn_ready {report : ErrorReport} {connection : Connection}
    {revents : Revents} {errno : Option Errno}
    (writable : (revents.POLLOUT || revents.POLLIN) = true) :
    pollTurn report connection ⟨.ready revents, errno⟩ =
      match connection with
      | .failed (some _) => .done (.failed none) false
      | other => .done other true := by
  simp only [pollTurn, writable, if_true]
  cases connection with
  | inProgress => rfl
  | established => rfl
  | failed pending =>
      cases pending with
      | none => rfl
      | some pending => cases report <;> rfl

theorem connectPass_not_ready (report : ErrorReport) (loop : ConnectLoop)
    {poll : Answered PollAnswer} (notReady : (ConnectEvent.polls poll).isReady = false) :
    ∃ i, connectPass report loop (.polls poll) = .again ⟨i, loop.connection⟩ := by
  obtain ⟨answer, errno⟩ := poll
  cases answer with
  | failed =>
      by_cases retries : errno = some .EINTR ∨ errno = some .EINPROGRESS ∨ errno = some .EALREADY
      · exact ⟨loop.i, by simp [connectPass, pollTurn, retries]⟩
      · exact ⟨loop.i + 1, by simp [connectPass, pollTurn, retries]⟩
  | timedOut => exact ⟨loop.i + 1, rfl⟩
  | ready revents => simp [ConnectEvent.isReady] at notReady

theorem ConnectHistory.ends {past : List ConnectEvent} {loop : ConnectLoop}
    (history : ConnectHistory past loop) : ConnectEnds past loop false := by
  unfold ConnectHistory at history
  split at history
  · exact Or.inl history.1
  · exact Or.inl history
  · exact Or.inr (by omega)
  · exact Or.inr (by omega)

theorem ConnectHistory.append_not_ready {past : List ConnectEvent} {loop : ConnectLoop}
    {poll : Answered PollAnswer} {i : Nat} (history : ConnectHistory past loop)
    (notReady : (ConnectEvent.polls poll).isReady = false) :
    ConnectHistory (past ++ [.polls poll]) ⟨i, loop.connection⟩ := by
  simpa [ConnectHistory, refused_append_polls, readyReports_append, notReady] using history

theorem connectPass_ready (report : ErrorReport) {past : List ConnectEvent}
    {loop : ConnectLoop} {revents : Revents} {errno : Option Errno}
    (history : ConnectHistory past loop)
    (possible : connectPossible loop (.polls ⟨.ready revents, errno⟩) = true) :
    (∃ next, connectPass report loop (.polls ⟨.ready revents, errno⟩) = .again next ∧
        ConnectHistory (past ++ [.polls ⟨.ready revents, errno⟩]) next) ∨
      ∃ final, connectPass report loop (.polls ⟨.ready revents, errno⟩) = .done final true ∧
        ConnectEnds (past ++ [.polls ⟨.ready revents, errno⟩]) final true := by
  have counted : readyReports (past ++ [.polls ⟨.ready revents, errno⟩]) =
      readyReports past + 1 := by
    simp [readyReports_append, ConnectEvent.isReady]
  obtain ⟨i, connection⟩ := loop
  cases connection with
  | inProgress => simp [connectPossible] at possible
  | established =>
      have writable : (revents.POLLOUT || revents.POLLIN) = true := by
        simp [connectPossible] at possible
        simp [possible]
      right
      refine ⟨⟨i, .established⟩, by simp [connectPass, pollTurn_ready writable], ?_⟩
      exact Or.inl ⟨rfl, by rwa [refused_append_polls]⟩
  | failed pending =>
      have writable : (revents.POLLOUT || revents.POLLIN) = true := by
        simp [connectPossible] at possible
        simp [possible.1.symm]
      cases pending with
      | some error =>
          left
          refine ⟨⟨i + 1, .failed none⟩, by simp [connectPass, pollTurn_ready writable], ?_⟩
          obtain ⟨refused, none⟩ := history
          exact ⟨(refused_append_polls _ _).mpr refused, by rw [counted, none]⟩
      | none =>
          right
          refine ⟨⟨i, .failed none⟩, by simp [connectPass, pollTurn_ready writable], ?_⟩
          obtain ⟨refused, once⟩ := history
          exact Or.inr ⟨rfl, (refused_append_polls _ _).mpr refused, by rw [counted, once]⟩

theorem connect_afterPass {report : ErrorReport} {past : List ConnectEvent}
    {loop : ConnectLoop} {event : ConnectEvent} (history : ConnectHistory past loop)
    (possible : connectPossible loop event = true) :
    (connect report).Satisfies (ConnectHistory (past ++ [event]))
      (ConnectEnds (past ++ [event]))
      ((connect report).afterPass (connectPass report loop event)) := by
  have head : ∀ next, ConnectHistory (past ++ [event]) next →
      (connect report).Satisfies (ConnectHistory (past ++ [event]))
        (ConnectEnds (past ++ [event])) ((connect report).head next) :=
    fun next kept => Loop.satisfies_head kept fun _ => kept.ends
  cases event with
  | settles error =>
      have unsettled : loop.connection = .inProgress := by
        simpa [connectPossible] using possible
      obtain ⟨notRefused, none⟩ : ¬ Refused past ∧ readyReports past = 0 := by
        simpa [ConnectHistory, unsettled] using history
      cases error with
      | none =>
          apply head
          simpa [ConnectHistory, Refused] using notRefused
      | some error =>
          apply head
          exact ⟨⟨error, by simp⟩, by simp [readyReports_append, none, ConnectEvent.isReady]⟩
  | polls poll =>
      cases ready : (ConnectEvent.polls poll).isReady with
      | false =>
          obtain ⟨i, again⟩ := connectPass_not_ready report loop ready
          rw [again]
          exact head _ (history.append_not_ready ready)
      | true =>
          obtain ⟨answer, errno⟩ := poll
          cases answer with
          | failed => simp [ConnectEvent.isReady] at ready
          | timedOut => simp [ConnectEvent.isReady] at ready
          | ready revents =>
              rcases connectPass_ready report history possible with
                ⟨next, again, kept⟩ | ⟨final, done, ends⟩
              · exact Loop.satisfies_of_again again kept fun _ => kept.ends
              · exact Loop.satisfies_of_done done ends

/-- A run of `connect` that returns `true` has an established connection
exactly when the connect was not refused, or the refused socket was reported
ready at most once.  The first report costs an attempt and the pending error;
the second finds no error and counts as success. -/
theorem connect_sound_iff (report : ErrorReport) (answer : ConnectAnswer)
    (start : ConnectLoop) (entered : connectEntry answer = .returned start)
    (events : List ConnectEvent) (final : ConnectLoop) (result : Bool)
    (run : (connect report).run start events = some (.returned final result)) :
    (result = true → final.connection = .established) ↔
      (¬ Refused events ∨ readyReports events ≤ 1) := by
  have initial : ConnectHistory [] start := by
    cases answer with
    | connected =>
        obtain rfl : _ = start := by simpa [connectEntry] using entered
        simp [ConnectHistory, Refused]
    | failed errno =>
        simp only [connectEntry] at entered
        split at entered
        · obtain rfl : _ = start := by simpa using entered
          simp [ConnectHistory, Refused, readyReports]
        · simp at entered
  have ends : ConnectEnds events final result :=
    Loop.run_satisfies ConnectHistory ConnectEnds initial (fun _ => initial.ends)
      (fun past loop event history _ possible => connect_afterPass history possible) run
  cases result with
  | false => simpa [ConnectEnds] using ends
  | true =>
      rcases ends with ⟨established, notRefused⟩ | ⟨failed, refused, twice⟩
      · simp [established, notRefused]
      · simp [failed, refused, twice]

def refusedRun : List ConnectEvent :=
  [.settles (some (.other 111)),
    .polls ⟨.ready { POLLIN := true, POLLOUT := true, POLLERR := true, POLLHUP := true }, none⟩,
    .polls ⟨.ready { POLLIN := true, POLLOUT := true, POLLHUP := true }, none⟩]

theorem connect_true_after_refusal :
    ∃ final, connectEntry (.failed (some .EINPROGRESS)) = .returned ⟨0, .inProgress⟩ ∧
      (connect .byArgument).run ⟨0, .inProgress⟩ refusedRun = some (.returned final true) ∧
      ¬ final.connection = .established :=
  ⟨⟨1, .failed none⟩, by decide, by decide, by decide⟩

theorem connect_sound_iff_accepted :
    (true = true → ConnectLoop.connection ⟨1, .established⟩ = .established) ↔
      (¬ Refused [.polls ⟨.timedOut, none⟩, .polls ⟨.failed, some .EINTR⟩, .settles none,
          .polls ⟨.ready { POLLOUT := true }, none⟩] ∨
        readyReports [.polls ⟨.timedOut, none⟩, .polls ⟨.failed, some .EINTR⟩, .settles none,
          .polls ⟨.ready { POLLOUT := true }, none⟩] ≤ 1) :=
  connect_sound_iff .byArgument (.failed (some .EINPROGRESS)) ⟨0, .inProgress⟩ (by decide)
    _ _ true (by decide)

end TlsClient
