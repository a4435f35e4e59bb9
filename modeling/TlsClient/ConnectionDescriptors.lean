import TlsClient.ServerDescriptors

/-!
# Which descriptor a receiver registers

The threads of all connections share the field `m_socket` of one transport.  A
receiver reads it some time after its connection has been accepted, and nothing
but a `sleep` keeps the listener from accepting the next one before that.
-/

namespace TlsClient

open EventDriven ResourceLedger

/-- A call of `accept`, or an atomic step of a thread.  In a turn of the listener
nothing else touches what the threads share. -/
inductive ConnectionEvent
  | accepts (call : AcceptCall)
  | senderCreates (index : Nat) (created : Bool)
  | receiverCreates (index : Nat) (epollFd : Option Nat)
  | receiverReads (index : Nat)
  | receiverAdds (index : Nat) (added : Bool)
  deriving DecidableEq, Repr

def connectionStep (server : Server) : ConnectionEvent → Option Server
  | .accepts call =>
      match call.accept.answer, accept server call with
      | .accepted fd, .again next => if server.fresh fd then some next else none
      | _, _ => none
  | .senderCreates index created => serverStep server (.senderCreates index created)
  | .receiverCreates index epollFd => serverStep server (.receiverCreates index epollFd)
  | .receiverReads index => serverStep server (.receiverReads index)
  | .receiverAdds index added => serverStep server (.receiverAdds index added)

namespace ConnectionThreads

/-- What the receiver has found in `m_socket`, as far as its phase still tells. -/
def socketRead (threads : ConnectionThreads) : Option Int :=
  match threads.receiver with
  | .read _ socket => some socket
  | .ended _ registered => registered
  | _ => none

def hasRead (threads : ConnectionThreads) : Bool :=
  match threads.receiver with
  | .read _ _ => true
  | .ended _ _ => true
  | _ => false

/-- The descriptor the receiver has added to its epoll set. -/
def registered (threads : ConnectionThreads) : Option Int :=
  match threads.receiver with
  | .ended _ registered => registered
  | _ => none

theorem socketRead_of_registered {threads : ConnectionThreads} {fd : Int}
    (registers : threads.registered = some fd) : threads.socketRead = some fd := by
  unfold registered at registers
  unfold socketRead
  cases receiver : threads.receiver with
  | ended epollFd registered => simpa [receiver] using registers
  | notCreated => simp [receiver] at registers
  | starting => simp [receiver] at registers
  | created epollFd => simp [receiver] at registers
  | read epollFd socket => simp [receiver] at registers

/-- The threads of the connection have ended, and nothing is registered. -/
def Lost (threads : ConnectionThreads) : Prop :=
  threads.AtRest ∧ threads.registered = none

end ConnectionThreads

/-- The descriptors accepted in a run. -/
def acceptedDescriptors (events : List ConnectionEvent) : List Nat :=
  events.filterMap fun event =>
    match event with
    | .accepts call =>
        match call.accept.answer with
        | .accepted fd => some fd
        | .failed => none
    | _ => none

/-- A receiver registers the descriptor of its own connection, and no other
receiver does; and of the descriptors accepted, each is registered when the
threads of its connection have ended. -/
structure KeepsOwn (accepted : List Nat) (server : Server) : Prop where
  own : ∀ (index : Nat) (threads : ConnectionThreads) (fd : Int),
    server.threads[index]? = some threads → threads.registered = some fd →
      fd = threads.accepted
  once : ∀ (first second : Nat) (one other : ConnectionThreads) (fd : Int),
    server.threads[first]? = some one → server.threads[second]? = some other →
      one.registered = some fd → other.registered = some fd → first = second
  each : ∀ fd ∈ accepted,
    (∀ threads ∈ server.threads, threads.accepted = fd → threads.AtRest) →
      ∃ threads ∈ server.threads, threads.registered = some (fd : Int)

/-- What the order of the steps tells: how many connections have got a thread,
which of them is the latest to be accepted, and which receivers have read
`m_socket` when theirs was not. -/
structure Schedule where
  spawned : Nat
  latest : Option Nat
  late : List Nat
  deriving DecidableEq, Repr

def Schedule.next (schedule : Schedule) : ConnectionEvent → Schedule
  | .accepts call =>
      if call.spawned then
        { schedule with spawned := schedule.spawned + 1, latest := some schedule.spawned }
      else { schedule with latest := none }
  | .receiverReads index =>
      if schedule.latest = some index then schedule
      else { schedule with late := index :: schedule.late }
  | _ => schedule

def schedule (events : List ConnectionEvent) : Schedule :=
  events.foldl Schedule.next ⟨0, none, []⟩

@[simp]
theorem schedule_concat (past : List ConnectionEvent) (event : ConnectionEvent) :
    schedule (past ++ [event]) = (schedule past).next event := by
  simp [schedule]

/-- Every receiver whose `epoll_ctl` adds a descriptor has read `m_socket` before
the next connection was accepted. -/
def ReadsInTurn (events : List ConnectionEvent) : Prop :=
  ∀ index ∈ (schedule events).late, .receiverAdds index true ∉ events

/-- The calls whose result is dropped succeed: every connection gets its sender,
every sender its receiver, and `epoll_ctl` adds. -/
structure ThreadsSucceed (events : List ConnectionEvent) : Prop where
  senders : ∀ call, .accepts call ∈ events → call.spawned = true
  receivers : ∀ index, .senderCreates index false ∉ events
  adds : ∀ index, .receiverAdds index false ∉ events

theorem schedule_next_accepts (schedule : Schedule) (call : AcceptCall) :
    (schedule.next (.accepts call)).spawned = schedule.spawned + call.spawned.toNat ∧
      (schedule.next (.accepts call)).latest =
        (if call.spawned then some schedule.spawned else none) ∧
      (schedule.next (.accepts call)).late = schedule.late := by
  rw [Schedule.next]
  cases call.spawned with
  | false => exact ⟨rfl, rfl, rfl⟩
  | true => exact ⟨rfl, rfl, rfl⟩

/-- Where the threads of a connection are, when its receiver has read too late,
has registered a descriptor, or will never register one. -/
structure InPhase (late added lost : Prop) (threads : ConnectionThreads) : Prop where
  sender : threads.sender = .starting → threads.receiver = .notCreated
  unread : threads.hasRead = false → ¬ late
  read : ∀ socket, threads.socketRead = some socket →
    (socket = threads.accepted ↔ ¬ late)
  added : threads.registered.isSome = true ↔ added
  lost : threads.Lost ↔ lost

/-- The connection whose threads take the step. -/
def ConnectionEvent.index : ConnectionEvent → Option Nat
  | .accepts _ => none
  | .senderCreates index _ => some index
  | .receiverCreates index _ => some index
  | .receiverReads index => some index
  | .receiverAdds index _ => some index

/-- A connection that will never have its descriptor registered: its sender got no
receiver, or `epoll_ctl` has not added. -/
def LosesThread (events : List ConnectionEvent) (index : Nat) : Prop :=
  .senderCreates index false ∈ events ∨ .receiverAdds index false ∈ events

theorem losesThread_concat_of_ne {events : List ConnectionEvent} {event : ConnectionEvent}
    {index : Nat} (apart : event.index ≠ some index) :
    LosesThread (events ++ [event]) index ↔ LosesThread events index := by
  simp only [LosesThread, List.mem_append, List.mem_singleton]
  constructor
  · rintro ((earlier | rfl) | (earlier | rfl))
    · exact Or.inl earlier
    · exact absurd rfl apart
    · exact Or.inr earlier
    · exact absurd rfl apart
  · rintro (earlier | earlier)
    · exact Or.inl (Or.inl earlier)
    · exact Or.inr (Or.inl earlier)

/-- The descriptors of the connections that have got a thread. -/
def Server.accepted (server : Server) : List Nat :=
  server.threads.map fun threads => threads.accepted

structure ConnectionHistory (past : List ConnectionEvent) (server : Server) : Prop where
  spawned : server.threads.length = (schedule past).spawned
  acquired : ∀ fd ∈ acceptedDescriptors past, .acquired (fd : Int) ∈ server.descriptors
  known : ∀ fd ∈ server.accepted, fd ∈ acceptedDescriptors past
  answered : ∀ call, .accepts call ∈ past → ∃ fd, call.accept.answer = .accepted fd ∧
    (call.spawned = true ↔ fd ∈ server.accepted)
  latest : ∀ (index : Nat) (threads : ConnectionThreads), server.threads[index]? = some threads →
    (server.transport.mSocket = threads.accepted ↔ (schedule past).latest = some index)
  distinct : server.accepted.Nodup
  phases : ∀ (index : Nat) (threads : ConnectionThreads), server.threads[index]? = some threads →
    InPhase (index ∈ (schedule past).late) (.receiverAdds index true ∈ past)
      (LosesThread past index) threads
  bounded : ∀ index, (index ∈ (schedule past).late ∨ ∃ event ∈ past, event.index = some index) →
    index < server.threads.length
  noRelease : ∀ fd, .released fd ∉ server.descriptors

theorem schedule_next_of_thread (schedule : Schedule) {event : ConnectionEvent} {index : Nat}
    (thread : event.index = some index) :
    (schedule.next event).spawned = schedule.spawned ∧
      (schedule.next event).latest = schedule.latest ∧
      ∀ other ≠ index, other ∈ (schedule.next event).late ↔ other ∈ schedule.late := by
  cases event with
  | accepts call => cases thread
  | receiverReads reader =>
      obtain rfl := Option.some.inj thread
      simp only [Schedule.next]
      split
      · simp
      · refine ⟨rfl, rfl, fun other apart => ?_⟩
        simp [apart]
  | senderCreates _ _ => simp [Schedule.next]
  | receiverCreates _ _ => simp [Schedule.next]
  | receiverAdds _ _ => simp [Schedule.next]

theorem acceptedDescriptors_concat (past : List ConnectionEvent) (event : ConnectionEvent) :
    acceptedDescriptors (past ++ [event]) =
      acceptedDescriptors past ++ acceptedDescriptors [event] :=
  List.filterMap_append

theorem acceptedDescriptors_of_thread {event : ConnectionEvent} {index : Nat}
    (thread : event.index = some index) : acceptedDescriptors [event] = [] := by
  cases event with
  | accepts call => cases thread
  | senderCreates _ _ => rfl
  | receiverCreates _ _ => rfl
  | receiverReads _ => rfl
  | receiverAdds _ _ => rfl

theorem acceptedDescriptors_accepts {call : AcceptCall} {fd : Nat}
    (answered : call.accept.answer = .accepted fd) :
    acceptedDescriptors [.accepts call] = [fd] := by
  simp [acceptedDescriptors, answered]

theorem mem_acceptedDescriptors {events : List ConnectionEvent} {call : AcceptCall} {fd : Nat}
    (member : .accepts call ∈ events) (answered : call.accept.answer = .accepted fd) :
    fd ∈ acceptedDescriptors events :=
  List.mem_filterMap.mpr ⟨.accepts call, member, by simp [answered]⟩

namespace InPhase

variable {late added lost : Prop} {fd epollFd : Nat} {sender : SenderPhase}

theorem not_lost {threads : ConnectionThreads} (phase : InPhase late added lost threads)
    (moving : ¬ threads.AtRest) : ¬ lost := fun lost => moving (phase.lost.mpr lost).1

/-- A connection that has just got its thread. -/
theorem starts (notLate : ¬ late) (unadded : ¬ added) (kept : ¬ lost) :
    InPhase late added lost ⟨fd, .starting, .notCreated⟩ := by
  constructor
  · exact fun _ => rfl
  · exact fun _ => notLate
  · intro socket read
    cases read
  · exact iff_of_false (by simp [ConnectionThreads.registered]) unadded
  · exact iff_of_false (by simp [ConnectionThreads.Lost, ConnectionThreads.AtRest]) kept

theorem senderCreates {receiver : ReceiverPhase}
    (phase : InPhase late added lost ⟨fd, .starting, receiver⟩) (created : Bool) :
    InPhase late added (created = false)
      ⟨fd, .ended, if created then .starting else receiver⟩ := by
  obtain rfl : receiver = .notCreated := phase.sender rfl
  have added := phase.added
  constructor
  · intro starting
    cases starting
  · exact fun _ => phase.unread rfl
  · intro socket read
    cases created <;> cases read
  · cases created <;> exact added
  · cases created with
    | true => simp [ConnectionThreads.Lost, ConnectionThreads.AtRest]
    | false => exact iff_of_true ⟨⟨rfl, Or.inl rfl⟩, rfl⟩ rfl

theorem receiverCreates (phase : InPhase late added lost ⟨fd, sender, .starting⟩)
    (epollFd : Nat) : InPhase late added lost ⟨fd, sender, .created epollFd⟩ := by
  have moving := phase.not_lost (by simp [ConnectionThreads.AtRest])
  constructor
  · intro starting
    cases phase.sender starting
  · exact fun _ => phase.unread rfl
  · intro socket read
    cases read
  · exact phase.added
  · exact iff_of_false (by simp [ConnectionThreads.Lost, ConnectionThreads.AtRest]) moving

/-- The read decides whether the receiver is late. -/
theorem receiverReads (phase : InPhase late added lost ⟨fd, sender, .created epollFd⟩)
    {socket : Int} {lateNow : Prop} (own : socket = fd ↔ ¬ lateNow) :
    InPhase lateNow added lost ⟨fd, sender, .read epollFd socket⟩ := by
  have moving := phase.not_lost (by simp [ConnectionThreads.AtRest])
  constructor
  · intro starting
    cases phase.sender starting
  · intro unread
    cases unread
  · intro other read
    obtain rfl := Option.some.inj read
    exact own
  · exact phase.added
  · exact iff_of_false (by simp [ConnectionThreads.Lost, ConnectionThreads.AtRest]) moving

theorem receiverAdds {socket : Int}
    (phase : InPhase late added lost ⟨fd, sender, .read epollFd socket⟩) (adds : Bool) :
    InPhase late (adds = true) (adds = false)
      ⟨fd, sender, .ended epollFd (if adds then some socket else none)⟩ := by
  have ended : sender = .ended := by
    cases sender with
    | starting => cases phase.sender rfl
    | ended => rfl
  constructor
  · intro starting
    cases phase.sender starting
  · intro unread
    cases unread
  · cases adds with
    | true => exact phase.read
    | false =>
        intro other read
        cases read
  · cases adds <;> simp [ConnectionThreads.registered]
  · cases adds with
    | true => simp [ConnectionThreads.Lost, ConnectionThreads.registered]
    | false => exact iff_of_true ⟨⟨ended, Or.inr ⟨_, _, rfl⟩⟩, rfl⟩ rfl

end InPhase

/-- A step of a thread moves its own connection from one phase to the next. -/
theorem connectionStep_thread {server next : Server} {event : ConnectionEvent} {index : Nat}
    (moved : connectionStep server event = some next) (thread : event.index = some index) :
    ∃ before after, server.threads[index]? = some before ∧
      next.threads = server.threads.set index after ∧ next.transport = server.transport ∧
      (next.descriptors = server.descriptors ∨
        ∃ fd, next.descriptors = server.descriptors ++ [.acquired fd]) ∧
      after.accepted = before.accepted ∧
      ∀ past, (server.transport.mSocket = before.accepted ↔ (schedule past).latest = some index) →
        InPhase (index ∈ (schedule past).late) (.receiverAdds index true ∈ past)
          (LosesThread past index) before →
        InPhase (index ∈ (schedule (past ++ [event])).late)
          (.receiverAdds index true ∈ past ++ [event]) (LosesThread (past ++ [event]) index)
          after := by
  cases event with
  | accepts call => cases thread
  | senderCreates sender created =>
      obtain rfl := Option.some.inj thread
      change serverStep server (.senderCreates sender created) = some next at moved
      cases threadStep_of_serverStep moved (by simp) with
      | senderCreates _ found =>
          refine ⟨_, _, found, rfl, rfl, Or.inl rfl, rfl, fun past _ phase => ?_⟩
          have kept := phase.not_lost (by simp [ConnectionThreads.AtRest])
          simp only [LosesThread, not_or] at kept
          simpa [Schedule.next, LosesThread, kept] using phase.senderCreates created
  | receiverCreates receiver epollFd =>
      obtain rfl := Option.some.inj thread
      change serverStep server (.receiverCreates receiver epollFd) = some next at moved
      cases threadStep_of_serverStep moved (by simp) with
      | receiverCreates found fresh =>
          refine ⟨_, _, found, rfl, rfl, Or.inr ⟨_, rfl⟩, rfl, fun past _ phase => ?_⟩
          simpa [Schedule.next, LosesThread] using phase.receiverCreates _
  | receiverReads receiver =>
      obtain rfl := Option.some.inj thread
      change serverStep server (.receiverReads receiver) = some next at moved
      cases threadStep_of_serverStep moved (by simp) with
      | receiverReads found =>
          refine ⟨_, _, found, rfl, rfl, Or.inl rfl, rfl, fun past latest phase => ?_⟩
          have inTurn : receiver ∈ (schedule (past ++ [.receiverReads receiver])).late ↔
              (schedule past).latest ≠ some receiver := by
            rw [schedule_concat, Schedule.next]
            by_cases turn : (schedule past).latest = some receiver
            · simp [turn, phase.unread rfl]
            · simp [turn]
          simp only [LosesThread, List.mem_append, List.mem_singleton, reduceCtorEq, or_false]
          apply phase.receiverReads
          rw [inTurn, not_ne_iff]
          exact latest
  | receiverAdds receiver added =>
      obtain rfl := Option.some.inj thread
      change serverStep server (.receiverAdds receiver added) = some next at moved
      cases threadStep_of_serverStep moved (by simp) with
      | receiverAdds _ found =>
          refine ⟨_, _, found, rfl, rfl, Or.inl rfl, rfl, fun past _ phase => ?_⟩
          have kept := phase.not_lost (by simp [ConnectionThreads.AtRest])
          have unadded : .receiverAdds receiver true ∉ past := by
            intro member
            have present := phase.added.mpr member
            simp [ConnectionThreads.registered] at present
          simp only [LosesThread, not_or] at kept
          simpa [Schedule.next, LosesThread, kept, unadded, eq_comm] using
            phase.receiverAdds added

theorem getElem?_of_set {α : Type} {entries : List α} {index other : Nat} {entry found : α}
    (present : (entries.set index entry)[other]? = some found) :
    (other = index ∧ found = entry) ∨ (other ≠ index ∧ entries[other]? = some found) := by
  rw [List.getElem?_set] at present
  by_cases same : index = other
  · rw [if_pos same, Option.ite_none_right_eq_some] at present
    exact Or.inl ⟨same.symm, (Option.some.inj present.2).symm⟩
  · rw [if_neg same] at present
    exact Or.inr ⟨Ne.symm same, present⟩

theorem map_accepted_set {threads : List ConnectionThreads} {index : Nat}
    {before after : ConnectionThreads} (found : threads[index]? = some before)
    (accepted : after.accepted = before.accepted) :
    (threads.set index after).map (fun threads => threads.accepted) =
      threads.map fun threads => threads.accepted := by
  apply List.ext_getElem?
  intro other
  rw [List.getElem?_map, List.getElem?_map, List.getElem?_set]
  by_cases same : index = other
  · subst other
    have inside := (List.getElem?_eq_some_iff.mp found).1
    rw [if_pos rfl, if_pos inside, found, Option.map_some, Option.map_some, accepted]
  · rw [if_neg same]

theorem ConnectionHistory.thread {past : List ConnectionEvent} {server next : Server}
    {event : ConnectionEvent} {index : Nat} (history : ConnectionHistory past server)
    (moved : connectionStep server event = some next) (thread : event.index = some index) :
    ConnectionHistory (past ++ [event]) next := by
  obtain ⟨before, after, found, threads, transport, descriptors, accepted, phase⟩ :=
    connectionStep_thread moved thread
  obtain ⟨spawned, latest, late⟩ := schedule_next_of_thread (schedule past) thread
  have inside := (List.getElem?_eq_some_iff.mp found).1
  have turn := history.latest index before found
  have sameAccepted : next.accepted = server.accepted := by
    rw [Server.accepted, threads, map_accepted_set found accepted, Server.accepted]
  have sameDescriptors : acceptedDescriptors (past ++ [event]) = acceptedDescriptors past := by
    rw [acceptedDescriptors_concat, acceptedDescriptors_of_thread thread, List.append_nil]
  have elsewhere : ∀ other ≠ index, event.index ≠ some other := by
    rintro other apart same
    exact apart (Option.some.inj (same.symm.trans thread))
  constructor
  · rw [threads, List.length_set, schedule_concat, spawned]
    exact history.spawned
  · intro fd member
    rw [sameDescriptors] at member
    rcases descriptors with same | ⟨opened, more⟩
    · rw [same]
      exact history.acquired fd member
    · rw [more]
      exact List.mem_append_left _ (history.acquired fd member)
  · rw [sameAccepted, sameDescriptors]
    exact history.known
  · intro call member
    rw [sameAccepted]
    rcases List.mem_append.mp member with earlier | last
    · exact history.answered call earlier
    · obtain rfl := List.mem_singleton.mp last
      cases thread
  · intro other connection present
    rw [threads] at present
    rw [transport, schedule_concat, latest]
    rcases getElem?_of_set present with ⟨rfl, rfl⟩ | ⟨_, old⟩
    · rw [accepted]
      exact turn
    · exact history.latest other connection old
  · rw [sameAccepted]
    exact history.distinct
  · intro other connection present
    rw [threads] at present
    rcases getElem?_of_set present with ⟨rfl, rfl⟩ | ⟨apart, old⟩
    · exact phase past turn (history.phases other before found)
    · have unadded : .receiverAdds other true ∈ past ++ [event] ↔
          .receiverAdds other true ∈ past := by
        rw [List.mem_append, List.mem_singleton]
        refine or_iff_left ?_
        rintro rfl
        exact elsewhere other apart rfl
      rw [schedule_concat, late other apart, unadded,
        losesThread_concat_of_ne (elsewhere other apart)]
      exact history.phases other connection old
  · intro other touched
    rw [threads, List.length_set]
    by_cases same : other = index
    · rwa [same]
    · rw [schedule_concat, late other same] at touched
      apply history.bounded other
      rcases touched with isLate | ⟨step, member, names⟩
      · exact Or.inl isLate
      · rcases List.mem_append.mp member with earlier | last
        · exact Or.inr ⟨step, earlier, names⟩
        · obtain rfl := List.mem_singleton.mp last
          exact absurd names (elsewhere other same)
  · intro fd
    rcases descriptors with same | ⟨opened, more⟩
    · rw [same]
      exact history.noRelease fd
    · simpa [more] using history.noRelease fd

theorem connectionStep_accepts {server next : Server} {call : AcceptCall}
    (moved : connectionStep server (.accepts call) = some next) :
    ∃ fd : Nat, call.accept.answer = .accepted fd ∧ server.fresh fd = true ∧ next =
      { server with
        transport := { server.transport with mSocket := fd }
        descriptors := server.descriptors ++ [.acquired (fd : Int)]
        threads := server.threads ++ newThreads fd call.spawned } := by
  rcases accept_cases server call with ⟨fd, answered, _, _, again⟩ | ⟨⟨final, done, _⟩, _⟩
  · simp only [connectionStep, answered, again, Option.ite_none_right_eq_some,
      Option.some.injEq] at moved
    exact ⟨fd, answered, moved.1, moved.2.symm⟩
  · simp [connectionStep, done] at moved

theorem ConnectionHistory.not_mem_of_fresh {past : List ConnectionEvent} {server : Server}
    (history : ConnectionHistory past server) {fd : Nat} (fresh : server.fresh fd = true) :
    fd ∉ acceptedDescriptors past := by
  intro member
  have isHeld := (mem_held_of_no_release history.noRelease _).mpr (history.acquired fd member)
  simp [Server.fresh, isHeld] at fresh

/-- The connection that an index of the longer list names: an old one, or the
one that has just got its thread. -/
theorem getElem?_append_newThreads {threads : List ConnectionThreads} {fd index : Nat}
    {spawned : Bool} {found : ConnectionThreads}
    (present : (threads ++ newThreads fd spawned)[index]? = some found) :
    (index < threads.length ∧ threads[index]? = some found) ∨
      (spawned = true ∧ index = threads.length ∧ found = ⟨fd, .starting, .notCreated⟩) := by
  by_cases old : index < threads.length
  · rw [List.getElem?_append_left old] at present
    exact Or.inl ⟨old, present⟩
  · rw [List.getElem?_append_right (by omega)] at present
    cases spawned with
    | false => simp [newThreads] at present
    | true =>
        have last : index = threads.length := by
          have inside := (List.getElem?_eq_some_iff.mp present).1
          simp only [newThreads, if_true, List.length_singleton] at inside
          omega
        subst index
        simp only [newThreads, if_true, Nat.sub_self, List.getElem?_cons_zero,
          Option.some.injEq] at present
        exact Or.inr ⟨rfl, rfl, present.symm⟩

theorem length_newThreads (fd : Nat) (spawned : Bool) :
    (newThreads fd spawned).length = spawned.toNat := by
  cases spawned with
  | false => rfl
  | true => rfl

theorem map_accepted_newThreads (fd : Nat) (spawned : Bool) :
    ((newThreads fd spawned).map fun threads => threads.accepted) =
      if spawned then [fd] else [] := by
  cases spawned with
  | false => rfl
  | true => rfl

/-- A connection that is yet to come has taken no step. -/
theorem ConnectionHistory.untouched {past : List ConnectionEvent} {server : Server}
    (history : ConnectionHistory past server) :
    server.threads.length ∉ (schedule past).late ∧
      .receiverAdds server.threads.length true ∉ past ∧
      ¬ LosesThread past server.threads.length := by
  have outside := mt (history.bounded server.threads.length) (Nat.lt_irrefl _)
  rw [not_or, not_exists] at outside
  obtain ⟨notLate, silent⟩ := outside
  refine ⟨notLate, fun member => silent _ ⟨member, rfl⟩, ?_⟩
  rintro (member | member)
  · exact silent _ ⟨member, rfl⟩
  · exact silent _ ⟨member, rfl⟩

/-- Each `accept` so far, and the one that comes next, has got a descriptor, which
belongs to a connection if its thread has been created. -/
theorem ConnectionHistory.answered_accepts {past : List ConnectionEvent} {server : Server}
    {call : AcceptCall} {fd : Nat} (history : ConnectionHistory past server)
    (answered : call.accept.answer = .accepted fd) (new : fd ∉ acceptedDescriptors past)
    {other : AcceptCall} (member : .accepts other ∈ past ++ [.accepts call]) :
    ∃ descriptor, other.accept.answer = .accepted descriptor ∧
      (other.spawned = true ↔
        descriptor ∈ server.accepted ++ if call.spawned then [fd] else []) := by
  rcases List.mem_append.mp member with earlier | last
  · obtain ⟨descriptor, names, same⟩ := history.answered other earlier
    have apart : descriptor ≠ fd := by
      rintro rfl
      exact new (mem_acceptedDescriptors earlier names)
    refine ⟨descriptor, names, ?_⟩
    rw [same, List.mem_append]
    refine (or_iff_left ?_).symm
    split <;> simp [apart]
  · obtain rfl : other = call := by simpa using last
    have unowned : fd ∉ server.accepted := fun owned => new (history.known fd owned)
    refine ⟨fd, answered, ?_⟩
    cases other.spawned <;> simp [unowned]

theorem ConnectionHistory.accepts {past : List ConnectionEvent} {server next : Server}
    {call : AcceptCall} (history : ConnectionHistory past server)
    (moved : connectionStep server (.accepts call) = some next) :
    ConnectionHistory (past ++ [.accepts call]) next := by
  obtain ⟨fd, answered, fresh, rfl⟩ := connectionStep_accepts moved
  have new := history.not_mem_of_fresh fresh
  have unowned : fd ∉ server.accepted := fun member => new (history.known fd member)
  obtain ⟨spawned, latest, late⟩ := schedule_next_accepts (schedule past) call
  rw [← schedule_concat] at spawned latest late
  have accepted : acceptedDescriptors (past ++ [.accepts call]) =
      acceptedDescriptors past ++ [fd] := by
    rw [acceptedDescriptors_concat, acceptedDescriptors_accepts answered]
  have owners : (server.threads ++ newThreads fd call.spawned).map
      (fun threads => threads.accepted) =
        server.accepted ++ if call.spawned then [fd] else [] := by
    rw [List.map_append, map_accepted_newThreads, Server.accepted]
  have adds : ∀ index, .receiverAdds index true ∈ past ++ [.accepts call] ↔
      .receiverAdds index true ∈ past := by
    simp
  constructor
  · rw [List.length_append, length_newThreads, history.spawned, spawned]
  · intro other member
    rw [accepted] at member
    rcases List.mem_append.mp member with earlier | last
    · exact List.mem_append_left _ (history.acquired other earlier)
    · simp [List.mem_singleton.mp last]
  · intro other member
    rw [Server.accepted, owners] at member
    rw [accepted]
    rcases List.mem_append.mp member with earlier | last
    · exact List.mem_append_left _ (history.known other earlier)
    · split at last
      · exact List.mem_append_right _ last
      · cases last
  · intro other member
    rw [Server.accepted, owners]
    exact history.answered_accepts answered new member
  · intro index connection present
    rw [latest, ← history.spawned]
    rcases getElem?_append_newThreads present with ⟨inside, old⟩ | ⟨created, rfl, rfl⟩
    · refine iff_of_false ?_ ?_
      · intro same
        obtain rfl := Int.ofNat_inj.mp same
        exact unowned (List.mem_map_of_mem (List.mem_of_getElem? old))
      · split
        · rw [Option.some.injEq]
          omega
        · simp
    · exact iff_of_true rfl (if_pos created)
  · rw [Server.accepted, owners, List.nodup_append]
    refine ⟨history.distinct, by split <;> simp, ?_⟩
    rintro other old _ last rfl
    split at last
    · rw [List.mem_singleton.mp last] at old
      exact unowned old
    · cases last
  · intro index connection present
    rw [late, adds, losesThread_concat_of_ne (by simp [ConnectionEvent.index])]
    rcases getElem?_append_newThreads present with ⟨_, old⟩ | ⟨_, rfl, rfl⟩
    · exact history.phases index connection old
    · obtain ⟨notLate, unadded, kept⟩ := history.untouched
      exact InPhase.starts notLate unadded kept
  · intro index touched
    have earlier : index ∈ (schedule past).late ∨ ∃ event ∈ past, event.index = some index := by
      rw [late] at touched
      rcases touched with isLate | ⟨event, member, names⟩
      · exact Or.inl isLate
      · rcases List.mem_append.mp member with old | last
        · exact Or.inr ⟨event, old, names⟩
        · rw [List.mem_singleton.mp last] at names
          cases names
    have := history.bounded index earlier
    simp only [List.length_append]
    omega
  · intro other
    simpa using history.noRelease other

theorem connectionHistory_run {transport : Transport} {events : List ConnectionEvent}
    {final : Server} (run : exec connectionStep (listenerEntry transport) events = some final) :
    ConnectionHistory events final := by
  refine exec_history ConnectionHistory ?_ ?_ run
  · constructor <;> simp [listenerEntry, schedule, acceptedDescriptors, Server.accepted]
  · intro past server event next history moved
    cases thread : event.index with
    | some index => exact history.thread moved thread
    | none =>
        cases event with
        | accepts call => exact history.accepts moved
        | senderCreates _ _ => cases thread
        | receiverCreates _ _ => cases thread
        | receiverReads _ => cases thread
        | receiverAdds _ _ => cases thread

section

variable {events : List ConnectionEvent} {final : Server}

/-- The threads of a connection are found by its descriptor. -/
theorem ConnectionHistory.index_unique (history : ConnectionHistory events final)
    {first second : Nat} {one other : ConnectionThreads}
    (foundOne : final.threads[first]? = some one)
    (foundOther : final.threads[second]? = some other)
    (same : one.accepted = other.accepted) : first = second := by
  have inside := (List.getElem?_eq_some_iff.mp foundOne).1
  have position : first < final.accepted.length := by simpa [Server.accepted] using inside
  apply (List.getElem?_inj position history.distinct).mp
  rw [Server.accepted, List.getElem?_map, List.getElem?_map, foundOne, foundOther,
    Option.map_some, Option.map_some, same]

theorem ConnectionHistory.readsInTurn (history : ConnectionHistory events final)
    (keeps : KeepsOwn (acceptedDescriptors events) final) : ReadsInTurn events := by
  intro index late added
  have inside := history.bounded index (Or.inl late)
  have found : final.threads[index]? = some final.threads[index] :=
    List.getElem?_eq_getElem inside
  have phase := history.phases index _ found
  obtain ⟨fd, registers⟩ := Option.isSome_iff_exists.mp (phase.added.mpr added)
  have read := ConnectionThreads.socketRead_of_registered registers
  exact (phase.read fd read).mp (keeps.own index _ fd found registers) late

/-- A connection whose descriptor nobody will register breaks the rule. -/
theorem ConnectionHistory.not_lost (history : ConnectionHistory events final)
    (keeps : KeepsOwn (acceptedDescriptors events) final) {index : Nat}
    {threads : ConnectionThreads} (found : final.threads[index]? = some threads) :
    ¬ threads.Lost := by
  rintro ⟨atRest, unregistered⟩
  have member := List.mem_of_getElem? found
  have settled : ∀ other ∈ final.threads, other.accepted = threads.accepted → other.AtRest := by
    intro other present same
    obtain ⟨position, foundOther⟩ := List.mem_iff_getElem?.mp present
    obtain rfl := history.index_unique found foundOther same.symm
    obtain rfl : threads = other := by simpa [found] using foundOther
    exact atRest
  obtain ⟨other, present, registers⟩ := keeps.each threads.accepted
    (history.known _ (List.mem_map_of_mem member)) settled
  obtain ⟨position, foundOther⟩ := List.mem_iff_getElem?.mp present
  have same := Int.ofNat_inj.mp (keeps.own position other _ foundOther registers)
  obtain rfl := history.index_unique found foundOther same
  obtain rfl : threads = other := by simpa [found] using foundOther
  simp [unregistered] at registers

theorem ConnectionHistory.threadsSucceed (history : ConnectionHistory events final)
    (keeps : KeepsOwn (acceptedDescriptors events) final) : ThreadsSucceed events := by
  have noLoss : ∀ index, ¬ LosesThread events index := by
    intro index loses
    have inside : index < final.threads.length := by
      apply history.bounded index
      right
      rcases loses with member | member
      · exact ⟨_, member, rfl⟩
      · exact ⟨_, member, rfl⟩
    have found := List.getElem?_eq_getElem inside
    exact history.not_lost keeps found ((history.phases index _ found).lost.mpr loses)
  constructor
  · intro call member
    obtain ⟨fd, answered, spawned⟩ := history.answered call member
    by_contra failed
    have unowned : fd ∉ final.accepted := fun owned => failed (spawned.mpr owned)
    obtain ⟨threads, present, registers⟩ := keeps.each fd
      (mem_acceptedDescriptors member answered)
      fun threads present same => absurd (same ▸ List.mem_map_of_mem present) unowned
    obtain ⟨index, found⟩ := List.mem_iff_getElem?.mp present
    have same := Int.ofNat_inj.mp (keeps.own index threads _ found registers)
    exact unowned (same ▸ List.mem_map_of_mem present)
  · exact fun index member => noLoss index (Or.inl member)
  · exact fun index member => noLoss index (Or.inr member)

theorem ConnectionHistory.own (history : ConnectionHistory events final)
    (inTurn : ReadsInTurn events) {index : Nat} {threads : ConnectionThreads} {fd : Int}
    (found : final.threads[index]? = some threads) (registers : threads.registered = some fd) :
    fd = threads.accepted := by
  have phase := history.phases index threads found
  have added := phase.added.mp (by rw [registers]; rfl)
  have early : index ∉ (schedule events).late := fun late => inTurn index late added
  exact (phase.read fd (ConnectionThreads.socketRead_of_registered registers)).mpr early

theorem ConnectionHistory.keepsOwn (history : ConnectionHistory events final)
    (inTurn : ReadsInTurn events) (succeed : ThreadsSucceed events) :
    KeepsOwn (acceptedDescriptors events) final := by
  constructor
  · exact fun index threads fd found registers => history.own inTurn found registers
  · intro first second one other fd foundOne foundOther registersOne registersOther
    apply history.index_unique foundOne foundOther
    have one := history.own inTurn foundOne registersOne
    have other := history.own inTurn foundOther registersOther
    omega
  · intro fd member settled
    obtain ⟨event, present, answered⟩ := List.mem_filterMap.mp member
    cases event with
    | accepts call =>
        obtain ⟨descriptor, names, spawned⟩ := history.answered call present
        obtain rfl : descriptor = fd := by simpa [names] using answered
        have owned := spawned.mp (succeed.senders call present)
        obtain ⟨threads, created, rfl⟩ := List.mem_map.mp owned
        obtain ⟨index, found⟩ := List.mem_iff_getElem?.mp created
        have phase := history.phases index threads found
        refine ⟨threads, created, ?_⟩
        cases registers : threads.registered with
        | some fd => rw [history.own inTurn found registers]
        | none =>
            rcases phase.lost.mp ⟨settled threads created rfl, registers⟩ with lost | lost
            · exact absurd lost (succeed.receivers index)
            · exact absurd lost (succeed.adds index)
    | senderCreates _ _ => cases answered
    | receiverCreates _ _ => cases answered
    | receiverReads _ => cases answered
    | receiverAdds _ _ => cases answered

end

/-- In every run, each accepted descriptor is registered by the receiver of its own
connection, and by no other, exactly if every receiver that registers one has read
`m_socket` before the next connection was accepted, and all threads could be created
and all descriptors added. -/
theorem connections_keep_own_iff (transport : Transport) (events : List ConnectionEvent)
    (final : Server) (run : exec connectionStep (listenerEntry transport) events = some final) :
    KeepsOwn (acceptedDescriptors events) final ↔
      ReadsInTurn events ∧ ThreadsSucceed events := by
  have history := connectionHistory_run run
  constructor
  · exact fun keeps => ⟨history.readsInTurn keeps, history.threadsSucceed keeps⟩
  · exact fun ⟨inTurn, succeed⟩ => history.keepsOwn inTurn succeed

def acceptedCall (fd : Nat) : AcceptCall :=
  ⟨⟨.accepted fd, none⟩, true, true, true⟩

/-- Two connections one after the other. -/
def twoInTurn : List ConnectionEvent :=
  [.accepts (acceptedCall 4), .senderCreates 0 true, .receiverCreates 0 (some 5),
    .receiverReads 0, .accepts (acceptedCall 6), .receiverAdds 0 true, .senderCreates 1 true,
    .receiverCreates 1 (some 7), .receiverReads 1, .receiverAdds 1 true]

theorem connections_keep_own_iff_two :
    ∃ final,
      exec connectionStep (listenerEntry ⟨0, 3, .tcp, .server⟩) twoInTurn = some final ∧
        KeepsOwn (acceptedDescriptors twoInTurn) final := by
  refine ⟨_, rfl, (connections_keep_own_iff ⟨0, 3, .tcp, .server⟩ twoInTurn _ rfl).mpr ⟨?_, ?_⟩⟩
  · intro index late
    simp [twoInTurn, schedule, Schedule.next, acceptedCall] at late
  · constructor
    · intro call member
      simp only [twoInTurn, List.mem_cons, ConnectionEvent.accepts.injEq, reduceCtorEq,
        List.not_mem_nil, or_false, false_or] at member
      rcases member with rfl | rfl
      · rfl
      · rfl
    · simp [twoInTurn]
    · simp [twoInTurn]

/-- Two connections are accepted before the receiver of the first one reads
`m_socket`: it registers 5, which belongs to the second one. -/
theorem receiver_registers_later_connection :
    ∃ events final,
      exec connectionStep (listenerEntry ⟨0, 3, .tcp, .server⟩) events = some final ∧
        final.threads[0]? = some ⟨4, .ended, .ended 6 (some 5)⟩ ∧
        ¬ KeepsOwn (acceptedDescriptors events) final := by
  refine ⟨[.accepts (acceptedCall 4), .accepts (acceptedCall 5), .senderCreates 0 true,
    .receiverCreates 0 (some 6), .receiverReads 0, .receiverAdds 0 true], _, rfl, rfl, ?_⟩
  intro keeps
  exact absurd (keeps.own 0 ⟨4, .ended, .ended 6 (some 5)⟩ 5 rfl rfl) (by decide)

/-! The turns of the listener are made of these steps. -/

structure SameThreads (server fine : Server) : Prop where
  transport : fine.transport = server.transport
  descriptors : fine.descriptors = server.descriptors
  threads : fine.threads = server.threads

theorem serverStep_thread_matched {server fine next : Server} {event : ServerEvent}
    (same : SameThreads server fine) (thread : ∀ turn, event ≠ .listener turn)
    (moved : serverStep server event = some next) :
    ∃ reached, serverStep fine event = some reached ∧ SameThreads next reached := by
  have sameSet : ∀ index threads,
      (fine.setThreads index threads).threads = (server.setThreads index threads).threads := by
    simp [Server.setThreads, same.threads]
  have sameFresh : ∀ fd, fine.fresh fd = server.fresh fd := by
    simp [Server.fresh, same.descriptors]
  cases threadStep_of_serverStep moved thread with
  | senderCreates created found =>
      rw [← same.threads] at found
      exact ⟨_, serverStep_of_threadStep (.senderCreates created found), same.transport,
        same.descriptors, sameSet _ _⟩
  | receiverCreates found fresh =>
      rw [← same.threads] at found
      rw [← sameFresh] at fresh
      refine ⟨_, serverStep_of_threadStep (.receiverCreates found fresh), same.transport,
        ?_, sameSet _ _⟩
      simp [same.descriptors]
  | receiverReads found =>
      rw [← same.threads] at found
      refine ⟨_, serverStep_of_threadStep (.receiverReads found), same.transport,
        same.descriptors, ?_⟩
      rw [same.transport]
      exact sameSet _ _
  | receiverAdds added found =>
      rw [← same.threads] at found
      exact ⟨_, serverStep_of_threadStep (.receiverAdds added found), same.transport,
        same.descriptors, sameSet _ _⟩

theorem serverStep_listener_matched {server fine next : Server} {turn : ListenerTurn}
    (same : SameThreads server fine) (moved : serverStep server (.listener turn) = some next) :
    next = server ∨ ∃ reached,
      connectionStep fine (.accepts turn.accept) = some reached ∧ SameThreads next reached := by
  rcases serverStep_listener moved with
    ⟨rfl, _⟩ | ⟨_, through, _, fd, ret, accepted, _, fresh, rfl⟩
  · exact Or.inl rfl
  · right
    obtain ⟨value, handshakes⟩ := through.handshakes
    have sameFresh : fine.fresh fd = server.fresh fd := by
      simp [Server.fresh, same.descriptors]
    rcases accept_cases fine turn.accept with ⟨other, answered, _, _, again⟩ | ⟨_, fails⟩
    · obtain rfl : fd = other := by simpa using accepted.symm.trans answered
      refine ⟨{ fine with
          transport := { fine.transport with mSocket := fd }
          descriptors := fine.descriptors ++ [.acquired (fd : Int)]
          threads := fine.threads ++ newThreads fd turn.accept.spawned }, ?_, ?_⟩
      · simp only [connectionStep, answered, again, sameFresh, if_pos fresh]
      · exact
          { transport := by simp [served, same.transport]
            descriptors := by simp [served, same.descriptors]
            threads := by simp [served, same.threads] }
    · exact absurd ⟨handshakes.accepted, handshakes.named⟩ fails

def ServerEvent.threadStep : ServerEvent → Option ConnectionEvent
  | .listener _ => none
  | .senderCreates index created => some (.senderCreates index created)
  | .receiverCreates index epollFd => some (.receiverCreates index epollFd)
  | .receiverReads index => some (.receiverReads index)
  | .receiverAdds index added => some (.receiverAdds index added)

/-- Whatever the threads and the descriptors get to in a run of the server, they
get to by these steps. -/
theorem server_threads_reached (transport : Transport) {events : List ServerEvent}
    {final : Server} (run : exec serverStep (listenerEntry transport) events = some final) :
    ∃ actions reached, exec connectionStep (listenerEntry transport) actions = some reached ∧
      SameThreads final reached := by
  refine exec_simulation (fun server event next fine same moved => ?_) ⟨rfl, rfl, rfl⟩ run
  cases step : event.threadStep with
  | some action =>
      have thread : ∀ turn, event ≠ .listener turn := by
        rintro turn rfl
        cases step
      obtain ⟨reached, taken, kept⟩ := serverStep_thread_matched same thread moved
      refine ⟨[action], reached, ?_, kept⟩
      rw [exec_singleton, ← taken]
      cases event <;> cases step <;> rfl
  | none =>
      cases event with
      | listener turn =>
          rcases serverStep_listener_matched same moved with rfl | ⟨reached, taken, kept⟩
          · exact ⟨[], fine, rfl, same⟩
          · exact ⟨[_], reached, (exec_singleton _ _ _).trans taken, kept⟩
      | senderCreates _ _ => cases step
      | receiverCreates _ _ => cases step
      | receiverReads _ => cases step
      | receiverAdds _ _ => cases step

end TlsClient
