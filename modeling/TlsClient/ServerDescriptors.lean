import TlsClient.Listener

/-!
# The descriptors of the server

The listener and the threads of its connections take their steps in any order.
Within a turn of the listener only `accept` touches what the threads share, so
a turn is one step.  The kernel hands out descriptors that are not open; no
step on the way of a served connection closes one.
-/

namespace TlsClient

open EventDriven ResourceLedger

/-- A step of the server process.  The threads are named by the position of
their connection; `epollFd` is `none` if `epoll_create1` fails. -/
inductive ServerEvent
  | listener (turn : ListenerTurn)
  | senderCreates (index : Nat) (created : Bool)
  | receiverCreates (index : Nat) (epollFd : Option Nat)
  | receiverReads (index : Nat)
  | receiverAdds (index : Nat) (added : Bool)
  deriving DecidableEq, Repr

def Server.fresh (server : Server) (fd : Nat) : Bool :=
  decide ((fd : Int) ∉ held server.descriptors)

def ListenerTurn.opensFresh (turn : ListenerTurn) (server : Server) : Bool :=
  match turn.accept.accept.answer with
  | .failed => true
  | .accepted fd => server.fresh fd

def Server.setThreads (server : Server) (index : Nat) (threads : ConnectionThreads) : Server :=
  { server with threads := server.threads.set index threads }

/-- What a step does, if it can be taken.  A receiver that gets no epoll
descriptor exits, and takes the process with it. -/
def processStep (server : Server) : ServerEvent → Option (Pass Server ListenerEnd)
  | .listener turn => if turn.opensFresh server then some (listenerTurn server turn) else none
  | .senderCreates index created =>
      match server.threads[index]? with
      | some ⟨fd, .starting, receiver⟩ =>
          some (.again
            (server.setThreads index ⟨fd, .ended, if created then .starting else receiver⟩))
      | _ => none
  | .receiverCreates index epollFd =>
      match server.threads[index]?, epollFd with
      | some ⟨_, _, .starting⟩, none => some (.done server .exited)
      | some ⟨fd, sender, .starting⟩, some epollFd =>
          if server.fresh epollFd then
            some (.again
              { server.setThreads index ⟨fd, sender, .created epollFd⟩ with
                descriptors := server.descriptors ++ [.acquired epollFd] })
          else none
      | _, _ => none
  | .receiverReads index =>
      match server.threads[index]? with
      | some ⟨fd, sender, .created epollFd⟩ =>
          some (.again
            (server.setThreads index ⟨fd, sender, .read epollFd server.transport.mSocket⟩))
      | _ => none
  | .receiverAdds index added =>
      match server.threads[index]? with
      | some ⟨fd, sender, .read epollFd socket⟩ =>
          some (.again (server.setThreads index
            ⟨fd, sender, .ended epollFd (if added then some socket else none)⟩))
      | _ => none

/-- One step of a process that goes on.  A step that ends the process, or the
listener thread, has no successor. -/
def serverStep (server : Server) (event : ServerEvent) : Option Server :=
  match processStep server event with
  | some (.again next) => some next
  | _ => none

/-- The listener is woken up for a connection; in a run that goes on, the
connection has been served. -/
def ServerEvent.serves : ServerEvent → Bool
  | .listener turn =>
      match turn.poll.answer with
      | .ready revents => revents.POLLIN
      | _ => false
  | _ => false

def connectionsServed (events : List ServerEvent) : Nat :=
  events.countP ServerEvent.serves

def ConnectionThreads.AtRest (threads : ConnectionThreads) : Prop :=
  threads.sender = .ended ∧
    (threads.receiver = .notCreated ∨
      ∃ epollFd registered, threads.receiver = .ended epollFd registered)

structure DescriptorHistory (passive : Int) (past : List ServerEvent) (server : Server) :
    Prop where
  noRelease : ∀ fd, .released fd ∉ server.descriptors
  keeps : .acquired passive ∈ server.descriptors
  idle : connectionsServed past = 0 →
    server.descriptors = [.acquired passive] ∧ server.threads = []
  leaks : 0 < connectionsServed past →
    ∃ fd, fd ≠ passive ∧ .acquired fd ∈ server.descriptors

theorem connectionsServed_append (past : List ServerEvent) (event : ServerEvent) :
    connectionsServed (past ++ [event]) =
      connectionsServed past + if event.serves then 1 else 0 := by
  simp [connectionsServed, List.countP_append, List.countP_singleton]

theorem serves_iff_wakesUp (turn : ListenerTurn) :
    (ServerEvent.listener turn).serves = true ↔ turn.WakesUp := by
  cases answer : turn.poll.answer <;> simp [ServerEvent.serves, ListenerTurn.WakesUp, answer]

/-- The steps of the threads of a connection. -/
inductive ThreadStep (server : Server) : ServerEvent → Server → Prop
  | senderCreates {index fd : Nat} {receiver : ReceiverPhase} (created : Bool)
      (found : server.threads[index]? = some ⟨fd, .starting, receiver⟩) :
      ThreadStep server (.senderCreates index created)
        (server.setThreads index ⟨fd, .ended, if created then .starting else receiver⟩)
  | receiverCreates {index fd epollFd : Nat} {sender : SenderPhase}
      (found : server.threads[index]? = some ⟨fd, sender, .starting⟩)
      (fresh : server.fresh epollFd = true) :
      ThreadStep server (.receiverCreates index (some epollFd))
        { server.setThreads index ⟨fd, sender, .created epollFd⟩ with
          descriptors := server.descriptors ++ [.acquired epollFd] }
  | receiverReads {index fd epollFd : Nat} {sender : SenderPhase}
      (found : server.threads[index]? = some ⟨fd, sender, .created epollFd⟩) :
      ThreadStep server (.receiverReads index)
        (server.setThreads index ⟨fd, sender, .read epollFd server.transport.mSocket⟩)
  | receiverAdds {index fd epollFd : Nat} {sender : SenderPhase} {socket : Int} (added : Bool)
      (found : server.threads[index]? = some ⟨fd, sender, .read epollFd socket⟩) :
      ThreadStep server (.receiverAdds index added)
        (server.setThreads index
          ⟨fd, sender, .ended epollFd (if added then some socket else none)⟩)

theorem serverStep_eq_some_iff {server next : Server} {event : ServerEvent} :
    serverStep server event = some next ↔ processStep server event = some (.again next) := by
  unfold serverStep
  cases step : processStep server event with
  | none => simp
  | some pass =>
      cases pass with
      | again after => simp
      | done after ended => simp

theorem serverStep_of_threadStep {server next : Server} {event : ServerEvent}
    (step : ThreadStep server event next) : serverStep server event = some next := by
  rw [serverStep_eq_some_iff]
  cases step with
  | senderCreates created found => simp only [processStep, found]
  | receiverCreates found fresh => simp only [processStep, found, if_pos fresh]
  | receiverReads found => simp only [processStep, found]
  | receiverAdds added found => simp only [processStep, found]

/-- A step of a thread goes on, unless it is a receiver that gets no epoll
descriptor. -/
theorem processStep_thread {server : Server} {event : ServerEvent}
    {pass : Pass Server ListenerEnd} (taken : processStep server event = some pass)
    (thread : ∀ turn, event ≠ .listener turn) :
    (∃ next, pass = .again next ∧ ThreadStep server event next) ∨
      (∃ index, event = .receiverCreates index none) ∧ pass = .done server .exited := by
  cases event with
  | listener turn => exact absurd rfl (thread turn)
  | senderCreates index created =>
      simp only [processStep] at taken
      split at taken
      · rename_i fd receiver found
        cases taken
        exact Or.inl ⟨_, rfl, .senderCreates created found⟩
      · cases taken
  | receiverCreates index epollFd =>
      simp only [processStep] at taken
      split at taken
      · cases taken
        exact Or.inr ⟨⟨index, rfl⟩, rfl⟩
      · rename_i fd sender epoll found
        simp only [Option.ite_none_right_eq_some, Option.some.injEq] at taken
        obtain ⟨fresh, rfl⟩ := taken
        exact Or.inl ⟨_, rfl, .receiverCreates found fresh⟩
      · cases taken
  | receiverReads index =>
      simp only [processStep] at taken
      split at taken
      · rename_i fd sender epollFd found
        cases taken
        exact Or.inl ⟨_, rfl, .receiverReads found⟩
      · cases taken
  | receiverAdds index added =>
      simp only [processStep] at taken
      split at taken
      · rename_i fd sender epollFd socket found
        cases taken
        exact Or.inl ⟨_, rfl, .receiverAdds added found⟩
      · cases taken

theorem threadStep_of_serverStep {server next : Server} {event : ServerEvent}
    (moved : serverStep server event = some next)
    (thread : ∀ turn, event ≠ .listener turn) : ThreadStep server event next := by
  rcases processStep_thread (serverStep_eq_some_iff.mp moved) thread with
    ⟨after, same, step⟩ | ⟨_, ended⟩
  · cases same
    exact step
  · cases ended

theorem serverStep_thread {server next : Server} {event : ServerEvent}
    (moved : serverStep server event = some next)
    (thread : ∀ turn, event ≠ .listener turn) :
    event.serves = false ∧ server.threads ≠ [] ∧
      (next.descriptors = server.descriptors ∨
        ∃ fd, next.descriptors = server.descriptors ++ [.acquired fd]) := by
  have present : ∀ {index : Nat} {threads : ConnectionThreads},
      server.threads[index]? = some threads → server.threads ≠ [] := by
    intro index threads found empty
    simp [empty] at found
  cases threadStep_of_serverStep moved thread with
  | senderCreates created found => exact ⟨rfl, present found, Or.inl rfl⟩
  | receiverCreates found fresh => exact ⟨rfl, present found, Or.inr ⟨_, rfl⟩⟩
  | receiverReads found => exact ⟨rfl, present found, Or.inl rfl⟩
  | receiverAdds added found => exact ⟨rfl, present found, Or.inl rfl⟩

theorem serverStep_listener {server next : Server} {turn : ListenerTurn}
    (moved : serverStep server (.listener turn) = some next) :
    (next = server ∧ (ServerEvent.listener turn).serves = false) ∨
      ((ServerEvent.listener turn).serves = true ∧
        turn.GoesThrough server.transport.mProtocol ∧ turn.init = .returned () ∧
        ∃ fd ret, turn.accept.accept.answer = .accepted fd ∧
          turn.tlsAccept.sslAccept = .returned ret ∧ server.fresh fd = true ∧
          next = served server fd turn.accept.spawned ret) := by
  have taken := serverStep_eq_some_iff.mp moved
  simp only [processStep, Option.ite_none_right_eq_some, Option.some.injEq] at taken
  obtain ⟨opens, again⟩ := taken
  rcases listenerTurn_again again with
    ⟨same, asleep⟩ | ⟨wakes, through, init, fd, ret, accepted, returned, became⟩
  · left
    rw [← serves_iff_wakesUp, Bool.not_eq_true] at asleep
    exact ⟨same, asleep⟩
  · right
    refine ⟨(serves_iff_wakesUp turn).mpr wakes, through, init, fd, ret, accepted, returned, ?_,
      became⟩
    simpa [ListenerTurn.opensFresh, accepted] using opens

/-- A connection that goes through is served on any descriptor that is free. -/
theorem serverStep_of_goesThrough {server : Server} {turn : ListenerTurn}
    (wakes : turn.WakesUp) (init : turn.init = .returned ())
    (through : turn.GoesThrough server.transport.mProtocol) {fd : Nat} {ret : Int}
    (accepted : turn.accept.accept.answer = .accepted fd)
    (returned : turn.tlsAccept.sslAccept = .returned ret) (fresh : server.fresh fd = true) :
    serverStep server (.listener turn) = some (served server fd turn.accept.spawned ret) := by
  have opens : turn.opensFresh server = true := by
    simpa [ListenerTurn.opensFresh, accepted] using fresh
  rw [serverStep_eq_some_iff, processStep, if_pos opens,
    listenerTurn_of_goesThrough server wakes init through accepted returned]

theorem DescriptorHistory.ne_passive {passive : Int} {past : List ServerEvent}
    {server : Server} (history : DescriptorHistory passive past server) {fd : Nat}
    (fresh : server.fresh fd = true) : (fd : Int) ≠ passive := by
  rintro rfl
  have isHeld := (mem_held_of_no_release history.noRelease _).mpr history.keeps
  simp [Server.fresh, isHeld] at fresh

theorem descriptorHistory_step {passive : Int} {past : List ServerEvent}
    {server next : Server} {event : ServerEvent}
    (history : DescriptorHistory passive past server)
    (moved : serverStep server event = some next) :
    DescriptorHistory passive (past ++ [event]) next := by
  have counted := connectionsServed_append past event
  by_cases fromListener : ∃ turn, event = .listener turn
  · obtain ⟨turn, rfl⟩ := fromListener
    rcases serverStep_listener moved with
      ⟨rfl, idle⟩ | ⟨serves, _, _, fd, ret, _, _, fresh, rfl⟩
    · rw [if_neg (by simp [idle]), Nat.add_zero] at counted
      exact
        { noRelease := history.noRelease
          keeps := history.keeps
          idle := counted ▸ history.idle
          leaks := counted ▸ history.leaks }
    · rw [if_pos serves] at counted
      constructor
      · intro other
        simpa [served] using history.noRelease other
      · simp [served, history.keeps]
      · intro none
        omega
      · exact fun _ => ⟨fd, history.ne_passive fresh, by simp [served]⟩
  · obtain ⟨idle, busy, outcome⟩ := serverStep_thread moved fun turn same =>
      fromListener ⟨turn, same⟩
    rw [if_neg (by simp [idle]), Nat.add_zero] at counted
    have someServed : 0 < connectionsServed past := by
      by_contra none
      exact busy (history.idle (by omega)).2
    obtain ⟨leaked, other, acquired⟩ := history.leaks someServed
    rcases outcome with same | ⟨fd, added⟩
    · constructor
      · rw [same]
        exact history.noRelease
      · rw [same]
        exact history.keeps
      · intro none
        omega
      · exact fun _ => ⟨leaked, other, by rw [same]; exact acquired⟩
    · constructor
      · intro released
        simpa [added] using history.noRelease released
      · simp [added, history.keeps]
      · intro none
        omega
      · exact fun _ => ⟨leaked, other, by simp [added, acquired]⟩

/-- In every state a run of the server reaches, the passive socket is the only
open descriptor, and every other one has been closed exactly once, just in case
no connection has been served. -/
theorem server_balanced_iff (transport : Transport) (events : List ServerEvent)
    (final : Server) (run : exec serverStep (listenerEntry transport) events = some final) :
    Balanced transport.mPassiveSocket final.descriptors ↔ connectionsServed events = 0 := by
  have history : DescriptorHistory transport.mPassiveSocket events final := by
    apply exec_history (DescriptorHistory transport.mPassiveSocket) _ _ run
    · exact
        { noRelease := by simp [listenerEntry]
          keeps := by simp [listenerEntry]
          idle := fun _ => ⟨rfl, rfl⟩
          leaks := by simp [connectionsServed] }
    · intro past server event next history moved
      exact descriptorHistory_step history moved
  rw [balanced_iff_of_no_release history.noRelease history.keeps]
  constructor
  · intro only
    by_contra served
    obtain ⟨fd, other, acquired⟩ := history.leaks (by omega)
    exact other (only fd acquired)
  · intro none fd acquired
    rw [(history.idle none).1] at acquired
    simpa using acquired

def oneConnection : List ServerEvent :=
  [.listener (servedTurn 4 1), .senderCreates 0 true, .receiverCreates 0 (some 5),
    .receiverReads 0, .receiverAdds 0 true]

/-- One connection, served in full: the run is not balanced. -/
theorem server_balanced_iff_one :
    ∃ final,
      exec serverStep (listenerEntry ⟨0, 3, .tcp, .server⟩) oneConnection = some final ∧
        ¬ Balanced 3 final.descriptors := by
  refine ⟨_, rfl, ?_⟩
  rw [server_balanced_iff ⟨0, 3, .tcp, .server⟩ oneConnection _ rfl]
  decide

/-- Its socket and its epoll descriptor stay open. -/
theorem server_leaks_after_one_connection :
    ∃ final,
      exec serverStep (listenerEntry ⟨0, 3, .tcp, .server⟩) oneConnection = some final ∧
        (∀ threads ∈ final.threads, threads.AtRest) ∧
        held final.descriptors = [3, 4, 5] ∧ ¬ Balanced 3 final.descriptors := by
  refine ⟨_, rfl, ?_, by decide, ?_⟩
  · intro threads member
    obtain rfl := List.mem_singleton.mp member
    exact ⟨rfl, Or.inr ⟨5, some 4, rfl⟩⟩
  · intro balanced
    exact absurd ((balanced.holds 4).mp (by decide)) (by decide)

end TlsClient
