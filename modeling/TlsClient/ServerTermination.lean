import Mathlib.Algebra.GroupWithZero.Nat
import TlsClient.BoundedRuns
import TlsClient.ListenerSteps
import TlsClient.ServerCapacity

/-!
# The server comes to rest

A server steps for connections only, and each connection takes an entry of the
descriptor table for good.  So the steps of a run are paid for by the entries it has
taken: seven for an entry, and the steps not taken yet are kept as a credit.
-/

namespace TlsClient

open EventDriven ResourceLedger

/-- A poll of the listener that finds no connection. -/
def ListenerEvent.isIdle : ListenerEvent → Bool
  | .polls poll =>
      match poll.answer with
      | .ready revents => !revents.POLLIN
      | _ => true
  | _ => false

/-- The steps of the listener that are still paid for: those of its turn, and the poll
behind it. -/
def ListenerPhase.credit : ListenerPhase → Nat
  | .polling => 1
  | .wokenUp _ => 0
  | .accepted _ _ => 5
  | .initialised _ _ => 4
  | .attached _ _ _ => 3
  | .handshaken _ _ _ _ => 2

def SenderPhase.credit : SenderPhase → Nat
  | .starting => 1
  | .ended => 0

/-- A receiver pays with its epoll descriptor. -/
def ReceiverPhase.credit : ReceiverPhase → Nat
  | .notCreated => 0
  | .starting => 0
  | .created _ => 2
  | .read _ _ => 1
  | .ended _ _ => 0

def ConnectionThreads.credit (threads : ConnectionThreads) : Nat :=
  threads.sender.credit + threads.receiver.credit

def Server.credit (server : Server) : Nat :=
  (server.threads.map ConnectionThreads.credit).sum

theorem credit_set {threads : List ConnectionThreads} {index : Nat}
    {before : ConnectionThreads} (found : threads[index]? = some before)
    (after : ConnectionThreads) :
    ((threads.set index after).map ConnectionThreads.credit).sum + before.credit =
      (threads.map ConnectionThreads.credit).sum + after.credit := by
  induction threads generalizing index with
  | nil => simp at found
  | cons first rest ih =>
      cases index with
      | zero =>
          obtain rfl : first = before := by simpa using found
          simp only [List.set_cons_zero, List.map_cons, List.sum_cons]
          omega
      | succ index =>
          have inRest := ih (by simpa using found)
          simp only [List.set_cons_succ, List.map_cons, List.sum_cons]
          omega

theorem credit_newThreads (fd : Nat) (spawned : Bool) :
    ((newThreads fd spawned).map ConnectionThreads.credit).sum ≤ 1 := by
  cases spawned <;> simp [newThreads, ConnectionThreads.credit, SenderPhase.credit,
    ReceiverPhase.credit]

/-- What has been stepped, and what is still paid for, is covered by the descriptors
taken. -/
structure PaidSteps (past : List ListenerEvent) (state : SteppedServer) : Prop where
  distinct : (held state.server.descriptors).Nodup
  paid : busyCount ListenerEvent.isIdle past + state.phase.credit + state.server.credit + 7 ≤
    7 * (held state.server.descriptors).length + 1

theorem busyCount_concat (past : List ListenerEvent) (event : ListenerEvent) :
    busyCount ListenerEvent.isIdle (past ++ [event]) =
      busyCount ListenerEvent.isIdle past + if event.isIdle = true then 0 else 1 := by
  rw [busyCount_append, busyCount_cons]
  simp [busyCount]

theorem PaidSteps.same {past : List ListenerEvent} {state next : SteppedServer}
    {event : ListenerEvent} (before : PaidSteps past state)
    (same : next.server.descriptors = state.server.descriptors)
    (spends : next.phase.credit + next.server.credit + (if event.isIdle = true then 0 else 1) ≤
      state.phase.credit + state.server.credit) :
    PaidSteps (past ++ [event]) next where
  distinct := same ▸ before.distinct
  paid := by
    have paid := before.paid
    rw [same, busyCount_concat]
    omega

theorem PaidSteps.takes {past : List ListenerEvent} {state next : SteppedServer}
    {event : ListenerEvent} {fd : Nat} (before : PaidSteps past state)
    (fresh : state.server.fresh fd = true)
    (acquired : next.server.descriptors = state.server.descriptors ++ [.acquired (fd : Int)])
    (spends : next.phase.credit + next.server.credit + 1 ≤
      state.phase.credit + state.server.credit + 7) :
    PaidSteps (past ++ [event]) next where
  distinct := by
    rw [acquired]
    exact nodup_held_concat before.distinct (of_decide_eq_true fresh)
  paid := by
    have paid := before.paid
    rw [acquired, held_concat, hold, List.length_append, List.length_singleton,
      busyCount_concat]
    split <;> omega

/-- A step of another thread lowers its credit. -/
theorem PaidSteps.thread {past : List ListenerEvent} {state : SteppedServer} {index : Nat}
    {event : ServerEvent} {old new : ConnectionThreads} (before : PaidSteps past state)
    (found : state.server.threads[index]? = some old) (spends : new.credit + 1 ≤ old.credit) :
    PaidSteps (past ++ [.thread event])
      { state with server := state.server.setThreads index new } := by
  have moved := credit_set found new
  apply PaidSteps.same before
  · rfl
  · simp only [Server.credit, Server.setThreads, ListenerEvent.isIdle, Bool.false_eq_true,
      if_false]
    omega

theorem paidSteps_thread {past : List ListenerEvent} {state : SteppedServer} {server : Server}
    {event : ServerEvent} (before : PaidSteps past state)
    (step : ThreadStep state.server event server) :
    PaidSteps (past ++ [.thread event]) { state with server := server } := by
  cases step with
  | @senderCreates index fd receiver created found =>
      apply before.thread found
      cases created with
      | true =>
          change 0 + 0 + 1 ≤ 1 + receiver.credit
          omega
      | false =>
          change 0 + receiver.credit + 1 ≤ 1 + receiver.credit
          omega
  | @receiverCreates index fd epollFd sender found fresh =>
      have moved := credit_set found ⟨fd, sender, .created epollFd⟩
      apply PaidSteps.takes before fresh
      · rfl
      · simp only [ConnectionThreads.credit, ReceiverPhase.credit] at moved
        simp only [Server.credit, Server.setThreads]
        omega
  | receiverReads found =>
      apply before.thread found
      simp [ConnectionThreads.credit, ReceiverPhase.credit]
  | receiverAdds added found =>
      apply before.thread found
      simp [ConnectionThreads.credit, ReceiverPhase.credit]

/-- A step of the listener behind its `accept` lowers the credit of its phase. -/
theorem PaidSteps.listener {past : List ListenerEvent} {state : SteppedServer}
    {event : ListenerEvent} (before : PaidSteps past state) (next : SteppedServer)
    (descriptors : next.server.descriptors = state.server.descriptors)
    (threads : next.server.threads = state.server.threads)
    (spends : next.phase.credit + 1 ≤ state.phase.credit) :
    PaidSteps (past ++ [event]) next := by
  apply PaidSteps.same before descriptors
  rw [Server.credit, Server.credit, threads]
  split <;> omega

theorem isIdle_of_asleep {poll : Answered PollAnswer} (asleep : pollPhase poll = some .polling) :
    (ListenerEvent.polls poll).isIdle = true := by
  cases answer : poll.answer with
  | failed => simp [ListenerEvent.isIdle, answer]
  | timedOut => simp [ListenerEvent.isIdle, answer]
  | ready revents =>
      cases input : revents.POLLIN with
      | false => simp [ListenerEvent.isIdle, answer, input]
      | true => simp [pollPhase, answer, input] at asleep

theorem paidSteps_step {past : List ListenerEvent} {state next : SteppedServer}
    {event : ListenerEvent} (before : PaidSteps past state)
    (moved : steppedStep state event = some next) : PaidSteps (past ++ [event]) next := by
  cases listenerMove_of_steppedStep moved with
  | sleeps phase asleep =>
      apply PaidSteps.same before
      · rfl
      · simp [phase, isIdle_of_asleep asleep]
  | wakes phase answer input => exact before.listener _ rfl rfl (by rw [phase]; exact Nat.le_refl _)
  | @accepts poll call fd phase accepted fresh named peer =>
      have new := credit_newThreads fd call.spawned
      apply PaidSteps.takes before fresh
      · rfl
      · simp only [Server.credit, List.map_append, List.sum_append, phase, ListenerPhase.credit]
        omega
  | inits phase => exact before.listener _ rfl rfl (by rw [phase]; exact Nat.le_refl _)
  | attaches phase tcp => exact before.listener _ rfl rfl (by rw [phase]; exact Nat.le_refl _)
  | handshakes sslAccept phase =>
      exact before.listener _ rfl rfl (by rw [phase]; exact Nat.le_refl _)
  | shutsDown phase => exact before.listener _ rfl rfl (by rw [phase]; exact Nat.le_refl _)
  | thread step => exact paidSteps_thread before step

theorem paidSteps_run {transport : Transport} {events : List ListenerEvent}
    {final : SteppedServer}
    (run : exec steppedStep (steppedEntry transport) events = some final) :
    PaidSteps events final := by
  have initial : PaidSteps [] (steppedEntry transport) :=
    ⟨List.nodup_singleton transport.mPassiveSocket, Nat.le_refl _⟩
  exact exec_history PaidSteps initial
    (fun _ _ _ _ before moved => paidSteps_step before moved) run

/-- However the calls of the listener and the steps of the threads interleave, a server
takes at most seven steps for each entry of the descriptor table that is free when it
starts, and one more; polls that find no connection are not counted. -/
theorem server_steps_le {transport : Transport} {events : List ListenerEvent}
    {final : SteppedServer} {limit : Nat} {others : List Int}
    (run : exec steppedStep (steppedEntry transport) events = some final)
    (fits : FitsTable limit others final.server) :
    busyCount ListenerEvent.isIdle events ≤ 7 * (limit - (others.length + 1)) + 1 := by
  have history := paidSteps_run run
  have taken := length_taken_le fits history.distinct
  have paid := history.paid
  omega

theorem server_steps_le_two :
    ∃ final,
      exec steppedStep (steppedEntry ⟨0, 3, .tcp, .server⟩) interleavedSessions = some final ∧
        busyCount ListenerEvent.isIdle interleavedSessions ≤ 7 * (7 - (3 + 1)) + 1 := by
  refine ⟨_, rfl, ?_⟩
  exact @server_steps_le ⟨0, 3, .tcp, .server⟩ interleavedSessions _ 7 standardStreams rfl
    ⟨by decide, by decide, by decide⟩

end TlsClient
