import TlsClient.ServerDescriptors

/-!
# How many connections a server can serve

No descriptor of a served connection is ever given back, so each connection takes
room in the descriptor table of the process for good.  When the table is full,
`::accept` fails, and that ends the process; and `tlsmanager::init` needs two entries
for a while, since `feed_ca_cert` opens a file with another one still open.
-/

namespace TlsClient

open EventDriven ResourceLedger

def ServerEvent.createsEpoll : ServerEvent → Bool
  | .receiverCreates _ _ => true
  | _ => false

def epollsCreated (events : List ServerEvent) : Nat :=
  events.countP ServerEvent.createsEpoll

theorem epollsCreated_append (past : List ServerEvent) (event : ServerEvent) :
    epollsCreated (past ++ [event]) =
      epollsCreated past + if event.createsEpoll then 1 else 0 := by
  simp [epollsCreated, List.countP_append, List.countP_singleton]

/-- The descriptors of the process, with those opened before the server started, stand
in a table of `limit` entries. -/
structure FitsTable (limit : Nat) (others : List Int) (server : Server) : Prop where
  distinct : others.Nodup
  apart : ∀ fd ∈ others, fd ∉ held server.descriptors
  within : ∀ fd ∈ others ++ held server.descriptors, 0 ≤ fd ∧ fd < limit

structure CountedDescriptors (past : List ServerEvent) (server : Server) : Prop where
  distinct : (held server.descriptors).Nodup
  counted : (held server.descriptors).length = 1 + connectionsServed past + epollsCreated past

theorem CountedDescriptors.same {past : List ServerEvent} {server next : Server}
    {event : ServerEvent} (before : CountedDescriptors past server)
    (same : next.descriptors = server.descriptors) (idle : event.serves = false)
    (creates : event.createsEpoll = false) : CountedDescriptors (past ++ [event]) next where
  distinct := same ▸ before.distinct
  counted := by
    rw [same, before.counted, connectionsServed_append, epollsCreated_append, idle, creates]
    rfl

theorem CountedDescriptors.acquires {past : List ServerEvent} {server next : Server}
    {event : ServerEvent} {fd : Nat} (before : CountedDescriptors past server)
    (fresh : server.fresh fd = true)
    (acquired : next.descriptors = server.descriptors ++ [.acquired (fd : Int)])
    (either : event.serves = !event.createsEpoll) :
    CountedDescriptors (past ++ [event]) next where
  distinct := by
    rw [acquired]
    exact nodup_held_concat before.distinct (of_decide_eq_true fresh)
  counted := by
    rw [acquired, held_concat, hold, List.length_append, before.counted,
      connectionsServed_append, epollsCreated_append, either, List.length_singleton]
    cases event.createsEpoll with
    | true => simp only [Bool.not_true, Bool.false_eq_true, if_false, if_true]; omega
    | false => simp only [Bool.not_false, Bool.false_eq_true, if_false, if_true]; omega

theorem countedDescriptors_step {past : List ServerEvent} {server next : Server}
    {event : ServerEvent} (before : CountedDescriptors past server)
    (moved : serverStep server event = some next) :
    CountedDescriptors (past ++ [event]) next := by
  by_cases fromListener : ∃ turn, event = .listener turn
  · obtain ⟨turn, rfl⟩ := fromListener
    rcases serverStep_listener moved with
      ⟨rfl, idle⟩ | ⟨serves, _, _, fd, ret, _, _, fresh, rfl⟩
    · exact before.same rfl idle rfl
    · exact before.acquires fresh rfl serves
  · have thread := threadStep_of_serverStep moved fun turn same => fromListener ⟨turn, same⟩
    cases thread with
    | senderCreates created found => exact before.same rfl rfl rfl
    | receiverCreates found fresh => exact before.acquires fresh rfl rfl
    | receiverReads found => exact before.same rfl rfl rfl
    | receiverAdds added found => exact before.same rfl rfl rfl

theorem countedDescriptors_run {transport : Transport} {events : List ServerEvent}
    {final : Server} (run : exec serverStep (listenerEntry transport) events = some final) :
    CountedDescriptors events final := by
  have initial : CountedDescriptors [] (listenerEntry transport) :=
    ⟨List.nodup_singleton transport.mPassiveSocket, rfl⟩
  exact exec_history CountedDescriptors initial
    (fun _ _ _ _ before moved => countedDescriptors_step before moved) run

def descriptorTable (limit : Nat) : List Int :=
  (List.range limit).map Int.ofNat

theorem mem_descriptorTable {limit : Nat} {fd : Int} :
    fd ∈ descriptorTable limit ↔ 0 ≤ fd ∧ fd < limit := by
  simp only [descriptorTable, List.mem_map, List.mem_range]
  constructor
  · rintro ⟨number, below, rfl⟩
    simpa using below
  · rintro ⟨nonnegative, below⟩
    exact ⟨fd.toNat, by omega, Int.toNat_of_nonneg nonnegative⟩

theorem length_taken_le {limit : Nat} {others : List Int} {server : Server}
    (fits : FitsTable limit others server) (distinct : (held server.descriptors).Nodup) :
    others.length + (held server.descriptors).length ≤ limit := by
  have together : (others ++ held server.descriptors).Nodup := by
    rw [List.nodup_append]
    refine ⟨fits.distinct, distinct, ?_⟩
    rintro fd member other holds rfl
    exact fits.apart fd member holds
  have within : others ++ held server.descriptors ⊆ descriptorTable limit :=
    fun fd member => mem_descriptorTable.mpr (fits.within fd member)
  have room := (List.subperm_of_subset together within).length_le
  rwa [List.length_append, descriptorTable, List.length_map, List.length_range] at room

/-- In every run, each connection served and each epoll descriptor takes an entry of
the table, beside the passive socket and what was open before. -/
theorem server_capacity {transport : Transport} {events : List ServerEvent} {final : Server}
    {limit : Nat} {others : List Int}
    (run : exec serverStep (listenerEntry transport) events = some final)
    (fits : FitsTable limit others final) :
    others.length + 1 + connectionsServed events + epollsCreated events ≤ limit := by
  have history := countedDescriptors_run run
  have taken := length_taken_le fits history.distinct
  rw [history.counted] at taken
  omega

theorem FitsTable.acquires {limit : Nat} {others : List Int} {server next : Server} {fd : Nat}
    (fits : FitsTable limit others server) (below : fd < limit) (apart : (fd : Int) ∉ others)
    (acquired : next.descriptors = server.descriptors ++ [.acquired (fd : Int)]) :
    FitsTable limit others next where
  distinct := fits.distinct
  apart other member := by
    rw [acquired, held_concat, hold, List.mem_append, List.mem_singleton, not_or]
    exact ⟨fits.apart other member, fun same => apart (same ▸ member)⟩
  within other member := by
    rw [acquired, held_concat, hold, ← List.append_assoc] at member
    rcases List.mem_append.mp member with earlier | new
    · exact fits.within other earlier
    · obtain rfl := List.mem_singleton.mp new
      omega

def standardStreams : List Int :=
  [0, 1, 2]

theorem server_capacity_two :
    ∃ final,
      exec serverStep (listenerEntry ⟨0, 3, .tcp, .server⟩)
          [.listener (servedTurn 4 1), .senderCreates 0 true, .receiverCreates 0 (some 5),
            .listener (servedTurn 6 1)] = some final ∧
        standardStreams.length + 1 + 2 + 1 ≤ 7 := by
  refine ⟨_, rfl, ?_⟩
  exact @server_capacity ⟨0, 3, .tcp, .server⟩
    [.listener (servedTurn 4 1), .senderCreates 0 true, .receiverCreates 0 (some 5),
      .listener (servedTurn 6 1)] _ 7 standardStreams rfl ⟨by decide, by decide, by decide⟩

end TlsClient
