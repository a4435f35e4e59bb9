import TlsClient.Handshake
import Mathlib.Algebra.GroupWithZero.Nat

/-!
# A handshake whose bytes arrive in pieces

Every `SSL_connect` that wants more bytes costs `tls_connect` one of its three
attempts, and so does every interrupt of the wait for them.  The loop tests the
counter before it uses what it has waited for.
-/

namespace TlsClient

open EventDriven

/-- A piece of the server's handshake, with the interrupts of the wait for it. -/
structure Piece where
  interrupts : Nat
  revents : Revents
  readable : revents.POLLIN = true

def wantsRead (poll : Answered PollAnswer) : HandshakeCall :=
  ⟨-1, .WANT_READ, poll⟩

/-- The passes of `tls_connect` until the piece is there. -/
def Piece.waits (piece : Piece) : List HandshakeCall :=
  List.replicate piece.interrupts (wantsRead ⟨.failed, some .EINTR⟩) ++
    [wantsRead ⟨.ready piece.revents, none⟩]

def waitsForPieces (pieces : List Piece) : List HandshakeCall :=
  pieces.flatMap Piece.waits

def connects : HandshakeCall :=
  ⟨1, .other 0, ⟨.timedOut, none⟩⟩

/-- `SSL_connect` wants to read until all pieces are in, and returns 1 then. -/
def arrival (pieces : List Piece) : List HandshakeCall :=
  waitsForPieces pieces ++ [connects]

def totalWaits (pieces : List Piece) : Nat :=
  pieces.length + (pieces.map fun piece => piece.interrupts).sum

theorem waitsForPieces_length (pieces : List Piece) :
    (waitsForPieces pieces).length = totalWaits pieces := by
  induction pieces with
  | nil => rfl
  | cons piece pieces ih =>
      have split : waitsForPieces (piece :: pieces) = piece.waits ++ waitsForPieces pieces := rfl
      simp only [split, List.length_append, ih, Piece.waits, List.length_replicate,
        List.length_cons, List.length_nil, totalWaits, List.map_cons, List.sum_cons]
      omega

def SpendsAttempt (call : HandshakeCall) : Prop :=
  ∀ handshake, ∃ next, handshakeTurn handshake call = .again next ∧
    next.attempt = handshake.attempt + 1

theorem spendsAttempt_of_waits {pieces : List Piece} {call : HandshakeCall}
    (member : call ∈ waitsForPieces pieces) : SpendsAttempt call ∧ call.sslConnect = -1 := by
  obtain ⟨piece, _, member⟩ := List.mem_flatMap.mp member
  rcases List.mem_append.mp member with interrupted | ready
  · obtain ⟨_, rfl⟩ := List.mem_replicate.mp interrupted
    exact ⟨fun handshake => ⟨_, rfl, rfl⟩, rfl⟩
  · obtain rfl := List.mem_singleton.mp ready
    refine ⟨fun handshake => ?_, rfl⟩
    refine ⟨{ attempt := handshake.attempt + 1
              events := { POLLIN := true }
              calls := handshake.calls ++ [.SSL_connect (-1)] }, ?_, rfl⟩
    simp [handshakeTurn, handshakeWait, wantsRead, piece.readable]

/-- As long as attempts are left, the loop goes through the waits. -/
theorem run_waits {waits : List HandshakeCall} (waiting : ∀ call ∈ waits, SpendsAttempt call)
    {handshake : Handshake} (attempts : handshake.attempt + waits.length ≤ 3)
    (rest : List HandshakeCall) :
    ∃ next, next.attempt = handshake.attempt + waits.length ∧
      tlsConnect.run handshake (waits ++ rest) = tlsConnect.run next rest := by
  induction waits generalizing handshake with
  | nil => exact ⟨handshake, rfl, rfl⟩
  | cons call waits ih =>
      rw [List.length_cons] at attempts ⊢
      obtain ⟨middle, again, counted⟩ := waiting call (by simp) handshake
      have left : middle.attempt + waits.length ≤ 3 := by omega
      obtain ⟨next, reached, run⟩ :=
        ih (fun later member => waiting later (by simp [member])) left
      refine ⟨next, by omega, ?_⟩
      have continues : tlsConnect.continues handshake = true := by
        simp only [tlsConnect, decide_eq_true_eq]
        omega
      rw [List.cons_append, Loop.run_cons_again continues rfl again, run]

/-- The answers of the environment up to the return of `tls_connect`, and what
it has done by then. -/
def TlsConnectEnds (events used : List HandshakeCall) (final : Handshake) : Prop :=
  used <+: events ∧ tlsConnect.run handshakeEntry used = some (.returned final ())

def Handshake.Completed (handshake : Handshake) : Prop :=
  ∃ call ∈ handshake.calls, call.completes = true

theorem completed_iff {events used : List HandshakeCall} {final : Handshake}
    (ends : TlsConnectEnds events used final) :
    final.Completed ↔ ∃ call ∈ used, call.sslConnect = 1 := by
  rw [Handshake.Completed, tlsConnect_calls ends.2]
  simp [SslCall.completes]

@[simp]
theorem handshakeEntry_attempt : handshakeEntry.attempt = 0 :=
  rfl

theorem tlsConnect_completes {pieces : List Piece} (few : totalWaits pieces ≤ 2) :
    ∃ final, TlsConnectEnds (arrival pieces) (arrival pieces) final := by
  have fits : handshakeEntry.attempt + (waitsForPieces pieces).length ≤ 3 := by
    rw [waitsForPieces_length, handshakeEntry_attempt]
    omega
  obtain ⟨next, reached, run⟩ :=
    run_waits (fun call member => (spendsAttempt_of_waits member).1) fits [connects]
  have continues : tlsConnect.continues next = true := by
    rw [waitsForPieces_length, handshakeEntry_attempt] at reached
    simp only [tlsConnect, decide_eq_true_eq]
    omega
  exact ⟨_, List.prefix_refl _, run.trans (Loop.run_cons_done continues rfl rfl)⟩

theorem tlsConnect_gives_up {pieces : List Piece} (many : 3 ≤ totalWaits pieces) :
    ∃ final, TlsConnectEnds (arrival pieces) ((waitsForPieces pieces).take 3) final := by
  have three : ((waitsForPieces pieces).take 3).length = 3 := by
    rw [List.length_take, waitsForPieces_length]
    omega
  have waiting : ∀ call ∈ (waitsForPieces pieces).take 3, SpendsAttempt call := by
    intro call member
    exact (spendsAttempt_of_waits (List.mem_of_mem_take member)).1
  have fits : handshakeEntry.attempt + ((waitsForPieces pieces).take 3).length ≤ 3 := by
    rw [handshakeEntry_attempt]
    omega
  obtain ⟨next, reached, run⟩ := run_waits waiting fits []
  have stops : tlsConnect.continues next = false := by
    rw [three, handshakeEntry_attempt] at reached
    simp [tlsConnect, reached]
  refine ⟨next, (List.take_prefix 3 _).trans (List.prefix_append _ _), ?_⟩
  rw [List.append_nil] at run
  rw [run, Loop.run_nil, Loop.head_of_stops _ stops]

/-- `tls_connect` returns, and it returns with a completed handshake exactly
when at most two waits were needed, interrupted ones included. -/
theorem tlsConnect_arrival (pieces : List Piece) :
    (∃ used final, TlsConnectEnds (arrival pieces) used final) ∧
      ∀ used final, TlsConnectEnds (arrival pieces) used final →
        (final.Completed ↔ totalWaits pieces ≤ 2) := by
  by_cases few : totalWaits pieces ≤ 2
  · obtain ⟨last, completes⟩ := tlsConnect_completes few
    refine ⟨⟨_, last, completes⟩, fun used final ends => ?_⟩
    obtain rfl := Loop.run_returned_unique ends.1 completes.1 ends.2 completes.2
    rw [completed_iff ends]
    exact iff_of_true ⟨connects, by simp [arrival], rfl⟩ few
  · obtain ⟨last, givesUp⟩ := tlsConnect_gives_up (Nat.lt_of_not_le few)
    refine ⟨⟨_, last, givesUp⟩, fun used final ends => ?_⟩
    obtain rfl := Loop.run_returned_unique ends.1 givesUp.1 ends.2 givesUp.2
    rw [completed_iff ends]
    refine iff_of_false ?_ few
    rintro ⟨call, member, succeeds⟩
    have wants := (spendsAttempt_of_waits (List.mem_of_mem_take member)).2
    omega

def readable : Piece :=
  ⟨0, { POLLIN := true }, rfl⟩

theorem tlsConnect_arrival_two :
    ∃ used final, TlsConnectEnds (arrival [readable, readable]) used final ∧ final.Completed :=
  ⟨arrival [readable, readable], _, ⟨by decide, rfl⟩,
    ((tlsConnect_arrival [readable, readable]).2 (arrival [readable, readable]) _
      ⟨by decide, rfl⟩).mpr (by decide)⟩

/-- Three pieces, none of the waits interrupted: the third attempt is over when
the third piece is in. -/
theorem tlsConnect_gives_up_after_third_piece :
    ∃ used final, TlsConnectEnds (arrival [readable, readable, readable]) used final ∧
      ¬ final.Completed := by
  refine ⟨(waitsForPieces [readable, readable, readable]).take 3, _, ⟨by decide, rfl⟩, ?_⟩
  simp [Handshake.Completed, SslCall.completes, readable, wantsRead, handshakeEntry]

end TlsClient
