import TlsClient.SendDelivery
import Mathlib.Algebra.GroupWithZero.Nat

/-!
# The ranges `send_message` hands to the kernel

The remaining count is 64 bits wide in the loop and 32 bits wide on its way
through `send_to_socket`.  What `::send` is asked for depends on the remaining
count modulo 2 ^ 32 alone, so a partial send decides whether the next request
lies inside the message.
-/

namespace TlsClient

open EventDriven

/-- `::send` answers a request for no byte at all with 0. -/
def emptyRequest (loop : SendLoop) (call : SendCall) : Bool :=
  decide (requestedCount loop.nLeft = 0 ∧ call.send.answer = .accepted 0)

/-- `send_message` for messages of any length.  Below 2 ^ 31 bytes no request is
empty. -/
def sendMessageAnyLength : Loop SendLoop SendCall Bool :=
  { sendMessage with
    possible := fun loop call => sendPossible loop call || emptyRequest loop call }

/-- The range is not empty and lies inside `out_message[0..length)`. -/
def SendRecord.InRange (length : Nat) (record : SendRecord) : Prop :=
  1 ≤ record.requested ∧ record.offset + record.requested ≤ length

def RangesInside (length : Nat) (loop : SendLoop) : Prop :=
  ∀ record ∈ loop.sends, record.InRange length

/-- The remaining count keeps a positive value in its lower 32 bits. -/
def RequestFits (remaining : Int) : Prop :=
  1 ≤ remaining % 2 ^ 32 ∧ remaining % 2 ^ 32 < 2 ^ 31

/-- Every pass starts with a remaining count that fits, when `remaining` bytes
are left before the first one. -/
def RequestsFit : Int → List SendCall → Prop
  | _, [] => True
  | remaining, call :: calls =>
      RequestFits remaining ∧ RequestsFit (remaining - call.send.answer.taken) calls

def acceptedCount (calls : List SendCall) : Nat :=
  (calls.map fun call => call.send.answer.taken).sum

@[simp]
theorem acceptedCount_concat (past : List SendCall) (call : SendCall) :
    acceptedCount (past ++ [call]) = acceptedCount past + call.send.answer.taken := by
  simp [acceptedCount]

theorem requestsFit_concat (past : List SendCall) (call : SendCall) (remaining : Int) :
    RequestsFit remaining (past ++ [call]) ↔
      RequestsFit remaining past ∧ RequestFits (remaining - acceptedCount past) := by
  induction past generalizing remaining with
  | nil => simp [RequestsFit, acceptedCount]
  | cons earlier past ih =>
      have counted : remaining - acceptedCount (earlier :: past) =
          remaining - earlier.send.answer.taken - acceptedCount past := by
        simp only [acceptedCount, List.map_cons, List.sum_cons, Int.natCast_add]
        omega
      simp only [List.cons_append, RequestsFit, ih, counted, and_assoc]

theorem toInt_cases (value : Int) :
    (toInt value = value % 2 ^ 32 ∧ value % 2 ^ 32 < 2 ^ 31) ∨
      (toInt value = value % 2 ^ 32 - 2 ^ 32 ∧ 2 ^ 31 ≤ value % 2 ^ 32) := by
  unfold toInt
  rw [Int.bmod_def]
  split <;> omega

theorem requestedCount_of_requestFits {nLeft : Int} (requestFits : RequestFits nLeft) :
    (requestedCount nLeft : Int) = nLeft % 2 ^ 32 := by
  unfold requestedCount toSize
  unfold RequestFits at requestFits
  rcases toInt_cases nLeft with ⟨kept, _⟩ | ⟨_, large⟩
  · rw [kept]
    omega
  · omega

/-- The sign bit of the lower half turns into a request beyond any message. -/
theorem requestedCount_inside_iff {nLeft : Int} (positive : 0 < nLeft)
    (fits : nLeft < 2 ^ 63) :
    (1 ≤ requestedCount nLeft ∧ (requestedCount nLeft : Int) ≤ nLeft) ↔ RequestFits nLeft := by
  unfold requestedCount toSize RequestFits
  rcases toInt_cases nLeft with ⟨kept, small⟩ | ⟨negative, large⟩
  · rw [kept]
    omega
  · rw [negative]
    omega

/-- The loop and the account of what `::send` accepted are in step, and the
requests made so far tell the same as the counts. -/
structure Tracks (length : Nat) (past : List SendCall) (loop : SendLoop) : Prop where
  remaining : loop.nLeft = length - acceptedCount past
  offset : loop.offset = acceptedCount past
  inside : RangesInside length loop ↔ RequestsFit length past

theorem tracks_sendEntry (length : Nat) : Tracks length [] (sendEntry length) where
  remaining := by simp [sendEntry, acceptedCount]
  offset := rfl
  inside := by simp [RangesInside, sendEntry, RequestsFit]

theorem sendPass_agrees {call : SendCall} (agrees : call.Agrees) (loop : SendLoop) :
    (sendPass loop call).state.nLeft = loop.nLeft - call.send.answer.taken ∧
      (sendPass loop call).state.offset = loop.offset + call.send.answer.taken := by
  have taken := taken_of_agrees agrees
  rcases sendPass_cases loop call with ⟨nonpositive, err, again | done⟩ | ⟨positive, again⟩
  · rw [again]
    simp only [Pass.state]
    omega
  · rw [done]
    simp only [Pass.state]
    omega
  · rw [again]
    simp only [Pass.state]
    omega

theorem Tracks.inRange_iff {length : Nat} {past : List SendCall} {loop : SendLoop}
    (tracks : Tracks length past loop) (fits : length < 2 ^ 63) (continues : 0 < loop.nLeft)
    (call : SendCall) :
    (sendRecord loop call).InRange length ↔ RequestFits (length - acceptedCount past) := by
  have remaining := tracks.remaining
  have offset := tracks.offset
  rw [← remaining, ← requestedCount_inside_iff continues (by omega)]
  simp only [SendRecord.InRange, sendRecord]
  omega

theorem Tracks.pass {length : Nat} {past : List SendCall} {loop : SendLoop} {call : SendCall}
    (tracks : Tracks length past loop) (fits : length < 2 ^ 63) (continues : 0 < loop.nLeft)
    (agrees : call.Agrees) :
    Tracks length (past ++ [call]) (sendPass loop call).state := by
  obtain ⟨remaining, offset⟩ := sendPass_agrees agrees loop
  constructor
  · rw [remaining, tracks.remaining, acceptedCount_concat]
    omega
  · rw [offset, tracks.offset, acceptedCount_concat]
  · rw [requestsFit_concat, ← tracks.inside, ← tracks.inRange_iff fits continues call]
    simp only [RangesInside, sendPass_sends, List.mem_append, List.mem_singleton,
      or_imp, forall_and, forall_eq]

theorem sendMessage_tracks {length : Nat} (fits : length < 2 ^ 63) {events : List SendCall}
    {control : Control SendLoop Bool}
    (run : sendMessageAnyLength.run (sendEntry length) events = some control)
    (agrees : ∀ call ∈ events, call.Agrees) : Tracks length events control.state := by
  refine Loop.run_state
    (fun past loop => (∀ call ∈ past, call.Agrees) → Tracks length past loop)
    (fun _ => tracks_sendEntry length) ?_ run agrees
  intro past loop call tracks continues _ agreed
  have before := tracks fun earlier member => agreed earlier (by simp [member])
  exact before.pass fits (by simpa [sendMessageAnyLength, sendMessage] using continues)
    (agreed call (by simp))

theorem requestsFit_of_lt {length : Nat} (fits : length < 2 ^ 31) {events : List SendCall}
    {control : Control SendLoop Bool}
    (run : sendMessageAnyLength.run (sendEntry length) events = some control)
    (agrees : ∀ call ∈ events, call.Agrees) : RequestsFit length events := by
  have small : length < 2 ^ 63 := by omega
  have held : Tracks length events control.state ∧ RequestsFit length events := by
    refine Loop.run_state
      (fun past loop => (∀ call ∈ past, call.Agrees) →
        Tracks length past loop ∧ RequestsFit length past)
      (fun _ => ⟨tracks_sendEntry length, trivial⟩) ?_ run agrees
    intro past loop call held continues _ agreed
    obtain ⟨tracks, requests⟩ := held fun earlier member => agreed earlier (by simp [member])
    have unfinished : 0 < loop.nLeft := by
      simpa [sendMessageAnyLength, sendMessage] using continues
    refine ⟨tracks.pass small unfinished (agreed call (by simp)), ?_⟩
    rw [requestsFit_concat]
    refine ⟨requests, ?_⟩
    have remaining := tracks.remaining
    simp only [RequestFits]
    omega
  exact held.2

def interruptedSend : SendCall where
  send := ⟨.failed, some .EINTR⟩
  unspecified := -1
  poll := ⟨.timedOut, none⟩

def acceptedSend (count : Nat) : SendCall where
  send := ⟨.accepted count, none⟩
  unspecified := count
  poll := ⟨.timedOut, none⟩

theorem continues_of_pos {loop : SendLoop} (unfinished : 0 < loop.nLeft) :
    sendMessageAnyLength.continues loop = true := by
  simpa [sendMessageAnyLength, sendMessage] using unfinished

theorem run_interruptedSend {loop : SendLoop} (unfinished : 0 < loop.nLeft) :
    ∃ control, sendMessageAnyLength.run loop [interruptedSend] = some control := by
  have running := Loop.run_nil_of_continues _ (continues_of_pos unfinished)
  refine ⟨_, Loop.run_concat_of_running running ?_⟩
  simp [sendMessageAnyLength, sendPossible, interruptedSend]

theorem run_acceptedSend {loop : SendLoop} {count : Nat} (positive : 0 < count)
    (requested : count ≤ requestedCount loop.nLeft) (unfinished : count < loop.nLeft)
    (fits : loop.nLeft < 2 ^ 63) (events : List SendCall) :
    ∃ next, next.nLeft = loop.nLeft - count ∧
      sendMessageAnyLength.run loop (acceptedSend count :: events) =
        sendMessageAnyLength.run next events := by
  have possible : sendMessageAnyLength.possible loop (acceptedSend count) = true := by
    simp only [sendMessageAnyLength, sendPossible, acceptedSend, Bool.or_eq_true,
      Bool.and_eq_true, decide_eq_true_eq]
    left
    omega
  rcases sendPass_cases loop (acceptedSend count) with ⟨nonpositive, _⟩ | ⟨_, again⟩
  · simp only [acceptedSend] at nonpositive
    omega
  · exact ⟨_, rfl, Loop.run_cons_again (continues_of_pos (by omega)) possible again events⟩

/-- A message of 2 ^ 31 bytes or more has a run that asks for a wrong range: the
first request does, or the kernel takes what fits and the second one does. -/
theorem exists_run_not_requestsFit {length : Nat} (large : 2 ^ 31 ≤ length)
    (fits : length < 2 ^ 63) :
    ∃ events control, sendMessageAnyLength.run (sendEntry length) events = some control ∧
      (∀ call ∈ events, call.Agrees) ∧ ¬ RequestsFit length events := by
  have entry : (sendEntry length).nLeft = length := rfl
  by_cases first : RequestFits length
  · have requested := requestedCount_of_requestFits first
    have least := first.1
    have lower := first.2
    obtain ⟨next, left, run⟩ :
        ∃ next, next.nLeft = (sendEntry length).nLeft - ((length % 2 ^ 32 : Nat) : Int) ∧
          sendMessageAnyLength.run (sendEntry length)
              [acceptedSend (length % 2 ^ 32), interruptedSend] =
            sendMessageAnyLength.run next [interruptedSend] := by
      apply run_acceptedSend
      · omega
      · rw [entry]
        omega
      · rw [entry]
        omega
      · rw [entry]
        omega
    have unfinished : 0 < next.nLeft := by omega
    obtain ⟨control, last⟩ := run_interruptedSend unfinished
    refine ⟨_, control, run.trans last, ?_, ?_⟩
    · simp [acceptedSend, interruptedSend, SendCall.Agrees]
    · simp only [RequestsFit, RequestFits, acceptedSend, SendAnswer.taken]
      omega
  · have unfinished : 0 < (sendEntry length).nLeft := by omega
    obtain ⟨control, run⟩ := run_interruptedSend unfinished
    refine ⟨_, control, run, ?_, ?_⟩
    · simp [interruptedSend, SendCall.Agrees]
    · simp [RequestsFit, first]

/-- A run whose advance is the count `::send` accepted asks for ranges inside the
message exactly when every pass starts with a remaining count that fits; all
such runs do so exactly for the messages of less than 2 ^ 31 bytes. -/
theorem sendMessage_ranges_iff (length : Nat) (positive : 0 < length)
    (fits : length < 2 ^ 63) :
    (∀ events control,
      sendMessageAnyLength.run (sendEntry length) events = some control →
        (∀ call ∈ events, call.Agrees) →
          (RangesInside length control.state ↔ RequestsFit length events)) ∧
    ((∀ events control,
      sendMessageAnyLength.run (sendEntry length) events = some control →
        (∀ call ∈ events, call.Agrees) → RangesInside length control.state) ↔
      length < 2 ^ 31) := by
  refine ⟨fun events control run agrees => (sendMessage_tracks fits run agrees).inside, ?_, ?_⟩
  · intro inside
    by_contra large
    obtain ⟨events, control, run, agrees, wrong⟩ :=
      exists_run_not_requestsFit (by omega) fits
    exact wrong ((sendMessage_tracks fits run agrees).inside.mp (inside events control run agrees))
  · intro small events control run agrees
    exact (sendMessage_tracks fits run agrees).inside.mpr (requestsFit_of_lt small run agrees)

theorem sendMessage_ranges_iff_two :
    RangesInside 2 ⟨0, 2, none, [⟨0, 2, 1, 1⟩, ⟨1, 1, 1, 1⟩]⟩ ↔
      RequestsFit 2 [acceptedSend 1, acceptedSend 1] :=
  (sendMessage_ranges_iff 2 (by decide) (by decide)).1 [acceptedSend 1, acceptedSend 1]
    (.returned ⟨0, 2, none, [⟨0, 2, 1, 1⟩, ⟨1, 1, 1, 1⟩]⟩ true) (by decide) (by decide)

/-- Of 2 ^ 31 bytes the first request asks for 2 ^ 64 - 2 ^ 31. -/
theorem sendMessage_asks_beyond_message :
    ∃ control,
      sendMessageAnyLength.run (sendEntry 2147483648) [interruptedSend] = some control ∧
        (∀ call ∈ [interruptedSend], call.Agrees) ∧
        ¬ RangesInside 2147483648 control.state := by
  refine ⟨.running ⟨2147483648, 0, some .EINTR, [⟨0, 18446744071562067968, 0, 0⟩]⟩, ?_, ?_, ?_⟩
  · decide
  · decide
  · intro inside
    have inRange := inside ⟨0, 18446744071562067968, 0, 0⟩ (by simp [Control.state])
    simp only [SendRecord.InRange] at inRange
    omega

end TlsClient
