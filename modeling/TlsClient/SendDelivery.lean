import TlsClient.SendMessage

/-!
# Delivery by `send_message`

As long as the value found behind `send_to_socket` is the count `::send`
accepted, the pointer and the remaining count stay in step with the kernel,
through every partial send, interrupt and wait.  The first pass in which it is
another value takes them out of step, and nothing in the code excludes that
value.
-/

namespace TlsClient

open EventDriven

/-- What a caller of `send_message` relies on: the loop advances by what the
kernel accepted, `true` means that the whole message was accepted once and in
order, and `false` that a proper prefix of it was. -/
structure Delivered (length : Nat) (final : SendLoop) (result : Bool) : Prop where
  advances : ∀ call ∈ final.sends, call.advanced = call.accepted
  complete : result = true → acceptedPositions final.sends = List.range length
  truncated : result = false →
    ∃ sent < length, acceptedPositions final.sends = List.range sent

structure InStep (length : Nat) (loop : SendLoop) : Prop where
  advances : ∀ call ∈ loop.sends, call.advanced = call.accepted
  positions : acceptedPositions loop.sends = List.range loop.offset
  remaining : loop.nLeft + loop.offset = length
  nonnegative : 0 ≤ loop.nLeft

theorem inStep_sendEntry (length : Nat) : InStep length (sendEntry length) where
  advances := by simp [sendEntry]
  positions := rfl
  remaining := by simp [sendEntry]
  nonnegative := by simp [sendEntry]

theorem requestedCount_of_lt {nLeft : Int} (nonnegative : 0 ≤ nLeft)
    (fits : nLeft < 2 ^ 31) : requestedCount nLeft = nLeft := by
  obtain ⟨count, rfl⟩ := Int.eq_ofNat_of_zero_le nonnegative
  rw [requestedCount, toInt_of_lt (by omega), toSize_of_lt (by omega)]

theorem taken_of_agrees {call : SendCall} (agrees : call.Agrees) :
    (call.unspecified ≤ 0 ∧ call.send.answer.taken = 0) ∨
      call.unspecified = call.send.answer.taken := by
  cases answer : call.send.answer with
  | failed =>
      simp only [SendCall.Agrees, answer] at agrees
      exact Or.inl ⟨agrees, rfl⟩
  | accepted count =>
      simp only [SendCall.Agrees, answer] at agrees
      exact Or.inr agrees

theorem advanced_of_agrees {call : SendCall} (agrees : call.Agrees) (loop : SendLoop) :
    (sendRecord loop call).advanced = (sendRecord loop call).accepted := by
  rcases taken_of_agrees agrees with ⟨nonpositive, nothing⟩ | same
  · simp [sendRecord, advance, nothing, nonpositive]
  · simp only [sendRecord, advance, same]
    split <;> omega

theorem taken_le_requestedCount {loop : SendLoop} {call : SendCall}
    (possible : sendPossible loop call = true) :
    call.send.answer.taken ≤ requestedCount loop.nLeft := by
  cases answer : call.send.answer with
  | failed => exact Nat.zero_le _
  | accepted count =>
      simp only [sendPossible, answer, Bool.and_eq_true, decide_eq_true_eq] at possible
      exact possible.1.2

/-- A pass that reads the accepted count keeps the loop in step, and it does
not end the loop with `true`. -/
theorem sendPass_inStep {length : Nat} (fits : length < 2 ^ 31) {loop : SendLoop}
    {call : SendCall} (before : InStep length loop) (continues : 0 < loop.nLeft)
    (possible : sendPossible loop call = true) (agrees : call.Agrees) :
    (∃ next, sendPass loop call = .again next ∧ InStep length next) ∨
      ∃ final, sendPass loop call = .done final false ∧ InStep length final ∧
        0 < final.nLeft := by
  have remaining := before.remaining
  have requested : (requestedCount loop.nLeft : Int) = loop.nLeft :=
    requestedCount_of_lt before.nonnegative (by omega)
  have accepted := taken_le_requestedCount possible
  have advances : ∀ record ∈ loop.sends ++ [sendRecord loop call],
      record.advanced = record.accepted := by
    rw [List.forall_mem_append, List.forall_mem_singleton]
    exact ⟨before.advances, advanced_of_agrees agrees loop⟩
  rcases sendPass_cases loop call with ⟨nonpositive, err, outcome⟩ | ⟨positive, outcome⟩
  · have nothing : call.send.answer.taken = 0 := by
      rcases taken_of_agrees agrees with ⟨_, nothing⟩ | same
      · exact nothing
      · omega
    have stays : InStep length
        { loop with err := err, sends := loop.sends ++ [sendRecord loop call] } :=
      { advances := advances
        positions := by simp [sendRecord, nothing, before.positions]
        remaining := before.remaining
        nonnegative := before.nonnegative }
    rcases outcome with again | done
    · exact Or.inl ⟨_, again, stays⟩
    · exact Or.inr ⟨_, done, stays, continues⟩
  · left
    refine ⟨_, outcome, ?_⟩
    have same : call.unspecified = call.send.answer.taken := by
      rcases taken_of_agrees agrees with ⟨nonpositive, _⟩ | same
      · omega
      · exact same
    exact
      { advances := advances
        positions := by
          simp only [acceptedPositions_append, before.positions, acceptedPositions_singleton,
            sendRecord, same, Int.toNat_natCast]
          rw [List.range_eq_range', List.range_eq_range', ← List.range'_append_1, Nat.zero_add]
        remaining := by
          simp only [same, Int.toNat_natCast]
          omega
        nonnegative := by
          simp only [same]
          omega }

theorem InStep.delivered {length : Nat} {loop : SendLoop} (inStep : InStep length loop)
    (stops : sendMessage.continues loop = false) : Delivered length loop true := by
  have remaining := inStep.remaining
  have nonnegative := inStep.nonnegative
  have finished : loop.nLeft = 0 := by
    simp [sendMessage] at stops
    omega
  have sent : loop.offset = length := by omega
  exact
    { advances := inStep.advances
      complete := fun _ => by rw [inStep.positions, sent]
      truncated := by simp }

theorem InStep.delivered_false {length : Nat} {loop : SendLoop} (inStep : InStep length loop)
    (unfinished : 0 < loop.nLeft) : Delivered length loop false where
  advances := inStep.advances
  complete := by simp
  truncated := fun _ => ⟨loop.offset, by have := inStep.remaining; omega, inStep.positions⟩

theorem delivered_of_agrees {length : Nat} (fits : length < 2 ^ 31)
    {events : List SendCall} {final : SendLoop} {result : Bool}
    (run : sendMessage.run (sendEntry length) events = some (.returned final result))
    (agrees : ∀ call ∈ events, call.Agrees) :
    Delivered length final result := by
  have entry := inStep_sendEntry length
  refine Loop.run_control
    (fun past control => (∀ call ∈ past, call.Agrees) →
      sendMessage.Satisfies (InStep length) (Delivered length) control)
    (fun _ => Loop.satisfies_head entry entry.delivered) ?_ run agrees
  intro past loop call holds possible agreed
  obtain ⟨continues, inStep⟩ := holds fun earlier member => agreed earlier (by simp [member])
  rcases sendPass_inStep fits inStep (by simpa [sendMessage] using continues) possible
    (agreed call (by simp)) with ⟨next, again, kept⟩ | ⟨final, done, kept, unfinished⟩
  · exact Loop.satisfies_of_again again kept kept.delivered
  · exact Loop.satisfies_of_done done (kept.delivered_false unfinished)

theorem sendPass_sends (loop : SendLoop) (call : SendCall) :
    (sendPass loop call).state.sends = loop.sends ++ [sendRecord loop call] := by
  rcases sendPass_cases loop call with ⟨_, err, again | done⟩ | ⟨_, again⟩
  · rw [again]
    rfl
  · rw [done]
    rfl
  · rw [again]
    rfl

theorem agrees_of_advanced {loop : SendLoop} {call : SendCall}
    (possible : sendPossible loop call = true)
    (advanced : (sendRecord loop call).advanced = (sendRecord loop call).accepted) :
    call.Agrees := by
  simp only [sendRecord, advance] at advanced
  cases answer : call.send.answer with
  | failed =>
      simp only [answer, SendAnswer.taken] at advanced
      simp only [SendCall.Agrees, answer]
      split at advanced <;> omega
  | accepted count =>
      have positive : 1 ≤ count := by
        simp [sendPossible, answer] at possible
        exact possible.1.1
      simp only [answer, SendAnswer.taken] at advanced
      simp only [SendCall.Agrees, answer]
      split at advanced <;> omega

theorem agrees_of_delivered {length : Nat} {events : List SendCall}
    {final : SendLoop} {result : Bool}
    (run : sendMessage.run (sendEntry length) events = some (.returned final result))
    (delivered : Delivered length final result) :
    ∀ call ∈ events, call.Agrees := by
  -- the kernel's records tell, for every pass, whether the value found was right
  have recorded : ∀ call ∈ events, ∃ record ∈ final.sends,
      record.advanced = record.accepted → call.Agrees := by
    refine Loop.run_state
      (fun past loop => ∀ call ∈ past, ∃ record ∈ loop.sends,
        record.advanced = record.accepted → call.Agrees)
      (by simp) ?_ run
    intro past loop call recorded _ possible earlier member
    rw [show (sendMessage.body loop call).state.sends = _ from sendPass_sends loop call]
    rcases List.mem_append.mp member with old | new
    · obtain ⟨record, present, conclusion⟩ := recorded earlier old
      exact ⟨record, by simp [present], conclusion⟩
    · obtain rfl := List.mem_singleton.mp new
      exact ⟨sendRecord loop earlier, by simp, agrees_of_advanced possible⟩
  intro call member
  obtain ⟨record, present, conclusion⟩ := recorded call member
  exact conclusion (delivered.advances record present)

def misreadCall (length : Nat) : SendCall where
  send := ⟨.failed, some .EINTR⟩
  unspecified := length
  poll := ⟨.timedOut, none⟩

theorem run_misreadCall {length : Nat} (positive : 0 < length) (fits : length < 2 ^ 31) :
    ∃ final, sendMessage.run (sendEntry length) [misreadCall length] =
        some (.returned final true) := by
  have continues : sendMessage.continues (sendEntry length) = true := by
    simpa [sendMessage, sendEntry] using positive
  have possible : sendMessage.possible (sendEntry length) (misreadCall length) = true := by
    simp only [sendMessage, sendPossible, misreadCall, Bool.true_and, decide_eq_true_eq]
    omega
  let final : SendLoop :=
    ⟨0, length, some .EINTR, [sendRecord (sendEntry length) (misreadCall length)]⟩
  have again : sendPass (sendEntry length) (misreadCall length) = .again final := by
    obtain ⟨_, outcome⟩ := (sendPass_cases (sendEntry length) (misreadCall length)).resolve_left
      (fun stays => by
        have nonpositive := stays.1
        simp only [misreadCall] at nonpositive
        omega)
    rw [outcome]
    simp [final, sendEntry, misreadCall, sendToSocket, SendAnswer.value, toInt]
  refine ⟨final, ?_⟩
  rw [Loop.run_cons_again continues possible again, Loop.run_nil]
  rfl

/-- A run of `send_message` delivers exactly when, in each of its passes, the
value found behind `send_to_socket` is the count `::send` accepted (not
positive when it accepted nothing).  As that value is unspecified, every run
delivers only for the empty message. -/
theorem sendMessage_delivers_iff (length : Nat) (fits : length < 2 ^ 31) :
    (∀ events final result,
      sendMessage.run (sendEntry length) events = some (.returned final result) →
        (Delivered length final result ↔ ∀ call ∈ events, call.Agrees)) ∧
    ((∀ events final result,
      sendMessage.run (sendEntry length) events = some (.returned final result) →
        Delivered length final result) ↔ length = 0) := by
  refine ⟨fun events final result run =>
    ⟨agrees_of_delivered run, delivered_of_agrees fits run⟩, ?_, ?_⟩
  · intro delivers
    by_contra nonempty
    obtain ⟨final, run⟩ := run_misreadCall (Nat.pos_of_ne_zero nonempty) fits
    have agrees := agrees_of_delivered run (delivers _ _ _ run) (misreadCall length) (by simp)
    simp only [SendCall.Agrees, misreadCall] at agrees
    omega
  · rintro rfl events final result run
    apply delivered_of_agrees fits run
    cases events with
    | nil => simp
    | cons call events =>
        simp [Loop.run, exec_cons, Loop.head, sendMessage, sendEntry, Loop.step] at run

theorem sendMessage_delivers_iff_two :
    Delivered 2 ⟨0, 2, none, [⟨0, 2, 1, 1⟩, ⟨1, 1, 1, 1⟩]⟩ true :=
  ((sendMessage_delivers_iff 2 (by decide)).1
    [⟨⟨.accepted 1, none⟩, 1, ⟨.timedOut, none⟩⟩, ⟨⟨.accepted 1, none⟩, 1, ⟨.timedOut, none⟩⟩]
    _ true (by decide)).mpr (by decide)

/-- The socket would block, and the address of `cout` is found behind
`send_to_socket`, whose last statement on that path is a log line: the message
counts as sent. -/
theorem sendMessage_true_with_nothing_sent :
    ∃ final,
      sendMessage.run (sendEntry 5)
          [⟨⟨.failed, some .EAGAIN⟩, 6296288, ⟨.timedOut, none⟩⟩] =
        some (.returned final true) ∧
      ¬ Delivered 5 final true := by
  refine ⟨⟨-6296283, 6296288, some .EAGAIN, [⟨0, 5, 0, 6296288⟩]⟩, by decide, ?_⟩
  intro delivered
  exact absurd (delivered.complete rfl) (by decide)

end TlsClient
