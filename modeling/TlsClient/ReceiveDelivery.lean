import TlsClient.ReceiveMessage

/-!
# What `receive` fills, and what it returns

At every pass the next `recv` is confined to the part of the buffer that is
still empty, whatever interrupts, waits and partial reads came before.  The
value of `receive` is another matter: `nread` is the count of the last `recv`
alone, so a message that comes in several chunks is reported by the length of
its last one.
-/

namespace TlsClient

open EventDriven IndexedMemory

/-- `length - n_left`. -/
def ReceiveLoop.off (length : Nat) (loop : ReceiveLoop) : Int :=
  length - loop.nLeft

/-- The head of the loop, when `taken` has come off the stream.  `confined` is
about the `recv` of the next pass. -/
structure WithinBuffer (length : Nat) (taken : List UInt8) (loop : ReceiveLoop) : Prop where
  nonnegative : 0 ≤ loop.off length
  below : loop.off length < length
  position : loop.data = loop.off length
  contents : load loop.buffer 0 (loop.off length).toNat = taken
  confined : ∀ call, receivePossible loop call = true → ∀ address,
    ¬ (loop.off length ≤ address ∧ address < length) →
      (receiveFromSocket loop call.recv).buffer address = loop.buffer address

/-- All bytes of the message stand in the buffer. -/
def AllFilled (length : Nat) (taken : List UInt8) (final : ReceiveLoop) : Prop :=
  taken.length = length ∧ load final.buffer 0 length = taken

theorem receiveFromSocket_outside {loop : ReceiveLoop} {call : ReceiveCall} {address : Int}
    (possible : receivePossible loop call = true)
    (outside : ¬ (loop.data ≤ address ∧ address < loop.data + loop.nLeft)) :
    (receiveFromSocket loop call.recv).buffer address = loop.buffer address := by
  have fits : call.recv.answer.bytes.length ≤ loop.nLeft := by
    simp only [receivePossible, Bool.and_eq_true, decide_eq_true_eq] at possible
    exact possible.1
  apply store_of_outside
  omega

theorem Filled.withinBuffer {length : Nat} {taken : List UInt8} {loop : ReceiveLoop}
    (filled : Filled length taken loop) (continues : receive.continues loop = true) :
    WithinBuffer length taken loop := by
  have unfinished : 0 < loop.nLeft := by simpa [receive] using continues
  have remaining := filled.remaining
  have off : loop.off length = taken.length := by
    unfold ReceiveLoop.off
    omega
  constructor
  · omega
  · omega
  · rw [off]
    exact filled.position
  · rw [off]
    exact filled.contents
  · intro call possible address outside
    have position := filled.position
    apply receiveFromSocket_outside possible
    omega

/-- The update at the end of the body leaves the memory alone. -/
theorem receivePass_buffer (loop : ReceiveLoop) (call : ReceiveCall) :
    (receivePass loop call).state.buffer = (receiveFromSocket loop call.recv).buffer := by
  unfold receivePass
  simp only
  split
  · split
    · rfl
    split
    · rfl
    split
    · rcases receiveWait_cases call.poll (receiveFromSocket loop call.recv) with
        ⟨err, waits | breaks⟩ | ⟨_, _, _, falls⟩
      · rw [waits]
        rfl
      · rw [breaks]
        rfl
      · rw [falls]
        rfl
    · rfl
  · rfl

theorem receive_outside {length : Nat} (positive : 0 < length) (fits : length < 2 ^ 64)
    {buffer : Int → UInt8} {events : List ReceiveCall}
    {control : Control ReceiveLoop (Ended Int)}
    (run : receive.run (receiveEntry length buffer) events = some control) {address : Int}
    (outside : ¬ (0 ≤ address ∧ address < length)) :
    control.state.buffer address = buffer address := by
  have satisfied : receive.Satisfies
      (fun loop => Filled length (takenBytes events) loop ∧ loop.buffer address = buffer address)
      (fun final _ => final.buffer address = buffer address) control := by
    refine Loop.run_satisfies
      (fun past loop => Filled length (takenBytes past) loop ∧
        loop.buffer address = buffer address)
      (fun _ final _ => final.buffer address = buffer address)
      ⟨filled_receiveEntry positive fits buffer, rfl⟩ (fun _ => rfl) ?_ run
    rintro past loop call ⟨filled, unchanged⟩ continues possible
    have written : (receivePass loop call).state.buffer address = buffer address := by
      have remaining := filled.remaining
      have position := filled.position
      rw [receivePass_buffer, receiveFromSocket_outside possible (by omega), unchanged]
    rw [takenBytes_concat]
    rcases receivePass_filled fits filled (by simpa [receive] using continues) possible with
      ⟨next, again, kept⟩ | ⟨final, ended, done, _⟩
    · rw [again] at written
      exact Loop.satisfies_of_again again ⟨kept, written⟩ fun _ => written
    · rw [done] at written
      exact Loop.satisfies_of_done done written
  cases control with
  | running loop => exact satisfied.2.2
  | returned final ended => exact satisfied

theorem ReceiveEnds.succeeded_iff {length : Nat} {taken : List UInt8} {final : ReceiveLoop}
    {ended : Ended Int} {succeeded : Bool} (ends : ReceiveEnds length taken final ended)
    (returns : receiveMessage ended = .returned succeeded) :
    succeeded = true ↔ AllFilled length taken final := by
  cases ended with
  | exited => simp [receiveMessage] at returns
  | returned value =>
      obtain rfl : decide (value > 0) = succeeded := by simpa [receiveMessage] using returns
      rw [decide_eq_true_eq]
      rcases ends with ⟨rfl, short⟩ | ⟨positive, whole, contents⟩
      · constructor
        · intro positive
          omega
        · rintro ⟨whole, _⟩
          omega
      · exact ⟨fun _ => ⟨whole, contents⟩, fun _ => positive⟩

/-- At every pass of a call of `receive_message` the loop is within its buffer,
nothing outside of the buffer is ever written, and a call that returns has
filled the whole buffer exactly when it returns `true`. -/
theorem receiveMessage_within_buffer (length : Nat) (positive : 0 < length)
    (fits : length < 2 ^ 63) (buffer : Int → UInt8) (events : List ReceiveCall)
    (control : Control ReceiveLoop (Ended Int))
    (run : receive.run (receiveEntry length buffer) events = some control) :
    (∀ loop, control = .running loop → WithinBuffer length (takenBytes events) loop) ∧
    (∀ final ended succeeded, control = .returned final ended →
      receiveMessage ended = .returned succeeded →
        (succeeded = true ↔ AllFilled length (takenBytes events) final)) ∧
    ∀ address : Int, ¬ (0 ≤ address ∧ address < length) →
      control.state.buffer address = buffer address := by
  have satisfied := receive_satisfies positive (by omega) run
  refine ⟨?_, ?_, fun address outside => receive_outside positive (by omega) run outside⟩
  · rintro loop rfl
    exact satisfied.2.withinBuffer satisfied.1
  · rintro final ended succeeded rfl returns
    exact ReceiveEnds.succeeded_iff satisfied returns

theorem receiveMessage_within_buffer_interrupted :
    ∃ loop, receive.run (receiveEntry 3 fun _ => 0)
        [⟨⟨.failed, some .EINTR⟩, ⟨.timedOut, none⟩⟩,
          ⟨⟨.received [7, 8], none⟩, ⟨.timedOut, none⟩⟩] = some (.running loop) ∧
      WithinBuffer 3 [7, 8] loop :=
  ⟨_, rfl, (receiveMessage_within_buffer 3 (by decide) (by decide) (fun _ => 0)
    [⟨⟨.failed, some .EINTR⟩, ⟨.timedOut, none⟩⟩,
      ⟨⟨.received [7, 8], none⟩, ⟨.timedOut, none⟩⟩] _ rfl).1 _ rfl⟩

/-- The wait ends with data to read or with an interrupt. -/
def Answered.resumes (poll : Answered PollAnswer) : Bool :=
  match poll.answer with
  | .failed => decide (poll.errno = some .EINTR)
  | .timedOut => false
  | .ready revents => revents.POLLIN

/-- A chunk, or an interrupt or a wait between two of them.  What `recv`
returns is an `ssize_t`. -/
def ReceiveCall.progresses (call : ReceiveCall) : Bool :=
  match call.recv.answer with
  | .failed =>
      decide (call.recv.errno = some .EINTR) ||
        (decide (call.recv.errno = some .EAGAIN) && call.poll.resumes)
  | .received bytes => decide (bytes ≠ [] ∧ bytes.length < 2 ^ 63)

/-- `calls` is a way for `segment` to arrive.  The call that brings the last
chunk is the last one. -/
structure Fragments (segment : List UInt8) (calls : List ReceiveCall) : Prop where
  progresses : ∀ call ∈ calls, call.progresses = true
  contract : ∀ call ∈ calls, ∀ revents, call.poll.answer = .ready revents →
    revents.reportsInput = true
  arrives : takenBytes calls = segment
  lastChunk : ∀ call, calls.getLast? = some call → call.recv.answer.bytes ≠ []

def chunks (calls : List ReceiveCall) : List (List UInt8) :=
  (calls.map fun call => call.recv.answer.bytes).filter fun bytes => decide (bytes ≠ [])

/-- `receive` gets the segment into the buffer of its caller and returns `value`. -/
def Receives (segment : List UInt8) (buffer : Int → UInt8) (calls : List ReceiveCall)
    (value : Int) : Prop :=
  ∃ final, receive.run (receiveEntry segment.length buffer) calls =
      some (.returned final (.returned value)) ∧
    load final.buffer 0 segment.length = segment

theorem Receives.unique {segment : List UInt8} {buffer : Int → UInt8}
    {calls : List ReceiveCall} {first second : Int}
    (once : Receives segment buffer calls first)
    (again : Receives segment buffer calls second) : first = second := by
  obtain ⟨_, run, _⟩ := once
  obtain ⟨_, rerun, _⟩ := again
  rw [run] at rerun
  cases rerun
  rfl

theorem receivePossible_of_room {loop : ReceiveLoop} {call : ReceiveCall}
    (contract : ∀ revents, call.poll.answer = .ready revents → revents.reportsInput = true)
    (room : call.recv.answer.bytes.length ≤ loop.nLeft) :
    receivePossible loop call = true := by
  rw [receivePossible, decide_eq_true room, Bool.true_and]
  cases answer : call.poll.answer with
  | failed => rfl
  | timedOut => rfl
  | ready revents => exact contract revents answer

theorem receiveWait_resumes {poll : Answered PollAnswer} (resumes : poll.resumes = true)
    (loop : ReceiveLoop) : ∃ err, receiveWait poll loop = .again { loop with err := err } := by
  unfold Answered.resumes at resumes
  unfold receiveWait
  cases answer : poll.answer with
  | failed =>
      simp only [answer, decide_eq_true_eq] at resumes
      exact ⟨poll.errno, if_pos resumes⟩
  | timedOut => simp [answer] at resumes
  | ready revents =>
      simp only [answer] at resumes
      exact ⟨loop.err, if_pos resumes⟩

/-- A pass between two chunks only touches `nread` and `err`; a chunk is the
value of `nread` when its pass is over. -/
theorem receivePass_progresses {call : ReceiveCall} (progresses : call.progresses = true)
    (loop : ReceiveLoop) :
    ∃ next, receivePass loop call = .again next ∧
      (call.recv.answer.bytes ≠ [] → next.nread = call.recv.answer.bytes.length) := by
  unfold ReceiveCall.progresses at progresses
  cases answer : call.recv.answer with
  | failed =>
      rw [receivePass_of_failed loop answer]
      by_cases interrupted : call.recv.errno = some .EINTR
      · exact ⟨_, if_pos interrupted, fun nonempty => absurd rfl nonempty⟩
      · rw [if_neg interrupted]
        simp only [answer, interrupted, decide_false, Bool.false_or, Bool.and_eq_true,
          decide_eq_true_eq] at progresses
        rw [if_pos progresses.1]
        obtain ⟨err, waits⟩ := receiveWait_resumes progresses.2 _
        exact ⟨_, waits, fun nonempty => absurd rfl nonempty⟩
  | received bytes =>
      simp only [answer, decide_eq_true_eq] at progresses
      have positive : ¬ ((bytes.length : Nat) : Int) ≤ 0 := by
        have := List.length_pos_of_ne_nil progresses.1
        omega
      refine ⟨receiveAdvance (receiveFromSocket loop call.recv), ?_, fun _ => ?_⟩
      · simp only [receivePass, receiveFromSocket, answer, RecvAnswer.value, if_neg positive]
      · simp only [receiveAdvance, receiveFromSocket, answer, RecvAnswer.value, RecvAnswer.bytes]

theorem Filled.fragment {length : Nat} {taken : List UInt8} {loop : ReceiveLoop}
    {call : ReceiveCall} (filled : Filled length taken loop) (fits : length < 2 ^ 64)
    (continues : 0 < loop.nLeft) (possible : receivePossible loop call = true)
    (progresses : call.progresses = true) :
    ∃ next, receivePass loop call = .again next ∧
      Filled length (taken ++ call.recv.answer.bytes) next ∧
      (call.recv.answer.bytes ≠ [] → next.nread = call.recv.answer.bytes.length) := by
  obtain ⟨next, again, count⟩ := receivePass_progresses progresses loop
  rcases receivePass_filled fits filled continues possible with
    ⟨_, same, kept⟩ | ⟨_, _, done, _⟩
  · rw [again] at same
    cases same
    exact ⟨next, again, kept, count⟩
  · rw [again] at done
    cases done

/-- As long as a part of the segment is missing, the loop goes round. -/
theorem receive_running {length : Nat} (positive : 0 < length) (fits : length < 2 ^ 64)
    (buffer : Int → UInt8) (calls : List ReceiveCall)
    (progresses : ∀ call ∈ calls, call.progresses = true)
    (contract : ∀ call ∈ calls, ∀ revents, call.poll.answer = .ready revents →
      revents.reportsInput = true)
    (short : (takenBytes calls).length < length) :
    ∃ loop, receive.run (receiveEntry length buffer) calls = some (.running loop) ∧
      Filled length (takenBytes calls) loop := by
  induction calls using List.reverseRecOn with
  | nil =>
      have entry := filled_receiveEntry positive fits buffer
      have remaining := entry.remaining
      refine ⟨receiveEntry length buffer, Loop.run_nil_of_continues _ ?_, entry⟩
      simp only [List.length_nil, Nat.add_zero] at remaining
      simpa [receive, remaining] using positive
  | append_singleton calls call ih =>
      rw [takenBytes_concat, List.length_append] at short
      obtain ⟨loop, run, filled⟩ := ih
        (fun earlier member => progresses earlier (by simp [member]))
        (fun earlier member => contract earlier (by simp [member])) (by omega)
      have remaining := filled.remaining
      have possible : receivePossible loop call = true :=
        receivePossible_of_room (contract call (by simp)) (by omega)
      obtain ⟨next, again, kept, _⟩ :=
        filled.fragment fits (by omega) possible (progresses call (by simp))
      rw [takenBytes_concat]
      refine ⟨next, ?_, kept⟩
      rw [Loop.run_concat_of_running run possible,
        show receive.body loop call = .again next from again]
      have left := kept.remaining
      rw [List.length_append] at left
      apply congrArg some
      apply Loop.head_of_continues
      simp only [receive, decide_eq_true_eq]
      omega

/-- However the segment is split, all of it gets into the buffer; the value
returned is the length of the last chunk. -/
theorem receive_returns_last_chunk {segment : List UInt8} (nonempty : segment ≠ [])
    (fits : segment.length < 2 ^ 64) (buffer : Int → UInt8) {calls : List ReceiveCall}
    {last : ReceiveCall} (fragments : Fragments segment (calls ++ [last])) :
    Receives segment buffer (calls ++ [last]) last.recv.answer.bytes.length := by
  have lastChunk : last.recv.answer.bytes ≠ [] := fragments.lastChunk last (by simp)
  have arrives : takenBytes calls ++ last.recv.answer.bytes = segment := by
    rw [← takenBytes_concat]
    exact fragments.arrives
  have lengths : (takenBytes calls).length + last.recv.answer.bytes.length = segment.length := by
    rw [← List.length_append, arrives]
  have chunkPositive := List.length_pos_of_ne_nil lastChunk
  obtain ⟨loop, run, filled⟩ := receive_running
    (List.length_pos_of_ne_nil nonempty) fits buffer calls
    (fun call member => fragments.progresses call (by simp [member]))
    (fun call member => fragments.contract call (by simp [member])) (by omega)
  have remaining := filled.remaining
  have possible : receivePossible loop last = true :=
    receivePossible_of_room (fragments.contract last (by simp)) (by omega)
  obtain ⟨final, again, kept, count⟩ :=
    filled.fragment fits (by omega) possible (fragments.progresses last (by simp))
  rw [arrives] at kept
  have stops : receive.continues final = false := by
    have := kept.remaining
    simp only [receive, decide_eq_false_iff_not]
    omega
  refine ⟨final, ?_, kept.contents⟩
  rw [Loop.run_concat_of_running run possible,
    show receive.body loop last = .again final from again, Loop.afterPass,
    Loop.head_of_stops _ stops, ← count lastChunk]
  rfl

theorem chunks_eq_nil_iff (calls : List ReceiveCall) :
    chunks calls = [] ↔ takenBytes calls = [] := by
  rw [chunks, takenBytes, List.filter_eq_nil_iff, List.flatMap_eq_nil_iff]
  simp

theorem chunks_concat {calls : List ReceiveCall} {last : ReceiveCall}
    (chunk : last.recv.answer.bytes ≠ []) :
    chunks (calls ++ [last]) = chunks calls ++ [last.recv.answer.bytes] := by
  simp [chunks, chunk]

/-- The two runs fill the buffer with the segment and return its length. -/
def ReceivesAlike (segment : List UInt8) (buffer₁ buffer₂ : Int → UInt8)
    (calls₁ calls₂ : List ReceiveCall) : Prop :=
  ∃ value₁ value₂, Receives segment buffer₁ calls₁ value₁ ∧
    Receives segment buffer₂ calls₂ value₂ ∧ value₁ = value₂ ∧ value₁ = segment.length

theorem receives_length_iff {segment : List UInt8} (nonempty : segment ≠ [])
    (fits : segment.length < 2 ^ 64) (buffer : Int → UInt8) {calls : List ReceiveCall}
    (fragments : Fragments segment calls) :
    Receives segment buffer calls segment.length ↔ (chunks calls).length = 1 := by
  rcases List.eq_nil_or_concat calls with rfl | ⟨before, last, rfl⟩
  · exact absurd fragments.arrives.symm nonempty
  · rw [List.concat_eq_append] at fragments ⊢
    have lastChunk : last.recv.answer.bytes ≠ [] := fragments.lastChunk last (by simp)
    have returned := receive_returns_last_chunk nonempty fits buffer fragments
    have lengths : (takenBytes before).length + last.recv.answer.bytes.length =
        segment.length := by
      rw [← List.length_append, ← takenBytes_concat, fragments.arrives]
    have single : (chunks (before ++ [last])).length = 1 ↔ takenBytes before = [] := by
      rw [chunks_concat lastChunk, ← chunks_eq_nil_iff, List.length_append,
        List.length_singleton, Nat.add_eq_right, List.length_eq_zero_iff]
    rw [single, ← List.length_eq_zero_iff]
    constructor
    · intro whole
      have := whole.unique returned
      omega
    · intro whole
      rw [whole, Nat.zero_add] at lengths
      rwa [← lengths]

/-- Two ways of splitting a segment give the length of the segment exactly when
neither of them splits it. -/
theorem receive_fragmentation_iff (segment : List UInt8) (nonempty : segment ≠ [])
    (fits : segment.length < 2 ^ 64) (buffer₁ buffer₂ : Int → UInt8)
    (calls₁ calls₂ : List ReceiveCall) (fragments₁ : Fragments segment calls₁)
    (fragments₂ : Fragments segment calls₂) :
    ReceivesAlike segment buffer₁ buffer₂ calls₁ calls₂ ↔
      (chunks calls₁).length = 1 ∧ (chunks calls₂).length = 1 := by
  rw [← receives_length_iff nonempty fits buffer₁ fragments₁,
    ← receives_length_iff nonempty fits buffer₂ fragments₂]
  constructor
  · rintro ⟨value₁, value₂, received₁, received₂, rfl, rfl⟩
    exact ⟨received₁, received₂⟩
  · rintro ⟨received₁, received₂⟩
    exact ⟨_, _, received₁, received₂, rfl, rfl⟩

def oneChunk : List ReceiveCall :=
  [⟨⟨.failed, some .EAGAIN⟩, ⟨.ready { POLLIN := true }, none⟩⟩,
    ⟨⟨.received [1, 2], none⟩, ⟨.timedOut, none⟩⟩]

def twoChunks : List ReceiveCall :=
  [⟨⟨.received [1], none⟩, ⟨.timedOut, none⟩⟩,
    ⟨⟨.failed, some .EINTR⟩, ⟨.timedOut, none⟩⟩,
    ⟨⟨.received [2], none⟩, ⟨.timedOut, none⟩⟩]

theorem fragments_oneChunk : Fragments [1, 2] oneChunk where
  progresses := by decide
  contract := by simp [oneChunk, Revents.reportsInput]
  arrives := rfl
  lastChunk := by simp [oneChunk, RecvAnswer.bytes]

theorem fragments_twoChunks : Fragments [1, 2] twoChunks where
  progresses := by decide
  contract := by simp [twoChunks]
  arrives := rfl
  lastChunk := by simp [twoChunks, RecvAnswer.bytes]

theorem receive_fragmentation_iff_oneChunk :
    ReceivesAlike [1, 2] (fun _ => 0) (fun _ => 0) oneChunk oneChunk ↔
      (chunks oneChunk).length = 1 ∧ (chunks oneChunk).length = 1 :=
  receive_fragmentation_iff [1, 2] (by decide) (by decide) _ _ _ _
    fragments_oneChunk fragments_oneChunk

/-- Two bytes that come in two chunks: `receive` returns 1. -/
theorem receive_returns_count_of_last_recv :
    Fragments [1, 2] oneChunk ∧ Fragments [1, 2] twoChunks ∧
      Receives [1, 2] (fun _ => 0) oneChunk 2 ∧ Receives [1, 2] (fun _ => 0) twoChunks 1 ∧
      ¬ ReceivesAlike [1, 2] (fun _ => 0) (fun _ => 0) oneChunk twoChunks := by
  have whole : Receives [1, 2] (fun _ => 0) oneChunk 2 := ⟨_, rfl, rfl⟩
  have split : Receives [1, 2] (fun _ => 0) twoChunks 1 := ⟨_, rfl, rfl⟩
  refine ⟨fragments_oneChunk, fragments_twoChunks, whole, split, ?_⟩
  rintro ⟨value₁, value₂, received₁, received₂, same, _⟩
  rw [received₁.unique whole, received₂.unique split] at same
  exact absurd same (by decide)

end TlsClient
