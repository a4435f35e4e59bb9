import TlsClient.SystemCalls
import TlsClient.IndexedMemory

/-!
# `TransportInterface::receive` and `receive_message`

The receive loop fills a buffer through a moving pointer.  Its variable `nread`
is at once the count of the last `recv` and the error flag of the loop, and
`receive_message` judges success by its sign.
-/

namespace TlsClient

open EventDriven IndexedMemory

/-- What `recv` returns: -1, or the bytes it takes off the socket; no byte at
all means that the peer has closed the connection. -/
inductive RecvAnswer
  | failed
  | received (bytes : List UInt8)
  deriving DecidableEq, Repr

namespace RecvAnswer

def value : RecvAnswer → Int
  | failed => -1
  | received bytes => bytes.length

def bytes : RecvAnswer → List UInt8
  | failed => []
  | received bytes => bytes

end RecvAnswer

structure ReceiveCall where
  recv : Answered RecvAnswer
  poll : Answered PollAnswer
  deriving DecidableEq, Repr

/-- The variables of `receive`.  `data` is relative to the start of the buffer
of the caller, and `buffer` is the memory around it. -/
structure ReceiveLoop where
  nLeft : Nat
  data : Int
  nread : Int
  err : Option Errno
  buffer : Int → UInt8

/-- `receive_from_socket`: `recv` writes at `data`, and `err` is set when it
returns no byte. -/
def receiveFromSocket (loop : ReceiveLoop) (recv : Answered RecvAnswer) : ReceiveLoop :=
  { loop with
    nread := recv.answer.value
    err := if recv.answer.value ≤ 0 then recv.errno else loop.err
    buffer := store loop.buffer loop.data recv.answer.bytes }

def receiveAdvance (loop : ReceiveLoop) : ReceiveLoop :=
  { loop with nLeft := toSize (loop.nLeft - loop.nread), data := loop.data + loop.nread }

/-- `nread = -1; break`. -/
def receiveBreak (loop : ReceiveLoop) : Pass ReceiveLoop (Ended Int) :=
  .done { loop with nread := -1 } (.returned (-1))

/-- The wait for data, taken after `EAGAIN`.  The last branch falls through to
the update at the end of the body. -/
def receiveWait (poll : Answered PollAnswer) (loop : ReceiveLoop) :
    Pass ReceiveLoop (Ended Int) :=
  match poll.answer with
  | .failed =>
      if poll.errno = some .EINTR then .again { loop with err := poll.errno }
      else receiveBreak { loop with err := poll.errno }
  | .timedOut => receiveBreak loop
  | .ready revents =>
      if revents.POLLIN then .again loop
      else if revents.POLLNVAL then receiveBreak loop
      else if revents.POLLERR then receiveBreak loop
      else if revents.POLLHUP then receiveBreak loop
      else .again (receiveAdvance loop)

def receivePass (loop : ReceiveLoop) (call : ReceiveCall) : Pass ReceiveLoop (Ended Int) :=
  let read := receiveFromSocket loop call.recv
  if read.nread ≤ 0 then
    if read.nread = 0 then .done read .exited
    else if read.err = some .EINTR then .again read
    else if read.err = some .EAGAIN then receiveWait call.poll read
    else .done { read with nread := -1 } .exited
  else .again (receiveAdvance read)

def Revents.reportsInput (revents : Revents) : Bool :=
  revents.POLLIN || revents.POLLERR || revents.POLLHUP || revents.POLLNVAL

/-- `recv` returns at most as many bytes as it is asked for.  `::poll` reports
a descriptor ready only with the requested bit or one of the three it always
reports. -/
def receivePossible (loop : ReceiveLoop) (call : ReceiveCall) : Bool :=
  decide (call.recv.answer.bytes.length ≤ loop.nLeft) &&
    match call.poll.answer with
    | .ready revents => revents.reportsInput
    | _ => true

/-- `receive`, from the first test of its loop on. -/
def receive : Loop ReceiveLoop ReceiveCall (Ended Int) where
  continues loop := decide (loop.nLeft > 0)
  fallsOut loop := .returned loop.nread
  body := receivePass
  possible := receivePossible

def receiveEntry (length : Int) (buffer : Int → UInt8) : ReceiveLoop where
  nLeft := toSize length
  data := 0
  nread := 0
  err := none
  buffer := buffer

/-- `receive_message` turns the value of `receive` into a success flag. -/
def receiveMessage : Ended Int → Ended Bool
  | .returned ret => .returned (decide (ret > 0))
  | .exited => .exited

def takenBytes (calls : List ReceiveCall) : List UInt8 :=
  calls.flatMap fun call => call.recv.answer.bytes

@[simp]
theorem takenBytes_concat (past : List ReceiveCall) (call : ReceiveCall) :
    takenBytes (past ++ [call]) = takenBytes past ++ call.recv.answer.bytes := by
  simp [takenBytes]

/-- The loop invariant: the bytes taken so far stand at the start of the buffer,
and pointer and remaining count are where they end. -/
structure Filled (length : Nat) (taken : List UInt8) (loop : ReceiveLoop) : Prop where
  remaining : loop.nLeft + taken.length = length
  position : loop.data = taken.length
  contents : load loop.buffer 0 taken.length = taken
  progress : loop.nLeft = 0 → 0 < loop.nread

def ReceiveEnds (length : Nat) (taken : List UInt8) (final : ReceiveLoop) :
    Ended Int → Prop
  | .returned value =>
      (value = -1 ∧ taken.length < length) ∨
        (0 < value ∧ taken.length = length ∧ load final.buffer 0 length = taken)
  | .exited => True

theorem receiveWait_cases (poll : Answered PollAnswer) (loop : ReceiveLoop) :
    (∃ err, receiveWait poll loop = .again { loop with err := err } ∨
        receiveWait poll loop = receiveBreak { loop with err := err }) ∨
      ∃ revents, poll.answer = .ready revents ∧ revents.reportsInput = false ∧
        receiveWait poll loop = .again (receiveAdvance loop) := by
  unfold receiveWait
  cases answer : poll.answer with
  | failed =>
      refine Or.inl ⟨poll.errno, ?_⟩
      by_cases interrupted : poll.errno = some .EINTR
      · exact Or.inl (if_pos interrupted)
      · exact Or.inr (if_neg interrupted)
  | timedOut => exact Or.inl ⟨loop.err, Or.inr rfl⟩
  | ready revents =>
      by_cases reports : revents.reportsInput = true
      · left
        use loop.err
        simp only [ite_reportsError]
        by_cases readable : revents.POLLIN = true
        · exact Or.inl (if_pos readable)
        · have error : revents.reportsError = true := by
            simpa [Revents.reportsInput, Revents.reportsError, readable, or_comm, or_left_comm]
              using reports
          right
          rw [if_neg readable, if_pos error]
      · right
        have quiet : revents.reportsInput = false := by simpa using reports
        refine ⟨revents, rfl, quiet, ?_⟩
        simp only [Revents.reportsInput, Bool.or_eq_false_iff] at quiet
        simp [quiet.1.1.1, quiet.1.1.2, quiet.1.2, quiet.2]

theorem receivePass_of_failed (loop : ReceiveLoop) {call : ReceiveCall}
    (failed : call.recv.answer = .failed) :
    receivePass loop call =
      if call.recv.errno = some .EINTR then
        .again { loop with nread := -1, err := call.recv.errno }
      else if call.recv.errno = some .EAGAIN then
        receiveWait call.poll { loop with nread := -1, err := call.recv.errno }
      else .done { loop with nread := -1, err := call.recv.errno } .exited := by
  simp [receivePass, receiveFromSocket, failed, RecvAnswer.value, RecvAnswer.bytes]

theorem receivePass_cases {loop : ReceiveLoop} {call : ReceiveCall}
    (possible : receivePossible loop call = true) :
    (call.recv.answer = .failed ∧ ∃ err,
      receivePass loop call = .again { loop with nread := -1, err := err } ∨
        receivePass loop call = receiveBreak { loop with nread := -1, err := err }) ∨
    (∃ final, receivePass loop call = .done final .exited) ∨
    (call.recv.answer.bytes ≠ [] ∧ call.recv.answer.bytes.length ≤ loop.nLeft ∧
      receivePass loop call =
        .again (receiveAdvance
          { loop with
            nread := call.recv.answer.bytes.length
            buffer := store loop.buffer loop.data call.recv.answer.bytes })) := by
  have fits : call.recv.answer.bytes.length ≤ loop.nLeft := by
    simp only [receivePossible, Bool.and_eq_true, decide_eq_true_eq] at possible
    exact possible.1
  cases answer : call.recv.answer with
  | failed =>
      rw [receivePass_of_failed loop answer]
      by_cases interrupted : call.recv.errno = some .EINTR
      · exact Or.inl ⟨rfl, call.recv.errno, Or.inl (if_pos interrupted)⟩
      rw [if_neg interrupted]
      by_cases blocked : call.recv.errno = some .EAGAIN
      · rw [if_pos blocked]
        rcases receiveWait_cases call.poll _ with
          ⟨err, waits⟩ | ⟨revents, ready, quiet, _⟩
        · exact Or.inl ⟨rfl, err, waits⟩
        · simp [receivePossible, ready, quiet] at possible
      · rw [if_neg blocked]
        exact Or.inr (Or.inl ⟨_, rfl⟩)
  | received bytes =>
      rw [answer] at fits
      cases bytes with
      | nil =>
          right; left
          exact ⟨receiveFromSocket loop call.recv,
            by simp [receivePass, receiveFromSocket, answer, RecvAnswer.value]⟩
      | cons byte bytes =>
          right; right
          refine ⟨by simp [RecvAnswer.bytes], fits, ?_⟩
          have positive : ¬ (((byte :: bytes).length : Nat) : Int) ≤ 0 := by simp
          simp only [receivePass, receiveFromSocket, answer, RecvAnswer.value,
            RecvAnswer.bytes, if_neg positive]

theorem filled_receiveEntry {length : Nat} (positive : 0 < length) (fits : length < 2 ^ 64)
    (buffer : Int → UInt8) : Filled length [] (receiveEntry length buffer) := by
  have whole : toSize length = length := toSize_of_lt (by omega)
  constructor
  · simpa [receiveEntry] using whole
  · rfl
  · rfl
  · simp only [receiveEntry, whole]
    omega

theorem Filled.advance {length : Nat} {taken chunk : List UInt8} {loop : ReceiveLoop}
    (fits : length < 2 ^ 64) (before : Filled length taken loop)
    (nonempty : chunk ≠ []) (room : chunk.length ≤ loop.nLeft) :
    Filled length (taken ++ chunk) (receiveAdvance
      { loop with nread := chunk.length, buffer := store loop.buffer loop.data chunk }) := by
  have remaining := before.remaining
  have left : toSize ((loop.nLeft : Int) - chunk.length) = loop.nLeft - chunk.length := by
    rw [← Int.ofNat_sub room]
    exact toSize_of_lt (by omega)
  constructor
  · simp only [receiveAdvance, left, List.length_append]
    omega
  · simp only [receiveAdvance, before.position, List.length_append, Int.natCast_add]
  · have appended := load_store_append loop.buffer 0 taken.length chunk
    rw [before.contents, Int.zero_add] at appended
    simpa only [receiveAdvance, before.position, List.length_append] using appended
  · intro _
    have := List.length_pos_of_ne_nil nonempty
    simp only [receiveAdvance]
    omega

theorem receivePass_filled {length : Nat} {taken : List UInt8} {loop : ReceiveLoop}
    {call : ReceiveCall} (fits : length < 2 ^ 64) (before : Filled length taken loop)
    (continues : 0 < loop.nLeft) (possible : receivePossible loop call = true) :
    (∃ next, receivePass loop call = .again next ∧
        Filled length (taken ++ call.recv.answer.bytes) next) ∨
      ∃ final ended, receivePass loop call = .done final ended ∧
        ReceiveEnds length (taken ++ call.recv.answer.bytes) final ended := by
  rcases receivePass_cases possible with ⟨failed, err, outcome⟩ | ⟨final, exits⟩ |
    ⟨nonempty, room, advances⟩
  · have nothing : call.recv.answer.bytes = [] := by rw [failed]; rfl
    rw [nothing, List.append_nil]
    rcases outcome with waits | breaks
    · left
      refine ⟨_, waits, before.remaining, before.position, before.contents, ?_⟩
      intro finished
      change loop.nLeft = 0 at finished
      omega
    · right
      refine ⟨_, _, breaks, Or.inl ⟨rfl, ?_⟩⟩
      have := before.remaining
      omega
  · exact Or.inr ⟨final, .exited, exits, trivial⟩
  · exact Or.inl ⟨_, advances, before.advance fits nonempty room⟩

theorem Filled.ends {length : Nat} {taken : List UInt8} {loop : ReceiveLoop}
    (filled : Filled length taken loop) (stops : receive.continues loop = false) :
    ReceiveEnds length taken loop (receive.fallsOut loop) := by
  have finished : loop.nLeft = 0 := by simpa [receive] using stops
  have whole : taken.length = length := by
    have := filled.remaining
    omega
  exact Or.inr ⟨filled.progress finished, whole, whole ▸ filled.contents⟩

theorem receive_afterPass {length : Nat} {taken : List UInt8} {loop : ReceiveLoop}
    {call : ReceiveCall} (fits : length < 2 ^ 64) (before : Filled length taken loop)
    (continues : receive.continues loop = true)
    (possible : receivePossible loop call = true) :
    receive.Satisfies (Filled length (taken ++ call.recv.answer.bytes))
      (ReceiveEnds length (taken ++ call.recv.answer.bytes))
      (receive.afterPass (receivePass loop call)) := by
  rcases receivePass_filled fits before (by simpa [receive] using continues) possible with
    ⟨next, again, kept⟩ | ⟨final, ended, done, ends⟩
  · exact Loop.satisfies_of_again again kept kept.ends
  · exact Loop.satisfies_of_done done ends

theorem receive_satisfies {length : Nat} (positive : 0 < length) (fits : length < 2 ^ 64)
    {buffer : Int → UInt8} {events : List ReceiveCall}
    {control : Control ReceiveLoop (Ended Int)}
    (run : receive.run (receiveEntry length buffer) events = some control) :
    receive.Satisfies (Filled length (takenBytes events))
      (ReceiveEnds length (takenBytes events)) control := by
  have entry := filled_receiveEntry positive fits buffer
  refine Loop.run_satisfies (fun past => Filled length (takenBytes past))
    (fun past => ReceiveEnds length (takenBytes past)) entry entry.ends ?_ run
  intro past loop call filled continues possible
  rw [takenBytes_concat]
  exact receive_afterPass fits filled continues possible

end TlsClient
