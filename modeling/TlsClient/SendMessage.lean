import TlsClient.SystemCalls
import Mathlib.Data.List.Range

/-!
# `TransportInterface::send_message`

The send loop keeps a pointer into the message and a remaining count.  Both
are advanced by the value `send_to_socket` is used for, and that function ends
without a `return` statement: its value is unspecified, so it is one of the
answers the environment gives.
-/

namespace TlsClient

open EventDriven

/-- What `::send` returns: -1, or the number of bytes it accepted. -/
inductive SendAnswer
  | failed
  | accepted (count : Nat)
  deriving DecidableEq, Repr

namespace SendAnswer

def value : SendAnswer → Int
  | failed => -1
  | accepted count => count

def taken : SendAnswer → Nat
  | failed => 0
  | accepted count => count

end SendAnswer

/-- The environment's part in one pass through the loop of `send_message`.
`poll` is looked at on the would-block branch only. -/
structure SendCall where
  send : Answered SendAnswer
  /-- The value the caller of `send_to_socket` finds. -/
  unspecified : Int
  poll : Answered PollAnswer
  deriving DecidableEq, Repr

/-- One `::send` as the kernel sees it, and the count by which the loop then
advances.  `offset` is relative to the start of the message. -/
structure SendRecord where
  offset : Nat
  requested : Nat
  accepted : Nat
  advanced : Int
  deriving DecidableEq, Repr

structure SendLoop where
  nLeft : Int
  offset : Nat
  err : Option Errno
  sends : List SendRecord
  deriving DecidableEq, Repr

/-- `send_to_socket` receives the remaining count as a `const int&` and hands
it to `::send` as a `size_t`. -/
def requestedCount (nLeft : Int) : Nat :=
  toSize (toInt nLeft)

/-- `send_to_socket`: the value its caller finds, and `err`.  The result of
`::send` is stored in an `int` and never returned. -/
def sendToSocket (call : SendCall) (err : Option Errno) : Int × Option Errno :=
  let retValue := toInt call.send.answer.value
  (call.unspecified, if retValue ≤ 0 then call.send.errno else err)

def advance (ret : Int) : Int :=
  if ret ≤ 0 then 0 else ret

def sendWait (poll : Answered PollAnswer) (loop : SendLoop) : Pass SendLoop Bool :=
  match poll.answer with
  | .failed =>
      if poll.errno = some .EINTR then
        .again { loop with err := poll.errno }
      else
        .done { loop with err := poll.errno } false
  | .timedOut => .done loop false
  | .ready revents =>
      if revents.POLLOUT then .again loop
      else if revents.POLLNVAL then .done loop false
      else if revents.POLLERR then .done loop false
      else if revents.POLLHUP then .done loop false
      else .again loop

def sendRecord (loop : SendLoop) (call : SendCall) : SendRecord where
  offset := loop.offset
  requested := requestedCount loop.nLeft
  accepted := call.send.answer.taken
  advanced := advance call.unspecified

/-- One pass through the body of the `while` loop of `send_message`. -/
def sendPass (loop : SendLoop) (call : SendCall) : Pass SendLoop Bool :=
  let (ret, err) := sendToSocket call loop.err
  let sent := { loop with err := err, sends := loop.sends ++ [sendRecord loop call] }
  if ret ≤ 0 then
    if err = some .EINTR then .again sent
    else if err = some .EAGAIN then sendWait call.poll sent
    else .done sent false
  else
    .again { sent with nLeft := loop.nLeft - ret, offset := loop.offset + ret.toNat }

/-- `::send` accepts between 1 and the requested number of bytes.  The
unspecified value is some 64-bit `ssize_t`. -/
def sendPossible (loop : SendLoop) (call : SendCall) : Bool :=
  (match call.send.answer with
    | .failed => true
    | .accepted count => decide (1 ≤ count ∧ count ≤ requestedCount loop.nLeft)) &&
  decide (-2 ^ 63 ≤ call.unspecified ∧ call.unspecified < 2 ^ 63)

/-- `send_message`, from the first test of its loop on. -/
def sendMessage : Loop SendLoop SendCall Bool where
  continues loop := decide (loop.nLeft > 0)
  fallsOut _ := true
  body := sendPass
  possible := sendPossible

def sendEntry (length : Int) : SendLoop where
  nLeft := length
  offset := 0
  err := none
  sends := []

def acceptedPositions (sends : List SendRecord) : List Nat :=
  sends.flatMap fun call => List.range' call.offset call.accepted

@[simp]
theorem acceptedPositions_append (first second : List SendRecord) :
    acceptedPositions (first ++ second) =
      acceptedPositions first ++ acceptedPositions second := by
  simp [acceptedPositions]

@[simp]
theorem acceptedPositions_singleton (call : SendRecord) :
    acceptedPositions [call] = List.range' call.offset call.accepted := by
  simp [acceptedPositions]

/-- `send_to_socket` yields what a `return ret_value` would yield, as far as
the loop can tell. -/
def SendCall.Agrees (call : SendCall) : Prop :=
  match call.send.answer with
  | .failed => call.unspecified ≤ 0
  | .accepted count => call.unspecified = count

instance (call : SendCall) : Decidable call.Agrees := by
  unfold SendCall.Agrees
  split <;> infer_instance

theorem sendWait_cases (poll : Answered PollAnswer) (loop : SendLoop) :
    ∃ err, sendWait poll loop = .again { loop with err := err } ∨
      sendWait poll loop = .done { loop with err := err } false := by
  unfold sendWait
  cases poll.answer with
  | failed =>
      use poll.errno
      by_cases interrupted : poll.errno = some .EINTR
      · exact Or.inl (if_pos interrupted)
      · exact Or.inr (if_neg interrupted)
  | timedOut => exact ⟨loop.err, Or.inr rfl⟩
  | ready revents =>
      use loop.err
      simp only [ite_reportsError]
      by_cases writable : revents.POLLOUT = true
      · exact Or.inl (if_pos writable)
      · rw [if_neg writable]
        cases revents.reportsError with
        | true => exact Or.inr rfl
        | false => exact Or.inl rfl

theorem sendPass_cases (loop : SendLoop) (call : SendCall) :
    (call.unspecified ≤ 0 ∧ ∃ err,
      sendPass loop call =
          .again { loop with err := err, sends := loop.sends ++ [sendRecord loop call] } ∨
        sendPass loop call =
          .done { loop with err := err, sends := loop.sends ++ [sendRecord loop call] } false) ∨
    (0 < call.unspecified ∧
      sendPass loop call = .again
        { nLeft := loop.nLeft - call.unspecified
          offset := loop.offset + call.unspecified.toNat
          err := (sendToSocket call loop.err).2
          sends := loop.sends ++ [sendRecord loop call] }) := by
  have found : (sendToSocket call loop.err).1 = call.unspecified := rfl
  unfold sendPass
  generalize sendToSocket call loop.err = reply at found ⊢
  obtain ⟨ret, err⟩ := reply
  obtain rfl : ret = call.unspecified := found
  by_cases nonpositive : call.unspecified ≤ 0
  · left
    refine ⟨nonpositive, ?_⟩
    simp only [if_pos nonpositive]
    split
    · exact ⟨err, Or.inl rfl⟩
    split
    · exact sendWait_cases call.poll _
    · exact ⟨err, Or.inr rfl⟩
  · right
    exact ⟨by omega, by simp only [if_neg nonpositive]⟩

end TlsClient
