import TlsClient.EventDriven
import Mathlib.Algebra.Group.Nat.Defs
import Mathlib.Algebra.Group.Int.Defs

/-!
# Answers of the operating system

The transport talks to the operating system through a few calls and looks at
three things: what a call returned, the value of `errno` behind it, and, for
`::poll`, the bits of `revents`.  A system call is represented by such an
answer; which answers are possible is said where the call is used.
-/

namespace TlsClient

/-- The error numbers the sources compare with; `other` is any further one.
A variable holding 0 is `none : Option Errno`. -/
inductive Errno
  | EINTR
  | EAGAIN
  | EINPROGRESS
  | EALREADY
  | ECONNABORTED
  | EPROTO
  | other (number : Nat)
  deriving DecidableEq, Repr

structure Revents where
  POLLIN : Bool := false
  POLLOUT : Bool := false
  POLLERR : Bool := false
  POLLHUP : Bool := false
  POLLNVAL : Bool := false
  deriving DecidableEq, Repr

/-- The three bits that `::poll` reports unasked. -/
def Revents.reportsError (revents : Revents) : Bool :=
  revents.POLLNVAL || revents.POLLERR || revents.POLLHUP

inductive PollAnswer
  | failed
  | timedOut
  | ready (revents : Revents)
  deriving DecidableEq, Repr

/-- The answer to a system call and the value it leaves in `errno`.  A call
that succeeds leaves an older value there. -/
structure Answered (Answer : Type) where
  answer : Answer
  errno : Option Errno
  deriving DecidableEq, Repr

/-- A call returns to its caller unless the process ends in it: by `exit`, or by a
signal that nobody handles. -/
inductive Ended (Value : Type)
  | returned (value : Value)
  | exited
  deriving DecidableEq, Repr

/-- `CLIENT` is 0 and `SERVER` is 1 in `transportinterface.h`. -/
inductive TransportType
  | client
  | server
  deriving DecidableEq, Repr

/-- `m_protocol`: 0 is TCP and 1 is SCTP. -/
inductive Protocol
  | tcp
  | sctp
  deriving DecidableEq, Repr

/-- Conversion of a wider signed value to `int`. -/
def toInt (value : Int) : Int :=
  value.bmod (2 ^ 32)

/-- Conversion of a signed value to the 64-bit `size_t`. -/
def toSize (value : Int) : Nat :=
  (value % 2 ^ 64).toNat

/-- The sources test the three bits one after the other, with one outcome. -/
theorem ite_reportsError {Outcome : Type} (revents : Revents) (fails goesOn : Outcome) :
    (if revents.POLLNVAL then fails else if revents.POLLERR then fails
      else if revents.POLLHUP then fails else goesOn) =
      if revents.reportsError then fails else goesOn := by
  cases invalid : revents.POLLNVAL with
  | true => simp [Revents.reportsError, invalid]
  | false =>
      cases error : revents.POLLERR with
      | true => simp [Revents.reportsError, invalid, error]
      | false => simp [Revents.reportsError, invalid, error]

theorem toInt_of_lt {value : Nat} (fits : value < 2 ^ 31) : toInt value = value := by
  unfold toInt
  rw [Int.bmod_eq_of_le] <;> omega

theorem toSize_of_lt {value : Nat} (fits : value < 2 ^ 64) : toSize value = value := by
  have reduced : (value : Int) % 2 ^ 64 = value := by omega
  rw [toSize, reduced, Int.toNat_natCast]

end TlsClient
