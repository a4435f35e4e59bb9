import TlsClient.EventDriven

/-!
# Transfer through a bounded queue

The purpose of a byte channel in its own terms: one side pushes chunks, the
other side pops chunks, and neither knows where the chunks of the other begin.
What has been pushed is what has been popped followed by what is queued, so two
sides that agree on the lengths of the messages agree on the messages.
-/

namespace FifoTransfer

open EventDriven

variable {α : Type*}

structure Transfer (α : Type*) where
  pushed : List α
  queue : List α
  popped : List α

inductive Action (α : Type*)
  | push (chunk : List α)
  | pop (count : Nat)

def empty : Transfer α :=
  ⟨[], [], []⟩

def step (capacity : Nat) (transfer : Transfer α) : Action α → Option (Transfer α)
  | .push chunk =>
      if transfer.queue.length + chunk.length ≤ capacity then
        some { transfer with
          pushed := transfer.pushed ++ chunk
          queue := transfer.queue ++ chunk }
      else none
  | .pop count =>
      if count ≤ transfer.queue.length then
        some { transfer with
          queue := transfer.queue.drop count
          popped := transfer.popped ++ transfer.queue.take count }
      else none

theorem step_conserves {capacity : Nat} {transfer next : Transfer α} {action : Action α}
    (before : transfer.pushed = transfer.popped ++ transfer.queue)
    (moved : step capacity transfer action = some next) :
    next.pushed = next.popped ++ next.queue := by
  cases action with
  | push chunk =>
      simp only [step, Option.ite_none_right_eq_some, Option.some.injEq] at moved
      obtain ⟨_, rfl⟩ := moved
      simp [before]
  | pop count =>
      simp only [step, Option.ite_none_right_eq_some, Option.some.injEq] at moved
      obtain ⟨_, rfl⟩ := moved
      simp [before]

/-- Nothing is lost, repeated or reordered. -/
theorem conservation {capacity : Nat} {actions : List (Action α)} {final : Transfer α}
    (run : exec (step capacity) empty actions = some final) :
    final.pushed = final.popped ++ final.queue := by
  apply exec_invariant (fun transfer : Transfer α =>
    transfer.pushed = transfer.popped ++ transfer.queue) rfl _ run
  intro transfer action next before moved
  exact step_conserves before moved

/-- Chunks of the agreed lengths, cut from the front of a stream of messages,
are the messages, and nothing is left over. -/
theorem agreement {messages received : List (List α)} {queue : List α}
    (lengths : received.map List.length = messages.map List.length)
    (stream : messages.flatten = received.flatten ++ queue) :
    received = messages ∧ queue = [] := by
  have count : queue.length = 0 := by
    have total := congrArg List.length stream
    rw [List.length_append, List.length_flatten, List.length_flatten, lengths] at total
    omega
  have nothing : queue = [] := List.eq_nil_of_length_eq_zero count
  refine ⟨?_, nothing⟩
  rw [nothing, List.append_nil] at stream
  exact List.eq_iff_flatten_eq.mpr ⟨stream.symm, lengths⟩

end FifoTransfer
