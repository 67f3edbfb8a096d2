/-
  A bounded channel between a sender and a receiver.

  * `Channel` holds what was sent and not received, oldest first, and whether the sender is open;
  * `Channel.send` refuses a value when the channel is full, and any value when one of the two ends
    is gone;
  * what a closed sender left is a `Supply` of fragments.
-/
import ObjectFeed.Backlog
import ObjectFeed.Supply

namespace ObjectFeed

/-- A first-in, first-out channel that holds a bounded number of values. -/
structure Channel (α : Type) where
  capacity : Nat
  /-- What was sent and not received. -/
  waiting : Backlog α := .empty
  senderOpen : Bool := true

namespace Channel

variable {α : Type}

/-- What becomes of a value that is sent. -/
inductive SendAnswer where
  | sent
  /-- As many values wait as the channel holds. -/
  | full
  /-- The receiver is gone. -/
  | closed
  /-- The sender is gone. -/
  | noSender
  deriving DecidableEq, Repr

/-- Send a value, while the receiver is there or after it has gone. -/
def send (c : Channel α) (receiverOpen : Bool) (a : α) : SendAnswer × Channel α :=
  if !c.senderOpen then (.noSender, c)
  else if !receiverOpen then (.closed, c)
  else if c.capacity ≤ c.waiting.size then (.full, c)
  else (.sent, { c with waiting := c.waiting.push a })

/-- Close the sender.  What was sent stays to be received. -/
def closeSender (c : Channel α) : Channel α := { c with senderOpen := false }

/-- Receive the oldest value that waits. -/
def receive? (c : Channel α) : Option (α × Channel α) :=
  c.waiting.pop?.map fun (a, rest) => (a, { c with waiting := rest })

theorem size_receive?_lt {c c' : Channel α} {a : α} (h : c.receive? = some (a, c')) :
    c'.waiting.size < c.waiting.size := by
  unfold receive? at h
  rcases hp : c.waiting.pop? with _ | ⟨b, rest⟩ <;> simp [hp] at h
  rw [← h.2]
  exact Backlog.size_lt_of_pop? hp

/-- The fragments of a sender that has closed. -/
def pull (c : Channel String) : Pulled × Channel String :=
  match c.receive? with
  | some (text, rest) => (.fragment text, rest)
  | none => (.ended, c)

instance : Supply (Channel String) where
  pull := pull
  close c := { c with waiting := .empty }
  remaining c := c.waiting.size
  remaining_pull_lt {c c' text} h := by
    unfold pull at h
    split at h
    · rename_i text' rest hr
      simp only [Prod.mk.injEq] at h
      rw [← h.2]
      exact size_receive?_lt hr
    · simp at h
  remaining_close_le c := by simp

end Channel

end ObjectFeed
