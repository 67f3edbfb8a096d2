/-
  Where a polled feed takes its octets from.

  * `Inflow` is the class of streams of octet chunks that are polled and may not be ready;
    `Inflow.remaining` bounds the chunks still to come;
  * a `Channel` of chunks is an inflow: it is not ready while it is empty and its sender is open.
-/
import ObjectFeed.Channel
import ObjectFeed.Utf8.Octets

namespace ObjectFeed

/-- The answer of an inflow to a poll. -/
inductive Polled where
  | notReady
  | chunk (octets : Octets)
  | ended
  /-- The inflow failed, in these words. -/
  | failed (report : String)
  deriving DecidableEq, Repr

/-- A stream of octet chunks that is polled. -/
class Inflow (σ : Type) where
  /-- Ask for the next chunk. -/
  poll : σ → Polled × σ
  /-- A bound on the chunks still to come. -/
  remaining : σ → Nat
  remaining_poll_lt : ∀ {s s' : σ} {octets : Octets}, poll s = (.chunk octets, s') →
    remaining s' < remaining s

namespace Channel

/-- The next chunk that waits. -/
def poll (c : Channel Octets) : Polled × Channel Octets :=
  match c.receive? with
  | some (octets, rest) => (.chunk octets, rest)
  | none => (if c.senderOpen then .notReady else .ended, c)

instance : Inflow (Channel Octets) where
  poll := poll
  remaining c := c.waiting.size
  remaining_poll_lt {c c' octets} h := by
    unfold poll at h
    split at h
    · rename_i octets' rest hr
      simp only [Prod.mk.injEq] at h
      rw [← h.2]
      exact size_receive?_lt hr
    · split at h <;> simp at h

end Channel

end ObjectFeed
