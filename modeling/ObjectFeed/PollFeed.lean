/-
  Feeds that are polled.

  A polled feed hands out the objects of an array whose octets come in chunks and may not be ready.
  It polls its inflow only when no complete object waits, and lets go of the inflow at its end, after
  a failure to split, and when it is cancelled.

  * `PollFeed.poll` answers one poll;
  * `PollFeed.nextWithin` and `PollFeed.batchWithin` poll on until a number of polls was not ready;
  * `PollFeed.cancel` stops the feed, `PollFeed.send` is the other end of a channel-fed one.
-/
import ObjectFeed.Hopper
import ObjectFeed.Inflow.Reader
import ObjectFeed.Utf8.Carry

namespace ObjectFeed

/-- A feed over an inflow of octets. -/
structure PollFeed (σ α : Type) where
  inflow : σ
  hopper : Hopper α
  carry : Utf8.Carry := .empty
  /-- The inflow is not polled any more. -/
  released : Bool := false

/-- The answer of a feed to a poll. -/
inductive Readiness (β : Type) where
  | notReady
  | ready (answer : β)
  deriving DecidableEq, Repr

namespace PollFeed

variable {σ α : Type}

/-- A feed before its first poll. -/
def new (inflow : σ) (interpret : Interpretation α) (settings : Settings := {}) : PollFeed σ α :=
  { inflow, hopper := .new interpret settings }

/-- A feed over a polled reader, which is asked for as many octets as the settings say. -/
def ofReader {ρ : Type} (reader : ρ) (interpret : Interpretation α) (settings : Settings := {}) :
    PollFeed (ReaderInflow ρ) α :=
  new { reader, readSize := settings.readSize } interpret settings

/-- A feed over a channel of chunks. -/
def ofChannel (capacity : Nat) (interpret : Interpretation α) (settings : Settings := {}) :
    PollFeed (Channel Octets) α :=
  new { capacity } interpret settings

/-- The number of objects that wait. -/
def waiting (f : PollFeed σ α) : Nat := f.hopper.waiting

/-- Whether the feed has come to an end and everything it brought has been handed out. -/
def isOver (f : PollFeed σ α) : Bool := f.hopper.isSpent

/-- Whether the feed was cancelled while it was live. -/
def wasCancelled (f : PollFeed σ α) : Bool := f.hopper.status == .cancelled

/-- Stop the feed and let go of the inflow. -/
def cancel (f : PollFeed σ α) : PollFeed σ α :=
  { f with hopper := f.hopper.abandon, released := true }

/-- Send a chunk to a channel-fed feed. -/
def send (f : PollFeed (Channel Octets) α) (chunk : Octets) :
    Channel.SendAnswer × PollFeed (Channel Octets) α :=
  let (answer, inflow) := f.inflow.send (!f.released) chunk
  (answer, { f with inflow })

/-- Close the sender of a channel-fed feed. -/
def closeSender (f : PollFeed (Channel Octets) α) : PollFeed (Channel Octets) α :=
  { f with inflow := f.inflow.closeSender }

/-- The inflow has come to its end.  An unfinished code point is reported rather than an open
    array. -/
def endInflow (f : PollFeed σ α) : Option (Item α) × PollFeed σ α :=
  let (checked, carry) := f.carry.flush
  let (failure, hopper) := f.hopper.endInput
  let item := match checked with
    | .error fault => some (.error (.transport fault))
    | .ok () => failure.map .error
  (item, { f with carry, hopper, released := true })

variable [Inflow σ]

/-- Answer one poll: the next item, nothing at the end, or not ready. -/
def poll (f : PollFeed σ α) : Readiness (Option (Item α)) × PollFeed σ α :=
  match f.hopper.dispense with
  | (some item, hopper) => (.ready (some item), { f with hopper })
  | (none, hopper) =>
    if !hopper.isLive || f.released then (.ready none, { f with hopper })
    else
      match _hp : Inflow.poll f.inflow with
      | (.notReady, inflow) => (.notReady, { f with inflow, hopper })
      | (.failed report, inflow) =>
        (.ready (some (.error (.transport (.reported .other report)))), { f with inflow, hopper })
      | (.ended, inflow) =>
        let (item, f) := { f with inflow, hopper }.endInflow
        (.ready item, f)
      | (.chunk octets, inflow) =>
        match f.carry.push octets with
        | (.error fault, carry) =>
          (.ready (some (.error (.transport fault))), { f with inflow, hopper, carry })
        | (.ok text, carry) =>
          let hopper := hopper.pour text
          poll { f with inflow, hopper, carry, released := !hopper.isLive }
termination_by Inflow.remaining f.inflow
decreasing_by exact Inflow.remaining_poll_lt _hp

/-- Poll until the feed is ready, but give up when `patience` polls were not.  The patience that is
    left is given too. -/
def nextWithin : (patience : Nat) → PollFeed σ α →
    Readiness (Option (Item α)) × Nat × PollFeed σ α
  | 0, f => (.notReady, 0, f)
  | patience + 1, f =>
    match f.poll with
    | (.notReady, f) => nextWithin patience f
    | (.ready answer, f) => (.ready answer, patience + 1, f)

/-- The next values, up to `n` of them, the end, or the first failure.  When patience runs out, the
    values taken are lost. -/
def batchOf : (n patience : Nat) → PollFeed σ α →
    Readiness (Except Failure (List α)) × PollFeed σ α
  | 0, _, f => (.ready (.ok []), f)
  | n + 1, patience, f =>
    match nextWithin patience f with
    | (.notReady, _, f) => (.notReady, f)
    | (.ready none, _, f) => (.ready (.ok []), f)
    | (.ready (some (.error failure)), _, f) => (.ready (.error failure), f)
    | (.ready (some (.ok a)), patience, f) =>
      match batchOf n patience f with
      | (.ready values, f) => (.ready (values.map (a :: ·)), f)
      | (.notReady, f) => (.notReady, f)

/-- The values of the next batch.  It is short only at the end; a failure takes its place.  Room for a
    full batch is asked for before the first of its values: the batch size is taken to be one that can
    be allocated. -/
def batchWithin (patience : Nat) (f : PollFeed σ α) :
    Readiness (Except Failure (List α)) × PollFeed σ α :=
  batchOf f.hopper.settings.batchSize patience f

/-- The next items, up to `n` of them, the end, or the first poll that is not ready after
    `patience` polls that were not.  Whether the end was reached is given too. -/
def takeWithin (patience : Nat) : Nat → PollFeed σ α → List (Item α) × Bool × PollFeed σ α
  | 0, f => ([], false, f)
  | n + 1, f =>
    match nextWithin patience f with
    | (.notReady, _, f) => ([], false, f)
    | (.ready none, _, f) => ([], true, f)
    | (.ready (some item), _, f) =>
      let (items, ended, f) := takeWithin patience n f
      (item :: items, ended, f)

end PollFeed

end ObjectFeed
