/-
  Feeds that pull.

  A pull feed hands out the objects of a streamed array one at a time.  It pulls a fragment from its
  supply only when no complete object waits.

  * `PullFeed.next` is the next item, or nothing at the end;
  * `PullFeed.take` are the next items, up to a number of them or the end;
  * `PullFeed.batch` gathers the values of a full batch, up to the first failure;
  * `PullFeed.cancel` stops the feed.
-/
import ObjectFeed.Hopper
import ObjectFeed.Supply.Reader

namespace ObjectFeed

/-- A feed over a supply of fragments. -/
structure PullFeed (σ α : Type) where
  supply : σ
  hopper : Hopper α

namespace PullFeed

variable {σ α : Type}

/-- A feed before its first pull. -/
def new (supply : σ) (interpret : Interpretation α) (settings : Settings := {}) : PullFeed σ α :=
  { supply, hopper := .new interpret settings }

/-- A feed over a blocking reader, which is asked for as many octets as the settings say. -/
def ofReader {ρ : Type} (reader : ρ) (interpret : Interpretation α) (settings : Settings := {}) :
    PullFeed (ReaderSupply ρ) α :=
  new { reader, readSize := settings.readSize } interpret settings

/-- The number of objects that wait. -/
def waiting (f : PullFeed σ α) : Nat := f.hopper.waiting

/-- Whether the feed has come to an end and everything it brought has been handed out. -/
def isOver (f : PullFeed σ α) : Bool := f.hopper.isSpent

/-- Whether the feed was cancelled while it was live. -/
def wasCancelled (f : PullFeed σ α) : Bool := f.hopper.status == .cancelled

variable [Supply σ]

/-- Stop the feed and close its supply. -/
def cancel (f : PullFeed σ α) : PullFeed σ α :=
  { supply := Supply.close f.supply, hopper := f.hopper.abandon }

/-- The next item.  A failed pull leaves the feed as it was, to be asked again. -/
def next (f : PullFeed σ α) : Option (Item α) × PullFeed σ α :=
  match f.hopper.dispense with
  | (some item, hopper) => (some item, { f with hopper })
  | (none, hopper) =>
    if !hopper.isLive then (none, { f with hopper })
    else
      match _hp : Supply.pull f.supply with
      | (.fragment text, supply) =>
        let hopper := hopper.pour text
        if hopper.isLive then next { supply, hopper }
        else next { supply := Supply.close supply, hopper }
      | (.ended, supply) =>
        let (failure, hopper) := hopper.endInput
        (failure.map .error, { supply := Supply.close supply, hopper })
      | (.failed fault, supply) => (some (.error (.transport fault)), { supply, hopper })
termination_by Supply.remaining f.supply
decreasing_by
  · exact Supply.remaining_pull_lt _hp
  · exact Nat.lt_of_le_of_lt (Supply.remaining_close_le _) (Supply.remaining_pull_lt _hp)

/-- The next items, up to `n` of them or the end. -/
def take : Nat → PullFeed σ α → List (Item α) × PullFeed σ α
  | 0, f => ([], f)
  | n + 1, f =>
    match f.next with
    | (none, f) => ([], f)
    | (some item, f) =>
      let (items, f) := take n f
      (item :: items, f)

/-- The next values, up to `n` of them, the end, or the first failure. -/
def batchOf : Nat → PullFeed σ α → Except Failure (List α) × PullFeed σ α
  | 0, f => (.ok [], f)
  | n + 1, f =>
    match f.next with
    | (none, f) => (.ok [], f)
    | (some (.error failure), f) => (.error failure, f)
    | (some (.ok a), f) =>
      let (values, f) := batchOf n f
      (values.map (a :: ·), f)

/-- The values of the next batch.  It is short only at the end; a failure takes its place.  Room for a
    full batch is asked for before the first of its values: the batch size is taken to be one that can
    be allocated. -/
def batch (f : PullFeed σ α) : Except Failure (List α) × PullFeed σ α :=
  batchOf f.hopper.settings.batchSize f

end PullFeed

end ObjectFeed
