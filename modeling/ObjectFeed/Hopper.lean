/-
  From fragments to values: what blocking and polled feeds share.

  A hopper takes fragments in, splits them into objects, and hands the objects out as values, oldest
  first.  Whoever drives it only decides where the fragments come from.  A failure to split is held
  back until the objects completed before it have been handed out.

  * `Hopper.pour` takes a fragment in, `Hopper.dispense` hands the next item out;
  * `Hopper.endInput` is the end of the input, `Hopper.abandon` gives up what waits.
-/
import ObjectFeed.Backlog
import ObjectFeed.Interpretation
import ObjectFeed.Settings
import ObjectFeed.Tally

namespace ObjectFeed

/-- What a pull gives: a value or a failure. -/
abbrev Item (α : Type) := Except Failure α

/-- Whether a hopper takes fragments, and if not, why. -/
inductive Hopper.Status where
  | live
  /-- The input came to its end. -/
  | ended
  | cancelled
  /-- The text cannot be split, or ended inside the array. -/
  | broken
  deriving DecidableEq, Repr

/-- A splitter with what waits behind it. -/
structure Hopper (α : Type) where
  interpret : Interpretation α
  settings : Settings
  splitter : Splitter
  /-- Complete objects that wait to be handed out. -/
  backlog : Backlog String := .empty
  status : Hopper.Status := .live
  /-- The failure to split that is held back. -/
  withheld : Option Failure := none
  tally : Tally := {}

namespace Hopper

variable {α : Type}

/-- A hopper before its first fragment. -/
def new (interpret : Interpretation α) (settings : Settings) : Hopper α :=
  { interpret, settings, splitter := { options := settings.splitter } }

/-- Whether more fragments are taken. -/
def isLive (h : Hopper α) : Bool := h.status == .live

/-- The number of objects that wait. -/
def waiting (h : Hopper α) : Nat := h.backlog.size

/-- Whether nothing is left to hand out and no more fragments are taken. -/
def isSpent (h : Hopper α) : Bool :=
  !h.isLive && h.backlog.isEmpty && h.withheld.isNone

/-- Take a fragment in.  When it cannot be split, the hopper takes no more. -/
def pour (h : Hopper α) (fragment : String) : Hopper α :=
  let fed := h.splitter.feed fragment
  let backlog := h.backlog.pushAll fed.objects
  let tally := { h.tally with fragments := h.tally.fragments + 1, waiting := backlog.size }
  match fed.failure with
  | none => { h with splitter := fed.splitter, backlog, tally }
  | some failure =>
    { h with splitter := fed.splitter, backlog, tally, status := .broken, withheld := some failure }

/-- Hand out the oldest object that waits, or the failure held back when none does.  Rejected
    objects are passed over if the settings say so. -/
def dispense (h : Hopper α) : Option (Item α) × Hopper α :=
  match _hp : h.backlog.pop? with
  | some (text, rest) =>
    let tally := { h.tally with waiting := rest.size }
    match h.interpret text with
    | .ok a =>
      (some (.ok a), { h with backlog := rest, tally := { tally with objects := tally.objects + 1 } })
    | .error rejection =>
      let h' := { h with backlog := rest, tally := { tally with rejections := tally.rejections + 1 } }
      if h.settings.skipInvalid then h'.dispense else (some (.error (.rejected rejection)), h')
  | none => (h.withheld.map .error, { h with withheld := none })
termination_by h.backlog.size
decreasing_by exact Backlog.size_lt_of_pop? _hp

/-- The input has come to its end.  Gives the failure to report if the array is still open. -/
def endInput (h : Hopper α) : Option Failure × Hopper α :=
  match h.splitter.truncation? with
  | none => (none, { h with status := .ended })
  | some failure =>
    if h.settings.failOnTruncation then (some failure, { h with status := .broken })
    else (none, { h with status := .ended })

/-- Give up what waits. -/
def abandon (h : Hopper α) : Hopper α :=
  { h with
    status := if h.isLive then .cancelled else h.status
    backlog := .empty
    withheld := none
    tally := { h.tally with waiting := 0 } }

end Hopper

end ObjectFeed
