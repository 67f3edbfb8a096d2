/-
  The settings of a feed.

  * `Settings` and its defaults;
  * `Settings.shape` reads settings from JSON; fields that are missing take their defaults.
-/
import ObjectFeed.Json.Shape
import ObjectFeed.Splitter

namespace ObjectFeed

/-- The number of octets asked of a reader at a time, unless told otherwise. -/
def defaultReadSize : Nat := 1024

/-- The settings of a feed.  No size is too large here; that there is room for a full batch and for a whole
    read is taken for granted where these are made. -/
structure Settings where
  splitter : Splitter.Options := {}
  /-- An input that ends inside the array is a failure.  Otherwise the feed just ends there. -/
  failOnTruncation : Bool := true
  /-- Objects that are rejected are passed over.  Otherwise each is a failure of its own. -/
  skipInvalid : Bool := false
  /-- The number of values in a full batch. -/
  batchSize : Nat := 10
  /-- The number of octets asked of a reader at a time; zero counts as one. -/
  readSize : Nat := defaultReadSize
  deriving DecidableEq, Repr

namespace Settings

open Json (Shape)

/-- The greatest size. -/
def greatestSize : Nat := UInt64.size - 1

/-- Options as far as they have been read. -/
structure PartialOptions where
  honorEscapes : Option Bool := none
  keepBrackets : Option Bool := none
  sizeLimit : Option (Option Nat) := none

/-- Options whose missing fields take their defaults. -/
def PartialOptions.complete (s : PartialOptions) : Splitter.Options :=
  let default : Splitter.Options := {}
  { honorEscapes := s.honorEscapes.getD default.honorEscapes
    keepBrackets := s.keepBrackets.getD default.keepBrackets
    sizeLimit := s.sizeLimit.getD default.sizeLimit }

/-- Settings as far as they have been read. -/
structure Partial where
  splitter : Option Splitter.Options := none
  failOnTruncation : Option Bool := none
  skipInvalid : Option Bool := none
  batchSize : Option Nat := none
  readSize : Option Nat := none

/-- Settings whose missing fields take their defaults. -/
def Partial.complete (s : Partial) : Settings :=
  let default : Settings := {}
  { splitter := s.splitter.getD default.splitter
    failOnTruncation := s.failOnTruncation.getD default.failOnTruncation
    skipInvalid := s.skipInvalid.getD default.skipInvalid
    batchSize := s.batchSize.getD default.batchSize
    readSize := s.readSize.getD default.readSize }

/-- The options of the splitter from JSON. -/
def optionsShape : Shape Splitter.Options :=
  Shape.record ({} : PartialOptions)
    [.of "honor_escapes" Shape.bool PartialOptions.honorEscapes
       (fun s b => { s with honorEscapes := some b }),
     .of "retain_nested_brackets" Shape.bool PartialOptions.keepBrackets
       (fun s b => { s with keepBrackets := some b }),
     .of "max_object_size" (Shape.natUpTo greatestSize).optional PartialOptions.sizeLimit
       (fun s limit => { s with sizeLimit := some limit })]
    (fun s => some s.complete)

/-- Settings from JSON. -/
def shape : Shape Settings :=
  Shape.record ({} : Partial)
    [.of "scanner" optionsShape Partial.splitter (fun s o => { s with splitter := some o }),
     .of "fail_on_truncation" Shape.bool Partial.failOnTruncation
       (fun s b => { s with failOnTruncation := some b }),
     .of "skip_invalid" Shape.bool Partial.skipInvalid (fun s b => { s with skipInvalid := some b }),
     .of "batch_size" (Shape.natUpTo greatestSize) Partial.batchSize
       (fun s n => { s with batchSize := some n }),
     .of "read_size" (Shape.natUpTo greatestSize) Partial.readSize
       (fun s n => { s with readSize := some n })]
    (fun s => some s.complete)

end Settings

end ObjectFeed
