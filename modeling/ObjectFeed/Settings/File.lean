/-
  Settings from a file.

  * `Settings.LoadFault` says why a file gives no settings;
  * `Settings.Format` is the format of a file, which its name's extension tells;
  * `Settings.ofFile` reads the settings a file holds.  Fields that are missing take their defaults.
-/
import ObjectFeed.Settings
import ObjectFeed.Settings.Loose
import ObjectFeed.Utf8.Octets

namespace ObjectFeed.Settings

/-- Why a file gives no settings. -/
inductive LoadFault where
  /-- It is not there, cannot be read, or is in no known format. -/
  | unavailable
  /-- It breaks the syntax of its format. -/
  | badSyntax
  /-- A value cannot be converted to what its setting wants. -/
  | wrongType
  /-- A single value stands where a group of settings should. -/
  | wrongShape
  deriving DecidableEq, Repr

/-- The formats of settings files. -/
inductive Format where
  | json
  | toml
  deriving DecidableEq, Repr

/-- What follows the last dot of a file name, unless the name begins with it. -/
def extension? (name : List Char) : Option (List Char) :=
  let reversed := name.reverse
  let extension := reversed.takeWhile (· ≠ '.')
  match reversed.dropWhile (· ≠ '.') with
  | '.' :: _ :: _ => some extension.reverse
  | _ => none

/-- The format of a file by its name. -/
def Format.ofName? (name : String) : Option Format :=
  match extension? name.toList with
  | some ['j', 's', 'o', 'n'] => some json
  | some ['t', 'o', 'm', 'l'] => some toml
  | _ => none

/-- The greatest depth of a JSON settings file. -/
def greatestDepth : Nat := 127

/-- The entries of a settings text.  JSON that is no object has none. -/
def Format.entries? (text : String) : Format → Option (List (String × Loose))
  | json =>
    match Json.parse? text.toList with
    | some v =>
      if v.depth ≤ greatestDepth && v.allNumbers Json.Number.isFinite then
        match Loose.ofJson v with
        | .table entries => some entries
        | _ => some []
      else none
    | none => none
  | toml => (Toml.read? text).map Loose.ofTomlEntries

/-- A setting that is converted. -/
def converted {α : Type} (convert : Loose → Option α) (v : Option Loose) :
    Except LoadFault (Option α) :=
  match v with
  | none => .ok none
  | some v =>
    match convert v with
    | some a => .ok (some a)
    | none => .error .wrongType

/-- A limit that may be absent. -/
def limit? : Loose → Option (Option Nat)
  | .nothing => some none
  | v => v.size?.map some

/-- The options of the splitter, from a table or from a list of their values in order. -/
def optionsOfLoose (v : Loose) : Except LoadFault Splitter.Options := do
  let read (escapes brackets limit : Option Loose) : Except LoadFault Splitter.Options := do
    let honorEscapes ← converted Loose.switch? escapes
    let keepBrackets ← converted Loose.switch? brackets
    let sizeLimit ← converted limit? limit
    pure { honorEscapes, keepBrackets, sizeLimit : PartialOptions }.complete
  match v with
  | .table _ =>
    read (v.entry? "honor_escapes") (v.entry? "retain_nested_brackets") (v.entry? "max_object_size")
  | .list items => read items[0]? items[1]? items[2]?
  | _ => throw .wrongShape

/-- Settings from a table. -/
def ofLoose (v : Loose) : Except LoadFault Settings := do
  let splitter ← match v.entry? "scanner" with
    | some options => some <$> optionsOfLoose options
    | none => pure none
  let failOnTruncation ← converted Loose.switch? (v.entry? "fail_on_truncation")
  let skipInvalid ← converted Loose.switch? (v.entry? "skip_invalid")
  let batchSize ← converted Loose.size? (v.entry? "batch_size")
  let readSize ← converted Loose.size? (v.entry? "read_size")
  pure { splitter, failOnTruncation, skipInvalid, batchSize, readSize : Partial }.complete

/-- The settings in a file of this name, which holds these octets or is not there. -/
def ofFile (name : String) (content : Option Octets) : Except LoadFault Settings :=
  match content.map Utf8.decode, Format.ofName? name with
  | some (.upTo text []), some format =>
    match format.entries? text with
    | some entries => ofLoose (Loose.ofEntries entries)
    | none => .error .badSyntax
  | _, _ => .error .unavailable

end ObjectFeed.Settings
