/-
  Loosely typed settings.

  The files that settings come from type their values in their own ways, so a value is converted to
  what a setting wants: a switch may be given as a number or a word, a size as a word, a switch or a
  fraction.

  * `Loose` is a value from a file;
  * `Loose.switch?` and `Loose.size?` are the conversions;
  * `Loose.put` sets the value at a path, tables being merged; `Loose.pathOf` reads a path.
-/
import ObjectFeed.Json.Value
import ObjectFeed.Toml.Document

namespace ObjectFeed

/-- A value from a settings file. -/
inductive Loose where
  | nothing
  | integer (i : Int)
  | fraction (x : Float)
  | switch (b : Bool)
  | text (s : String)
  | list (items : List Loose)
  | table (entries : List (String × Loose))

namespace Loose

/-- The nearest double to a decimal. -/
def nearest (n : Json.Number) : Float :=
  let magnitude := Float.ofScientific n.digits (n.exponent < 0) n.exponent.natAbs
  if n.negative then -magnitude else magnitude

mutual

/-- A JSON value.  An integer that does not fit 64 signed bits is taken as a fraction, and of
    repeated keys the last counts. -/
def ofJson : Json.Value → Loose
  | .null => nothing
  | .bool b => switch b
  | .number n =>
    match n.int? with
    | some i =>
      if Int64.minValue.toInt ≤ i && i ≤ Int64.maxValue.toInt then integer i
      else fraction (nearest n)
    | none => fraction (nearest n)
  | .string s => text s
  | .array items => list (ofJsonItems items)
  | .object members => table (ofJsonMembers [] members)

/-- The items of a JSON array. -/
def ofJsonItems : List Json.Value → List Loose
  | [] => []
  | v :: rest => ofJson v :: ofJsonItems rest

/-- The members of a JSON object, after those read so far. -/
def ofJsonMembers (read : List (String × Loose)) : List (String × Json.Value) → List (String × Loose)
  | [] => read
  | (k, v) :: rest =>
    let v := ofJson v
    ofJsonMembers (read.filter (fun entry => entry.1 ≠ k) ++ [(k, v)]) rest

end

mutual

/-- A TOML value.  Dates are texts. -/
def ofToml : Toml.Value → Loose
  | .string s => text s
  | .integer i => integer i
  | .float n => fraction (nearest n)
  | .infinity negative => fraction (if negative then -1.0 / 0.0 else 1.0 / 0.0)
  | .notANumber => fraction (0.0 / 0.0)
  | .boolean b => switch b
  | .datetime spelling => text spelling
  | .array items => list (ofTomlItems items)
  | .table _ entries => table (ofTomlEntries entries)
  | .tables items => list (ofTomlItems items)

/-- The items of a TOML array. -/
def ofTomlItems : List Toml.Value → List Loose
  | [] => []
  | v :: rest => ofToml v :: ofTomlItems rest

/-- The entries of a TOML table. -/
def ofTomlEntries : List (String × Toml.Value) → List (String × Loose)
  | [] => []
  | (k, v) :: rest => (k, ofToml v) :: ofTomlEntries rest

end

/-! ## Conversions -/

/-- The words for a switch, in any case. -/
def wordSwitch? (s : String) : Option Bool :=
  let s := s.toLower
  if s = "true" || s = "on" || s = "yes" then some true
  else if s = "false" || s = "off" || s = "no" then some false
  else none

/-- A switch: a number is on unless it is zero. -/
def switch? : Loose → Option Bool
  | switch b => some b
  | integer i => some (i != 0)
  | fraction x => some (x != 0.0)
  | text s => if s = "1" then some true else if s = "0" then some false else wordSwitch? s
  | nothing | list _ | table _ => none

/-- A size in decimal digits, after a plus or not. -/
def digitsSize? (greatest : Nat) (s : String) : Option Nat :=
  let cs := s.toList
  let cs := if cs.head? = some '+' then cs.drop 1 else cs
  if cs.isEmpty || !cs.all Char.isDigit then none
  else
    let n := Json.Number.natOfDigits cs
    if n ≤ greatest then some n else none

/-- A size: a fraction is rounded, and kept between zero and the greatest size. -/
def size? : Loose → Option Nat
  | integer i => if 0 ≤ i then some i.toNat else none
  | fraction x => some x.round.toUInt64.toNat
  | switch b => some (if b then 1 else 0)
  | text s =>
    match wordSwitch? s with
    | some b => some (if b then 1 else 0)
    | none => digitsSize? (UInt64.size - 1) s
  | nothing | list _ | table _ => none

/-! ## Paths -/

/-- The entry of a table. -/
def entry? : Loose → String → Option Loose
  | table entries, key => entries.lookup key
  | _, _ => none

/-- A table with an entry replaced or added.  What is no table is given up for one. -/
def withEntry (v : Loose) (key : String) (entry : Loose) : Loose :=
  match v with
  | table entries => table (entries.filter (fun e => e.1 ≠ key) ++ [(key, entry)])
  | _ => table [(key, entry)]

mutual

/-- A value laid over another: tables are merged, anything else takes its place. -/
def overlay (below : Option Loose) : Loose → Loose
  | table entries => overlayEntries (below.getD (table [])) entries
  | v => v

/-- Entries laid over a value. -/
def overlayEntries (below : Loose) : List (String × Loose) → Loose
  | [] => below
  | (key, v) :: rest => overlayEntries (below.withEntry key (overlay (below.entry? key) v)) rest

end

/-- A step of a path. -/
inductive Step where
  | key (name : String)
  | index (n : Nat)
  deriving DecidableEq, Repr

/-- A list with an item replaced, and made longer if need be.  What is no list is given up for
    one. -/
def withItem (v : Loose) (n : Nat) (item : Loose) : Loose :=
  let items := match v with
    | list items => items
    | _ => []
  list ((items ++ List.replicate (n + 1 - items.length) nothing).set n item)

/-- Set the value at a path. -/
def put (v : Loose) : List Step → Loose → Loose
  | [], below => overlay (some below) v
  | [.key name], below => below.withEntry name (overlay (below.entry? name) v)
  | [.index n], below => below.withItem n v
  | .key name :: more, below =>
    below.withEntry name (put v more ((below.entry? name).getD nothing))
  | .index n :: more, below =>
    let item := match below with
      | list items => items[n]?.getD nothing
      | _ => nothing
    below.withItem n (put v more item)

/-- The characters of a name in a path. -/
def isNameChar (c : Char) : Bool :=
  c.isAlphanum || c = ' ' || c = '_' || c = '-'

/-- The steps of a path after its first name; each of at most `fuel`. -/
def stepsOf? : (fuel : Nat) → List Char → Option (List Step)
  | _, [] => some []
  | 0, _ :: _ => none
  | fuel + 1, '.' :: rest =>
    let name := rest.takeWhile isNameChar
    if name.isEmpty then none
    else (stepsOf? fuel (rest.dropWhile isNameChar)).map (.key (String.ofList name) :: ·)
  | fuel + 1, '[' :: rest =>
    let rest := rest.dropWhile (· = ' ')
    let digits := rest.takeWhile Char.isDigit
    match (rest.dropWhile Char.isDigit).dropWhile (· = ' ') with
    | ']' :: rest =>
      if digits.isEmpty then none
      else (stepsOf? fuel rest).map (.index (Json.Number.natOfDigits digits) :: ·)
    | _ => none
  | _ + 1, _ :: _ => none

/-- The path that a key writes: names after dots and indices in brackets.  Any other key is a name
    itself. -/
def pathOf (key : String) : List Step :=
  let cs := key.toList
  let name := cs.takeWhile isNameChar
  let steps := if name.isEmpty then none else stepsOf? cs.length (cs.dropWhile isNameChar)
  match steps with
  | some steps => .key (String.ofList name) :: steps
  | none => [.key key]

/-- The table that entries at paths make. -/
def ofEntries (entries : List (String × Loose)) : Loose :=
  entries.foldl (fun t (key, v) => put v (pathOf key) t) (table [])

end Loose

end ObjectFeed
