/-
  TOML documents.

  A document is a list of lines: headers, which open a table or the next table of an array, and keys
  with values.  No key may be given twice, and no table opened twice.

  * `Toml.Value` is a value, a table's entries in the order of their keys' first appearance;
  * `Toml.value?` reads a value from tokens, `Toml.lines?` the lines;
  * `Toml.Tree` is a document under construction, which remembers how each table came to be;
  * `Toml.read?` reads a text.
-/
import ObjectFeed.Toml.Scalar
import ObjectFeed.Toml.Token

namespace ObjectFeed.Toml

/-- How a table came to be. -/
inductive Origin where
  /-- On the way to a header's last key. -/
  | implied
  /-- By a header of its own. -/
  | header
  /-- On the way to a dotted key's last key. -/
  | dotted
  /-- Written as a value. -/
  | inline
  deriving DecidableEq, Repr

/-- A value. -/
inductive Value where
  | string (s : String)
  | integer (i : Int)
  | float (n : Json.Number)
  | infinity (negative : Bool)
  | notANumber
  | boolean (b : Bool)
  | datetime (spelling : String)
  | array (items : List Value)
  | table (origin : Origin) (entries : List (String × Value))
  /-- The tables of an array that headers open. -/
  | tables (items : List Value)

/-! ## Tables under construction -/

/-- The entries with one replaced or added. -/
def putEntry (entries : List (String × Value)) (key : String) (v : Value) : List (String × Value) :=
  if (entries.lookup key).isSome then
    entries.map fun (k, old) => if k == key then (k, v) else (k, old)
  else entries ++ [(key, v)]

/-- Add a value under a dotted key.  Each table on the way is one that dotted keys made. -/
def addKey? (v : Value) : List String → List (String × Value) → Option (List (String × Value))
  | [], _ => none
  | [key], entries => if (entries.lookup key).isSome then none else some (entries ++ [(key, v)])
  | key :: more, entries =>
    match entries.lookup key with
    | none => (addKey? v more []).map fun inner => putEntry entries key (.table .dotted inner)
    | some (.table .dotted inner) =>
      (addKey? v more inner).map fun inner => putEntry entries key (.table .dotted inner)
    | some _ => none

/-- Change the entries of the table that a header names, creating it if the change allows. -/
def atHeader? (last : Option Value → Option Value) :
    List String → List (String × Value) → Option (List (String × Value))
  | [], _ => none
  | [key], entries => (last (entries.lookup key)).map (putEntry entries key)
  | key :: more, entries =>
    match entries.lookup key with
    | none => (atHeader? last more []).map fun inner => putEntry entries key (.table .implied inner)
    | some (.table origin inner) =>
      if origin = .implied || origin = .header then
        (atHeader? last more inner).map fun inner => putEntry entries key (.table origin inner)
      else none
    | some (.tables items) =>
      match items.getLast? with
      | some (.table origin inner) =>
        (atHeader? last more inner).map fun inner =>
          putEntry entries key (.tables (items.dropLast ++ [.table origin inner]))
      | _ => none
    | some _ => none

/-- Open a table. -/
def openTable? : Option Value → Option Value
  | none => some (.table .header [])
  | some (.table .implied inner) => some (.table .header inner)
  | some _ => none

/-- Open the next table of an array. -/
def openNext? : Option Value → Option Value
  | none => some (.tables [.table .header []])
  | some (.tables items) => some (.tables (items ++ [.table .header []]))
  | some _ => none

/-- Add a value under a dotted key of the table just opened. -/
def addTo? (keys : List String) (v : Value) : Option Value → Option Value
  | some (.table origin inner) => (addKey? v keys inner).map (.table origin)
  | some (.tables items) =>
    match items.getLast? with
    | some (.table origin inner) =>
      (addKey? v keys inner).map fun inner => .tables (items.dropLast ++ [.table origin inner])
    | _ => none
  | _ => none

/-! ## Values from tokens -/

/-- Pass over blanks. -/
def skipBlank : List Token → List Token
  | .blank _ :: rest => rest
  | tokens => tokens

/-- Pass over blanks, comments and ends of lines. -/
def skipLines : List Token → List Token
  | .blank _ :: rest | .comment :: rest | .newline :: rest => skipLines rest
  | tokens => tokens

/-- Take one key. -/
def key? : List Token → Option (String × List Token)
  | .bare spelling :: rest => some (spelling, rest)
  | .quoted text false :: rest => some (text, rest)
  | _ => none

/-- Take a dotted key and the blanks after it.  There are at most `fuel` parts. -/
def dottedKey? : (fuel : Nat) → List Token → Option (List String × List Token)
  | 0, _ => none
  | fuel + 1, tokens => do
    let (key, rest) ← key? tokens
    match skipBlank rest with
    | .period :: rest => (dottedKey? fuel (skipBlank rest)).map fun (keys, rest) => (key :: keys, rest)
    | rest => some ([key], rest)

/-- A date or a time whose spelling begins with `read`. -/
def datetime? (read : String) (tokens : List Token) : Option (Value × List Token) :=
  let (read, tokens) := match tokens with
    | .blank true :: .bare hour :: rest => (read ++ " " ++ hour, rest)
    | _ => (read, tokens)
  let (read, tokens) := match tokens with
    | .colon :: .bare minute :: .colon :: .bare second :: rest =>
      (read ++ ":" ++ minute ++ ":" ++ second, rest)
    | _ => (read, tokens)
  let (read, tokens) := match tokens with
    | .period :: .bare fraction :: rest => (read ++ "." ++ fraction, rest)
    | _ => (read, tokens)
  let (read, tokens) := match tokens with
    | .plus :: .bare hour :: rest => (read ++ "+" ++ hour, rest)
    | _ => (read, tokens)
  let (read, tokens) := match tokens with
    | .colon :: .bare minute :: rest => (read ++ ":" ++ minute, rest)
    | _ => (read, tokens)
  if isDatetime read.toList then some (.datetime read, tokens) else none

/-- A number whose first token is `spelling`, after a plus or not. -/
def number? (spelling : String) (tokens : List Token) : Option (Value × List Token) :=
  let cs := spelling.toList
  let float (text : List Char) (rest : List Token) : Option (Value × List Token) :=
    (float? text).map fun n => (.float n, rest)
  match cs with
  | '0' :: 'x' :: digits => (integer? 16 digits).map fun i => (.integer i, tokens)
  | '0' :: 'o' :: digits => (integer? 8 digits).map fun i => (.integer i, tokens)
  | '0' :: 'b' :: digits => (integer? 2 digits).map fun i => (.integer i, tokens)
  | _ =>
    let endsInE (cs : List Char) : Bool := cs.getLast? = some 'e' || cs.getLast? = some 'E'
    if cs.contains 'e' || cs.contains 'E' then
      match tokens with
      | .plus :: .bare power :: rest =>
        if endsInE cs then float (cs ++ '+' :: power.toList) rest else float cs tokens
      | _ => float cs tokens
    else
      match tokens with
      | .period :: .bare fraction :: .plus :: .bare power :: rest =>
        let fraction := fraction.toList
        if endsInE fraction then float (cs ++ '.' :: fraction ++ '+' :: power.toList) rest
        else float (cs ++ '.' :: fraction) (.plus :: .bare power :: rest)
      | .period :: .bare fraction :: rest => float (cs ++ '.' :: fraction.toList) rest
      | .period :: _ => none
      | _ =>
        if spelling = "inf" || spelling = "-inf" then
          some (.infinity (spelling = "-inf"), tokens)
        else if spelling = "nan" || spelling = "-nan" then some (.notANumber, tokens)
        else (integer? 10 cs).map fun i => (.integer i, tokens)

/-- Whether a bare spelling begins a date rather than a number. -/
def beginsDate (spelling : List Char) : Bool :=
  let hasPower : Bool :=
    spelling.zip (spelling.drop 1) |>.any fun (a, b) => (a = 'e' || a = 'E') && b = '-'
  spelling.contains 'T' || spelling.contains 't' || ((spelling.drop 1).contains '-' && !hasPower)

/-- A value that is written without quotes or brackets. -/
def bareValue? (spelling : String) (tokens : List Token) : Option (Value × List Token) :=
  if spelling = "true" then some (.boolean true, tokens)
  else if spelling = "false" then some (.boolean false, tokens)
  else if spelling ≠ "inf" && spelling ≠ "nan" &&
      !(spelling.toList.head?.any fun c => c = '-' || c.isDigit) then none
  else if beginsDate spelling.toList || tokens.head? = some .colon then datetime? spelling tokens
  else number? spelling tokens

mutual

/-- A value, in which brackets and braces nest at most `fuel` deep and hold at most `fuel` items. -/
def value? : (fuel : Nat) → List Token → Option (Value × List Token)
  | 0, _ => none
  | _ + 1, .quoted text _ :: rest => some (.string text, rest)
  | _ + 1, .bare spelling :: rest => bareValue? spelling rest
  | _ + 1, .plus :: .bare spelling :: rest => number? spelling rest
  | fuel + 1, .openBracket :: rest =>
    (items? fuel (skipLines rest)).map fun (items, rest) => (.array items, rest)
  | fuel + 1, .openBrace :: rest =>
    match skipBlank rest with
    | .closeBrace :: rest => some (.table .inline [], rest)
    | rest => (entries? fuel [] rest).map fun (entries, rest) => (.table .inline entries, rest)
  | _ + 1, _ => none

/-- The items of an array, up to its closing bracket. -/
def items? : (fuel : Nat) → List Token → Option (List Value × List Token)
  | 0, _ => none
  | _ + 1, .closeBracket :: rest => some ([], rest)
  | fuel + 1, tokens => do
    let (v, rest) ← value? fuel tokens
    match skipLines rest with
    | .comma :: rest => (items? fuel (skipLines rest)).map fun (vs, rest) => (v :: vs, rest)
    | .closeBracket :: rest => some ([v], rest)
    | _ => none

/-- The entries of a table in braces, up to its closing brace. -/
def entries? : (fuel : Nat) → List (String × Value) → List Token →
    Option (List (String × Value) × List Token)
  | 0, _, _ => none
  | fuel + 1, entries, tokens => do
    let (keys, rest) ← dottedKey? (tokens.length + 1) tokens
    match rest with
    | .equals :: rest =>
      let (v, rest) ← value? fuel (skipBlank rest)
      let entries ← addKey? v keys entries
      match skipBlank rest with
      | .closeBrace :: rest => some (entries, rest)
      | .comma :: rest => entries? fuel entries (skipBlank rest)
      | _ => none
    | _ => none

end

/-! ## Lines -/

/-- A line of a document. -/
inductive Line where
  | header (keys : List String) (next : Bool)
  | entry (keys : List String) (v : Value)

/-- The end of a line: perhaps a comment, then a line feed or the end of the text. -/
def endOfLine? (tokens : List Token) : Option (List Token) :=
  match skipBlank tokens with
  | .comment :: rest | .newline :: rest => some rest
  | [] => some []
  | _ => none

/-- The line at the front. -/
def line? (tokens : List Token) : Option (Line × List Token) :=
  let fuel := tokens.length + 1
  match tokens with
  | .openBracket :: .openBracket :: rest => do
    let (keys, rest) ← dottedKey? fuel (skipBlank rest)
    match rest with
    | .closeBracket :: .closeBracket :: rest =>
      (endOfLine? rest).map fun rest => (.header keys true, rest)
    | _ => none
  | .openBracket :: rest => do
    let (keys, rest) ← dottedKey? fuel (skipBlank rest)
    match rest with
    | .closeBracket :: rest => (endOfLine? rest).map fun rest => (.header keys false, rest)
    | _ => none
  | _ => do
    let (keys, rest) ← dottedKey? fuel tokens
    match rest with
    | .equals :: rest =>
      let (v, rest) ← value? fuel (skipBlank rest)
      (endOfLine? rest).map fun rest => (.entry keys v, rest)
    | _ => none

/-- At most `fuel` lines, up to the end of the text. -/
def lines? : (fuel : Nat) → List Token → Option (List Line)
  | 0, _ => none
  | fuel + 1, tokens =>
    match skipLines tokens with
    | [] => some []
    | rest => (line? rest).bind fun (line, rest) => (lines? fuel rest).map (line :: ·)

/-- A document under construction. -/
structure Tree where
  entries : List (String × Value) := []
  /-- The keys of the header that is open. -/
  header : List String := []

/-- Add a line. -/
def Tree.add? (t : Tree) : Line → Option Tree
  | .header keys next =>
    (atHeader? (if next then openNext? else openTable?) keys t.entries).map fun entries =>
      { entries, header := keys }
  | .entry keys v =>
    (if t.header.isEmpty then addKey? v keys t.entries
     else atHeader? (addTo? keys v) t.header t.entries).map fun entries => { t with entries }

/-- The entries of the table that a text writes. -/
def read? (text : String) : Option (List (String × Value)) := do
  let tokens ← tokens? text
  let lines ← lines? (tokens.length + 1) tokens
  let tree ← lines.foldlM Tree.add? {}
  some tree.entries

end ObjectFeed.Toml
