/-
  The numbers and the dates of TOML.

  * `Toml.integer?` and `Toml.float?` read numbers, with single underscores between digits;
  * `Toml.isDatetime` tells whether a text is a date, a time, or both, with or without an offset.
-/
import ObjectFeed.Json.Number

namespace ObjectFeed.Toml

/-- The value of a digit to any base up to thirty-six. -/
def digitValue (c : Char) : Nat :=
  if c.isDigit then c.toNat - '0'.toNat
  else if c.isAlpha then c.toLower.toNat - 'a'.toNat + 10
  else 36

/-- Digits with single underscores between them: the digits, and what follows them. -/
def digits? (base : Nat) : (read : List Char) → List Char → Option (List Char × List Char)
  | [], '_' :: _ => none
  | read, '_' :: c :: rest =>
    if digitValue c < base then digits? base (c :: read) rest else none
  | read, c :: rest =>
    if c = '_' then none
    else if digitValue c < base then digits? base (c :: read) rest
    else if read.isEmpty then none
    else some (read.reverse, c :: rest)
  | [], [] => none
  | read, [] => some (read.reverse, [])

/-- Take a sign off.  Gives whether it was a minus. -/
def sign (text : List Char) : Bool × List Char :=
  match text with
  | '-' :: rest => (true, rest)
  | '+' :: rest => (false, rest)
  | _ => (false, text)

/-- Decimal digits that do not begin with a needless zero. -/
def wholeDigits? (text : List Char) : Option (List Char × List Char) :=
  (digits? 10 [] text).filter fun (digits, _) => !(digits.head? == some '0' && 1 < digits.length)

/-- The value of digits. -/
def valueOf (base : Nat) (digits : List Char) : Nat :=
  digits.foldl (fun n c => n * base + digitValue c) 0

/-- An integer of 64 bits to a base; only decimal ones have a sign. -/
def integer? (base : Nat) (text : List Char) : Option Int :=
  if base = 10 then
    let (negative, text) := sign text
    match wholeDigits? text with
    | some (digits, []) =>
      let n : Int := if negative then -(valueOf 10 digits : Int) else valueOf 10 digits
      if Int64.minValue.toInt ≤ n && n ≤ Int64.maxValue.toInt then some n else none
    | _ => none
  else
    match digits? base [] text with
    | some (digits, []) =>
      let n : Int := valueOf base digits
      if n ≤ Int64.maxValue.toInt then some n else none
    | _ => none

/-- The power of ten after an `e`. -/
def power? (text : List Char) : Option Int :=
  let (negative, text) := sign text
  match digits? 10 [] text with
  | some (digits, []) => some (if negative then -(valueOf 10 digits : Int) else valueOf 10 digits)
  | _ => none

/-- A finite number with a fraction, a power of ten, or both. -/
def float? (text : List Char) : Option Json.Number := do
  let (negative, text) := sign text
  let (whole, rest) ← wholeDigits? text
  let (places, rest) ← match rest with
    | '.' :: rest => digits? 10 [] rest
    | _ => some ([], rest)
  let power ← match rest with
    | [] => some 0
    | e :: rest => if e = 'e' || e = 'E' then power? rest else none
  let number : Json.Number :=
    ⟨negative, valueOf 10 (whole ++ places), power - places.length, false⟩
  if number.isFinite then some number else none

/-- A number of two digits up to a greatest one, and what follows it. -/
def twoDigits? (least greatest : Nat) : List Char → Option (List Char)
  | a :: b :: rest =>
    let n := valueOf 10 [a, b]
    if a.isDigit && b.isDigit && least ≤ n && n ≤ greatest then some rest else none
  | _ => none

/-- Take a character off. -/
def expect? (c : Char) : List Char → Option (List Char)
  | [] => none
  | d :: rest => if c = d then some rest else none

/-- What follows a date. -/
def afterDate? : List Char → Option (List Char)
  | a :: b :: c :: d :: rest =>
    if [a, b, c, d].all Char.isDigit then do
      let rest ← twoDigits? 1 12 (← expect? '-' rest)
      twoDigits? 1 31 (← expect? '-' rest)
    else none
  | _ => none

/-- What follows a time. -/
def afterTime? (text : List Char) : Option (List Char) := do
  let rest ← twoDigits? 0 24 text
  let rest ← twoDigits? 0 59 (← expect? ':' rest)
  let rest ← twoDigits? 0 59 (← expect? ':' rest)
  match rest with
  | '.' :: rest =>
    if (rest.takeWhile Char.isDigit).isEmpty then none else some (rest.dropWhile Char.isDigit)
  | _ => some rest

/-- Whether a text is an offset from universal time, or empty. -/
def isOffset : List Char → Bool
  | [] | ['Z'] | ['z'] => true
  | c :: rest =>
    (c = '+' || c = '-') &&
      (do twoDigits? 0 99 (← expect? ':' (← twoDigits? 0 99 rest))) == some []

/-- Whether a text is a date, a time, or both. -/
def isDatetime (text : List Char) : Bool :=
  if text[2]? == some ':' then afterTime? text == some []
  else
    match afterDate? text with
    | some [] => true
    | some (c :: rest) =>
      (c = 'T' || c = 't' || c = ' ') && (afterTime? rest).any isOffset
    | none => false

end ObjectFeed.Toml
