/-
  The numbers of JSON.

  * `Json.Number` is a decimal: a sign, digits and a power of ten.  It keeps apart the numbers that
    are written as integers;
  * `Number.ofChars?` reads the grammar of numbers: no leading zeros, digits on both sides of the
    point, an exponent with at least one digit;
  * `Number.int?` is the value of a number written as an integer;
  * `Number.isFinite` tells the numbers whose nearest double is finite.
-/

namespace ObjectFeed.Json

/-- The number `± digits * 10 ^ exponent`. -/
structure Number where
  negative : Bool
  digits : Nat
  exponent : Int
  /-- Written without a fraction and without an exponent. -/
  isInteger : Bool
  deriving DecidableEq, Repr

namespace Number

/-- The value of decimal digits. -/
def natOfDigits (digits : List Char) : Nat :=
  digits.foldl (fun n c => n * 10 + (c.toNat - '0'.toNat)) 0

/-- An optional sign and at least one digit, to the end of the text. -/
def exponentOf? (text : List Char) : Option Int :=
  let value? (digits : List Char) : Option Nat :=
    if digits.isEmpty || !digits.all Char.isDigit then none else some (natOfDigits digits)
  match text with
  | '-' :: digits => (value? digits).map fun n => -(n : Int)
  | '+' :: digits => (value? digits).map fun n => (n : Int)
  | digits => (value? digits).map fun n => (n : Int)

/-- The number after its sign and its digits before the point. -/
def afterWhole? (negative : Bool) (whole rest : List Char) : Option Number :=
  let fraction := match rest with
    | '.' :: more => some (more.takeWhile Char.isDigit)
    | _ => none
  let rest := match rest with
    | '.' :: more => more.dropWhile Char.isDigit
    | _ => rest
  if fraction = some [] then none
  else
    let places := fraction.getD []
    let digits := natOfDigits (whole ++ places)
    match rest with
    | [] => some ⟨negative, digits, -(places.length : Int), fraction.isNone⟩
    | e :: power =>
      if e = 'e' || e = 'E' then
        (exponentOf? power).map fun n => ⟨negative, digits, n - places.length, false⟩
      else none

/-- Read a number. -/
def ofChars? (text : List Char) : Option Number :=
  let negative := text.head? == some '-'
  let text := if negative then text.drop 1 else text
  let whole := text.takeWhile Char.isDigit
  if whole.isEmpty || (whole.head? == some '0' && 1 < whole.length) then none
  else afterWhole? negative whole (text.dropWhile Char.isDigit)

/-- The value of a number that is written as an integer. -/
def int? (n : Number) : Option Int :=
  if n.isInteger then some (if n.negative then -(n.digits : Int) else n.digits) else none

/-- The least magnitude whose nearest double is infinite: half a unit above the largest double. -/
def infinityBound : Nat := Nat.pow 2 1024 - Nat.pow 2 970

/-- Whether the nearest double is finite.  Two comparisons of lengths spare the powers of ten that
    would be out of proportion. -/
def isFinite (n : Number) : Bool :=
  let length : Int := (Nat.toDigits 10 n.digits).length + n.exponent
  if n.digits = 0 || length ≤ 308 then true
  else if 310 < length then false
  else if 0 ≤ n.exponent then n.digits * Nat.pow 10 n.exponent.toNat < infinityBound
  else n.digits < infinityBound * Nat.pow 10 (-n.exponent).toNat

/-- Whether the number has a machine form: an integer of 64 bits, signed or not, or a double. -/
def hasMachineForm (n : Number) : Bool :=
  match n.int? with
  | some i => Int64.minValue.toInt ≤ i && i < UInt64.size
  | none => n.isFinite

end Number

end ObjectFeed.Json
