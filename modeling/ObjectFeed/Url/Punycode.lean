/-
  Punycode: international labels written in ASCII.

  The characters beside ASCII are taken in increasing order of their code points.  Each is written by
  how far a counter goes on from the one before, where the counter runs through the places of the
  label for every code point.  The counts are written to the base thirty-six, their lowest digits
  first, with thresholds that adapt to how large the counts have been.

  * `Punycode.encode` writes a label, `Punycode.decode?` reads one.
-/

namespace ObjectFeed.Url.Punycode

/-- The digit of a value below thirty-six. -/
def digit (n : Nat) : Char :=
  if n < 26 then Char.ofNat ('a'.toNat + n) else Char.ofNat ('0'.toNat + n - 26)

/-- The value of a digit, letters in either case. -/
def value? (c : Char) : Option Nat :=
  if c.isDigit then some (c.toNat - '0'.toNat + 26)
  else if c.isAlpha then some (c.toLower.toNat - 'a'.toNat)
  else none

/-- The threshold of the digit at a place, which is thirty-six times its number. -/
def threshold (place bias : Nat) : Nat :=
  if place ≤ bias then 1 else min 26 (place - bias)

/-- Divide a count until it is small, counting the places passed. -/
def settle (count place : Nat) : Nat :=
  if 455 < count then settle (count / 35) (place + 36) else place + 36 * count / (count + 38)
termination_by count
decreasing_by omega

/-- The bias after a count that leaves `size` characters written. -/
def adapt (count size : Nat) (isFirst : Bool) : Nat :=
  let count := if isFirst then count / 700 else count / 2
  settle (count + count / size) 0

/-- The digits of a count, from a place on. -/
def digitsFrom (bias place count : Nat) : List Char :=
  let t := threshold place bias
  if count < t then [digit count]
  else
    digit (t + (count - t) % (36 - t)) :: digitsFrom bias (place + 36) ((count - t) / (36 - t))
termination_by count
decreasing_by
  have hlt : (count - threshold place bias) / (36 - threshold place bias) ≤
      count - threshold place bias := Nat.div_le_self _ _
  have hpos : 0 < threshold place bias := by
    unfold threshold; split <;> omega
  omega

/-- What has been written of a label. -/
structure Writing where
  digits : List Char
  count : Nat
  bias : Nat
  /-- The number of characters written. -/
  size : Nat

/-- Pass one character of the label while the code point `n` is written. -/
def Writing.pass (plain n : Nat) (w : Writing) (c : Char) : Writing :=
  if c.toNat < n then { w with count := w.count + 1 }
  else if c.toNat = n then
    { digits := w.digits ++ digitsFrom w.bias 36 w.count
      count := 0
      bias := adapt w.count (w.size + 1) (w.size = plain)
      size := w.size + 1 }
  else w

/-- Write the places of these code points, which increase from `next` on. -/
def Writing.run (label : List Char) (plain next : Nat) (w : Writing) : List Nat → Writing
  | [] => w
  | n :: more =>
    let w := { w with count := w.count + (n - next) * (w.size + 1) }
    let w := label.foldl (Writing.pass plain n) w
    Writing.run label plain (n + 1) { w with count := w.count + 1 } more

/-- A label with characters beside ASCII, written in ASCII. -/
def encode (label : List Char) : List Char :=
  let plain := label.filter (·.toNat < 0x80)
  let codes := (label.filter (0x80 ≤ ·.toNat)).map Char.toNat
  let codes := (codes.mergeSort (· ≤ ·)).eraseDups
  let start := if plain.isEmpty then [] else plain ++ ['-']
  (Writing.run label plain.length 0x80 ⟨start, 0, 72, plain.length⟩ codes).digits

/-- A count read from the front of digits, and what follows it. -/
def count? (bias : Nat) : (place weight count : Nat) → List Char → Option (Nat × List Char)
  | _, _, _, [] => none
  | place, weight, count, c :: rest =>
    match value? c with
    | none => none
    | some d =>
      let t := threshold place bias
      let count := count + d * weight
      if d < t then some (count, rest) else count? bias (place + 36) (weight * (36 - t)) count rest

/-- Read the places of further characters; there are at most `fuel`. -/
def readFrom? : (fuel n place bias : Nat) → List Char → List Char → Option (List Char)
  | _, _, _, _, read, [] => some read
  | 0, _, _, _, _, _ :: _ => none
  | fuel + 1, n, place, bias, read, digits => do
    let (count, rest) ← count? bias 36 1 0 digits
    let size := read.length + 1
    let code := n + (place + count) / size
    let here := (place + count) % size
    if code.isValidChar then
      readFrom? fuel code (here + 1) (adapt count size (place = 0))
        (read.take here ++ Char.ofNat code :: read.drop here) rest
    else none

/-- The label that ASCII writes. -/
def decode? (text : List Char) : Option (List Char) :=
  let reversed := text.reverse
  let digits := (reversed.takeWhile (· ≠ '-')).reverse
  let plain := ((reversed.dropWhile (· ≠ '-')).drop 1).reverse
  if plain.all (·.toNat < 0x80) && !digits.isEmpty then
    readFrom? digits.length 0x80 0 72 plain digits
  else none

end ObjectFeed.Url.Punycode
