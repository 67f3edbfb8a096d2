/-
  The content of JSON strings.

  * `Json.Symbol` is a character, or the value of an escape by four hexadecimal digits;
  * `Json.symbols?` reads what stands between the quotes.  Control characters below U+0020 and unknown
    escapes are refused;
  * `Json.joinSymbols?` joins the symbols to text: a high surrogate needs a low one right after it, and
    a low surrogate cannot stand alone;
  * `Json.unescape?` is both.
-/

namespace ObjectFeed.Json

/-- A character of a string, or an escaped code unit. -/
inductive Symbol where
  | char (c : Char)
  | code (n : Nat)
  deriving DecidableEq, Repr

/-- The value of a hexadecimal digit in either case. -/
def hexDigit? (c : Char) : Option Nat :=
  if '0' ≤ c && c ≤ '9' then some (c.toNat - '0'.toNat)
  else if 'a' ≤ c && c ≤ 'f' then some (c.toNat - 'a'.toNat + 10)
  else if 'A' ≤ c && c ≤ 'F' then some (c.toNat - 'A'.toNat + 10)
  else none

/-- The value of four hexadecimal digits. -/
def codeUnit? (a b c d : Char) : Option Nat := do
  let a ← hexDigit? a
  let b ← hexDigit? b
  let c ← hexDigit? c
  let d ← hexDigit? d
  some (((a * 16 + b) * 16 + c) * 16 + d)

/-- The character of an escape by one letter. -/
def escapedChar? (c : Char) : Option Char :=
  if c = '"' || c = '\\' || c = '/' then some c
  else if c = 'b' then some '\x08'
  else if c = 'f' then some '\x0c'
  else if c = 'n' then some '\n'
  else if c = 'r' then some '\r'
  else if c = 't' then some '\t'
  else none

/-- The symbols of the text between two quotes. -/
def symbols? : List Char → Option (List Symbol)
  | [] => some []
  | '\\' :: 'u' :: a :: b :: c :: d :: rest => do
    let n ← codeUnit? a b c d
    let more ← symbols? rest
    some (.code n :: more)
  | '\\' :: e :: rest => do
    let c ← escapedChar? e
    let more ← symbols? rest
    some (.char c :: more)
  | c :: rest =>
    if c < ' ' || c = '\\' then none
    else do
      let more ← symbols? rest
      some (.char c :: more)

/-- The code units that begin a pair. -/
def isHighSurrogate (n : Nat) : Bool := 0xD800 ≤ n && n < 0xDC00

/-- The code units that end a pair. -/
def isLowSurrogate (n : Nat) : Bool := 0xDC00 ≤ n && n < 0xE000

/-- The text that symbols write. -/
def joinSymbols? : List Symbol → Option (List Char)
  | [] => some []
  | .char c :: rest => do
    let more ← joinSymbols? rest
    some (c :: more)
  | .code high :: .code low :: rest =>
    if isHighSurrogate high then
      if isLowSurrogate low then do
        let more ← joinSymbols? rest
        some (Char.ofNat ((high - 0xD800) * 1024 + (low - 0xDC00) + 0x10000) :: more)
      else none
    else if isLowSurrogate high then none
    else do
      let more ← joinSymbols? (.code low :: rest)
      some (Char.ofNat high :: more)
  | .code n :: rest =>
    if isHighSurrogate n || isLowSurrogate n then none
    else do
      let more ← joinSymbols? rest
      some (Char.ofNat n :: more)

/-- The text that a string writes between its quotes. -/
def unescape? (body : List Char) : Option String := do
  let symbols ← symbols? body
  let text ← joinSymbols? symbols
  some (String.ofList text)

end ObjectFeed.Json
