/-
  TOML text as tokens.

  * `Toml.Token` are the marks, the runs of characters that can be a bare key, and the strings, with
    their escapes resolved;
  * `Toml.tokens?` gives the tokens of a text.  A line may end with a carriage return before its line
    feed.
-/
import ObjectFeed.Json.Quoted

namespace ObjectFeed.Toml

/-- A token. -/
inductive Token where
  /-- A number of spaces and tabs; `single` if it is one space. -/
  | blank (single : Bool)
  | newline
  | comment
  | equals
  | period
  | comma
  | colon
  | plus
  | openBrace
  | closeBrace
  | openBracket
  | closeBracket
  /-- Letters, digits, underscores and hyphens. -/
  | bare (spelling : String)
  /-- A string in quotes; `lines` if it may run over several lines. -/
  | quoted (text : String) (lines : Bool)
  deriving DecidableEq, Repr

/-- The characters of bare keys. -/
def isBareChar (c : Char) : Bool :=
  c.isAlphanum || c = '_' || c = '-'

/-- The characters that may stand for themselves in strings and comments. -/
def isPlainChar (c : Char) : Bool :=
  c = '\t' || (' ' ≤ c && c ≠ '\x7f')

/-- Lines that end in the two-character way end in a line feed. -/
def foldLineEnds : List Char → List Char
  | '\r' :: '\n' :: rest => '\n' :: foldLineEnds rest
  | c :: rest => c :: foldLineEnds rest
  | [] => []

/-- A literal string up to its closing quotes, and what follows them. -/
def literal? (lines : Bool) (read : List Char) : List Char → Option (String × List Char)
  | [] => none
  | '\'' :: rest =>
    if lines then
      match rest with
      | '\'' :: '\'' :: rest => some (String.ofList read.reverse, rest)
      | _ => literal? lines ('\'' :: read) rest
    else some (String.ofList read.reverse, rest)
  | c :: rest =>
    if isPlainChar c || (lines && c = '\n') then literal? lines (c :: read) rest else none

/-- The value of hexadecimal digits. -/
def hexValue? (digits : List Char) : Option Nat :=
  digits.foldlM (fun n c => (Json.hexDigit? c).map (n * 16 + ·)) 0

/-- The character of a code point that is written by hexadecimal digits. -/
def charOfHex? (digits : List Char) : Option Char :=
  (hexValue? digits).bind fun n => if n.isValidChar then some (Char.ofNat n) else none

/-- The character of an escape by one letter. -/
def escapedChar? (c : Char) : Option Char :=
  if c = '/' then none else Json.escapedChar? c

/-- What is passed over after a backslash that ends a line. -/
inductive Gap where
  | none
  /-- The rest of the line. -/
  | line
  /-- The blanks and empty lines after it. -/
  | lines
  deriving DecidableEq, Repr

/-- A basic string up to its closing quotes, and what follows them. -/
def basic? (lines : Bool) (gap : Gap) (read : List Char) : List Char → Option (String × List Char)
  | [] => none
  | c :: rest =>
    if gap ≠ .none && (c = ' ' || c = '\t') then basic? lines gap read rest
    else if gap ≠ .none && c = '\n' then basic? lines .lines read rest
    else if gap = .line then none
    else if c = '"' then
      if lines then
        match rest with
        | '"' :: '"' :: rest => some (String.ofList read.reverse, rest)
        | _ => basic? lines .none ('"' :: read) rest
      else some (String.ofList read.reverse, rest)
    else if c = '\\' then
      match rest with
      | 'u' :: a :: b :: c :: d :: rest =>
        (charOfHex? [a, b, c, d]).bind fun c => basic? lines .none (c :: read) rest
      | 'U' :: a :: b :: c :: d :: e :: f :: g :: h :: rest =>
        (charOfHex? [a, b, c, d, e, f, g, h]).bind fun c => basic? lines .none (c :: read) rest
      | e :: rest =>
        if lines && e = '\n' then basic? lines .lines read rest
        else if lines && (e = ' ' || e = '\t') then basic? lines .line read rest
        else (escapedChar? e).bind fun c => basic? lines .none (c :: read) rest
      | [] => none
    else if isPlainChar c || (lines && c = '\n') then basic? lines .none (c :: read) rest
    else none

/-- The token of a mark. -/
def markOf? (c : Char) : Option Token :=
  if c = '\n' then some .newline
  else if c = '=' then some .equals
  else if c = '.' then some .period
  else if c = ',' then some .comma
  else if c = ':' then some .colon
  else if c = '+' then some .plus
  else if c = '{' then some .openBrace
  else if c = '}' then some .closeBrace
  else if c = '[' then some .openBracket
  else if c = ']' then some .closeBracket
  else none

/-- The token that starts with a character, and what follows it. -/
def token? (c : Char) (rest : List Char) : Option (Token × List Char) :=
  if c = ' ' || c = '\t' then
    let isGap (c : Char) : Bool := c = ' ' || c = '\t'
    some (.blank (c = ' ' && (rest.takeWhile isGap).isEmpty), rest.dropWhile isGap)
  else if c = '#' then some (.comment, rest.dropWhile isPlainChar)
  else if c = '"' then
    match rest with
    | '"' :: '"' :: '\n' :: rest | '"' :: '"' :: rest =>
      (basic? true .none [] rest).map fun (text, rest) => (.quoted text true, rest)
    | _ => (basic? false .none [] rest).map fun (text, rest) => (.quoted text false, rest)
  else if c = '\'' then
    match rest with
    | '\'' :: '\'' :: '\n' :: rest | '\'' :: '\'' :: rest =>
      (literal? true [] rest).map fun (text, rest) => (.quoted text true, rest)
    | _ => (literal? false [] rest).map fun (text, rest) => (.quoted text false, rest)
  else if isBareChar c then
    some (.bare (String.ofList (c :: rest.takeWhile isBareChar)), rest.dropWhile isBareChar)
  else (markOf? c).map fun mark => (mark, rest)

/-- At most `fuel` tokens, up to the end of the text. -/
def tokensWithin? : (fuel : Nat) → List Char → Option (List Token)
  | _, [] => some []
  | 0, _ :: _ => none
  | fuel + 1, c :: rest =>
    (token? c rest).bind fun (token, rest) => (tokensWithin? fuel rest).map (token :: ·)

/-- The tokens of a text; a byte order mark at its beginning is passed over. -/
def tokens? (text : String) : Option (List Token) :=
  let chars := foldLineEnds text.toList
  let chars := if chars.head? = some '\ufeff' then chars.drop 1 else chars
  tokensWithin? chars.length chars

end ObjectFeed.Toml
