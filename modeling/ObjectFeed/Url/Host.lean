/-
  The hosts of URLs.

  * `Url.Host` is a domain, an address of either kind, or an opaque name;
  * `Host.ofSpecial?` reads the host of a special scheme: a text in brackets is an address of version
    6, a domain whose last label is a number is an address of version 4;
  * `Host.ofOpaque?` reads the host of any other scheme;
  * `Host.toText` writes a host.
-/
import ObjectFeed.Text.LowerCase
import ObjectFeed.Url.Encoding
import ObjectFeed.Url.Punycode

namespace ObjectFeed.Url

/-- Why a text is no URL. -/
inductive Fault where
  /-- It has no scheme. -/
  | relative
  | emptyHost
  /-- The host cannot be a domain of letters of any script. -/
  | badDomain
  /-- The host has a character that no host has. -/
  | badHostChar
  | badVersion4
  | badVersion6
  | badPort
  deriving DecidableEq, Repr

/-- The wording of a fault. -/
def Fault.message : Fault → String
  | relative => "relative URL without a base"
  | emptyHost => "empty host"
  | badDomain => "invalid international domain name"
  | badHostChar => "invalid domain character"
  | badVersion4 => "invalid IPv4 address"
  | badVersion6 => "invalid IPv6 address"
  | badPort => "invalid port number"

/-- A host. -/
inductive Host where
  /-- A domain, or the name of an opaque host, as it is written. -/
  | name (text : String)
  | version4 (address : Nat)
  /-- The eight pieces of an address. -/
  | version6 (pieces : List Nat)
  deriving DecidableEq, Repr

namespace Host

/-- The parts of a text between separators. -/
def splitOn (isSeparator : Char → Bool) : List Char → List (List Char)
  | [] => [[]]
  | c :: rest =>
    if isSeparator c then [] :: splitOn isSeparator rest
    else
      match splitOn isSeparator rest with
      | part :: parts => (c :: part) :: parts
      | [] => [[c]]

/-! ## Addresses of version 4 -/

/-- A part of an address: hexadecimal after `0x`, octal after `0`, or decimal. -/
def number4? (part : List Char) : Option Nat :=
  let value (base : Nat) (digits : List Char) : Option Nat :=
    digits.foldlM (fun n c => (Json.hexDigit? c).bind fun d =>
      if d < base then some (n * base + d) else none) 0
  match part with
  | [] => none
  | '0' :: 'x' :: digits | '0' :: 'X' :: digits => value 16 digits
  | '0' :: digit :: digits => value 8 (digit :: digits)
  | digits => value 10 digits

/-- The parts of a domain, without an empty one at its end. -/
def labels (domain : List Char) : List (List Char) :=
  let parts := splitOn (· = '.') domain
  if 1 < parts.length && parts.getLast? = some [] then parts.dropLast else parts

/-- Whether the last label of a domain is a number. -/
def endsInNumber (domain : List Char) : Bool :=
  match (labels domain).getLast? with
  | some last =>
    !last.isEmpty &&
      (last.all Char.isDigit ||
        match last with
        | '0' :: 'x' :: digits | '0' :: 'X' :: digits =>
          digits.all fun c => (Json.hexDigit? c).isSome
        | _ => false)
  | none => false

/-- The address that numbers write: each is an octet, but the last fills what is left. -/
def address4? (numbers : List Nat) : Option Nat :=
  match numbers.getLast? with
  | some last =>
    let first := numbers.dropLast
    if 4 < numbers.length || first.any (255 < ·) || Nat.pow 256 (5 - numbers.length) ≤ last then none
    else some (first.foldl (fun n part => n * 256 + part) 0 * Nat.pow 256 (5 - numbers.length) + last)
  | none => none

/-- An address of version 4. -/
def version4? (domain : List Char) : Option Host :=
  (((labels domain).mapM number4?).bind address4?).map version4

/-! ## Addresses of version 6 -/

/-- Four decimal octets, as two pieces. -/
def tail4? (text : List Char) : Option (List Nat) :=
  let octet? (part : List Char) : Option Nat :=
    if part.isEmpty || !part.all Char.isDigit || (1 < part.length && part.head? = some '0') then none
    else
      let n := part.foldl (fun n c => n * 10 + (c.toNat - '0'.toNat)) 0
      if n ≤ 255 then some n else none
  match (splitOn (· = '.') text).mapM octet? with
  | some [a, b, c, d] => some [a * 256 + b, c * 256 + d]
  | _ => none

/-- One to four hexadecimal digits. -/
def piece? (text : List Char) : Option Nat :=
  if text.isEmpty || 4 < text.length then none
  else text.foldlM (fun n c => (Json.hexDigit? c).map (n * 16 + ·)) 0

/-- Pieces between colons, of which the last may be written as four octets. -/
def pieces? : List (List Char) → Option (List Nat)
  | [] => some []
  | [last] => if last.contains '.' then tail4? last else (piece? last).map fun p => [p]
  | part :: more => do
    let p ← piece? part
    let ps ← pieces? more
    some (p :: ps)

/-- The text before and after the first pair of colons. -/
def splitGap : List Char → Option (List Char × List Char)
  | ':' :: ':' :: rest => some ([], rest)
  | c :: rest => (splitGap rest).map fun (before, after) => (c :: before, after)
  | [] => none

/-- Pieces between colons, or none. -/
def run6? (text : List Char) : Option (List Nat) :=
  if text.isEmpty then some [] else pieces? (splitOn (· = ':') text)

/-- An address of version 6; a pair of colons stands for the zeros that are missing. -/
def version6? (text : List Char) : Option Host :=
  match splitGap text with
  | none => (run6? text).bind fun ps => if ps.length = 8 then some (version6 ps) else none
  | some (before, after) => do
    if before.contains '.' then none
    else
      let front ← run6? before
      let back ← run6? after
      let size := front.length + back.length
      if 7 < size then none
      else some (version6 (front ++ List.replicate (8 - size) 0 ++ back))

/-- The length of the zeros at the front. -/
def zerosAt (pieces : List Nat) : Nat := (pieces.takeWhile (· = 0)).length

/-- The place and the length of the first longest run of two or more zeros. -/
def longestZeros (pieces : List Nat) : Option (Nat × Nat) :=
  let runs := (List.range pieces.length).map fun i => (i, zerosAt (pieces.drop i))
  runs.foldl (fun best (i, n) =>
    match best with
    | some (_, m) => if m < n then some (i, n) else best
    | none => if 2 ≤ n then some (i, n) else none) none

/-- Pieces in hexadecimal, with colons between them. -/
def colonForm (pieces : List Nat) : String :=
  ":".intercalate (pieces.map fun p => String.ofList (Nat.toDigits 16 p))

/-- The form of an address of version 6 in brackets. -/
def version6Form (pieces : List Nat) : String :=
  match longestZeros pieces with
  | none => "[" ++ colonForm pieces ++ "]"
  | some (i, n) =>
    "[" ++ colonForm (pieces.take i) ++ "::" ++ colonForm (pieces.drop (i + n)) ++ "]"

/-! ## Domains -/

/-- The characters that no domain has. -/
def isForbidden (c : Char) : Bool :=
  c ≤ ' ' || c = '\x7f' || "%#/:<>?@[\\]^|".toList.contains c

/-- The full stops of other scripts separate labels too. -/
def isStop (c : Char) : Bool :=
  c = '.' || c = '\u3002' || c = '\uff0e' || c = '\uff61'

/-- A label in small letters and ASCII. -/
def label? (label : List Char) : Option (List Char) :=
  let small := label.map Text.toLower
  if small.all (·.toNat < 0x80) then
    match small with
    | 'x' :: 'n' :: '-' :: '-' :: code => (Punycode.decode? code).map fun _ => small
    | _ => some small
  else some ("xn--".toList ++ Punycode.encode small)

/-- A domain in small letters and ASCII. -/
def domain? (text : List Char) : Option (List Char) := do
  let labels ← (splitOn isStop text).mapM label?
  let domain := ['.'].intercalate labels
  if domain.any isForbidden then none else some domain

/-- The text between brackets, if a text begins with one. -/
def bracketed (text : List Char) : Option (Except Fault Host) :=
  match text with
  | '[' :: rest =>
    if rest.getLast? = some ']' then
      match version6? rest.dropLast with
      | some host => some (.ok host)
      | none => some (.error .badVersion6)
    else some (.error .badVersion6)
  | _ => none

/-- The host of a special scheme. -/
def ofSpecial? (text : List Char) : Except Fault Host :=
  match bracketed text with
  | some host => host
  | none =>
    match Utf8.decode (percentDecode text) with
    | .upTo decoded [] =>
      match domain? decoded.toList with
      | none => .error .badDomain
      | some [] => .error .emptyHost
      | some domain =>
        if endsInNumber domain then
          match version4? domain with
          | some host => .ok host
          | none => .error .badVersion4
        else .ok (name (String.ofList domain))
    | _ => .error .badDomain

/-- The host of a scheme that is not special. -/
def ofOpaque? (text : List Char) : Except Fault Host :=
  match bracketed text with
  | some host => host
  | none =>
    if text.any "\x00\t\n\r #/:<>?@[\\]^|".toList.contains then .error .badHostChar
    else .ok (name (String.ofList (percentEncode isControl text)))

/-- The text of a host. -/
def toText : Host → String
  | name text => text
  | version4 n =>
    ".".intercalate ([3, 2, 1, 0].map fun place => toString (n / Nat.pow 256 place % 256))
  | version6 pieces => version6Form pieces

end Host

end ObjectFeed.Url
