/-
  Percent-encoding and form-urlencoding.

  * `Url.percentEncode` writes the octets of the characters of a class as a percent sign and two
    digits; beside ASCII every character is written so.  The classes are those of the parts of a URL;
  * `Url.percentDecode` undoes it;
  * `Url.formEncode` writes text as a form does: a space becomes a plus, and all but letters, digits
    and four marks is percent-encoded;
  * `Url.withPairs` appends pairs of keys and values to a query.
-/
import ObjectFeed.Json.Quoted
import ObjectFeed.Utf8.Octets

namespace ObjectFeed.Url

/-! ## Classes of characters -/

/-- Control characters. -/
def isControl (c : Char) : Bool := c < ' ' || c = '\x7f'

/-- What is encoded in a fragment, beside what is not ASCII. -/
def isFragmentEncoded (c : Char) : Bool :=
  isControl c || [' ', '"', '<', '>', '\x60'].contains c

/-- What is encoded in a query. -/
def isQueryEncoded (c : Char) : Bool :=
  isControl c || [' ', '"', '#', '<', '>'].contains c

/-- What is encoded in the query of a special scheme. -/
def isSpecialQueryEncoded (c : Char) : Bool :=
  isQueryEncoded c || c = '\''

/-- What is encoded in a path. -/
def isPathEncoded (c : Char) : Bool :=
  isFragmentEncoded c || ['#', '?', '\x7b', '\x7d'].contains c

/-- What is encoded in a user's name and password. -/
def isUserEncoded (c : Char) : Bool :=
  isPathEncoded c || ['/', ':', ';', '=', '@', '[', '\\', ']', '^', '|'].contains c

/-! ## Encoding -/

/-- A hexadecimal digit in upper case. -/
def upperHexDigit (n : Nat) : Char :=
  if n < 10 then Char.ofNat ('0'.toNat + n) else Char.ofNat ('A'.toNat + n - 10)

/-- An octet as a percent sign and two digits. -/
def encodeOctet (b : UInt8) : List Char :=
  ['%', upperHexDigit (b.toNat / 16), upperHexDigit (b.toNat % 16)]

/-- A character by its octets. -/
def encodeChar (c : Char) : List Char :=
  (octetsOf (String.singleton c)).flatMap encodeOctet

/-- Encode the characters of a class and those beside ASCII. -/
def percentEncode (isEncoded : Char → Bool) (text : List Char) : List Char :=
  text.flatMap fun c => if 0x80 ≤ c.toNat || isEncoded c then encodeChar c else [c]

/-- The octets that a text writes, a percent sign without two digits standing for itself. -/
def percentDecode : List Char → Octets
  | [] => []
  | '%' :: a :: b :: rest =>
    match Json.hexDigit? a, Json.hexDigit? b with
    | some high, some low => UInt8.ofNat (high * 16 + low) :: percentDecode rest
    | _, _ => 0x25 :: percentDecode (a :: b :: rest)
  | c :: rest => octetsOf (String.singleton c) ++ percentDecode rest

/-! ## Forms -/

/-- A character in a form. -/
def formEncodeChar (c : Char) : List Char :=
  if c.isAlphanum || ['*', '-', '.', '_'].contains c then [c]
  else if c = ' ' then ['+']
  else encodeChar c

/-- A text in a form. -/
def formEncode (text : String) : String :=
  String.ofList (text.toList.flatMap formEncodeChar)

/-- A key and a value in a form. -/
def formPair (pair : String × String) : String :=
  formEncode pair.1 ++ "=" ++ formEncode pair.2

/-- A query with pairs appended, each after an ampersand unless it is the first thing in it. -/
def withPairs (query : String) (pairs : List (String × String)) : String :=
  pairs.foldl (fun q pair => (if q.isEmpty then q else q ++ "&") ++ formPair pair) query

end ObjectFeed.Url
