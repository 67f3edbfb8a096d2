/-
  UTF-8 read octet by octet.

  A code point is written by one to four octets: a lead, which fixes the width, and the octets
  that follow it.  The second octet is restricted after some leads, which excludes overlong forms,
  surrogates and values above U+10FFFF.

  * `Utf8.width` and `Utf8.followsLead` are the table of well-formed sequences;
  * `Utf8.Reading` says what a short run of octets is: a whole code point, the beginning of one, or
    neither;
  * `Utf8.decode` reads a run of octets as far as it goes.  It ends with the text and the octets of
    an unfinished code point, or at the first octet that no code point can have there.
-/

namespace ObjectFeed

/-- A run of octets. -/
abbrev Octets := List UInt8

namespace Utf8

/-- The number of octets of the code points that start with this octet; zero if none does. -/
def width (lead : UInt8) : Nat :=
  if lead < 0x80 then 1
  else if lead < 0xC2 then 0
  else if lead < 0xE0 then 2
  else if lead < 0xF0 then 3
  else if lead < 0xF5 then 4
  else 0

/-- An octet that stands after the lead, in any but the second place. -/
def isTail (b : UInt8) : Bool :=
  0x80 ≤ b && b ≤ 0xBF

/-- The octets that may stand in the second place after a lead. -/
def followsLead (lead b : UInt8) : Bool :=
  if lead = 0xE0 then 0xA0 ≤ b && b ≤ 0xBF
  else if lead = 0xED then 0x80 ≤ b && b ≤ 0x9F
  else if lead = 0xF0 then 0x90 ≤ b && b ≤ 0xBF
  else if lead = 0xF4 then 0x80 ≤ b && b ≤ 0x8F
  else isTail b

/-- The beginning of a code point, or a whole one. -/
def isBeginning : Octets → Bool
  | [] => true
  | [lead] => width lead != 0
  | lead :: second :: more =>
    followsLead lead second && more.all isTail && more.length + 2 ≤ width lead

/-- The bits of the code point that its lead holds. -/
def leadBits (lead : UInt8) : Nat :=
  match width lead with
  | 2 => lead.toNat % 32
  | 3 => lead.toNat % 16
  | 4 => lead.toNat % 8
  | _ => lead.toNat

/-- The code point that a whole sequence writes: six bits come from each octet after the lead. -/
def codePoint : Octets → Nat
  | [] => 0
  | lead :: tails => tails.foldl (fun n b => n * 64 + b.toNat % 64) (leadBits lead)

/-- What a short run of octets is. -/
inductive Reading where
  /-- The octets of one code point. -/
  | whole (c : Char)
  /-- The first octets of a code point. -/
  | begun
  /-- No code point begins so. -/
  | broken
  deriving DecidableEq, Repr

/-- Read a run of octets as one code point. -/
def Reading.of (octets : Octets) : Reading :=
  if !isBeginning octets then .broken
  else match octets with
    | [] => .begun
    | lead :: tails =>
      if tails.length + 1 = width lead then .whole (Char.ofNat (codePoint octets)) else .begun

/-- How far a run of octets can be read. -/
inductive Decoding where
  /-- To its end: `held` is the beginning of a code point after the text. -/
  | upTo (text : String) (held : Octets)
  /-- To an ill-formed sequence of `length` octets, after `index` octets of text. -/
  | illFormed (index length : Nat)
  deriving DecidableEq, Repr

/-- Read octets after a text and the beginning of a code point. -/
def decodeAfter (text : String) (held : Octets) : Octets → Decoding
  | [] => .upTo text held
  | b :: rest =>
    match Reading.of (held ++ [b]) with
    | .whole c => decodeAfter (text.push c) [] rest
    | .begun => decodeAfter text (held ++ [b]) rest
    | .broken => .illFormed text.utf8ByteSize (max 1 held.length)

/-- Read a run of octets. -/
def decode (octets : Octets) : Decoding :=
  decodeAfter "" [] octets

theorem decodeAfter_append (text : String) (held octets rest : Octets) :
    decodeAfter text held (octets ++ rest) =
      match decodeAfter text held octets with
      | .upTo text' held' => decodeAfter text' held' rest
      | .illFormed index length => .illFormed index length := by
  induction octets generalizing text held with
  | nil => rfl
  | cons b more ih =>
    simp only [List.cons_append, decodeAfter]
    split
    · exact ih _ _
    · exact ih _ _
    · rfl

end Utf8

/-- The octets of a text. -/
def octetsOf (text : String) : Octets :=
  text.toUTF8.toList

end ObjectFeed
