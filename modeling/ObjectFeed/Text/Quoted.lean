/-
  The quoted form in which a text is shown inside a message.

  The form stands in double quotes.  A quote, a backslash and the usual control characters are
  written with a backslash and a letter; any other character that has no visible form, or that
  would attach to the one before it, is written by its code point; all else stands as it is.

  * `Text.quotedChar` is the form of one character, `Text.quoted` that of a text.
-/
import ObjectFeed.Text.Extending
import ObjectFeed.Text.Printable

namespace ObjectFeed.Text

/-- The digits of a number to the base sixteen, in lower case and without leading zeros. -/
def hexDigits (n : Nat) : String :=
  String.ofList (Nat.toDigits 16 n)

/-- A character written by its code point. -/
def codePointForm (c : Char) : String :=
  "\\u\x7b" ++ hexDigits c.toNat ++ "\x7d"

/-- The form of one character between the quotes. -/
def quotedChar (c : Char) : String :=
  if c = '"' then "\\\""
  else if c = '\\' then "\\\\"
  else if c = '\n' then "\\n"
  else if c = '\r' then "\\r"
  else if c = '\t' then "\\t"
  else if c = '\x00' then "\\0"
  else if isExtending c || !isPrintable c then codePointForm c
  else c.toString

/-- The form of a text, its quotes included. -/
def quoted (s : String) : String :=
  s.toList.foldl (fun shown c => shown ++ quotedChar c) "\"" ++ "\""

end ObjectFeed.Text
