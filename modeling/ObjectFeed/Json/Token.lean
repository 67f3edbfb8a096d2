/-
  JSON text as tokens.

  A token keeps its lexeme: a string keeps the characters between its quotes with their escapes as
  they are written, and a word is a run of characters that are no mark, quote or blank, whether or
  not it is a number or a literal.  So the tokens of a text, each with its own spelling, are the text
  less the blanks between them.

  * `Json.Token` and `Token.lexeme`;
  * `Json.tokens?` gives the tokens of a text, unless it ends inside a string.
-/
import ObjectFeed.Text.Blank

namespace ObjectFeed.Json

/-- The marks of JSON. -/
inductive Mark where
  | openBrace
  | closeBrace
  | openBracket
  | closeBracket
  | colon
  | comma
  deriving DecidableEq, Repr

namespace Mark

/-- How a mark is written. -/
def toChar : Mark → Char
  | openBrace => '{'
  | closeBrace => '}'
  | openBracket => '['
  | closeBracket => ']'
  | colon => ':'
  | comma => ','

/-- The mark that a character writes. -/
def ofChar? (c : Char) : Option Mark :=
  if c = '{' then some openBrace
  else if c = '}' then some closeBrace
  else if c = '[' then some openBracket
  else if c = ']' then some closeBracket
  else if c = ':' then some colon
  else if c = ',' then some comma
  else none

@[simp] theorem ofChar?_toChar (m : Mark) : ofChar? m.toChar = some m := by
  cases m <;> rfl

end Mark

/-- A token with its spelling. -/
inductive Token where
  | mark (m : Mark)
  /-- A string: what stands between its quotes. -/
  | quoted (body : List Char)
  /-- A run of other characters. -/
  | word (spelling : List Char)
  deriving DecidableEq, Repr

/-- The characters a token is written with. -/
def Token.lexeme : Token → List Char
  | mark m => [m.toChar]
  | quoted body => '"' :: body ++ ['"']
  | word spelling => spelling

/-- The token being read; its characters come newest first. -/
inductive Pending where
  | nothing
  | word (read : List Char)
  | quoted (read : List Char)
  /-- Inside a string, after a backslash. -/
  | escaped (read : List Char)
  deriving DecidableEq, Repr

/-- What has been read of a text. -/
structure Lexing where
  /-- The tokens read, newest first. -/
  done : List Token := []
  pending : Pending := .nothing
  deriving DecidableEq, Repr

namespace Lexing

/-- End the word being read. -/
def endWord (l : Lexing) : Lexing :=
  match l.pending with
  | .word read => { done := .word read.reverse :: l.done, pending := .nothing }
  | _ => l

/-- Read one character. -/
def step (isBlank : Char → Bool) (l : Lexing) (c : Char) : Lexing :=
  match l.pending with
  | .quoted read =>
    if c = '"' then { done := .quoted read.reverse :: l.done, pending := .nothing }
    else if c = '\\' then { l with pending := .escaped (c :: read) }
    else { l with pending := .quoted (c :: read) }
  | .escaped read => { l with pending := .quoted (c :: read) }
  | _ =>
    match Mark.ofChar? c with
    | some m => { done := .mark m :: l.endWord.done, pending := .nothing }
    | none =>
      if c = '"' then { l.endWord with pending := .quoted [] }
      else if isBlank c then l.endWord
      else match l.pending with
        | .word read => { l with pending := .word (c :: read) }
        | _ => { l with pending := .word [c] }

/-- The tokens of a text that ends here. -/
def finish? (l : Lexing) : Option (List Token) :=
  match l.pending with
  | .quoted _ | .escaped _ => none
  | _ => some l.endWord.done.reverse

end Lexing

/-- The tokens of a text, with these blanks between them. -/
def tokens? (isBlank : Char → Bool) (text : List Char) : Option (List Token) :=
  (text.foldl (Lexing.step isBlank) {}).finish?

end ObjectFeed.Json
