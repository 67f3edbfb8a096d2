/-
  Where the objects of a streamed array begin and end.

  A splitter reads the text of an array one character at a time and never looks ahead, so the text
  may be cut into fragments anywhere.  It counts the open braces and brackets outside strings, both
  alike.  An object begins at a brace at depth one and ends with the brace that brings the depth
  back to one; its text is what was read in between, less the blanks outside strings and, unless
  they are kept, the brackets outside strings.

  * `Splitter.Place` is what is remembered between two characters;
  * `Splitter.step` reads one character, `Splitter.run` a text up to the first refused character;
  * `run_append`: reading a text is reading its first part and then, unless that was refused, the
    rest;
  * `Splitter.feed` and `Splitter.feedEach` are these for fragments.
-/
import ObjectFeed.Failure
import ObjectFeed.Text.Blank

namespace ObjectFeed

open Text (isBlank)

namespace Splitter

/-- How the less regular corners of a feed are read. -/
structure Options where
  /-- A backslash inside a string takes the next character with it.  Otherwise every quote outside a
      string opens one and every quote inside it closes it. -/
  honorEscapes : Bool := true
  /-- The brackets inside an object stay in its text.  Otherwise they only move the depth. -/
  keepBrackets : Bool := false
  /-- The largest size, in octets, of the object being read. -/
  sizeLimit : Option Nat := none
  deriving DecidableEq, Repr

/-- Where a character stands with respect to string literals. -/
inductive Mode where
  /-- Outside strings. -/
  | plain
  /-- Inside a string. -/
  | quoted
  /-- Inside a string, after a backslash that takes this character with it. -/
  | escaped
  deriving DecidableEq, Repr

/-- What is remembered between two characters. -/
inductive Place where
  /-- Before the array. -/
  | before
  /-- Inside the array: the number of open braces and brackets, the array's own included, the mode,
      and the text read of the current object. -/
  | inside (depth : Nat) (mode : Mode) (object : String)
  /-- After the array. -/
  | after
  deriving DecidableEq, Repr

namespace Place

/-- The number of open braces and brackets. -/
def depth : Place → Nat
  | inside depth _ _ => depth
  | before | after => 0

/-- Whether the next character stands inside a string. -/
def inString : Place → Bool
  | inside _ mode _ => mode != .plain
  | before | after => false

/-- Whether the next character is taken by a backslash. -/
def isEscaped : Place → Bool
  | inside _ mode _ => mode == .escaped
  | before | after => false

/-- The text read of the current object. -/
def object : Place → String
  | inside _ _ object => object
  | before | after => ""

/-- Whether the array has been read to its end. -/
def isClosed : Place → Bool
  | after => true
  | before | inside .. => false

end Place

/-- Why a character is refused. -/
inductive Refusal where
  /-- It cannot stand in an array of objects here. -/
  | stray
  /-- With it the current object is larger than the limit. -/
  | tooLarge (limit : Nat)
  deriving DecidableEq, Repr

/-- What reading one character brings about. -/
inductive Outcome where
  | quiet
  /-- The character completed an object. -/
  | completed (object : String)
  | refused (refusal : Refusal)
  deriving DecidableEq, Repr

/-- The place reached inside the array, refused if the current object is now too large. -/
def Options.reach (o : Options) (depth : Nat) (mode : Mode) (object : String) : Place × Outcome :=
  (.inside depth mode object,
    match o.sizeLimit with
    | some limit => if limit < object.utf8ByteSize then .refused (.tooLarge limit) else .quiet
    | none => .quiet)

/-- Read a character of the array that stands outside strings. -/
def Options.stepPlain (o : Options) (depth : Nat) (object : String) (c : Char) : Place × Outcome :=
  if c = '{' then
    o.reach (depth + 1) .plain ((if depth = 1 then "" else object).push c)
  else if c = '"' then
    o.reach depth .quoted (object.push c)
  else if c = '}' then
    if depth < 2 then (.inside depth .plain object, .refused .stray)
    else if depth = 2 then (.inside 1 .plain "", .completed (object.push c))
    else o.reach (depth - 1) .plain (object.push c)
  else if c = '[' then
    o.reach (depth + 1) .plain (if o.keepBrackets && 2 ≤ depth then object.push c else object)
  else if c = ']' then
    if depth ≤ 1 then (.after, .quiet)
    else
      o.reach (depth - 1) .plain (if o.keepBrackets && 3 ≤ depth then object.push c else object)
  else if isBlank c then o.reach depth .plain object
  else o.reach depth .plain (object.push c)

/-- The mode after a character inside a string. -/
def Options.modeAfterQuoted (o : Options) (c : Char) : Mode :=
  if c = '\\' && o.honorEscapes then .escaped
  else if c = '"' then .plain
  else .quoted

/-- Read one character. -/
def step (o : Options) : Place → Char → Place × Outcome
  | .before, c =>
    if isBlank c then (.before, .quiet)
    else if c = '[' then (.inside 1 .plain "", .quiet)
    else (.before, .refused .stray)
  | .inside depth .plain object, c => o.stepPlain depth object c
  | .inside depth .quoted object, c => o.reach depth (o.modeAfterQuoted c) (object.push c)
  | .inside depth .escaped object, c => o.reach depth .quoted (object.push c)
  | .after, c => if isBlank c then (.after, .quiet) else (.after, .refused .stray)

/-- What came of reading a text. -/
structure Run where
  /-- The place reached. -/
  place : Place
  /-- The objects completed, in the order of their closing braces. -/
  objects : List String := []
  /-- Why a character was refused, if one was. -/
  refusal : Option Refusal := none
  /-- The characters after the refused one. -/
  unread : List Char := []
  deriving DecidableEq, Repr

/-- Read a text up to the first refused character. -/
def run (o : Options) (place : Place) : List Char → Run
  | [] => { place }
  | c :: rest =>
    match step o place c with
    | (next, .quiet) => run o next rest
    | (next, .completed object) =>
      let r := run o next rest
      { r with objects := object :: r.objects }
    | (next, .refused refusal) => { place := next, refusal := some refusal, unread := rest }

theorem run_append (o : Options) (place : Place) (text rest : List Char) :
    run o place (text ++ rest) =
      match (run o place text).refusal with
      | some refusal =>
        { run o place text with
          refusal := some refusal
          unread := (run o place text).unread ++ rest }
      | none =>
        { run o (run o place text).place rest with
          objects := (run o place text).objects ++ (run o (run o place text).place rest).objects } := by
  induction text generalizing place with
  | nil => simp [run]
  | cons c text ih =>
    simp only [List.cons_append, run]
    rcases step o place c with ⟨next, _ | object | refusal⟩
    · exact ih next
    · simp only [ih next]
      cases (run o next text).refusal <;> rfl
    · rfl

end Splitter

/-- A reader of a streamed array that finds the boundaries of its objects. -/
structure Splitter where
  options : Splitter.Options := {}
  place : Splitter.Place := .before
  deriving DecidableEq, Repr

namespace Splitter

/-- A refusal, told by the whole fragment that was being read. -/
def Refusal.toFailure (fragment : String) : Refusal → Failure
  | stray => .malformed fragment
  | tooLarge limit => .tooLarge limit

/-- What came of feeding fragments. -/
structure Fed where
  splitter : Splitter
  /-- The objects completed, oldest first. -/
  objects : List String := []
  /-- Why the last fragment was not read to its end, if it was not. -/
  failure : Option Failure := none
  /-- The characters after the refused one, those of the fragments that were not fed included. -/
  unread : List Char := []
  /-- The number of fragments fed, the refused one included. -/
  fragments : Nat := 0
  deriving DecidableEq, Repr

/-- Feed one fragment.  After a failure the splitter stands behind the refused character. -/
def feed (s : Splitter) (fragment : String) : Fed :=
  let r := run s.options s.place fragment.toList
  { splitter := { s with place := r.place }
    objects := r.objects
    failure := r.refusal.map (Refusal.toFailure fragment)
    unread := r.unread
    fragments := 1 }

/-- Feed fragments one after another, up to the first that fails. -/
def feedEach (s : Splitter) : List String → Fed
  | [] => { splitter := s }
  | fragment :: rest =>
    let one := s.feed fragment
    match one.failure with
    | some _ => { one with unread := one.unread ++ rest.flatMap String.toList }
    | none =>
      let more := one.splitter.feedEach rest
      { more with objects := one.objects ++ more.objects, fragments := one.fragments + more.fragments }

/-- Whether the closing bracket of the array has been read. -/
def isClosed (s : Splitter) : Bool :=
  s.place.isClosed

/-- The failure to report when the input ends here. -/
def truncation? (s : Splitter) : Option Failure :=
  match s.place with
  | .inside depth _ _ => some (.truncated depth)
  | .before | .after => none

end Splitter

end ObjectFeed
