/-
  How the text of a complete object becomes a value.

  * `Interpretation` is a function from texts to values that may reject a text;
  * `Interpretation.verbatim` is the text itself, `Interpretation.json` reads JSON of a shape, and
    `Interpretation.checked` moreover wants the value to keep rules.
-/
import ObjectFeed.Failure
import ObjectFeed.Json.Shape

namespace ObjectFeed

/-- Turns the text of a complete object into a value, or rejects it.  A decoder is taken to be a function of
    the text: what it makes of one object does not depend on the objects before it, nor on when it is
    asked. -/
abbrev Interpretation (α : Type) := String → Except Rejection α

namespace Interpretation

variable {α : Type}

/-- The text itself. -/
def verbatim : Interpretation String := .ok

/-- The value of a JSON text of this shape.  It stands for simd-json and serde in strict mode: the text is
    JSON and nothing more, and the value is taken from it field by field.  The relaxed mode, which tries
    JSON5 on what the strict one rejects, is off unless it is asked for, and is left out. -/
def json (shape : Json.Shape α) : Interpretation α := fun text =>
  match shape.ofText? text with
  | some a => .ok a
  | none => .error .json

/-- A value that keeps rules: `broken` gives the codes of the rules it breaks, by field. -/
def checked (interpret : Interpretation α) (broken : α → List (String × List String)) :
    Interpretation α := fun text =>
  match interpret text with
  | .error rejection => .error rejection
  | .ok a => if (broken a).isEmpty then .ok a else .error (.invalid (broken a))

end Interpretation

end ObjectFeed
