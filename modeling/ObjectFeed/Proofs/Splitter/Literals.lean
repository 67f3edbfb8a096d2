/-
  String literals in a text, and texts without some of the characters outside them.

  * `Mode.after` is the rule for strings: the mode after a character, where `honor` says whether a
    backslash inside a string takes the next character with it;
  * `strip` leaves out the characters outside strings that `drop` holds of, and keeps all others;
  * `Options.dropped` are the characters outside strings that do not go into the text of an object.
-/
import ObjectFeed.Proofs.Json.Grammar
import ObjectFeed.Splitter

namespace ObjectFeed.Splitter

open Text (isBlank)
open Json

/-! ## Modes -/

/-- The mode after a character. -/
def Mode.after (honor : Bool) : Mode → Char → Mode
  | plain, c => if c = '"' then quoted else plain
  | quoted, c => if c = '\\' && honor then escaped else if c = '"' then plain else quoted
  | escaped, _ => quoted

/-- The mode after a text. -/
def Mode.afterText (honor : Bool) (mode : Mode) (text : List Char) : Mode :=
  text.foldl (Mode.after honor) mode

@[simp] theorem Mode.afterText_nil (honor : Bool) (mode : Mode) :
    mode.afterText honor [] = mode := rfl

@[simp] theorem Mode.afterText_cons (honor : Bool) (mode : Mode) (c : Char) (text : List Char) :
    mode.afterText honor (c :: text) = (mode.after honor c).afterText honor text := rfl

@[simp] theorem Mode.afterText_append (honor : Bool) (mode : Mode) (s t : List Char) :
    mode.afterText honor (s ++ t) = (mode.afterText honor s).afterText honor t :=
  List.foldl_append

theorem Mode.after_plain_of_ne {honor : Bool} {c : Char} (h : c ≠ '"') :
    Mode.plain.after honor c = .plain := by
  simp [Mode.after, h]

/-! ## Stripped texts -/

/-- A text, read from this mode on, without the characters outside strings that `drop` holds of. -/
def strip (honor : Bool) (drop : Char → Bool) : Mode → List Char → List Char
  | _, [] => []
  | mode, c :: rest =>
    if mode = .plain ∧ drop c = true then strip honor drop (mode.after honor c) rest
    else c :: strip honor drop (mode.after honor c) rest

variable {honor : Bool} {drop : Char → Bool}

@[simp] theorem strip_nil (mode : Mode) : strip honor drop mode [] = [] := rfl

/-- What is kept of a text is what is kept of its parts, each read in its mode. -/
theorem strip_append (mode : Mode) (s t : List Char) :
    strip honor drop mode (s ++ t) =
      strip honor drop mode s ++ strip honor drop (mode.afterText honor s) t := by
  induction s generalizing mode with
  | nil => rfl
  | cons c s ih =>
    simp only [List.cons_append, strip, Mode.afterText_cons, ih]
    split <;> rfl

theorem strip_plain_dropped {c : Char} (hd : drop c = true) (hc : c ≠ '"') (s : List Char) :
    strip honor drop .plain (c :: s) = strip honor drop .plain s := by
  simp [strip, hd, Mode.after_plain_of_ne hc]

theorem strip_plain_kept {c : Char} (hd : drop c = false) (hc : c ≠ '"') (s : List Char) :
    strip honor drop .plain (c :: s) = c :: strip honor drop .plain s := by
  simp [strip, hd, Mode.after_plain_of_ne hc]

theorem strip_cons_of_ne_plain {mode : Mode} (hm : mode ≠ .plain) (c : Char) (s : List Char) :
    strip honor drop mode (c :: s) = c :: strip honor drop (mode.after honor c) s := by
  simp [strip, hm]

/-- The body of a string and its closing quote are kept, and what follows stands outside strings. -/
theorem strip_looseBody {body : List Char} (h : IsLooseBody body) (rest : List Char) :
    strip true drop .quoted (body ++ '"' :: rest) = body ++ '"' :: strip true drop .plain rest := by
  induction h with
  | nil => simp [strip, Mode.after]
  | char hquote hback _ ih =>
    rw [List.cons_append, strip_cons_of_ne_plain (by decide)]
    simp [Mode.after, hquote, hback, ih]
  | pair _ ih =>
    rw [List.cons_append, List.cons_append, strip_cons_of_ne_plain (by decide),
      strip_cons_of_ne_plain (by decide)]
    simp [Mode.after, ih]

theorem afterText_looseBody {body : List Char} (h : IsLooseBody body) (rest : List Char) :
    Mode.quoted.afterText true (body ++ '"' :: rest) = Mode.plain.afterText true rest := by
  induction h with
  | nil => simp [Mode.after]
  | char hquote hback _ ih => simp [Mode.after, hquote, hback, ih]
  | pair _ ih => simp [Mode.after, ih]

theorem strip_string {body : List Char} (h : IsLooseBody body) (hd : drop '"' = false) :
    strip true drop .plain ('"' :: body ++ ['"']) = '"' :: body ++ ['"'] := by
  have hopen : strip true drop .plain ('"' :: body ++ ['"']) =
      '"' :: strip true drop .quoted (body ++ ['"']) := by
    simp [strip, hd, Mode.after]
  rw [hopen, strip_looseBody h, strip_nil]
  rfl

theorem afterText_string {body : List Char} (h : IsLooseBody body) :
    Mode.plain.afterText true ('"' :: body ++ ['"']) = .plain := by
  rw [List.cons_append, Mode.afterText_cons, show Mode.plain.after true '"' = .quoted from rfl,
    afterText_looseBody h, Mode.afterText_nil]

/-! ## What the text of an object leaves out -/

/-- The characters outside strings that do not go into the text of an object: the blanks and,
    unless they are kept, the brackets. -/
def Options.dropped (o : Options) (c : Char) : Bool :=
  isBlank c || (!o.keepBrackets && (c == '[' || c == ']'))

end ObjectFeed.Splitter
