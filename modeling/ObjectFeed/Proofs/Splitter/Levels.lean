/-
  How many levels a text leaves open.

  * `outside` are the characters of a text that stand outside strings, and `unclosed` is the number of
    braces and brackets among them that are left open, counted alike;
  * `StaysOpen` is a text that opens an array and does not close it, `AtLevel` is one that ends outside
    strings with this number of levels open, and `IsComplete` is one that has closed its array;
  * `Stray` says which characters cannot stand after a text.  `Stray.not_isGap`,
    `Stray.not_staysOpen` and `Stray.not_isComplete`: where one does, the text is none of these any
    more, however it goes on, so that there is one at most (`Stray.rest_eq`).
-/
import Mathlib.Data.List.Infix
import ObjectFeed.Proofs.Splitter.Nesting
import ObjectFeed.Proofs.Splitter.Passing

namespace ObjectFeed.Splitter

open Text (isBlank)
open Json

/-! ## Levels -/

/-- The characters of a text, read from this mode on, that stand outside strings. -/
def outside (honor : Bool) : Mode → List Char → List Char
  | _, [] => []
  | mode, c :: rest =>
    if mode = .plain then c :: outside honor (mode.after honor c) rest
    else outside honor (mode.after honor c) rest

/-- The number of levels that a text opens outside strings. -/
def opened (honor : Bool) (text : List Char) : Nat :=
  (outside honor .plain text).countP (IsOpening ·)

/-- The number of levels that a text closes outside strings. -/
def closed (honor : Bool) (text : List Char) : Nat :=
  (outside honor .plain text).countP (IsClosing ·)

/-- The number of braces and brackets outside strings that are left open. -/
def unclosed (honor : Bool) (text : List Char) : Nat :=
  opened honor text - closed honor text

section

variable {honor : Bool} {text : List Char} {c : Char}

theorem outside_append (mode : Mode) (s t : List Char) :
    outside honor mode (s ++ t) =
      outside honor mode s ++ outside honor (mode.afterText honor s) t := by
  induction s generalizing mode with
  | nil => rfl
  | cons c s ih =>
    simp only [List.cons_append, outside, Mode.afterText_cons, ih]
    split <;> rfl

theorem outside_gap (h : IsGap isBlank text) : outside honor .plain text = text := by
  induction text with
  | nil => rfl
  | cons c text ih =>
    have hc : c ≠ '"' := (isInert_of_isBlank (h c List.mem_cons_self)).2.1
    rw [outside, if_pos rfl, Mode.after_plain_of_ne hc,
      ih fun d hd => h d (List.mem_cons_of_mem _ hd)]

theorem afterText_gap (h : IsGap isBlank text) : Mode.plain.afterText honor text = .plain := by
  induction text with
  | nil => rfl
  | cons c text ih =>
    have hc : c ≠ '"' := (isInert_of_isBlank (h c List.mem_cons_self)).2.1
    rw [Mode.afterText_cons, Mode.after_plain_of_ne hc,
      ih fun d hd => h d (List.mem_cons_of_mem _ hd)]

theorem levels_gap (honor : Bool) (h : IsGap isBlank text) :
    opened honor text = 0 ∧ closed honor text = 0 := by
  simp only [opened, closed, outside_gap h, List.countP_eq_zero, decide_eq_true_eq]
  constructor
  · intro c hc
    obtain ⟨hbrace, -, -, hbracket, -⟩ := isInert_of_isBlank (h c hc)
    exact not_or.2 ⟨hbrace, hbracket⟩
  · intro c hc
    obtain ⟨-, -, hbrace, -, hbracket⟩ := isInert_of_isBlank (h c hc)
    exact not_or.2 ⟨hbrace, hbracket⟩

theorem opened_append_plain (h : Mode.plain.afterText honor text = .plain) :
    opened honor (text ++ [c]) = opened honor text + if IsOpening c then 1 else 0 := by
  simp only [opened, outside_append, outside, if_pos h, List.countP_append, List.countP_singleton,
    decide_eq_true_eq]

theorem closed_append_plain (h : Mode.plain.afterText honor text = .plain) :
    closed honor (text ++ [c]) = closed honor text + if IsClosing c then 1 else 0 := by
  simp only [closed, outside_append, outside, if_pos h, List.countP_append, List.countP_singleton,
    decide_eq_true_eq]

/-- A character that stands inside a string, or is no brace or bracket, changes nothing about the
    levels. -/
theorem levels_append_char
    (h : Mode.plain.afterText honor text = .plain → ¬ IsOpening c ∧ ¬ IsClosing c) :
    opened honor (text ++ [c]) = opened honor text ∧
      closed honor (text ++ [c]) = closed honor text := by
  by_cases hmode : Mode.plain.afterText honor text = .plain
  · obtain ⟨hopening, hclosing⟩ := h hmode
    rw [opened_append_plain hmode, closed_append_plain hmode, if_neg hopening, if_neg hclosing]
    exact ⟨rfl, rfl⟩
  · simp only [opened, closed, outside_append, outside, if_neg hmode, List.append_nil, and_self]

end

theorem IsOpening.not_isClosing {c : Char} (h : IsOpening c) : ¬ IsClosing c := by
  rcases h with rfl | rfl <;> decide

theorem IsClosing.not_isOpening {c : Char} (h : IsClosing c) : ¬ IsOpening c :=
  fun hopening => hopening.not_isClosing h

/-! ## Texts that open an array -/

/-- A text that opens an array and does not close it: it begins with a bracket, but for blanks, and
    from there on it has at no point closed all that it opened. -/
structure StaysOpen (honor : Bool) (text : List Char) : Prop where
  begins : text.find? (!isBlank ·) = some '['
  closed_lt : ∀ s, s <+: text → ¬ IsGap isBlank s → closed honor s < opened honor s

/-- A text that stays open and ends outside strings with this number of levels open. -/
structure AtLevel (honor : Bool) (n : Nat) (text : List Char) : Prop where
  staysOpen : StaysOpen honor text
  mode : Mode.plain.afterText honor text = .plain
  unclosed : unclosed honor text = n

/-- A text that closes its array with a bracket, and has only blanks after that. -/
def IsComplete (honor : Bool) (text : List Char) : Prop :=
  ∃ read gap, text = read ++ ']' :: gap ∧ AtLevel honor 1 read ∧ IsGap isBlank gap

/-- This character cannot stand after this text: it does not open an array, or is a brace that has
    nothing to close, or comes after the array. -/
inductive Stray (honor : Bool) (read : List Char) : Char → Prop
  | noArray {c} : IsGap isBlank read → isBlank c = false → c ≠ '[' → Stray honor read c
  | noBrace : AtLevel honor 1 read → Stray honor read '}'
  | behind {c} : IsComplete honor read → isBlank c = false → Stray honor read c

instance (honor : Bool) (text : List Char) : Decidable (StaysOpen honor text) :=
  decidable_of_iff (text.find? (!isBlank ·) = some '[' ∧
      ∀ s ∈ text.inits, ¬ IsGap isBlank s → closed honor s < opened honor s)
    ⟨fun h => ⟨h.1, fun s hs => h.2 s ((List.mem_inits s text).2 hs)⟩,
      fun h => ⟨h.begins, fun s hs => h.closed_lt s ((List.mem_inits s text).1 hs)⟩⟩

instance (honor : Bool) (n : Nat) (text : List Char) : Decidable (AtLevel honor n text) :=
  decidable_of_iff (StaysOpen honor text ∧ Mode.plain.afterText honor text = .plain ∧
      unclosed honor text = n)
    ⟨fun h => ⟨h.1, h.2.1, h.2.2⟩, fun h => ⟨h.staysOpen, h.mode, h.unclosed⟩⟩

section

variable {honor : Bool} {s t text read more : List Char} {c : Char}

theorem find?_of_isGap (h : IsGap isBlank text) : text.find? (!isBlank ·) = none :=
  List.find?_eq_none.2 fun c hc => by simp [h c hc]

theorem StaysOpen.not_isGap (h : StaysOpen honor text) : ¬ IsGap isBlank text := by
  intro hgap
  have hnone := (find?_of_isGap hgap).symm.trans h.begins
  cases hnone

theorem StaysOpen.lt (h : StaysOpen honor text) : closed honor text < opened honor text :=
  h.closed_lt text (List.prefix_refl text) h.not_isGap

theorem StaysOpen.of_append (h : StaysOpen honor (s ++ t)) (hs : ¬ IsGap isBlank s) :
    StaysOpen honor s where
  begins := by
    have hbegins := h.begins
    rw [List.find?_append] at hbegins
    cases hfind : s.find? (!isBlank ·) with
    | none =>
      have hgap : IsGap isBlank s := fun c hc => by
        simpa using List.find?_eq_none.1 hfind c hc
      exact absurd hgap hs
    | some d => rwa [hfind] at hbegins
  closed_lt p hp := h.closed_lt p (hp.trans (List.prefix_append s t))

theorem StaysOpen.append_char (h : StaysOpen honor text)
    (hc : closed honor (text ++ [c]) < opened honor (text ++ [c])) :
    StaysOpen honor (text ++ [c]) where
  begins := by rw [List.find?_append, h.begins, Option.some_or]
  closed_lt p hp hgap := by
    rcases List.prefix_concat_iff.1 hp with rfl | hp
    · exact hc
    · exact h.closed_lt p hp hgap

theorem levels_bracket (honor : Bool) (h : IsGap isBlank text) :
    opened honor (text ++ ['[']) = 1 ∧ closed honor (text ++ ['[']) = 0 := by
  obtain ⟨hopened, hclosed⟩ := levels_gap honor h
  rw [opened_append_plain (afterText_gap h), closed_append_plain (afterText_gap h), hopened, hclosed,
    if_pos (show IsOpening '[' by decide), if_neg (show ¬ IsClosing '[' by decide)]
  exact ⟨rfl, rfl⟩

theorem staysOpen_of_gap (h : IsGap isBlank text) : StaysOpen honor (text ++ ['[']) where
  begins := by rw [List.find?_append, find?_of_isGap h]; rfl
  closed_lt p hp hgap := by
    rcases List.prefix_concat_iff.1 hp with rfl | hp
    · obtain ⟨hopened, hclosed⟩ := levels_bracket honor h
      rw [hopened, hclosed]
      exact Nat.one_pos
    · exact absurd (fun d hd => h d (hp.subset hd)) hgap

/-- Where one level is open, what closes it leaves nothing open. -/
theorem AtLevel.not_staysOpen (h : AtLevel honor 1 read) (hc : IsClosing c) :
    ¬ StaysOpen honor (read ++ c :: more) := by
  intro hopen
  have happend : read ++ c :: more = (read ++ [c]) ++ more := by simp
  have hgap : ¬ IsGap isBlank (read ++ [c]) := fun hgap =>
    h.staysOpen.not_isGap fun d hd => hgap d (List.mem_append_left _ hd)
  rw [happend] at hopen
  have hlt := (hopen.of_append hgap).lt
  rw [opened_append_plain h.mode, closed_append_plain h.mode, if_pos hc,
    if_neg hc.not_isOpening] at hlt
  have hone := h.unclosed
  rw [Splitter.unclosed] at hone
  omega

theorem IsComplete.not_staysOpen_append (h : IsComplete honor text) :
    ¬ StaysOpen honor (text ++ more) := by
  obtain ⟨read, gap, rfl, hread, -⟩ := h
  rw [List.append_assoc, List.cons_append]
  exact hread.not_staysOpen (.inr rfl)

theorem IsComplete.not_staysOpen (h : IsComplete honor text) : ¬ StaysOpen honor text := by
  have hopen : ¬ StaysOpen honor (text ++ []) := h.not_staysOpen_append
  rwa [List.append_nil] at hopen

theorem IsComplete.not_isGap (h : IsComplete honor text) : ¬ IsGap isBlank text := by
  obtain ⟨read, gap, rfl, hread, -⟩ := h
  exact fun hgap => hread.staysOpen.not_isGap fun d hd => hgap d (List.mem_append_left _ hd)

/-! ## Stray characters -/

theorem Stray.not_blank (h : Stray honor read c) : isBlank c = false := by
  cases h with
  | noArray _ hc _ => exact hc
  | noBrace => rfl
  | behind _ hc => exact hc

theorem Stray.not_isGap (h : Stray honor read c) : ¬ IsGap isBlank (read ++ c :: more) := by
  intro hgap
  have hc : isBlank c = true := hgap c (List.mem_append_right _ List.mem_cons_self)
  exact Bool.false_ne_true (h.not_blank.symm.trans hc)

theorem Stray.not_staysOpen (h : Stray honor read c) : ¬ StaysOpen honor (read ++ c :: more) := by
  cases h with
  | noArray hgap hc hbracket =>
    intro hopen
    have hbegins := hopen.begins
    rw [List.find?_append, find?_of_isGap hgap, Option.none_or, List.find?_cons_of_pos (by simp [hc])]
      at hbegins
    exact hbracket (Option.some.inj hbegins)
  | noBrace hlevel => exact hlevel.not_staysOpen (.inl rfl)
  | behind hcomplete => exact hcomplete.not_staysOpen_append

theorem AtLevel.not_stray (h : AtLevel honor 1 read) : ¬ Stray honor read ']' := by
  intro hstray
  cases hstray with
  | noArray hgap => exact h.staysOpen.not_isGap hgap
  | behind hcomplete => exact hcomplete.not_staysOpen h.staysOpen

theorem Stray.not_isComplete (h : Stray honor read c) : ¬ IsComplete honor (read ++ c :: more) := by
  rintro ⟨before, gap, heq, hlevel, hgap⟩
  rcases List.append_eq_append_iff.1 heq with ⟨between, rfl, hrest⟩ | ⟨between, rfl, hrest⟩
  · -- the character stands before the closing bracket, or is that bracket
    cases between with
    | nil =>
      rw [List.append_nil] at hlevel
      obtain ⟨rfl, -⟩ := List.cons.inj hrest
      exact hlevel.not_stray h
    | cons d between =>
      obtain ⟨rfl, -⟩ := List.cons.inj hrest
      exact h.not_staysOpen hlevel.staysOpen
  · cases between with
    | nil =>
      rw [List.append_nil] at h
      obtain ⟨rfl, -⟩ := List.cons.inj hrest
      exact hlevel.not_stray h
    | cons d between =>
      obtain ⟨rfl, rfl⟩ := List.cons.inj hrest
      have hc : isBlank c = true := hgap c (List.mem_append_right _ List.mem_cons_self)
      exact Bool.false_ne_true (h.not_blank.symm.trans hc)

/-- Behind a stray character there is no other. -/
theorem Stray.not_stray {d : Char} (h : Stray honor read c) : ¬ Stray honor (read ++ c :: more) d := by
  intro hlater
  cases hlater with
  | noArray hgap => exact h.not_isGap hgap
  | noBrace hlevel => exact h.not_staysOpen hlevel.staysOpen
  | behind hcomplete => exact h.not_isComplete hcomplete

theorem Stray.rest_eq {read' rest rest' : List Char} {c' : Char} (h : Stray honor read c)
    (h' : Stray honor read' c') (heq : read ++ c :: rest = read' ++ c' :: rest') : rest = rest' := by
  rcases List.append_eq_append_iff.1 heq with ⟨_ | ⟨d, between⟩, rfl, hrest⟩ |
    ⟨_ | ⟨d, between⟩, rfl, hrest⟩
  · exact (List.cons.inj hrest).2
  · obtain ⟨rfl, -⟩ := List.cons.inj hrest
    exact absurd h' h.not_stray
  · exact (List.cons.inj hrest).2.symm
  · obtain ⟨rfl, -⟩ := List.cons.inj hrest
    exact absurd h h'.not_stray

end

end ObjectFeed.Splitter
