/-
  What a splitter makes of escapes that it does not honor.

  * `TakesNoQuote` says of a text that no backslash inside a string takes a quote with it;
  * `run_honoring`: such a text is read as if escapes were honored.  Only the mode after a backslash is
    another, and no character after it shows that;
  * `ReadsEscapes` says that escapes are honored, or need not be.
-/
import ObjectFeed.Proofs.Splitter.Language

namespace ObjectFeed.Splitter

open Text (isBlank)
open Json

variable {o : Options}

/-- The same options with escapes honored. -/
def Options.honoring (o : Options) : Options :=
  { o with honorEscapes := true }

/-- No backslash inside a string of this text takes a quote with it. -/
def TakesNoQuote (text : List Char) : Prop :=
  ∀ read, read ++ ['"'] <+: text → Mode.plain.afterText true read ≠ .escaped

instance (text : List Char) : Decidable (TakesNoQuote text) :=
  decidable_of_iff (∀ read ∈ text.inits, read ++ ['"'] <+: text →
      Mode.plain.afterText true read ≠ .escaped)
    ⟨fun h read hread => h read ((List.mem_inits _ _).2 ((List.prefix_append _ _).trans hread)) hread,
      fun h read _ => h read⟩

/-- The strings of this text end where a splitter with these options ends them. -/
def Options.ReadsEscapes (o : Options) (text : List Char) : Prop :=
  o.honorEscapes = true ∨ TakesNoQuote text

/-! ## One character -/

/-- The mode that there is instead if escapes are not honored. -/
def Mode.toggled : Mode → Mode
  | plain => plain
  | quoted | escaped => quoted

/-- The place that there is instead if escapes are not honored. -/
def Place.toggled : Place → Place
  | before => before
  | inside depth mode object => inside depth mode.toggled object
  | after => after

theorem Place.toggled_toggled (place : Place) : place.toggled.toggled = place.toggled := by
  cases place with
  | before => rfl
  | inside depth mode object => cases mode <;> rfl
  | after => rfl

theorem truncation?_congr {s s' : Splitter} (h : s.place.toggled = s'.place.toggled) :
    s.truncation? = s'.truncation? := by
  have htoggled (place : Place) (options : Options) : ({ options, place } : Splitter).truncation? =
      ({ options := s.options, place := place.toggled } : Splitter).truncation? := by
    cases place <;> rfl
  calc s.truncation? = ({ options := s.options, place := s.place.toggled } : Splitter).truncation? :=
        htoggled s.place s.options
    _ = ({ options := s.options, place := s'.place.toggled } : Splitter).truncation? := by rw [h]
    _ = s'.truncation? := (htoggled s'.place s'.options).symm

theorem Stands.afterText_of_isEscaped {honor : Bool} {text : List Char} {place : Place}
    (h : Stands honor text place) (hescaped : place.isEscaped = true) :
    Mode.plain.afterText honor text = .escaped := by
  cases h with
  | before => cases hescaped
  | @inside depth mode object _ hmode =>
    rw [hmode]
    exact eq_of_beq hescaped
  | after => cases hescaped

theorem modeAfterQuoted_honoring (hhonor : o.honorEscapes = false) (c : Char) :
    o.modeAfterQuoted c = (o.honoring.modeAfterQuoted c).toggled := by
  simp only [Options.modeAfterQuoted, hhonor, Options.honoring, Bool.and_false, Bool.and_true]
  by_cases hback : c = '\\'
  · subst hback
    rfl
  · simp only [hback, decide_false, Bool.false_eq_true, if_false]
    split <;> rfl

section

variable (hlimit : o.sizeLimit = none)
include hlimit

theorem stepPlain_honoring (depth : Nat) (object : String) (c : Char) :
    o.stepPlain depth object c = ((o.honoring.stepPlain depth object c).1.toggled,
      (o.honoring.stepPlain depth object c).2) := by
  have hkeep : o.honoring.keepBrackets = o.keepBrackets := rfl
  have hlimit' : o.honoring.sizeLimit = none := hlimit
  simp only [Options.stepPlain, reach_eq hlimit, reach_eq hlimit', hkeep]
  repeat' split
  all_goals rfl

/-- **A character is read alike**, unless it is a quote that a backslash takes with it. -/
theorem step_honoring (hhonor : o.honorEscapes = false) (place : Place) (c : Char)
    (hquote : place.isEscaped = true → c ≠ '"') :
    step o place.toggled c = ((step o.honoring place c).1.toggled, (step o.honoring place c).2) := by
  have hlimit' : o.honoring.sizeLimit = none := hlimit
  cases place with
  | before =>
    simp only [Place.toggled, step]
    split
    · rfl
    · split <;> rfl
  | after =>
    simp only [Place.toggled, step]
    split <;> rfl
  | inside depth mode object =>
    cases mode with
    | plain => exact stepPlain_honoring hlimit depth object c
    | quoted =>
      simp only [Place.toggled, Mode.toggled, step, reach_eq hlimit, reach_eq hlimit',
        modeAfterQuoted_honoring hhonor c]
    | escaped =>
      have hmode : o.modeAfterQuoted c = .quoted := by
        simp [Options.modeAfterQuoted, hhonor, hquote rfl]
      simp only [Place.toggled, Mode.toggled, step, reach_eq hlimit, reach_eq hlimit', hmode]

/-! ## Whole texts -/

/-- **A text in which no backslash takes a quote is read alike**, escapes honored or not. -/
theorem run_honoring (hhonor : o.honorEscapes = false) {text : List Char} (h : TakesNoQuote text) :
    run o .before text = { run o.honoring .before text with
      place := (run o.honoring .before text).place.toggled } := by
  induction text using List.reverseRecOn with
  | nil => rfl
  | append_singleton text c ih =>
    have htext : TakesNoQuote text := fun read hread => h read (hread.trans (List.prefix_append _ _))
    have hprior := ih htext
    rw [run_append, run_append o.honoring, hprior]
    cases hrefusal : (run o.honoring .before text).refusal with
    | some refusal => rfl
    | none =>
      have hstands := (stands_of_run (show o.honoring.sizeLimit = none from hlimit) text).1
      rw [hrefusal] at hstands
      have hquote : (run o.honoring .before text).place.isEscaped = true → c ≠ '"' := by
        rintro hescaped rfl
        exact h text (List.prefix_refl _) (hstands.afterText_of_isEscaped hescaped)
      simp only [run_char, step_honoring hlimit hhonor _ c hquote]

/-- A text is read as if escapes were honored, but for the mode at its end. -/
theorem run_of_readsEscapes {text : List Char} (h : o.ReadsEscapes text) :
    ∃ place, place.toggled = (run o.honoring .before text).place.toggled ∧
      run o .before text = { run o.honoring .before text with place } := by
  cases hhonor : o.honorEscapes with
  | true =>
    have hsame : o.honoring = o := by rw [Options.honoring, ← hhonor]
    exact ⟨_, rfl, by rw [hsame]⟩
  | false =>
    have hquotes : TakesNoQuote text := h.resolve_left (by rw [hhonor]; decide)
    exact ⟨_, Place.toggled_toggled _, run_honoring hlimit hhonor hquotes⟩

end

end ObjectFeed.Splitter
