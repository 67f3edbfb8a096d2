/-
  The texts that a splitter accepts, and where it refuses the others.

  * `LevelStep` is what one character brings about inside the array, told by the levels alone;
  * `Stands` says at which place a text leaves a splitter: before the array, inside it at the level that
    is left open, or after it.  `Stands.step` keeps it for every character that is not stray, and
    `stands_of_run`: it holds of every text that is read to its end;
  * `completions` is the number of objects that a text completes;
  * `language`: without a limit a splitter refuses a text exactly at its first stray character, and
    tells of every other text whether its array is closed and how many levels are open.
-/
import Mathlib.Data.List.Induction
import Mathlib.Data.Nat.Count
import ObjectFeed.Proofs.Splitter.Cuts
import ObjectFeed.Proofs.Splitter.Levels
import ObjectFeed.Proofs.Splitter.Steps

namespace ObjectFeed.Splitter

open Text (isBlank)
open Json

variable {o : Options} {honor : Bool}

/-! ## One character -/

/-- What one character brings about inside the array, whatever the object being read. -/
inductive LevelStep (honor : Bool) (depth : Nat) : Mode → Char → Place → Outcome → Prop
  | char {mode c object} : (mode = .plain → ¬ IsOpening c ∧ ¬ IsClosing c) →
      LevelStep honor depth mode c (.inside depth (mode.after honor c) object) .quiet
  | opening {c object} : IsOpening c →
      LevelStep honor depth .plain c (.inside (depth + 1) .plain object) .quiet
  | closing {c object} : IsClosing c → 2 ≤ depth → (c = '}' → depth ≠ 2) →
      LevelStep honor depth .plain c (.inside (depth - 1) .plain object) .quiet
  | completed {object} : depth = 2 →
      LevelStep honor depth .plain '}' (.inside 1 .plain "") (.completed object)
  | stray {object} : depth ≤ 1 →
      LevelStep honor depth .plain '}' (.inside depth .plain object) (.refused .stray)
  | ended : depth ≤ 1 → LevelStep honor depth .plain ']' .after .quiet

theorem levelStep_plain (hlimit : o.sizeLimit = none) (depth : Nat) (object : String) (c : Char) :
    LevelStep o.honorEscapes depth .plain c (o.stepPlain depth object c).1
      (o.stepPlain depth object c).2 := by
  simp only [Options.stepPlain, reach_eq hlimit]
  by_cases hopening : IsOpening c
  · rcases hopening with rfl | rfl
    · exact .opening (.inl rfl)
    · exact .opening (.inr rfl)
  by_cases hclosing : IsClosing c
  · rcases hclosing with rfl | rfl
    · by_cases hone : depth < 2
      · simpa [hone] using LevelStep.stray (by omega)
      · by_cases htwo : depth = 2
        · simpa [hone, htwo] using LevelStep.completed rfl
        · simpa [hone, htwo] using LevelStep.closing (.inl rfl) (by omega) fun _ => htwo
    · by_cases hone : depth ≤ 1
      · simpa [hone] using LevelStep.ended hone
      · simpa [hone] using LevelStep.closing (.inr rfl) (by omega) fun hbrace => absurd hbrace (by decide)
  · obtain ⟨hbrace, hbracket⟩ := not_or.1 hopening
    obtain ⟨hbrace', hbracket'⟩ := not_or.1 hclosing
    simp only [hbrace, hbracket, hbrace', hbracket', if_false]
    have hchar : ∀ {object'}, LevelStep o.honorEscapes depth .plain c
        (.inside depth (Mode.plain.after o.honorEscapes c) object') .quiet :=
      .char fun _ => ⟨hopening, hclosing⟩
    by_cases hquote : c = '"'
    · subst hquote
      exact hchar
    · rw [Mode.after_plain_of_ne hquote] at hchar
      simp only [hquote, if_false]
      split
      · exact hchar
      · exact hchar

/-- **Without a limit, what a character brings about depends on the levels alone.** -/
theorem levelStep (hlimit : o.sizeLimit = none) (depth : Nat) (mode : Mode) (object : String)
    (c : Char) :
    LevelStep o.honorEscapes depth mode c (step o (.inside depth mode object) c).1
      (step o (.inside depth mode object) c).2 := by
  cases mode with
  | plain => exact levelStep_plain hlimit depth object c
  | quoted =>
    rw [step, reach_eq hlimit]
    exact .char fun hplain => absurd hplain (by decide)
  | escaped =>
    rw [step, reach_eq hlimit]
    exact .char fun hplain => absurd hplain (by decide)

/-! ## Where a text leaves a splitter -/

/-- A text leaves a splitter at this place. -/
inductive Stands (honor : Bool) (text : List Char) : Place → Prop
  | before : IsGap isBlank text → Stands honor text .before
  | inside {depth mode object} : StaysOpen honor text → Mode.plain.afterText honor text = mode →
      unclosed honor text = depth → Stands honor text (.inside depth mode object)
  | after : IsComplete honor text → Stands honor text .after

/-- A brace after this text completes an object. -/
def Completes (honor : Bool) (text : List Char) (c : Char) : Prop :=
  c = '}' ∧ AtLevel honor 2 text

instance (honor : Bool) (text : List Char) (c : Char) : Decidable (Completes honor text c) :=
  inferInstanceAs (Decidable (_ ∧ _))

section

variable {text : List Char} {place : Place} {c : Char}

theorem Stands.not_completes_of_isGap (h : IsGap isBlank text) : ¬ Completes honor text c :=
  fun hc => hc.2.staysOpen.not_isGap h

theorem IsComplete.not_completes (h : IsComplete honor text) : ¬ Completes honor text c := by
  exact fun hc => h.not_staysOpen hc.2.staysOpen

theorem stands_append_char {depth : Nat} {mode : Mode} {object : String}
    (h : StaysOpen honor text) (hlt : closed honor (text ++ [c]) < opened honor (text ++ [c]))
    (hmode : (Mode.plain.afterText honor text).after honor c = mode)
    (hdepth : unclosed honor (text ++ [c]) = depth) :
    Stands honor (text ++ [c]) (.inside depth mode object) :=
  .inside (h.append_char hlt) (by rw [Mode.afterText_append]; exact hmode) hdepth

/-- Inside the array, what a character brings about is what it does to the levels. -/
theorem LevelStep.stands {depth : Nat} {mode : Mode} {next : Place} {outcome : Outcome}
    (hstep : LevelStep honor depth mode c next outcome) (hopen : StaysOpen honor text)
    (hmode : Mode.plain.afterText honor text = mode) (hdepth : unclosed honor text = depth) :
    (match outcome.refusal? with
      | none => Stands honor (text ++ [c]) next
      | some refusal => refusal = .stray ∧ Stray honor text c) ∧
    outcome.objects.length = if Completes honor text c then 1 else 0 := by
  have hlt := hopen.lt
  rw [unclosed] at hdepth
  cases hstep with
  | char hc =>
    obtain ⟨hopened, hclosed⟩ : opened honor (text ++ [c]) = opened honor text ∧
        closed honor (text ++ [c]) = closed honor text :=
      levels_append_char fun hm => hc (hmode.symm.trans hm)
    refine ⟨stands_append_char hopen ?_ ?_ ?_, ?_⟩
    · rwa [hopened, hclosed]
    · rw [hmode]
    · rwa [unclosed, hopened, hclosed]
    · refine (if_neg ?_).symm
      rintro ⟨rfl, hlevel⟩
      exact (hc (hmode.symm.trans hlevel.mode)).2 (.inl rfl)
  | opening hc =>
    have hopened := opened_append_plain (c := c) hmode
    have hclosed := closed_append_plain (c := c) hmode
    rw [if_pos hc] at hopened
    rw [if_neg hc.not_isClosing] at hclosed
    refine ⟨stands_append_char hopen ?_ ?_ ?_, ?_⟩
    · omega
    · rw [hmode, Mode.after_plain_of_ne hc.ne_quote]
    · rw [unclosed]; omega
    · refine (if_neg ?_).symm
      rintro ⟨rfl, -⟩
      exact hc.not_isClosing (.inl rfl)
  | closing hc htwo hbrace =>
    have hopened := opened_append_plain (c := c) hmode
    have hclosed := closed_append_plain (c := c) hmode
    rw [if_neg hc.not_isOpening] at hopened
    rw [if_pos hc] at hclosed
    refine ⟨stands_append_char hopen ?_ ?_ ?_, ?_⟩
    · omega
    · rw [hmode, Mode.after_plain_of_ne hc.ne_quote]
    · rw [unclosed]; omega
    · refine (if_neg ?_).symm
      rintro ⟨rfl, hlevel⟩
      exact hbrace rfl (hdepth.symm.trans hlevel.unclosed)
  | completed htwo =>
    have hopened := opened_append_plain (c := '}') hmode
    have hclosed := closed_append_plain (c := '}') hmode
    rw [if_neg (show ¬ IsOpening '}' by decide)] at hopened
    rw [if_pos (show IsClosing '}' by decide)] at hclosed
    refine ⟨stands_append_char hopen ?_ ?_ ?_, ?_⟩
    · omega
    · rw [hmode, Mode.after_plain_of_ne (by decide)]
    · rw [unclosed]; omega
    · exact (if_pos ⟨rfl, hopen, hmode, hdepth.trans htwo⟩).symm
  | stray hone =>
    refine ⟨⟨rfl, .noBrace ⟨hopen, hmode, ?_⟩⟩, (if_neg ?_).symm⟩
    · rw [unclosed]; omega
    · rintro ⟨-, hlevel⟩
      have htwo := hdepth.symm.trans hlevel.unclosed
      omega
  | ended hone =>
    refine ⟨.after ⟨text, [], rfl, ⟨hopen, hmode, ?_⟩, isGap_nil isBlank⟩, (if_neg ?_).symm⟩
    · rw [unclosed]; omega
    · rintro ⟨hbrace, -⟩
      cases hbrace

theorem isGap_append_char (h : IsGap isBlank text) (hc : isBlank c = true) :
    IsGap isBlank (text ++ [c]) := by
  intro d hd
  rcases List.mem_append.1 hd with hd | hd
  · exact h d hd
  · rw [List.mem_singleton.1 hd, hc]

/-- **A character leads from where a text stands to where the text with it stands**, or is stray.  It
    completes an object exactly if it is a brace with two levels open. -/
theorem Stands.step (hlimit : o.sizeLimit = none) (h : Stands o.honorEscapes text place) (c : Char) :
    (match (step o place c).2.refusal? with
      | none => Stands o.honorEscapes (text ++ [c]) (step o place c).1
      | some refusal => refusal = .stray ∧ Stray o.honorEscapes text c) ∧
    (step o place c).2.objects.length = if Completes o.honorEscapes text c then 1 else 0 := by
  cases h with
  | before hgap =>
    rw [if_neg (Stands.not_completes_of_isGap hgap)]
    by_cases hc : isBlank c = true
    · simp only [Splitter.step, hc, if_true]
      exact ⟨.before (isGap_append_char hgap hc), rfl⟩
    · by_cases hbracket : c = '['
      · subst hbracket
        obtain ⟨hopened, hclosed⟩ := levels_bracket o.honorEscapes hgap
        refine ⟨.inside (staysOpen_of_gap hgap) ?_ ?_, rfl⟩
        · rw [Mode.afterText_append, afterText_gap hgap]
          rfl
        · rw [unclosed, hopened, hclosed]
      · simp only [Splitter.step, hc, hbracket, if_false]
        exact ⟨⟨rfl, .noArray hgap (by simpa using hc) hbracket⟩, rfl⟩
  | inside hopen hmode hdepth => exact (levelStep hlimit _ _ _ c).stands hopen hmode hdepth
  | after hcomplete =>
    rw [if_neg hcomplete.not_completes]
    by_cases hc : isBlank c = true
    · simp only [Splitter.step, hc, if_true]
      obtain ⟨read, gap, rfl, hlevel, hgap⟩ := hcomplete
      refine ⟨.after ⟨read, gap ++ [c], ?_, hlevel, isGap_append_char hgap hc⟩, rfl⟩
      rw [List.append_assoc, List.cons_append]
    · simp only [Splitter.step, hc]
      exact ⟨⟨rfl, .behind hcomplete (by simpa using hc)⟩, rfl⟩

theorem Stands.isClosed_iff (h : Stands honor text place) :
    place.isClosed = true ↔ IsComplete honor text := by
  cases h with
  | before hgap => exact ⟨nofun, fun hcomplete => absurd hgap hcomplete.not_isGap⟩
  | inside hopen => exact ⟨nofun, fun hcomplete => absurd hopen hcomplete.not_staysOpen⟩
  | after hcomplete => exact ⟨fun _ => hcomplete, fun _ => rfl⟩

theorem Stands.truncation?_eq (h : Stands honor text place)
    (hunfinished : ¬ (IsGap isBlank text ∨ IsComplete honor text)) :
    StaysOpen honor text ∧ ({ options := o, place } : Splitter).truncation? =
      some (.truncated (unclosed honor text)) := by
  cases h with
  | before hgap => exact absurd (.inl hgap) hunfinished
  | inside hopen _ hdepth =>
    rw [hdepth]
    exact ⟨hopen, rfl⟩
  | after hcomplete => exact absurd (.inr hcomplete) hunfinished

theorem Stands.truncation?_eq_none_iff (h : Stands honor text place) :
    ({ options := o, place } : Splitter).truncation? = none ↔
      IsGap isBlank text ∨ IsComplete honor text := by
  constructor
  · intro hnone
    by_contra hunfinished
    have hsome := (h.truncation?_eq (o := o) hunfinished).2
    rw [hnone] at hsome
    cases hsome
  · rintro (hgap | hcomplete)
    · cases h with
      | before => rfl
      | inside hopen => exact absurd hgap hopen.not_isGap
      | after => rfl
    · cases h with
      | before => rfl
      | inside hopen => exact absurd hopen hcomplete.not_staysOpen
      | after => rfl

theorem Stray.not_stands {read more : List Char} (h : Stray honor read c) :
    ¬ Stands honor (read ++ c :: more) place := by
  intro hstands
  cases hstands with
  | before hgap => exact h.not_isGap hgap
  | inside hopen => exact h.not_staysOpen hopen
  | after hcomplete => exact h.not_isComplete hcomplete

end

/-! ## Whole texts -/

/-- The number of braces that a text has outside strings where two levels are open. -/
def completions (honor : Bool) (text : List Char) : Nat :=
  Nat.count (fun i => text[i]? = some '}' ∧ AtLevel honor 2 (text.take i)) text.length

theorem completions_append_char (text : List Char) (c : Char) :
    completions honor (text ++ [c]) =
      completions honor text + if Completes honor text c then 1 else 0 := by
  have hbefore : ∀ i < text.length, (text ++ [c])[i]? = text[i]? ∧
      (text ++ [c]).take i = text.take i := fun i hi =>
    ⟨List.getElem?_append_left hi, List.take_append_of_le_length (Nat.le_of_lt hi)⟩
  have hcount : Nat.count (fun i => (text ++ [c])[i]? = some '}' ∧
      AtLevel honor 2 ((text ++ [c]).take i)) text.length = completions honor text := by
    refine Nat.le_antisymm (Nat.count_mono_left ?_) (Nat.count_mono_left ?_)
    · rintro i hi ⟨hchar, hlevel⟩
      rw [(hbefore i hi).1] at hchar
      rw [(hbefore i hi).2] at hlevel
      exact ⟨hchar, hlevel⟩
    · rintro i hi ⟨hchar, hlevel⟩
      rw [(hbefore i hi).1, (hbefore i hi).2]
      exact ⟨hchar, hlevel⟩
  rw [completions, List.length_append, List.length_singleton, Nat.count_succ, hcount,
    List.getElem?_concat_length, List.take_left' rfl]
  exact congrArg _ (if_congr (and_congr_left' Option.some_inj) rfl rfl)

/-- **A text is read to where it stands, or to its first stray character.** -/
theorem stands_of_run (hlimit : o.sizeLimit = none) (text : List Char) :
    (match (run o .before text).refusal with
      | none => Stands o.honorEscapes text (run o .before text).place
      | some refusal => refusal = .stray ∧ ∃ read c,
          text = read ++ c :: (run o .before text).unread ∧ Stray o.honorEscapes read c) ∧
    (run o .before text).objects.length = completions o.honorEscapes text := by
  induction text using List.reverseRecOn with
  | nil => exact ⟨.before (isGap_nil isBlank), rfl⟩
  | append_singleton text c ih =>
    obtain ⟨hstands, hobjects⟩ := ih
    rw [run_append, completions_append_char, ← hobjects]
    cases hrefusal : (run o .before text).refusal with
    | some refusal =>
      rw [hrefusal] at hstands
      obtain ⟨rfl, read, d, htext, hstray⟩ := hstands
      refine ⟨⟨rfl, read, d, ?_, hstray⟩, ?_⟩
      · rw [htext, List.append_assoc, List.cons_append, ← htext]
      · -- behind a stray character no text stays open, so none is completed
        have hnone : ¬ Completes o.honorEscapes text c := by
          rintro ⟨-, hlevel⟩
          rw [htext] at hlevel
          exact hstray.not_staysOpen hlevel.staysOpen
        rw [if_neg hnone, Nat.add_zero]
    | none =>
      rw [hrefusal] at hstands
      obtain ⟨hstep, hcompleted⟩ := Stands.step hlimit hstands c
      rw [run_char, ← hcompleted]
      refine ⟨?_, List.length_append⟩
      cases houtcome : (step o (run o .before text).place c).2.refusal? with
      | none =>
        rw [houtcome] at hstep
        exact hstep
      | some refusal =>
        rw [houtcome] at hstep
        exact ⟨hstep.1, text, c, rfl, hstep.2⟩

/-- **The language of a splitter** without a limit, whatever the fragments.  A text is refused, as
    malformed, exactly if a stray character stands in it, and there.  Of every other text a splitter
    tells whether the array is closed.  It finds it unfinished exactly if it is neither blank nor
    closed, and then with the number of braces and brackets that it leaves open.  The objects are as
    many as the braces with two levels open that are read. -/
theorem language (honor keep : Bool) (fragments : List String) :
    let text := (String.join fragments).toList
    let fed := ({ options := { honorEscapes := honor, keepBrackets := keep } } :
      Splitter).feedEach fragments
    (∀ rest, ((∃ quoted, fed.failure = some (.malformed quoted)) ∧ fed.unread = rest) ↔
        ∃ read c, text = read ++ c :: rest ∧ Stray honor read c) ∧
      (fed.failure = none ∨ ∃ quoted, fed.failure = some (.malformed quoted)) ∧
      (fed.failure = none →
        (fed.splitter.isClosed = true ↔ IsComplete honor text) ∧
        (fed.splitter.truncation? = none ↔ IsGap isBlank text ∨ IsComplete honor text) ∧
        (¬ (IsGap isBlank text ∨ IsComplete honor text) →
          StaysOpen honor text ∧
            fed.splitter.truncation? = some (.truncated (unclosed honor text)))) ∧
      fed.objects.length = completions honor text := by
  intro text fed
  obtain ⟨quoted, n, heach, -⟩ := feedEach_eq_run
    ({ options := { honorEscapes := honor, keepBrackets := keep } } : Splitter) fragments rfl
  have htext : fragments.flatMap String.toList = text := String.toList_join.symm
  rw [htext] at heach
  obtain ⟨hstands, hobjects⟩ :=
    stands_of_run (o := { honorEscapes := honor, keepBrackets := keep }) rfl text
  rw [show fed = _ from heach]
  generalize run { honorEscapes := honor, keepBrackets := keep } .before text = r at hstands hobjects
  rcases r with ⟨place, objects, _ | refusal, unread⟩
  · refine ⟨fun rest => ⟨?_, ?_⟩, .inl rfl, fun _ => ⟨?_, ?_, ?_⟩, hobjects⟩
    · rintro ⟨⟨_, hfailure⟩, -⟩
      cases hfailure
    · rintro ⟨read, c, heq, hstray⟩
      exact absurd hstands (heq ▸ hstray.not_stands)
    · exact hstands.isClosed_iff
    · exact hstands.truncation?_eq_none_iff
    · exact hstands.truncation?_eq
  · obtain ⟨rfl, read, c, heq, hstray⟩ := hstands
    refine ⟨fun rest => ⟨?_, ?_⟩, .inr ⟨quoted, rfl⟩, ?_, hobjects⟩
    · rintro ⟨-, rfl⟩
      exact ⟨read, c, heq, hstray⟩
    · rintro ⟨read', c', heq', hstray'⟩
      exact ⟨⟨quoted, rfl⟩, hstray.rest_eq hstray' (heq.symm.trans heq')⟩
    · intro hfailure
      cases hfailure

end ObjectFeed.Splitter
