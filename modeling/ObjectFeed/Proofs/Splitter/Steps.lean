/-
  What one character more brings about.

  * `run_append_char`, `objects_append_char`: how a text is read with one character more;
  * `Options.kept` is what is kept of a text in this mode, so that objects grow by what is kept of each
    character;
  * `DeepStep` is what one character can bring about inside an element, if it is not refused;
  * `eq_of_completed`: only a closing brace completes an object, and `opened_of_step`: at the depth of the
    array only an opening character leads inside an element.
-/
import ObjectFeed.Proofs.Splitter.Nesting
import ObjectFeed.Proofs.Splitter.Passing

namespace ObjectFeed.Splitter

open Text (isBlank)
open Json

variable {o : Options}

/-! ## Reading one character more -/

/-- The object that a character completed. -/
def Outcome.objects : Outcome → List String
  | completed object => [object]
  | quiet | refused _ => []

/-- Why the character was refused, if it was. -/
def Outcome.refusal? : Outcome → Option Refusal
  | refused refusal => some refusal
  | quiet | completed _ => none

/-- The character was not refused. -/
def Outcome.IsRead (outcome : Outcome) : Prop :=
  ∀ refusal, outcome ≠ .refused refusal

theorem Outcome.isRead_of_refusal? {outcome : Outcome} (h : outcome.refusal? = none) :
    outcome.IsRead := by
  rintro refusal rfl
  cases h

theorem run_char (o : Options) (place : Place) (c : Char) :
    run o place [c] =
      { place := (step o place c).1
        objects := (step o place c).2.objects
        refusal := (step o place c).2.refusal? } := by
  rcases hs : step o place c with ⟨next, outcome⟩
  cases outcome <;> simp only [run, hs] <;> rfl

theorem unread_of_not_refused {start : Place} {text : List Char}
    (h : (run o start text).refusal = none) : (run o start text).unread = [] := by
  have hunread := congrArg Run.unread (run_append o start text [])
  rw [h, List.append_nil] at hunread
  exact hunread

theorem run_eq_of_not_refused {start : Place} {text : List Char}
    (h : (run o start text).refusal = none) :
    run o start text =
      { place := (run o start text).place, objects := (run o start text).objects } := by
  have hunread := unread_of_not_refused h
  rcases hr : run o start text with ⟨place, objects, refusal, unread⟩
  rw [hr] at h hunread
  cases h
  cases hunread
  rfl

theorem run_append_char {start place : Place} {text : List Char} {c : Char}
    {objects : List String} (h : run o start (text ++ [c]) = { place, objects }) :
    ∃ prior given outcome, run o start text = { place := prior, objects := given } ∧
      step o prior c = (place, outcome) ∧ outcome.IsRead ∧ objects = given ++ outcome.objects := by
  rw [run_append, run_char] at h
  cases hrefusal : (run o start text).refusal with
  | some refusal =>
    rw [hrefusal] at h
    cases congrArg Run.refusal h
  | none =>
    rw [hrefusal] at h
    obtain ⟨rfl, rfl, hread, -⟩ := Run.mk.inj h
    exact ⟨_, _, _, run_eq_of_not_refused hrefusal, rfl, Outcome.isRead_of_refusal? hread, rfl⟩

/-- What a character adds to the objects of a text: nothing, or the object that it completes. -/
theorem objects_append_char (o : Options) (start : Place) (text : List Char) (c : Char) :
    (run o start (text ++ [c])).objects = (run o start text).objects ∨
      ∃ prior place object, run o start text =
          { place := prior, objects := (run o start text).objects } ∧
        step o prior c = (place, .completed object) ∧
        (run o start (text ++ [c])).objects = (run o start text).objects ++ [object] := by
  rw [run_append, run_char]
  cases hrefusal : (run o start text).refusal with
  | some refusal => exact .inl rfl
  | none =>
    rcases hs : step o (run o start text).place c with ⟨next, outcome⟩
    cases outcome with
    | quiet => exact .inl (List.append_nil _)
    | completed object => exact .inr ⟨_, next, object, run_eq_of_not_refused hrefusal, hs, rfl⟩
    | refused refusal => exact .inl (List.append_nil _)

theorem reach_eq_of_isRead {depth : Nat} {mode : Mode} {object : String} {place : Place}
    {outcome : Outcome} (h : o.reach depth mode object = (place, outcome))
    (hread : outcome.IsRead) : place = .inside depth mode object ∧ outcome = .quiet := by
  unfold Options.reach at h
  obtain ⟨rfl, rfl⟩ := Prod.mk.inj h
  refine ⟨rfl, ?_⟩
  split at hread
  · split at hread
    · exact absurd rfl (hread _)
    · next hsize => exact if_neg hsize
  · rfl

theorem reach_ne_completed {depth : Nat} {mode : Mode} {object completed : String} {place : Place} :
    o.reach depth mode object ≠ (place, .completed completed) := by
  intro h
  have houtcome := congrArg Prod.snd h
  simp only [Options.reach] at houtcome
  split at houtcome
  · split at houtcome <;> cases houtcome
  · cases houtcome

/-- What is kept of a text that is read from this mode on. -/
def Options.kept (o : Options) (mode : Mode) (text : List Char) : String :=
  String.ofList (strip o.honorEscapes o.dropped mode text)

theorem kept_nil (mode : Mode) : o.kept mode [] = "" := by
  rw [Options.kept, strip_nil, String.ofList_nil]

theorem kept_append (mode : Mode) (s t : List Char) :
    o.kept mode (s ++ t) = o.kept mode s ++ o.kept (mode.afterText o.honorEscapes s) t := by
  simp only [Options.kept, strip_append, String.ofList_append]

theorem append_kept_of_keeps {mode : Mode} {c : Char} (h : ¬ (mode = .plain ∧ o.dropped c = true))
    (object : String) : object ++ o.kept mode [c] = object.push c := by
  rw [Options.kept, strip, if_neg h, strip_nil, String.ofList_cons, String.ofList_nil,
    String.append_empty, String.push_eq_append]

theorem append_kept_plain (object : String) (c : Char) :
    object ++ o.kept .plain [c] = if o.dropped c then object else object.push c := by
  cases hd : o.dropped c with
  | true =>
    rw [Options.kept, strip, if_pos ⟨rfl, hd⟩, strip_nil, String.ofList_nil, String.append_empty]
    rfl
  | false => exact append_kept_of_keeps (fun h => Bool.false_ne_true (hd.symm.trans h.2)) object

/-! ## Steps inside the array -/

/-- What a character brings about `n` levels inside an element. -/
inductive DeepStep (o : Options) (n : Nat) (object : String) : Mode → Char → Place → Outcome → Prop
  | char {mode c} : (mode = .plain → ¬ IsOpening c ∧ ¬ IsClosing c) →
      DeepStep o n object mode c
        (.inside (n + 2) (mode.after o.honorEscapes c) (object ++ o.kept mode [c])) .quiet
  | opening {c} : IsOpening c →
      DeepStep o n object .plain c (.inside (n + 3) .plain (object ++ o.kept .plain [c])) .quiet
  | closing {c} : IsClosing c → n ≠ 0 →
      DeepStep o n object .plain c (.inside (n + 1) .plain (object ++ o.kept .plain [c])) .quiet
  | completed : n = 0 →
      DeepStep o n object .plain '}' (.inside 1 .plain "") (.completed (object.push '}'))
  | ended : n = 0 → DeepStep o n object .plain ']' (.inside 1 .plain object) .quiet

section

variable {n : Nat} {mode : Mode} {object : String} {c : Char} {place : Place} {outcome : Outcome}

theorem step_of_opening (hc : IsOpening c) :
    step o (.inside (n + 2) .plain object) c =
      o.reach (n + 3) .plain (object ++ o.kept .plain [c]) := by
  rw [append_kept_plain, step]
  rcases hc with rfl | rfl
  · simp [Options.stepPlain, Options.dropped, isBlank]
  · cases hkeep : o.keepBrackets <;> simp [Options.stepPlain, Options.dropped, isBlank, hkeep]

theorem step_of_closing (hc : IsClosing c) :
    step o (.inside (n + 3) .plain object) c =
      o.reach (n + 2) .plain (object ++ o.kept .plain [c]) := by
  rw [append_kept_plain, step]
  rcases hc with rfl | rfl
  · simp [Options.stepPlain, Options.dropped, isBlank, show ¬ n + 3 < 2 by omega]
  · cases hkeep : o.keepBrackets <;> simp [Options.stepPlain, Options.dropped, isBlank, hkeep]

theorem step_of_neither (hopening : ¬ IsOpening c) (hclosing : ¬ IsClosing c) :
    step o (.inside (n + 2) .plain object) c =
      o.reach (n + 2) (Mode.plain.after o.honorEscapes c) (object ++ o.kept .plain [c]) := by
  obtain ⟨hbrace, hbracket⟩ := not_or.1 hopening
  obtain ⟨hbrace', hbracket'⟩ := not_or.1 hclosing
  rw [append_kept_plain, step]
  by_cases hquote : c = '"'
  · subst hquote
    simp [Options.stepPlain, Options.dropped, isBlank, Mode.after]
  · have hdropped : o.dropped c = isBlank c := by simp [Options.dropped, hbracket, hbracket']
    simp only [Options.stepPlain, hdropped, Mode.after, hbrace, hbracket, hbrace', hbracket', hquote,
      if_false]
    split <;> rfl

theorem step_unmarked (hc : mode = .plain → ¬ IsOpening c ∧ ¬ IsClosing c) :
    step o (.inside (n + 2) mode object) c =
      o.reach (n + 2) (mode.after o.honorEscapes c) (object ++ o.kept mode [c]) := by
  by_cases hm : mode = .plain
  · subst hm
    exact step_of_neither (hc rfl).1 (hc rfl).2
  · rw [append_kept_of_keeps fun h => hm h.1]
    cases mode with
    | plain => exact absurd rfl hm
    | quoted => rfl
    | escaped => rfl

theorem deepStep (h : step o (.inside (n + 2) mode object) c = (place, outcome))
    (hread : outcome.IsRead) : DeepStep o n object mode c place outcome := by
  by_cases hc : mode = .plain → ¬ IsOpening c ∧ ¬ IsClosing c
  · rw [step_unmarked hc] at h
    obtain ⟨rfl, rfl⟩ := reach_eq_of_isRead h hread
    exact .char hc
  · obtain ⟨rfl, hmark⟩ := Classical.not_imp.1 hc
    by_cases hopening : IsOpening c
    · rw [step_of_opening hopening] at h
      obtain ⟨rfl, rfl⟩ := reach_eq_of_isRead h hread
      exact .opening hopening
    · have hclosing : IsClosing c := Decidable.of_not_not fun hneither => hmark ⟨hopening, hneither⟩
      cases n with
      | zero =>
        rcases hclosing with rfl | rfl
        · obtain ⟨rfl, rfl⟩ := Prod.mk.inj h
          exact .completed rfl
        · obtain ⟨rfl, rfl⟩ := reach_eq_of_isRead (by simpa [step, Options.stepPlain] using h) hread
          exact .ended rfl
      | succ n =>
        rw [step_of_closing hclosing] at h
        obtain ⟨rfl, rfl⟩ := reach_eq_of_isRead h hread
        exact .closing hclosing (Nat.succ_ne_zero n)

/-- An object is completed only by the brace that brings back the depth of the array. -/
theorem eq_of_completed {start : Place} {completed : String}
    (h : step o start c = (place, .completed completed)) :
    ∃ object, start = .inside 2 .plain object ∧ c = '}' ∧ completed = object.push '}' := by
  cases start with
  | before =>
    simp only [step] at h
    split at h
    · cases h
    · split at h <;> cases h
  | after =>
    simp only [step] at h
    split at h <;> cases h
  | inside depth mode object =>
    cases mode with
    | quoted => exact absurd h reach_ne_completed
    | escaped => exact absurd h reach_ne_completed
    | plain =>
      simp only [step, Options.stepPlain] at h
      by_cases hclose : c = '}'
      · subst hclose
        by_cases hdepth : depth = 2
        · subst hdepth
          obtain ⟨-, hcompleted⟩ := Prod.mk.inj h
          exact ⟨object, rfl, rfl, (Outcome.completed.inj hcompleted).symm⟩
        · exfalso
          simp only [show ('}' : Char) ≠ '{' by decide, show ('}' : Char) ≠ '"' by decide, hdepth,
            if_false, if_true] at h
          split at h
          · cases h
          · exact reach_ne_completed h
      · exfalso
        simp only [hclose, if_false] at h
        repeat' split at h
        all_goals first
          | exact reach_ne_completed h
          | cases h

theorem depth_step_le {depth : Nat} (h : ¬ (mode = .plain ∧ IsOpening c)) :
    (step o (.inside depth mode object) c).1.depth ≤ depth := by
  cases mode with
  | quoted => exact Nat.le_refl depth
  | escaped => exact Nat.le_refl depth
  | plain =>
    obtain ⟨hbrace, hbracket⟩ := not_or.1 fun hc => h ⟨rfl, hc⟩
    simp only [step, Options.stepPlain, hbrace, hbracket, if_false]
    repeat' split
    all_goals simp only [Options.reach, Place.depth]; omega

/-- An opening character leads one level deeper.  A brace at the depth of the array starts its object
    afresh. -/
theorem exists_step_opening (hc : IsOpening c) (depth : Nat) (stray : String) :
    ∃ begun, step o (.inside depth .plain stray) c = o.reach (depth + 1) .plain begun ∧
      (c = '{' → depth = 1 → begun = o.kept .plain [c]) := by
  rcases hc with rfl | rfl
  · refine ⟨_, rfl, fun _ hdepth => ?_⟩
    rw [if_pos hdepth]
    simp [Options.kept, strip, Options.dropped, isBlank]
  · exact ⟨_, rfl, fun hbrace => absurd hbrace (by decide)⟩

/-- At the depth of the array, and outside it, a character leads inside an element only by opening
    one. -/
theorem opened_of_step {start : Place} (hstart : start.depth ≤ 1)
    (h : step o start c = (.inside (n + 2) mode object, outcome)) (hread : outcome.IsRead) :
    (∃ stray, start = .inside 1 .plain stray) ∧ IsOpening c ∧ n = 0 ∧ mode = .plain ∧
      outcome = .quiet := by
  cases start with
  | before =>
    simp only [step] at h
    split at h
    · cases h
    · split at h <;> cases h
  | after =>
    simp only [step] at h
    split at h <;> cases h
  | inside depth mode' stray =>
    have hdepth : depth ≤ 1 := hstart
    by_cases hm : mode' = .plain ∧ IsOpening c
    · obtain ⟨rfl, hc⟩ := hm
      obtain ⟨begun, hreach, -⟩ := exists_step_opening (o := o) hc depth stray
      obtain ⟨hplace, rfl⟩ := reach_eq_of_isRead (hreach.symm.trans h) hread
      obtain ⟨hn, rfl, rfl⟩ := Place.inside.inj hplace
      obtain rfl : depth = 1 := by omega
      exact ⟨⟨stray, rfl⟩, hc, by omega, rfl, rfl⟩
    · have hle : (step o (.inside depth mode' stray) c).1.depth ≤ depth := depth_step_le hm
      rw [h] at hle
      simp only [Place.depth] at hle
      omega

end

end ObjectFeed.Splitter
