/-
  Brackets outside strings, and the arrays in a value.

  * `Value.hasArray` says whether a value is an array or has one in it, and `Reading.hasArray` whether
    an array has been opened.  `hasArray_step` is what one token does to that, `hasArray_foldlM` what
    tokens do;
  * `mark_mem_tokens?_iff`: the marks among the tokens of a text are those outside its strings;
  * `hasArray_parse?`: so a text that is parsed has an array in it exactly if a bracket stands outside its
    strings;
  * `strip_congr`, `outside_strip`: what is left out of a text outside its strings, and what is left there.
-/
import ObjectFeed.Json.Value
import ObjectFeed.Proofs.Json.Fusing
import ObjectFeed.Proofs.Splitter.Levels

namespace ObjectFeed.Json

open Text (isBlank isJsonBlank isBlank_of_isJsonBlank)
open Splitter (Mode strip outside outside_append)

/-! ## Arrays in values -/

mutual

/-- Whether a value is an array or has one in it. -/
def Value.hasArray : Value → Bool
  | .array _ => true
  | .object members => hasArrayInMembers members
  | .null | .bool _ | .number _ | .string _ => false

/-- The same for the members of an object. -/
def hasArrayInMembers : List (String × Value) → Bool
  | [] => false
  | (_, v) :: rest => v.hasArray || hasArrayInMembers rest

end

theorem hasArrayInMembers_eq (members : List (String × Value)) :
    hasArrayInMembers members = members.any fun member => member.2.hasArray := by
  induction members with
  | nil => rfl
  | cons member members ih =>
    obtain ⟨key, v⟩ := member
    rw [hasArrayInMembers, ih, List.any_cons]

/-- Whether an array is open, or one has been read in an object that is open. -/
def Frame.hasArray : Frame → Bool
  | array _ => true
  | object members _ => hasArrayInMembers members

/-- Whether an array has been opened. -/
def Reading.hasArray : Reading → Bool
  | value stack | firstKey stack => stack.any Frame.hasArray
  | firstItem _ => true
  | key members stack | colon members _ stack =>
    hasArrayInMembers members || stack.any Frame.hasArray
  | after v stack => v.hasArray || stack.any Frame.hasArray

theorem hasArray_ofWord? {w : List Char} {v : Value} (h : Value.ofWord? w = some v) :
    v.hasArray = false := by
  unfold Value.ofWord? at h
  repeat' split at h
  all_goals first
    | (obtain rfl := Option.some.inj h; rfl)
    | (obtain ⟨n, -, rfl⟩ := Option.map_eq_some_iff.1 h; rfl)

theorem hasArray_stepValue {stack : List Frame} {t : Token} {r : Reading}
    (h : Reading.stepValue stack t = some r) :
    r.hasArray = (stack.any Frame.hasArray || decide (t = .mark .openBracket)) := by
  cases t with
  | mark m => cases m <;> cases h <;> simp [Reading.hasArray]
  | quoted body =>
    obtain ⟨s, -, rfl⟩ := Option.map_eq_some_iff.1 h
    simp [Reading.hasArray, Value.hasArray]
  | word w =>
    obtain ⟨v, hv, rfl⟩ := Option.map_eq_some_iff.1 h
    simp [Reading.hasArray, hasArray_ofWord? hv]

/-- **A token opens an array exactly if it is the opening bracket**, and only where one is open it can
    be the closing bracket. -/
theorem hasArray_step {r r' : Reading} {t : Token} (h : r.step t = some r') :
    r'.hasArray = (r.hasArray || decide (t = .mark .openBracket)) ∧
      (t = .mark .closeBracket → r.hasArray = true) := by
  cases r with
  | value stack =>
    refine ⟨hasArray_stepValue h, ?_⟩
    rintro rfl
    cases h
  | firstItem stack =>
    refine ⟨?_, fun _ => rfl⟩
    simp only [Reading.step] at h
    split at h
    · cases h
      rfl
    · rw [hasArray_stepValue h]
      rfl
  | firstKey stack =>
    cases t with
    | mark m =>
      cases m <;> cases h
      simp [Reading.hasArray, Value.hasArray, hasArrayInMembers]
    | quoted body =>
      obtain ⟨k, -, rfl⟩ := Option.map_eq_some_iff.1 h
      simp [Reading.hasArray, hasArrayInMembers]
    | word w => cases h
  | key members stack =>
    cases t with
    | mark m => cases m <;> cases h
    | quoted body =>
      obtain ⟨k, -, rfl⟩ := Option.map_eq_some_iff.1 h
      simp [Reading.hasArray]
    | word w => cases h
  | colon members k stack =>
    cases t with
    | mark m =>
      cases m <;> cases h
      simp [Reading.hasArray, Frame.hasArray]
    | quoted body => cases h
    | word w => cases h
  | after v stack =>
    rcases stack with _ | ⟨items | ⟨members, k⟩, stack⟩
    · cases t <;> cases h
    · cases t with
      | mark m =>
        cases m <;> cases h <;> simp [Reading.hasArray, Frame.hasArray, Value.hasArray]
      | quoted body => cases h
      | word w => cases h
    · cases t with
      | mark m =>
        cases m <;> cases h <;>
          simp [Reading.hasArray, Frame.hasArray, Value.hasArray, hasArrayInMembers_eq,
            Bool.or_assoc, Bool.or_left_comm]
      | quoted body => cases h
      | word w => cases h

/-- Tokens open an array exactly if the opening bracket is among them, and if the closing one is, they
    have done so. -/
theorem hasArray_foldlM {tokens : List Token} {r r' : Reading}
    (h : tokens.foldlM Reading.step r = some r') :
    (r'.hasArray = true ↔ r.hasArray = true ∨ .mark .openBracket ∈ tokens) ∧
      (.mark .closeBracket ∈ tokens → r'.hasArray = true) := by
  induction tokens generalizing r with
  | nil =>
    obtain rfl := Option.some.inj h
    simp
  | cons t tokens ih =>
    rw [List.foldlM_cons] at h
    obtain ⟨next, hstep, hrest⟩ := Option.bind_eq_some_iff.1 h
    obtain ⟨hopen, hclose⟩ := hasArray_step hstep
    obtain ⟨ihopen, ihclose⟩ := ih hrest
    constructor
    · rw [ihopen, hopen, Bool.or_eq_true, decide_eq_true_eq, List.mem_cons, or_assoc, @eq_comm _ t]
    · intro hmem
      rcases List.mem_cons.1 hmem with rfl | hmem
      · rw [ihopen, hopen, hclose rfl]
        exact .inl rfl
      · exact ihclose hmem

/-- **A value has an array in it exactly if a bracket is among its tokens.** -/
theorem hasArray_ofTokens? {tokens : List Token} {v : Value} (h : Value.ofTokens? tokens = some v) :
    v.hasArray = true ↔ .mark .openBracket ∈ tokens ∨ .mark .closeBracket ∈ tokens := by
  obtain ⟨r, hfold, hfinish⟩ := Option.bind_eq_some_iff.1 h
  obtain ⟨hopen, hclose⟩ := hasArray_foldlM hfold
  have hvalue : r.hasArray = v.hasArray := by
    cases r with
    | after w stack =>
      cases stack with
      | nil =>
        obtain rfl := Option.some.inj hfinish
        exact Bool.or_false _
      | cons => cases hfinish
    | _ => cases hfinish
  rw [hvalue] at hopen hclose
  constructor
  · intro hv
    exact .inl ((hopen.1 hv).resolve_left (by decide))
  · rintro (hmem | hmem)
    · exact hopen.2 (.inr hmem)
    · exact hclose hmem

/-! ## Marks outside strings -/

theorem mark_mem_endWord (l : Lexing) (m : Mark) : .mark m ∈ l.endWord.done ↔ .mark m ∈ l.done := by
  rcases l with ⟨done, _ | read | read | read⟩ <;> simp [Lexing.endWord]

theorem mark_mem_plainStep {blank : Char → Bool} {l next : Lexing} {c : Char}
    (h : PlainStep blank l c next) (m : Mark) :
    .mark m ∈ next.done ↔ .mark m ∈ l.done ∨ m.toChar = c := by
  have hother : Mark.ofChar? c = none → m.toChar ≠ c := by
    rintro hnone rfl
    rw [Mark.ofChar?_toChar] at hnone
    cases hnone
  cases h with
  | mark m' =>
    have hsame : m.toChar = m'.toChar ↔ m = m' := by
      refine ⟨fun heq => Option.some.inj ?_, congrArg Mark.toChar⟩
      rw [← Mark.ofChar?_toChar, heq, Mark.ofChar?_toChar]
    rw [List.mem_cons, mark_mem_endWord, hsame, Token.mark.injEq, or_comm]
  | quote => simp [mark_mem_endWord, mark_ne_quote m]
  | blank hmark => simp [mark_mem_endWord, hother hmark]
  | word hmark => simp [hother hmark]

theorem mark_mem_step {blank : Char → Bool} {l : Lexing} (hl : l.pending.mode ≠ .plain) (c : Char)
    (m : Mark) : .mark m ∈ (l.step blank c).done ↔ .mark m ∈ l.done := by
  rcases l with ⟨done, _ | read | read | read⟩
  · exact absurd rfl hl
  · exact absurd rfl hl
  · simp only [Lexing.step]
    repeat' split
    all_goals simp
  · rfl

theorem mark_mem_done_iff (blank : Char → Bool) (m : Mark) (s : List Char) :
    .mark m ∈ (s.foldl (Lexing.step blank) {}).done ↔ m.toChar ∈ outside true .plain s := by
  induction s using List.reverseRecOn with
  | nil => simp [outside]
  | append_singleton s c ih =>
    have hmode := mode_foldl blank s
    rw [List.foldl_append, List.foldl_cons, List.foldl_nil, outside_append, List.mem_append, ← ih]
    generalize s.foldl (Lexing.step blank) {} = l at hmode ⊢
    by_cases hplain : Mode.plain.afterText true s = .plain
    · have hstep : PlainStep blank l c (l.step blank c) :=
        plainStep (mode_eq_plain_iff.1 (hmode.trans hplain)) c
      rw [mark_mem_plainStep hstep, hplain]
      simp [outside]
    · rw [mark_mem_step (by rwa [hmode]), outside, if_neg hplain]
      simp [outside]

/-- **The marks of a text are those outside its strings.** -/
theorem mark_mem_tokens?_iff {blank : Char → Bool} {s : List Char} {tokens : List Token}
    (h : tokens? blank s = some tokens) (m : Mark) :
    .mark m ∈ tokens ↔ m.toChar ∈ outside true .plain s := by
  rw [← mark_mem_done_iff blank, ← mark_mem_endWord]
  rw [tokens?, Lexing.finish?] at h
  split at h
  · cases h
  · cases h
  · rw [← Option.some.inj h, List.mem_reverse]

/-- **A text that is parsed has an array in it exactly if a bracket stands outside its strings.** -/
theorem hasArray_parse? {s : List Char} {v : Value} (h : parse? s = some v) :
    v.hasArray = true ↔ ∃ c ∈ outside true .plain s, c = '[' ∨ c = ']' := by
  obtain ⟨tokens, htokens, hvalue⟩ := Option.bind_eq_some_iff.1 h
  have hopen := mark_mem_tokens?_iff htokens .openBracket
  have hclose := mark_mem_tokens?_iff htokens .closeBracket
  rw [hasArray_ofTokens? hvalue, hopen, hclose]
  constructor
  · rintro (hmem | hmem)
    · exact ⟨_, hmem, .inl rfl⟩
    · exact ⟨_, hmem, .inr rfl⟩
  · rintro ⟨c, hmem, rfl | rfl⟩
    · exact .inl hmem
    · exact .inr hmem

/-! ## What is left of a text -/

section

variable {honor : Bool} {drop drop' : Char → Bool} {mode : Mode} {s : List Char}

/-- What is left of a text depends on what is left out of it outside strings. -/
theorem strip_congr (h : ∀ c ∈ outside honor mode s, drop c = drop' c) :
    strip honor drop mode s = strip honor drop' mode s := by
  induction s generalizing mode with
  | nil => rfl
  | cons c s ih =>
    by_cases hplain : mode = .plain
    · rw [outside, if_pos hplain] at h
      rw [strip, strip, h c List.mem_cons_self, ih fun d hd => h d (List.mem_cons_of_mem _ hd)]
    · rw [outside, if_neg hplain] at h
      rw [strip, strip, ih h, if_neg fun hc => hplain hc.1, if_neg fun hc => hplain hc.1]

theorem outside_strip (hquote : drop '"' = false) {c : Char}
    (h : c ∈ outside honor mode (strip honor drop mode s)) : drop c = false := by
  induction s generalizing mode with
  | nil => cases h
  | cons d s ih =>
    rw [strip] at h
    split at h
    next hdropped =>
      obtain ⟨rfl, hd⟩ := hdropped
      have hne : d ≠ '"' := by
        rintro rfl
        rw [hquote] at hd
        cases hd
      rw [Mode.after_plain_of_ne hne] at h
      exact ih h
    next hkept =>
      rw [outside] at h
      split at h
      next hplain =>
        rcases List.mem_cons.1 h with rfl | h
        · cases hd : drop c with
          | false => rfl
          | true => exact absurd ⟨hplain, hd⟩ hkept
        · exact ih h
      next => exact ih h

end

end ObjectFeed.Json
