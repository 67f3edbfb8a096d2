/-
  The tokens of JSON texts, with and without the blanks between them.

  * `Lexes` says that a text is read as certain tokens, wherever it stands after a complete token;
  * `Keeps` says moreover that the text without its blanks outside strings is read as the same.  A
    word keeps its token, and so do texts with a mark between them: no word meets another when the
    blanks go.
-/
import ObjectFeed.Proofs.Splitter.Literals

namespace ObjectFeed.Json

open Text (isBlank)
open Splitter (Mode strip strip_nil strip_append strip_plain_dropped strip_plain_kept strip_string
  afterText_string)

variable {blank : Char → Bool}

/-! ## Reading on after a complete token -/

/-- A text that is read as these tokens when it stands after a complete token; its last word may
    still go on. -/
def Lexes (blank : Char → Bool) (s : List Char) (tokens : List Token) : Prop :=
  ∀ done, (s.foldl (Lexing.step blank) { done }).endWord = { done := tokens.reverse ++ done }

theorem step_mark {l : Lexing} (h : l.endWord.pending = .nothing) (m : Mark) :
    l.step blank m.toChar = { done := .mark m :: l.endWord.done } := by
  rcases l with ⟨done, _ | read | read | read⟩
  · simp [Lexing.step]
  · simp [Lexing.step]
  · cases h
  · cases h

theorem step_quote {l : Lexing} (h : l.endWord.pending = .nothing) :
    l.step blank '"' = { l.endWord with pending := .quoted [] } := by
  rcases l with ⟨done, _ | read | read | read⟩
  · simp [Lexing.step, Mark.ofChar?]
  · simp [Lexing.step, Mark.ofChar?]
  · cases h
  · cases h

theorem step_blank {l : Lexing} (h : l.endWord.pending = .nothing) {c : Char}
    (hmark : Mark.ofChar? c = none) (hquote : c ≠ '"') (hblank : blank c = true) :
    l.step blank c = l.endWord := by
  rcases l with ⟨done, _ | read | read | read⟩
  · simp [Lexing.step, hmark, hquote, hblank]
  · simp [Lexing.step, hmark, hquote, hblank]
  · cases h
  · cases h

theorem Lexes.nil : Lexes blank [] [] := fun _ => rfl

/-- A mark ends the token before it, so a text is read in parts at its marks. -/
theorem Lexes.mark {s t : List Char} {left right : List Token} (hs : Lexes blank s left) (m : Mark)
    (ht : Lexes blank t right) : Lexes blank (s ++ m.toChar :: t) (left ++ .mark m :: right) := by
  intro done
  have hleft := hs done
  rw [List.foldl_append, List.foldl_cons, step_mark (by rw [hleft]), hleft, ht]
  simp

theorem foldl_looseBody {body : List Char} (h : IsLooseBody body) (done : List Token)
    (read rest : List Char) :
    (body ++ '"' :: rest).foldl (Lexing.step blank) { done, pending := .quoted read } =
      rest.foldl (Lexing.step blank) { done := .quoted (read.reverse ++ body) :: done } := by
  induction h generalizing read with
  | nil => simp [Lexing.step]
  | char hquote hback _ ih => simp [Lexing.step, hquote, hback, ih]
  | pair _ ih => simp [Lexing.step, ih]

theorem Lexes.string {body : List Char} (h : IsLooseBody body) :
    Lexes blank ('"' :: body ++ ['"']) [.quoted body] := by
  intro done
  rw [List.cons_append, List.foldl_cons, step_quote rfl, Lexing.endWord, foldl_looseBody h]
  rfl

section

variable (hgap : ∀ c, blank c = true → isBlank c = true)
include hgap

theorem blank_eq_false {c : Char} (h : IsPlain c) : blank c = false := by
  cases hc : blank c with
  | false => rfl
  | true => exact absurd (hgap c hc) (by simp [h.2.2])

theorem foldl_gap {l : Lexing} (hl : l.pending = .nothing) {gap : List Char}
    (hg : IsGap blank gap) : gap.foldl (Lexing.step blank) l = l := by
  have hend : l.endWord = l := by rw [Lexing.endWord, hl]
  induction gap with
  | nil => rfl
  | cons c gap ih =>
    have hc : blank c = true := hg c List.mem_cons_self
    obtain ⟨hmark, hquote⟩ := not_mark_of_isBlank (hgap c hc)
    rw [List.foldl_cons, step_blank (by rw [hend, hl]) hmark hquote hc, hend,
      ih fun d hd => hg d (List.mem_cons_of_mem _ hd)]

theorem Lexes.gap_append {gap s : List Char} {tokens : List Token} (hg : IsGap blank gap)
    (hs : Lexes blank s tokens) : Lexes blank (gap ++ s) tokens := by
  intro done
  rw [List.foldl_append, foldl_gap hgap rfl hg, hs]

theorem Lexes.append_gap {s gap : List Char} {tokens : List Token} (hs : Lexes blank s tokens)
    (hg : IsGap blank gap) : Lexes blank (s ++ gap) tokens := by
  intro done
  have hdone := hs done
  cases gap with
  | nil => rw [List.append_nil, hdone]
  | cons c gap =>
    have hc : blank c = true := hg c List.mem_cons_self
    obtain ⟨hmark, hquote⟩ := not_mark_of_isBlank (hgap c hc)
    -- the first blank ends the word, if there is one; the others change nothing
    rw [List.foldl_append, List.foldl_cons, step_blank (by rw [hdone]) hmark hquote hc, hdone,
      foldl_gap hgap rfl fun d hd => hg d (List.mem_cons_of_mem _ hd)]
    rfl

theorem foldl_word {w : List Char} (hw : ∀ c ∈ w, IsPlain c) (done : List Token)
    (read : List Char) :
    w.foldl (Lexing.step blank) { done, pending := .word read } =
      { done, pending := .word (w.reverse ++ read) } := by
  induction w generalizing read with
  | nil => rfl
  | cons c w ih =>
    have hblank : blank c = false := blank_eq_false hgap (hw c List.mem_cons_self)
    obtain ⟨hmark, hquote, -⟩ := hw c List.mem_cons_self
    have hstep : Lexing.step blank { done, pending := .word read } c =
        { done, pending := .word (c :: read) } := by
      simp [Lexing.step, hmark, hquote, hblank]
    rw [List.foldl_cons, hstep, ih fun d hd => hw d (List.mem_cons_of_mem _ hd)]
    simp

theorem Lexes.word {w : List Char} (hne : w ≠ []) (hw : ∀ c ∈ w, IsPlain c) :
    Lexes blank w [.word w] := by
  intro done
  obtain ⟨c, rest, rfl⟩ := List.exists_cons_of_ne_nil hne
  have hblank : blank c = false := blank_eq_false hgap (hw c List.mem_cons_self)
  obtain ⟨hmark, hquote, -⟩ := hw c List.mem_cons_self
  have hstep : Lexing.step blank { done } c = { done, pending := .word [c] } := by
    simp [Lexing.step, hmark, hquote, hblank]
  rw [List.foldl_cons, hstep, foldl_word hgap fun d hd => hw d (List.mem_cons_of_mem _ hd)]
  simp [Lexing.endWord]

end

theorem Lexes.tokens? {s : List Char} {tokens : List Token} (h : Lexes blank s tokens) :
    tokens? blank s = some tokens := by
  have hs := h []
  rcases hl : s.foldl (Lexing.step blank) { done := [] } with ⟨done, _ | read | read | read⟩
  all_goals
    rw [hl] at hs
    simp_all [Json.tokens?, Lexing.finish?, Lexing.endWord]

/-! ## Stripped texts -/

theorem isBlank_mark (m : Mark) : isBlank m.toChar = false := by
  cases m <;> rfl

theorem mark_ne_quote (m : Mark) : m.toChar ≠ '"' := by
  cases m <;> decide

/-- A text that is read as the same tokens without the blanks outside its strings. -/
structure Keeps (blank : Char → Bool) (s : List Char) (tokens : List Token) : Prop where
  closed : Mode.plain.afterText true s = .plain
  lexes : Lexes blank s tokens
  stripped : Lexes blank (strip true isBlank .plain s) tokens

theorem Keeps.nil : Keeps blank [] [] where
  closed := rfl
  lexes := .nil
  stripped := .nil

theorem Keeps.mark {s t : List Char} {left right : List Token} (hs : Keeps blank s left) (m : Mark)
    (ht : Keeps blank t right) : Keeps blank (s ++ m.toChar :: t) (left ++ .mark m :: right) where
  closed := by
    rw [Mode.afterText_append, hs.closed, Mode.afterText_cons,
      Mode.after_plain_of_ne (mark_ne_quote m), ht.closed]
  lexes := hs.lexes.mark m ht.lexes
  stripped := by
    rw [strip_append, hs.closed, strip_plain_kept (isBlank_mark m) (mark_ne_quote m)]
    exact hs.stripped.mark m ht.stripped

theorem Keeps.string {body : List Char} (h : IsLooseBody body) :
    Keeps blank ('"' :: body ++ ['"']) [.quoted body] where
  closed := afterText_string h
  lexes := .string h
  stripped := by
    rw [strip_string h rfl]
    exact .string h

section

variable (hgap : ∀ c, blank c = true → isBlank c = true)
include hgap

theorem strip_gap {gap : List Char} (hg : IsGap blank gap) (s : List Char) :
    Mode.plain.afterText true (gap ++ s) = Mode.plain.afterText true s ∧
      strip true isBlank .plain (gap ++ s) = strip true isBlank .plain s := by
  induction gap with
  | nil => exact ⟨rfl, rfl⟩
  | cons c gap ih =>
    have hc : isBlank c = true := hgap c (hg c List.mem_cons_self)
    have hquote : c ≠ '"' := (not_mark_of_isBlank hc).2
    rw [List.cons_append, Mode.afterText_cons, Mode.after_plain_of_ne hquote,
      strip_plain_dropped hc hquote]
    exact ih fun d hd => hg d (List.mem_cons_of_mem _ hd)

theorem Keeps.surround {before s after : List Char} {tokens : List Token}
    (hbefore : IsGap blank before) (hs : Keeps blank s tokens) (hafter : IsGap blank after) :
    Keeps blank (before ++ s ++ after) tokens := by
  have hempty := strip_gap hgap hafter []
  rw [List.append_nil] at hempty
  rw [List.append_assoc]
  refine ⟨?_, ?_, ?_⟩
  · rw [(strip_gap hgap hbefore _).1, Mode.afterText_append, hs.closed, hempty.1]
    rfl
  · exact .gap_append hgap hbefore (hs.lexes.append_gap hgap hafter)
  · rw [(strip_gap hgap hbefore _).2, strip_append, hs.closed, hempty.2, strip_nil, List.append_nil]
    exact hs.stripped

theorem Keeps.word {w : List Char} (hne : w ≠ []) (hw : ∀ c ∈ w, IsPlain c) :
    Keeps blank w [.word w] := by
  have hkept : ∀ {w : List Char}, (∀ c ∈ w, IsPlain c) →
      Mode.plain.afterText true w = .plain ∧ strip true isBlank .plain w = w := by
    intro w hw
    induction w with
    | nil => exact ⟨rfl, rfl⟩
    | cons c w ih =>
      obtain ⟨-, hquote, hblank⟩ := hw c List.mem_cons_self
      obtain ⟨hclosed, hrest⟩ := ih fun d hd => hw d (List.mem_cons_of_mem _ hd)
      rw [Mode.afterText_cons, Mode.after_plain_of_ne hquote, strip_plain_kept hblank hquote, hrest]
      exact ⟨hclosed, rfl⟩
  refine ⟨(hkept hw).1, .word hgap hne hw, ?_⟩
  rw [(hkept hw).2]
  exact .word hgap hne hw

end

end ObjectFeed.Json
