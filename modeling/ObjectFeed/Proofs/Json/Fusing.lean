/-
  When a text means something else without its blanks.

  * `Fuses` says where leaving out the blanks outside strings can change what is read: at a blank that
    is not one of JSON, and where blanks keep two words apart;
  * `Parted` is a text that ends with blanks after a word, and `Follows` says that a lexer is where the
    lexer of the text is, but for the word that blanks have ended there;
  * `lexing_strip`: where nothing fuses, the lexer of the text without these blanks follows it;
  * `tokens?_strip`: so both texts have the same tokens.
-/
import ObjectFeed.Proofs.Json.Spelling

namespace ObjectFeed.Json

open Text (isBlank isJsonBlank isBlank_of_isJsonBlank)
open Splitter (Mode strip strip_append strip_nil strip_plain_dropped strip_plain_kept
  strip_cons_of_ne_plain)

/-- A text in which two words are kept apart by blanks, or in which stands a blank that JSON does not
    have, outside strings. -/
inductive Fuses : List Char → Prop
  | blank {before c after} : Mode.plain.afterText true before = .plain → isBlank c = true →
      isJsonBlank c = false → Fuses (before ++ c :: after)
  | words {before c gap d after} : Mode.plain.afterText true before = .plain → IsPlain c →
      gap ≠ [] → IsGap isJsonBlank gap → IsPlain d → Fuses (before ++ c :: gap ++ d :: after)

/-- A text that ends with blanks after a character of a word. -/
def Parted (s : List Char) : Prop :=
  ∃ before c gap, s = before ++ c :: gap ∧ Mode.plain.afterText true before = .plain ∧ IsPlain c ∧
    gap ≠ [] ∧ IsGap isJsonBlank gap

theorem Fuses.append {s : List Char} (h : Fuses s) (t : List Char) : Fuses (s ++ t) := by
  cases h with
  | blank hbefore hc hodd =>
    rw [List.append_assoc, List.cons_append]
    exact .blank hbefore hc hodd
  | words hbefore hc hgap hblanks hd =>
    rw [List.append_assoc, List.cons_append]
    exact .words hbefore hc hgap hblanks hd

theorem Parted.fuses {s : List Char} (h : Parted s) {d : Char} (hd : IsPlain d) :
    Fuses (s ++ [d]) := by
  obtain ⟨before, c, gap, rfl, hbefore, hc, hgap, hblanks⟩ := h
  exact .words hbefore hc hgap hblanks hd

theorem Parted.append_blank {s : List Char} (h : Parted s) {c : Char} (hc : isJsonBlank c = true) :
    Parted (s ++ [c]) := by
  obtain ⟨before, d, gap, rfl, hbefore, hd, hgap, hblanks⟩ := h
  refine ⟨before, d, gap ++ [c], by simp, hbefore, hd, by simp, ?_⟩
  exact List.forall_mem_append.2 ⟨hblanks, List.forall_mem_singleton.2 hc⟩

/-! ## Modes of a lexer -/

/-- Where a lexer stands with respect to strings. -/
def Pending.mode : Pending → Mode
  | nothing | word _ => .plain
  | quoted _ => .quoted
  | escaped _ => .escaped

theorem mode_eq_plain_iff {l : Lexing} :
    l.pending.mode = .plain ↔ l.endWord.pending = .nothing := by
  rcases l with ⟨done, _ | read | read | read⟩ <;> simp [Pending.mode, Lexing.endWord]

section

variable {blank : Char → Bool}

theorem mode_step (l : Lexing) (c : Char) :
    (l.step blank c).pending.mode = l.pending.mode.after true c := by
  by_cases hl : l.pending.mode = .plain
  · have hend := mode_eq_plain_iff.1 hl
    have hstep : PlainStep blank l c (l.step blank c) := plainStep hend c
    rw [hl]
    generalize l.step blank c = next at hstep ⊢
    cases hstep with
    | mark m => exact (Mode.after_plain_of_ne (mark_ne_quote m)).symm
    | quote => rfl
    | blank _ hquote => rw [Mode.after_plain_of_ne hquote, hend, Pending.mode]
    | word _ hquote => rw [Mode.after_plain_of_ne hquote, Pending.mode]
  · rcases l with ⟨done, _ | read | read | read⟩
    · exact absurd rfl hl
    · exact absurd rfl hl
    · by_cases hquote : c = '"'
      · subst hquote
        rfl
      · by_cases hback : c = '\\'
        · subst hback
          rfl
        · simp [Lexing.step, Pending.mode, Mode.after, hquote, hback]
    · rfl

/-- A lexer goes in and out of strings as the rule for strings says. -/
theorem mode_foldl (blank : Char → Bool) (s : List Char) :
    (s.foldl (Lexing.step blank) {}).pending.mode = Mode.plain.afterText true s := by
  induction s using List.reverseRecOn with
  | nil => rfl
  | append_singleton s c ih =>
    rw [List.foldl_append, Mode.afterText_append, ← ih]
    exact mode_step _ c

/-- A word that is being read has just been gone on with. -/
theorem last_of_word {s : List Char} {read : List Char}
    (h : (s.foldl (Lexing.step blank) {}).pending = .word read) :
    ∃ before c, s = before ++ [c] ∧ Mode.plain.afterText true before = .plain ∧
      Mark.ofChar? c = none ∧ c ≠ '"' ∧ blank c = false := by
  cases s using List.reverseRecOn with
  | nil => cases h
  | append_singleton before c =>
    have hmode := mode_foldl blank before
    rw [List.foldl_append, List.foldl_cons, List.foldl_nil] at h
    rcases hl : before.foldl (Lexing.step blank) {} with ⟨done, pending⟩
    rw [hl] at h hmode
    by_cases hplain : pending.mode = .plain
    · have hend := mode_eq_plain_iff (l := ⟨done, pending⟩).1 hplain
      have hstep : PlainStep blank ⟨done, pending⟩ c (Lexing.step blank ⟨done, pending⟩ c) :=
        plainStep hend c
      generalize Lexing.step blank ⟨done, pending⟩ c = next at hstep h
      cases hstep with
      | mark => cases h
      | quote => cases h
      | blank => rw [hend] at h; cases h
      | word hmark hquote hblank =>
        exact ⟨before, c, rfl, hmode.symm.trans hplain, hmark, hquote, hblank⟩
    · -- inside a string no word is being read
      exfalso
      rcases pending with _ | read' | read' | read'
      · exact hplain rfl
      · exact hplain rfl
      · simp only [Lexing.step] at h
        split at h
        · cases h
        · split at h <;> cases h
      · cases h

theorem isPlain_of_word {s : List Char} (hs : ¬ Fuses s) {read : List Char}
    (h : (s.foldl (Lexing.step isJsonBlank) {}).pending = .word read) :
    ∃ before c, s = before ++ [c] ∧ Mode.plain.afterText true before = .plain ∧ IsPlain c := by
  obtain ⟨before, c, rfl, hbefore, hmark, hquote, hjson⟩ := last_of_word h
  refine ⟨before, c, rfl, hbefore, hmark, hquote, ?_⟩
  cases hblank : isBlank c with
  | false => rfl
  | true => exact absurd (.blank hbefore hblank hjson) hs

theorem endWord_of_nothing {l : Lexing} (h : l.pending = .nothing) : l.endWord = l := by
  rw [Lexing.endWord, h]

theorem endWord_endWord (l : Lexing) : l.endWord.endWord = l.endWord := by
  rcases l with ⟨done, _ | read | read | read⟩ <;> rfl

theorem eq_of_endWord {l l' : Lexing} (h : l'.endWord = l) (hl : l.pending.mode ≠ .plain) :
    l' = l := by
  subst h
  rcases l' with ⟨done, _ | read | read | read⟩
  · rfl
  · exact absurd rfl hl
  · rfl
  · rfl

theorem step_of_break {l : Lexing} (hl : l.endWord.pending = .nothing) {c : Char}
    (hc : Mark.ofChar? c ≠ none ∨ c = '"') : l.step blank c = l.endWord.step blank c := by
  have hend := endWord_endWord l
  rcases hc with hmark | rfl
  · obtain ⟨m, hm⟩ := Option.ne_none_iff_exists'.1 hmark
    obtain rfl := Mark.toChar_of_ofChar? hm
    rw [step_mark hl, step_mark (by rw [hend, hl]), hend]
  · rw [step_quote hl, step_quote (by rw [hend, hl]), hend]

end

/-! ## Reading without the blanks -/

/-- A lexer that has read a text without its blanks, next to the lexer `l` that has read the text:
    it is where `l` is, or blanks have ended the word that it still reads. -/
def Follows (s : List Char) (l l' : Lexing) : Prop :=
  l' = l ∨ l'.endWord = l ∧ Parted s

section

variable {s : List Char} {c : Char} {l' : Lexing}

/-- A blank outside strings is passed over by the one and ends the word of the other. -/
theorem Follows.blank (h : ¬ Fuses (s ++ [c])) (hplain : Mode.plain.afterText true s = .plain)
    (hblank : isBlank c = true) (hl : Follows s (s.foldl (Lexing.step isJsonBlank) {}) l') :
    Follows (s ++ [c]) ((s.foldl (Lexing.step isJsonBlank) {}).step isJsonBlank c) l' := by
  have hend := mode_eq_plain_iff.1 ((mode_foldl isJsonBlank s).trans hplain)
  obtain ⟨hmark, hquote⟩ := not_mark_of_isBlank hblank
  have hjson : isJsonBlank c = true := by
    cases hodd : isJsonBlank c with
    | true => rfl
    | false =>
      have hfuses : Fuses (s ++ [c]) := .blank hplain hblank hodd
      exact absurd hfuses h
  rw [step_blank hend hmark hquote hjson]
  rcases hl with rfl | ⟨hended, hparted⟩
  · cases hpending : (s.foldl (Lexing.step isJsonBlank) {}).pending with
    | nothing => exact .inl (endWord_of_nothing hpending).symm
    | word read =>
      refine .inr ⟨rfl, ?_⟩
      obtain ⟨before, d, rfl, hbefore, hd⟩ :=
        isPlain_of_word (fun hs => h (hs.append [c])) hpending
      exact ⟨before, d, [c], by simp, hbefore, hd, List.cons_ne_nil _ _,
        List.forall_mem_singleton.2 hjson⟩
    | quoted read => rw [Lexing.endWord, hpending] at hend; cases hpending.symm.trans hend
    | escaped read => rw [Lexing.endWord, hpending] at hend; cases hpending.symm.trans hend
  · exact .inr ⟨by rw [← hended, endWord_endWord], hparted.append_blank hjson⟩

/-- Behind a character outside strings that is no blank the two are in the same place: it is no part
    of a word if blanks have ended the word before it. -/
theorem Follows.step_plain (h : ¬ Fuses (s ++ [c]))
    (hplain : Mode.plain.afterText true s = .plain) (hblank : isBlank c = false)
    (hl : Follows s (s.foldl (Lexing.step isJsonBlank) {}) l') :
    l'.step isJsonBlank c = (s.foldl (Lexing.step isJsonBlank) {}).step isJsonBlank c := by
  have hend := mode_eq_plain_iff.1 ((mode_foldl isJsonBlank s).trans hplain)
  rcases hl with rfl | ⟨hended, hparted⟩
  · rfl
  · have hbreak : Mark.ofChar? c ≠ none ∨ c = '"' := by
      by_cases hmark : Mark.ofChar? c = none
      · by_cases hquote : c = '"'
        · exact .inr hquote
        · exact absurd (hparted.fuses ⟨hmark, hquote, hblank⟩) h
      · exact .inl hmark
    rw [← hended, endWord_endWord] at hend
    rw [step_of_break hend hbreak, hended]

theorem Follows.eq_of_quoted (hquoted : Mode.plain.afterText true s ≠ .plain)
    (hl : Follows s (s.foldl (Lexing.step isJsonBlank) {}) l') :
    l' = s.foldl (Lexing.step isJsonBlank) {} := by
  rcases hl with hsame | ⟨hended, -⟩
  · exact hsame
  · rw [← mode_foldl isJsonBlank s] at hquoted
    exact eq_of_endWord hended hquoted

end

/-- **A lexer is where it is without the blanks**, but that it has ended its word where blanks stand
    after one. -/
theorem lexing_strip {s : List Char} (h : ¬ Fuses s) :
    Follows s (s.foldl (Lexing.step isJsonBlank) {})
      ((strip true isBlank .plain s).foldl (Lexing.step isJsonBlank) {}) := by
  induction s using List.reverseRecOn with
  | nil => exact .inl rfl
  | append_singleton s c ih =>
    have hprior := ih fun hs => h (hs.append [c])
    rw [strip_append, List.foldl_append, List.foldl_append, List.foldl_cons, List.foldl_nil]
    by_cases hplain : Mode.plain.afterText true s = .plain
    · rw [hplain]
      cases hblank : isBlank c with
      | true =>
        rw [strip_plain_dropped hblank (not_mark_of_isBlank hblank).2, strip_nil, List.foldl_nil]
        exact hprior.blank h hplain hblank
      | false =>
        have hkept : strip true isBlank .plain [c] = [c] := by simp [strip, hblank]
        rw [hkept, List.foldl_cons, List.foldl_nil]
        exact .inl (hprior.step_plain h hplain hblank)
    · have hkept : strip true isBlank (Mode.plain.afterText true s) [c] = [c] := by
        rw [strip_cons_of_ne_plain hplain, strip_nil]
      rw [hkept, List.foldl_cons, List.foldl_nil, hprior.eq_of_quoted hplain]
      exact .inl rfl

/-- **Where nothing fuses, a text has the same tokens without its blanks.** -/
theorem tokens?_strip {s : List Char} (h : ¬ Fuses s) :
    tokens? isJsonBlank (strip true isBlank .plain s) = tokens? isJsonBlank s := by
  have hfinish : ∀ l : Lexing, l.endWord.finish? = l.finish? := by
    rintro ⟨done, _ | read | read | read⟩ <;> rfl
  rw [tokens?, tokens?]
  rcases lexing_strip h with hsame | ⟨hended, -⟩
  · rw [hsame]
  · rw [← hfinish, hended]

end ObjectFeed.Json
