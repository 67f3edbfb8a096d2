/-
  A text is spelled by its tokens.

  * `isBody_of_unescape?`: what stands between the quotes of a string that is read is a body of the
    grammar;
  * `Spells` says that a text is the lexemes of tokens with blanks between them, and `Lexing.Covers`
    that a text is what a lexer has read so far;
  * `PlainStep` is what a character outside strings makes of a lexer;
  * `covers_step`, `covers_foldl`: what is covered stays so with each character, so every text is;
  * `spells_of_tokens?`: so every text that has tokens is spelled by them.
-/
import Mathlib.Data.List.Induction
import ObjectFeed.Proofs.Json.Layout

namespace ObjectFeed.Json

/-! ## Strings -/

theorem IsLooseBody.tail {c : Char} {rest : List Char} (h : IsLooseBody (c :: rest))
    (hback : c ≠ '\\') : IsLooseBody rest := by
  cases h with
  | char _ _ hrest => exact hrest
  | pair => exact absurd rfl hback

theorem isBody_of_symbols? {body : List Char} (hloose : IsLooseBody body) {symbols : List Symbol}
    (h : symbols? body = some symbols) : IsBody body := by
  fun_induction symbols? body generalizing symbols with
  | case1 => exact .nil
  | case2 a b c d rest ih =>
    obtain ⟨n, hn, hmore⟩ := Option.bind_eq_some_iff.1 h
    obtain ⟨more, hrest, -⟩ := Option.bind_eq_some_iff.1 hmore
    have hcode : (codeUnit? a b c d).isSome := by rw [hn]; rfl
    obtain ⟨ha, hb, hc, hd⟩ := hexDigits_of_codeUnit? hcode
    -- none of the four digits is a backslash, so the rest of the body is loose
    cases hloose with
    | char _ hback => exact absurd rfl hback
    | pair hfour =>
      have hrestLoose := (((hfour.tail (ne_of_hexDigit? ha).2).tail (ne_of_hexDigit? hb).2).tail
        (ne_of_hexDigit? hc).2).tail (ne_of_hexDigit? hd).2
      exact .code hcode (ih hrestLoose hrest)
  | case3 e rest hno ih =>
    obtain ⟨c, hc, hmore⟩ := Option.bind_eq_some_iff.1 h
    obtain ⟨more, hrest, -⟩ := Option.bind_eq_some_iff.1 hmore
    cases hloose with
    | char _ hback => exact absurd rfl hback
    | pair hloose => exact .escape (by rw [hc]; rfl) (ih hloose hrest)
  | case4 c rest hno hno' hcontrol =>
    cases h
  | case5 c rest hno hno' hcontrol ih =>
    obtain ⟨more, hrest, -⟩ := Option.bind_eq_some_iff.1 h
    rw [Bool.or_eq_true, not_or, decide_eq_true_eq, decide_eq_true_eq] at hcontrol
    cases hloose with
    | char hquote hback hloose =>
      exact .char (Char.not_lt.1 hcontrol.1) hquote hback (ih hloose hrest)
    | pair => exact absurd rfl hcontrol.2

theorem isBody_of_unescape? {body : List Char} (hloose : IsLooseBody body) {text : String}
    (h : unescape? body = some text) : IsBody body := by
  obtain ⟨symbols, hsymbols, -⟩ := Option.bind_eq_some_iff.1 h
  exact isBody_of_symbols? hloose hsymbols

theorem IsLooseBody.append {s t : List Char} (hs : IsLooseBody s) (ht : IsLooseBody t) :
    IsLooseBody (s ++ t) := by
  induction hs with
  | nil => exact ht
  | char hquote hback _ ih => exact .char hquote hback ih
  | pair _ ih => exact .pair ih

/-! ## Texts and tokens -/

/-- A string is a token only with a body that ends at its closing quote. -/
def Token.IsLoose : Token → Prop
  | quoted body => IsLooseBody body
  | mark _ | word _ => True

/-- A text is the lexemes of these tokens, newest first, with blanks between them. -/
inductive Spells (blank : Char → Bool) : List Token → List Char → Prop
  | nil : Spells blank [] []
  | blank {tokens s c} : Spells blank tokens s → blank c = true → Spells blank tokens (s ++ [c])
  | token {tokens s} {t : Token} : Spells blank tokens s → t.IsLoose →
      Spells blank (t :: tokens) (s ++ t.lexeme)

/-- A text is what a lexer has read: the tokens that are done, and then what it has of the next. -/
def Lexing.Covers (blank : Char → Bool) (l : Lexing) (s : List Char) : Prop :=
  match l.pending with
  | .nothing => Spells blank l.done s
  | .word read => ∃ prior, Spells blank l.done prior ∧ s = prior ++ read.reverse
  | .quoted read => ∃ prior, Spells blank l.done prior ∧ IsLooseBody read.reverse ∧
      s = prior ++ '"' :: read.reverse
  | .escaped read => ∃ prior body, Spells blank l.done prior ∧ IsLooseBody body ∧
      read = '\\' :: body.reverse ∧ s = prior ++ '"' :: body ++ ['\\']

variable {blank : Char → Bool}

theorem Lexing.Covers.endWord {l : Lexing} {s : List Char} (h : l.Covers blank s)
    (hl : l.endWord.pending = .nothing) : Spells blank l.endWord.done s := by
  rcases l with ⟨done, _ | read | read | read⟩
  · exact h
  · obtain ⟨prior, hprior, rfl⟩ := h
    exact .token (t := .word read.reverse) hprior trivial
  · cases hl
  · cases hl

theorem Mark.toChar_of_ofChar? {c : Char} {m : Mark} (h : Mark.ofChar? c = some m) :
    m.toChar = c := by
  unfold Mark.ofChar? at h
  repeat' split at h
  all_goals cases h
  all_goals next hc => exact hc.symm

/-- What has been read of a word. -/
def Pending.wordRead : Pending → List Char
  | word read => read
  | nothing | quoted _ | escaped _ => []

/-- What a character outside strings makes of a lexer. -/
inductive PlainStep (blank : Char → Bool) (l : Lexing) : Char → Lexing → Prop
  | mark (m : Mark) : PlainStep blank l m.toChar { done := .mark m :: l.endWord.done }
  | quote : PlainStep blank l '"' { l.endWord with pending := .quoted [] }
  | blank {c} : Mark.ofChar? c = none → c ≠ '"' → blank c = true → PlainStep blank l c l.endWord
  | word {c} : Mark.ofChar? c = none → c ≠ '"' → blank c = false →
      PlainStep blank l c { l with pending := .word (c :: l.pending.wordRead) }

theorem plainStep {l : Lexing} (hl : l.endWord.pending = .nothing) (c : Char) :
    PlainStep blank l c (l.step blank c) := by
  cases hmark : Mark.ofChar? c with
  | some m =>
    obtain rfl := Mark.toChar_of_ofChar? hmark
    rw [step_mark hl]
    exact .mark m
  | none =>
    by_cases hquote : c = '"'
    · subst hquote
      rw [step_quote hl]
      exact .quote
    · cases hblank : blank c with
      | true =>
        rw [step_blank hl hmark hquote hblank]
        exact .blank hmark hquote hblank
      | false =>
        have hword : l.step blank c = { l with pending := .word (c :: l.pending.wordRead) } := by
          rcases l with ⟨done, _ | read | read | read⟩
          · simp [Lexing.step, hmark, hquote, hblank, Pending.wordRead]
          · simp [Lexing.step, hmark, hquote, hblank, Pending.wordRead]
          · cases hl
          · cases hl
        rw [hword]
        exact .word hmark hquote hblank

theorem covers_step_plain {l : Lexing} {s : List Char} (h : l.Covers blank s)
    (hl : l.endWord.pending = .nothing) (c : Char) : (l.step blank c).Covers blank (s ++ [c]) := by
  have hword := h.endWord hl
  have hstep : PlainStep blank l c (l.step blank c) := plainStep hl c
  generalize l.step blank c = next at hstep ⊢
  cases hstep with
  | mark m => exact .token (t := .mark m) hword trivial
  | quote => exact ⟨s, hword, .nil, rfl⟩
  | blank _ _ hblank =>
    rw [Lexing.Covers, hl]
    exact .blank hword hblank
  | word =>
    -- the character goes on with a word, or begins one
    rcases l with ⟨done, _ | read | read | read⟩
    · exact ⟨s, h, rfl⟩
    · obtain ⟨prior, hprior, rfl⟩ := h
      exact ⟨prior, hprior, by simp [Pending.wordRead]⟩
    · cases hl
    · cases hl

theorem covers_step {l : Lexing} {s : List Char} (h : l.Covers blank s) (c : Char) :
    (l.step blank c).Covers blank (s ++ [c]) := by
  rcases l with ⟨done, _ | read | read | read⟩
  · exact covers_step_plain h rfl c
  · exact covers_step_plain h rfl c
  · obtain ⟨prior, hprior, hbody, rfl⟩ := h
    by_cases hquote : c = '"'
    · subst hquote
      have htoken := Spells.token (t := .quoted read.reverse) hprior hbody
      simpa [Lexing.step, Lexing.Covers, Token.lexeme] using htoken
    · by_cases hback : c = '\\'
      · subst hback
        simp only [Lexing.step, hquote, if_false, if_true]
        exact ⟨prior, read.reverse, hprior, hbody, by rw [List.reverse_reverse], by simp⟩
      · simp only [Lexing.step, hquote, hback, if_false]
        refine ⟨prior, hprior, ?_, by simp⟩
        rw [List.reverse_cons]
        exact hbody.append (.char hquote hback .nil)
  · obtain ⟨prior, body, hprior, hbody, rfl, rfl⟩ := h
    refine ⟨prior, hprior, ?_, by simp⟩
    have hpair := hbody.append (.pair (e := c) .nil)
    simpa using hpair

theorem covers_foldl (blank : Char → Bool) (s : List Char) : (s.foldl (Lexing.step blank) {}).Covers blank s := by
  induction s using List.reverseRecOn with
  | nil => exact .nil
  | append_singleton s c ih =>
    rw [List.foldl_append]
    exact covers_step ih c

/-- **A text that has tokens is spelled by them.** -/
theorem spells_of_tokens? {s : List Char} {tokens : List Token} (h : tokens? blank s = some tokens) :
    Spells blank tokens.reverse s := by
  have hcovers := covers_foldl blank s
  rw [tokens?] at h
  rcases hl : s.foldl (Lexing.step blank) {} with ⟨done, _ | read | read | read⟩
  all_goals rw [hl] at h hcovers
  · obtain rfl := Option.some.inj h
    rw [List.reverse_reverse]
    exact hcovers.endWord rfl
  · obtain rfl := Option.some.inj h
    rw [List.reverse_reverse]
    exact hcovers.endWord rfl
  · cases h
  · cases h

end ObjectFeed.Json
