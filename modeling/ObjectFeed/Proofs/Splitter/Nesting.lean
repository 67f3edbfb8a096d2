/-
  How the braces and brackets of a text nest.

  * `Nested` says that a text, read by the rule for strings, closes every level it opens and no other,
    where `pair` says which character may close which.  `AnyPair` counts braces and brackets alike, as
    a splitter does, in `OwnPair` each closes its own kind, and `BracePair` looks at braces alone;
  * `LeavesOpen` is a text that opens a number of levels and leaves them open;
  * `Nested.strip`: if each kind closes its own, then the braces pair up also where blanks and
    brackets are left out.
-/
import ObjectFeed.Proofs.Splitter.Literals

namespace ObjectFeed.Splitter

/-! ## Pairs -/

/-- The characters that open a level. -/
def IsOpening (c : Char) : Prop :=
  c = '{' ∨ c = '['

/-- The characters that close a level. -/
def IsClosing (c : Char) : Prop :=
  c = '}' ∨ c = ']'

instance (c : Char) : Decidable (IsOpening c) :=
  inferInstanceAs (Decidable (_ ∨ _))

instance (c : Char) : Decidable (IsClosing c) :=
  inferInstanceAs (Decidable (_ ∨ _))

/-- Any closing character closes any opening one. -/
def AnyPair (opening closing : Char) : Prop :=
  IsOpening opening ∧ IsClosing closing

/-- Braces close braces, and brackets close brackets. -/
inductive OwnPair : Char → Char → Prop
  | brace : OwnPair '{' '}'
  | bracket : OwnPair '[' ']'

/-- Braces close braces, and brackets are characters like others. -/
inductive BracePair : Char → Char → Prop
  | brace : BracePair '{' '}'

theorem IsOpening.ne_quote {c : Char} (h : IsOpening c) : c ≠ '"' := by
  rcases h with rfl | rfl <;> decide

theorem IsClosing.ne_quote {c : Char} (h : IsClosing c) : c ≠ '"' := by
  rcases h with rfl | rfl <;> decide

/-- The characters that take part in no pair. -/
def IsUnpaired (pair : Char → Char → Prop) (c : Char) : Prop :=
  ∀ d, ¬ pair c d ∧ ¬ pair d c

theorem isUnpaired_anyPair {c : Char} (hopening : ¬ IsOpening c) (hclosing : ¬ IsClosing c) :
    IsUnpaired AnyPair c :=
  fun _ => ⟨fun h => hopening h.1, fun h => hclosing h.2⟩

theorem IsUnpaired.not_mark {c : Char} (h : IsUnpaired AnyPair c) : ¬ IsOpening c ∧ ¬ IsClosing c :=
  ⟨fun hopening => (h '}').1 ⟨hopening, .inl rfl⟩, fun hclosing => (h '{').2 ⟨.inl rfl, hclosing⟩⟩

theorem isUnpaired_bracePair {c : Char} (hopening : c ≠ '{') (hclosing : c ≠ '}') :
    IsUnpaired BracePair c := by
  intro d
  constructor
  · rintro ⟨⟩
    exact hopening rfl
  · rintro ⟨⟩
    exact hclosing rfl

/-! ## Nested texts -/

/-- A text that, read from the one mode to the other, closes every level it opens and no other. -/
inductive Nested (pair : Char → Char → Prop) (honor : Bool) : Mode → List Char → Mode → Prop
  | nil {mode} : Nested pair honor mode [] mode
  | char {mode mode' c rest} : (mode = .plain → IsUnpaired pair c) →
      Nested pair honor (mode.after honor c) rest mode' → Nested pair honor mode (c :: rest) mode'
  | pair {opening inner closing rest mode'} : pair opening closing →
      Nested pair honor .plain inner .plain → Nested pair honor .plain rest mode' →
      Nested pair honor .plain (opening :: inner ++ closing :: rest) mode'

section

variable {pair : Char → Char → Prop} {honor : Bool} {mode mode' mode'' : Mode} {s t : List Char}

theorem Nested.append (hs : Nested pair honor mode s mode')
    (ht : Nested pair honor mode' t mode'') : Nested pair honor mode (s ++ t) mode'' := by
  induction hs with
  | nil => exact ht
  | char hc _ ih => exact .char hc (ih ht)
  | @pair opening inner closing rest _ hpair hinner _ _ ih =>
    have happend : (opening :: inner ++ closing :: rest) ++ t =
        opening :: inner ++ closing :: (rest ++ t) := by simp
    rw [happend]
    exact .pair hpair hinner (ih ht)

theorem Nested.append_char (hs : Nested pair honor mode s mode') {c : Char}
    (hc : mode' = .plain → IsUnpaired pair c) :
    Nested pair honor mode (s ++ [c]) (mode'.after honor c) :=
  hs.append (.char hc .nil)

theorem Nested.of_unpaired (mode : Mode) (h : ∀ c ∈ s, ¬ IsOpening c ∧ ¬ IsClosing c) :
    Nested AnyPair honor mode s (mode.afterText honor s) := by
  induction s generalizing mode with
  | nil => exact .nil
  | cons c s ih =>
    obtain ⟨hopening, hclosing⟩ := h c List.mem_cons_self
    exact .char (fun _ => isUnpaired_anyPair hopening hclosing)
      (ih _ fun d hd => h d (List.mem_cons_of_mem _ hd))

theorem Nested.append_pair (hs : Nested pair honor mode s .plain) {opening closing : Char}
    (hpair : pair opening closing) (ht : Nested pair honor .plain t .plain) :
    Nested pair honor mode (s ++ (opening :: t ++ [closing])) .plain :=
  hs.append (.pair hpair ht .nil)

theorem Nested.afterText (hpair : ∀ c d, pair c d → AnyPair c d)
    (hs : Nested pair honor mode s mode') : mode.afterText honor s = mode' := by
  induction hs with
  | nil => rfl
  | char _ _ ih => exact ih
  | pair hcd _ _ ihinner ihrest =>
    obtain ⟨hopening, hclosing⟩ := hpair _ _ hcd
    rw [List.cons_append, Mode.afterText_cons, Mode.after_plain_of_ne hopening.ne_quote,
      Mode.afterText_append, ihinner, Mode.afterText_cons,
      Mode.after_plain_of_ne hclosing.ne_quote, ihrest]

theorem anyPair_of_ownPair {c d : Char} (h : OwnPair c d) : AnyPair c d := by
  cases h with
  | brace => exact ⟨.inl rfl, .inl rfl⟩
  | bracket => exact ⟨.inr rfl, .inr rfl⟩

/-- A bracket is left out, or it is kept and takes part in no pair of braces. -/
theorem nested_strip_bracket {drop : Char → Bool} {c : Char} {t : List Char} (hc : c = '[' ∨ c = ']')
    (ht : Nested BracePair honor .plain (Splitter.strip honor drop .plain t) mode') :
    Nested BracePair honor .plain (Splitter.strip honor drop .plain (c :: t)) mode' := by
  have hne : c ≠ '"' := by rcases hc with rfl | rfl <;> decide
  cases hd : drop c with
  | true => rwa [strip_plain_dropped hd hne]
  | false =>
    rw [strip_plain_kept hd hne]
    refine .char (fun _ => isUnpaired_bracePair ?_ ?_) (by rwa [Mode.after_plain_of_ne hne])
    · rcases hc with rfl | rfl <;> decide
    · rcases hc with rfl | rfl <;> decide

/-- **Where each kind closes its own, the braces pair up by themselves**, also in what is kept of the
    text when brackets and blanks are left out. -/
theorem Nested.strip {drop : Char → Bool} (hquote : drop '"' = false) (hopen : drop '{' = false)
    (hclose : drop '}' = false) (hs : Nested OwnPair honor mode s mode') :
    Nested BracePair honor mode (strip honor drop mode s) mode' := by
  induction hs with
  | nil => exact .nil
  | @char mode mode' c rest hc _ ih =>
    by_cases hdrop : mode = .plain ∧ drop c = true
    · obtain ⟨rfl, hd⟩ := hdrop
      have hne : c ≠ '"' := by
        rintro rfl
        exact Bool.false_ne_true (hquote.symm.trans hd)
      rw [Mode.after_plain_of_ne hne] at ih
      rwa [strip_plain_dropped hd hne]
    · rw [Splitter.strip, if_neg hdrop]
      refine .char (fun hm => isUnpaired_bracePair ?_ ?_) ih
      · rintro rfl
        exact (hc hm _).1 .brace
      · rintro rfl
        exact (hc hm _).2 .brace
  | pair hpair hinner _ ihinner ihrest =>
    have hmode := hinner.afterText fun _ _ => anyPair_of_ownPair
    cases hpair with
    | brace =>
      rw [List.cons_append, strip_plain_kept hopen (by decide), strip_append, hmode,
        strip_plain_kept hclose (by decide)]
      exact .pair .brace ihinner ihrest
    | bracket =>
      rw [List.cons_append]
      refine nested_strip_bracket (.inl rfl) ?_
      rw [strip_append, hmode]
      exact ihinner.append (nested_strip_bracket (.inr rfl) ihrest)

end

/-! ## Levels left open -/

/-- A text that opens this number of levels, at least one, and leaves them open.  It begins with the
    character that opens the first. -/
inductive LeavesOpen (honor : Bool) : Nat → List Char → Mode → Prop
  | first {opening inner mode} : IsOpening opening → Nested AnyPair honor .plain inner mode →
      LeavesOpen honor 1 (opening :: inner) mode
  | next {n s opening inner mode} : LeavesOpen honor n s .plain → IsOpening opening →
      Nested AnyPair honor .plain inner mode → LeavesOpen honor (n + 1) (s ++ opening :: inner) mode

section

variable {honor : Bool} {n : Nat} {s : List Char} {mode : Mode} {c : Char}

theorem LeavesOpen.pos (h : LeavesOpen honor n s mode) : 0 < n := by
  cases h with
  | first => exact Nat.one_pos
  | next => exact Nat.succ_pos _

theorem LeavesOpen.exists_inner (h : LeavesOpen honor 1 s mode) :
    ∃ opening inner, s = opening :: inner ∧ IsOpening opening ∧
      Nested AnyPair honor .plain inner mode := by
  cases h with
  | first hopening hinner => exact ⟨_, _, rfl, hopening, hinner⟩
  | next hs => exact absurd hs.pos (Nat.lt_irrefl 0)

theorem LeavesOpen.append_char (h : LeavesOpen honor n s mode)
    (hc : mode = .plain → ¬ IsOpening c ∧ ¬ IsClosing c) :
    LeavesOpen honor n (s ++ [c]) (mode.after honor c) := by
  have hunpaired : mode = .plain → IsUnpaired AnyPair c :=
    fun hm => isUnpaired_anyPair (hc hm).1 (hc hm).2
  cases h with
  | first hopening hinner => exact .first hopening (hinner.append_char hunpaired)
  | next hs hopening hinner =>
    rw [List.append_assoc, List.cons_append]
    exact .next hs hopening (hinner.append_char hunpaired)

theorem LeavesOpen.append_opening (h : LeavesOpen honor n s .plain) (hc : IsOpening c) :
    LeavesOpen honor (n + 1) (s ++ [c]) .plain :=
  .next h hc .nil

/-- A closing character closes the level opened last. -/
theorem LeavesOpen.append_closing (h : LeavesOpen honor (n + 2) s .plain) (hc : IsClosing c) :
    LeavesOpen honor (n + 1) (s ++ [c]) .plain := by
  cases h with
  | @next _ s opening inner _ hs hopening hinner =>
    cases hs with
    | first hopening' hinner' =>
      rw [List.append_assoc, List.cons_append]
      exact .first hopening' (hinner'.append_pair ⟨hopening, hc⟩ hinner)
    | next hs' hopening' hinner' =>
      rw [List.append_assoc, List.append_assoc, List.cons_append]
      exact .next hs' hopening' (hinner'.append_pair ⟨hopening, hc⟩ hinner)

end

end ObjectFeed.Splitter
