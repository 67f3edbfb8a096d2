/-
  Numbers and literals of the grammar are read, and nothing else is.

  * `isSome_ofChars?`: every number of the grammar has a value, and `isSome_ofWord?`: so has every
    scalar;
  * `isNumber_of_ofChars?`, `isScalar_of_ofWord?`: what has a value is of the grammar.
-/
import ObjectFeed.Json.Value
import ObjectFeed.Proofs.Json.Grammar

namespace ObjectFeed.Json

/-! ## The grammar is read -/

theorem takeWhile_digits {digits rest : List Char} (h : ∀ c ∈ digits, c.isDigit = true)
    (hrest : ∀ c ∈ rest.head?, c.isDigit = false) :
    (digits ++ rest).takeWhile Char.isDigit = digits ∧
      (digits ++ rest).dropWhile Char.isDigit = rest := by
  induction digits with
  | nil =>
    cases rest with
    | nil => exact ⟨rfl, rfl⟩
    | cons c rest =>
      have hc : c.isDigit = false := hrest c rfl
      simp [hc]
  | cons c digits ih =>
    have hc : c.isDigit = true := h c List.mem_cons_self
    obtain ⟨htake, hdrop⟩ := ih fun d hd => h d (List.mem_cons_of_mem _ hd)
    simp [hc, htake, hdrop]

theorem IsExponent.head_not_digit {s : List Char} (h : IsExponent s) :
    ∀ c ∈ s.head?, c.isDigit = false := by
  rcases h with rfl | ⟨e, sign, digits, he, -, -, rfl⟩
  · intro c hc
    cases hc
  · rintro c ⟨⟩
    rcases he with rfl | rfl <;> rfl

theorem isSome_exponentOf? {sign digits : List Char}
    (hsign : sign = [] ∨ sign = ['+'] ∨ sign = ['-']) (h : IsDigits digits) :
    (Number.exponentOf? (sign ++ digits)).isSome := by
  obtain ⟨hne, hdigits⟩ := h
  have hall : digits.all Char.isDigit = true := List.all_eq_true.2 hdigits
  rcases hsign with rfl | rfl | rfl
  · have hhead : ∀ c rest, digits = c :: rest → c ≠ '-' ∧ c ≠ '+' := by
      rintro c rest rfl
      have hc : c.isDigit = true := hdigits c List.mem_cons_self
      constructor <;> (rintro rfl; cases hc)
    unfold Number.exponentOf?
    split
    · next rest hrest => exact absurd rfl (hhead '-' rest hrest).1
    · next rest hrest => exact absurd rfl (hhead '+' rest hrest).2
    · simp only [List.nil_append, hall, List.isEmpty_eq_false_iff.2 hne]
      rfl
  · simp [Number.exponentOf?, hne, hall, -List.all_eq_true]
  · simp [Number.exponentOf?, hne, hall, -List.all_eq_true]

theorem isSome_afterWhole? (negative : Bool) (whole : List Char) {fraction power : List Char}
    (hfraction : IsFraction fraction) (hpower : IsExponent power) :
    (Number.afterWhole? negative whole (fraction ++ power)).isSome := by
  rcases hfraction with rfl | ⟨digits, hdigits, rfl⟩
  · rcases hpower with rfl | ⟨e, sign, digits, he, hsign, hdigits, rfl⟩
    · simp [Number.afterWhole?]
    · have hpoint : e ≠ '.' := by rcases he with rfl | rfl <;> decide
      simp [Number.afterWhole?, hpoint, he, isSome_exponentOf? hsign hdigits]
  · have hne := hdigits.1
    obtain ⟨htake, hdrop⟩ := takeWhile_digits hdigits.2 hpower.head_not_digit
    simp only [Number.afterWhole?, List.cons_append, htake, hdrop]
    rcases hpower with rfl | ⟨e, sign, digits', he, hsign, hdigits', rfl⟩
    · simp [hne]
    · simp [hne, he, isSome_exponentOf? hsign hdigits']

/-- Every number of the grammar is read as a number. -/
theorem isSome_ofChars? {s : List Char} (h : IsNumber s) : (Number.ofChars? s).isSome := by
  obtain ⟨sign, whole, fraction, power, hsign, ⟨hwhole, hzero⟩, hfraction, hpower, rfl⟩ := h
  have hrest : ∀ c ∈ (fraction ++ power).head?, c.isDigit = false := by
    rcases hfraction with rfl | ⟨digits, -, rfl⟩
    · exact hpower.head_not_digit
    · rintro c ⟨⟩
      rfl
  obtain ⟨htake, hdrop⟩ := takeWhile_digits hwhole.2 hrest
  have hlead : (whole.isEmpty || (whole.head? == some '0' && decide (1 < whole.length))) = false := by
    cases hw : whole.head? == some '0' with
    | true => rw [hzero (by simpa using hw)]; rfl
    | false => simp [hwhole.1]
  have hminus : ((whole ++ (fraction ++ power)).head? == some '-') = false := by
    obtain ⟨d, digits, rfl⟩ := List.exists_cons_of_ne_nil hwhole.1
    have hd : d.isDigit = true := hwhole.2 d List.mem_cons_self
    have hne : d ≠ '-' := by rintro rfl; cases hd
    simp [hne]
  rcases hsign with rfl | rfl
  · simp only [Number.ofChars?, List.nil_append, List.append_assoc, hminus, Bool.false_eq_true,
      if_false, htake, hdrop, hlead]
    exact isSome_afterWhole? false whole hfraction hpower
  · simp only [Number.ofChars?, List.append_assoc, List.cons_append, List.nil_append,
      List.head?_cons, BEq.rfl, if_true, List.drop_succ_cons, List.drop_zero, htake, hdrop, hlead,
      Bool.false_eq_true, if_false]
    exact isSome_afterWhole? true whole hfraction hpower

theorem isSome_ofWord? {s : List Char} (h : IsScalar s) : (Value.ofWord? s).isSome := by
  unfold Value.ofWord?
  split
  · rfl
  · split
    · rfl
    · split
      · rfl
      · rcases h with h | h | h | h
        · contradiction
        · contradiction
        · contradiction
        · rw [Option.isSome_map]
          exact isSome_ofChars? h

/-! ## What is read is of the grammar -/

theorem isDigits_of_exponentOf? {text : List Char} {n : Int}
    (h : Number.exponentOf? text = some n) :
    ∃ sign digits, (sign = [] ∨ sign = ['+'] ∨ sign = ['-']) ∧ IsDigits digits ∧
      text = sign ++ digits := by
  -- what is not a run of digits has no value after the sign
  have hnone : ∀ digits : List Char, ¬ IsDigits digits →
      (digits.isEmpty || !digits.all Char.isDigit) = true := by
    intro digits hdigits
    rw [Bool.or_eq_true, List.isEmpty_iff, Bool.not_eq_true']
    by_cases hempty : digits = []
    · exact .inl hempty
    · refine .inr (Bool.eq_false_iff.2 fun hall => hdigits ⟨hempty, List.all_eq_true.1 hall⟩)
  unfold Number.exponentOf? at h
  split at h
  · next digits =>
    by_cases hdigits : IsDigits digits
    · exact ⟨['-'], digits, .inr (.inr rfl), hdigits, rfl⟩
    · simp [hnone digits hdigits] at h
  · next digits =>
    by_cases hdigits : IsDigits digits
    · exact ⟨['+'], digits, .inr (.inl rfl), hdigits, rfl⟩
    · simp [hnone digits hdigits] at h
  · by_cases hdigits : IsDigits text
    · exact ⟨[], text, .inl rfl, hdigits, rfl⟩
    · simp [hnone text hdigits] at h

theorem isExponent_of_power {rest : List Char} {n m : Number} {f : Int → Number}
    (h : (match rest with
      | [] => some m
      | e :: power =>
        if e = 'e' || e = 'E' then (Number.exponentOf? power).map f else none) = some n) :
    IsExponent rest := by
  split at h
  · exact .inl rfl
  · next e power =>
    split at h
    · next he =>
      obtain ⟨m, hm, -⟩ := Option.map_eq_some_iff.1 h
      obtain ⟨sign, digits, hsign, hdigits, rfl⟩ := isDigits_of_exponentOf? hm
      exact .inr ⟨e, sign, digits, by simpa using he, hsign, hdigits, rfl⟩
    · cases h

theorem digits_of_takeWhile (s : List Char) : ∀ c ∈ s.takeWhile Char.isDigit, c.isDigit = true :=
  List.all_eq_true.1 List.all_takeWhile

theorem isFraction_of_afterWhole? {negative : Bool} {whole rest : List Char} {n : Number}
    (h : Number.afterWhole? negative whole rest = some n) :
    ∃ fraction power, IsFraction fraction ∧ IsExponent power ∧ rest = fraction ++ power := by
  cases rest with
  | nil => exact ⟨[], [], .inl rfl, .inl rfl, rfl⟩
  | cons c more =>
    by_cases hpoint : c = '.'
    · subst hpoint
      simp only [Number.afterWhole?] at h
      split at h
      · cases h
      · next hne =>
        refine ⟨'.' :: more.takeWhile Char.isDigit, more.dropWhile Char.isDigit, ?_,
          isExponent_of_power h, ?_⟩
        · exact .inr ⟨_, ⟨fun hnil => hne (by rw [hnil]), digits_of_takeWhile more⟩, rfl⟩
        · rw [List.cons_append, List.takeWhile_append_dropWhile]
    · refine ⟨[], c :: more, .inl rfl, ?_, rfl⟩
      have hafter : Number.afterWhole? negative whole (c :: more) =
          if c = 'e' || c = 'E' then
            (Number.exponentOf? more).map fun n => ⟨negative, Number.natOfDigits whole, n, false⟩
          else none := by
        simp [Number.afterWhole?, hpoint]
      rw [hafter] at h
      exact isExponent_of_power (m := n) h

/-- Digits that are not led by a zero, unless they are the zero, are those before the point. -/
theorem isWhole_of_digits {digits : List Char} (hdigits : ∀ c ∈ digits, c.isDigit = true)
    (h : (digits.isEmpty || (digits.head? == some '0' && decide (1 < digits.length))) = false) :
    IsWhole digits := by
  rw [Bool.or_eq_false_iff, List.isEmpty_eq_false_iff] at h
  obtain ⟨hne, hzero⟩ := h
  refine ⟨⟨hne, hdigits⟩, ?_⟩
  intro hhead
  rw [hhead, BEq.rfl, Bool.true_and, decide_eq_false_iff_not] at hzero
  obtain ⟨d, rest, rfl⟩ := List.exists_cons_of_ne_nil hne
  obtain rfl : d = '0' := Option.some.inj hhead
  have hrest : rest.length = 0 := Nat.le_zero.1 (Nat.le_of_not_lt fun hlt => hzero (Nat.succ_lt_succ hlt))
  rw [List.length_eq_zero_iff.1 hrest]

theorem isNumber_of_unsigned (negative : Bool) {s : List Char} {n : Number}
    (h : (if (s.takeWhile Char.isDigit).isEmpty || ((s.takeWhile Char.isDigit).head? == some '0' &&
        1 < (s.takeWhile Char.isDigit).length) then none
      else Number.afterWhole? negative (s.takeWhile Char.isDigit) (s.dropWhile Char.isDigit)) =
      some n) :
    ∃ whole fraction power, IsWhole whole ∧ IsFraction fraction ∧ IsExponent power ∧
      s = whole ++ fraction ++ power := by
  split at h
  · cases h
  · next hlead =>
    obtain ⟨fraction, power, hfraction, hpower, hrest⟩ := isFraction_of_afterWhole? h
    refine ⟨s.takeWhile Char.isDigit, fraction, power,
      isWhole_of_digits (digits_of_takeWhile s) (Bool.eq_false_iff.2 hlead), hfraction, hpower, ?_⟩
    rw [List.append_assoc, ← hrest, List.takeWhile_append_dropWhile]

/-- What is read as a number is one of the grammar. -/
theorem isNumber_of_ofChars? {s : List Char} {n : Number} (h : Number.ofChars? s = some n) :
    IsNumber s := by
  rcases s with _ | ⟨c, rest⟩
  · cases h
  · by_cases hsign : c = '-'
    · subst hsign
      obtain ⟨whole, fraction, power, hwhole, hfraction, hpower, hrest⟩ :=
        isNumber_of_unsigned true (s := rest) h
      exact ⟨['-'], whole, fraction, power, .inr rfl, hwhole, hfraction, hpower, by simp [hrest]⟩
    · have hplus : ((c :: rest).head? == some '-') = false := by simp [hsign]
      simp only [Number.ofChars?, hplus, Bool.false_eq_true, if_false] at h
      obtain ⟨whole, fraction, power, hwhole, hfraction, hpower, hrest⟩ := isNumber_of_unsigned _ h
      exact ⟨[], whole, fraction, power, .inl rfl, hwhole, hfraction, hpower, by simp [hrest]⟩

theorem isScalar_of_ofWord? {s : List Char} {v : Value} (h : Value.ofWord? s = some v) :
    IsScalar s := by
  unfold Value.ofWord? at h
  split at h
  · next hs => exact .inl hs
  · split at h
    · next hs => exact .inr (.inl hs)
    · split at h
      · next hs => exact .inr (.inr (.inl hs))
      · obtain ⟨n, hn, -⟩ := Option.map_eq_some_iff.1 h
        exact .inr (.inr (.inr (isNumber_of_ofChars? hn)))

end ObjectFeed.Json
