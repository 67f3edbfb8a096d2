/-
  Decoding the octets of a text gives the text back, however the octets are chunked.

  * `Reading.of_prefix`: a proper beginning of what is not broken is begun;
  * `decodeAfter_whole`, `decodeAfter_begun`: how decoding goes over the octets of one code point, and
    over the beginning of one;
  * `reading_utf8EncodeChar`: the octets that encode a character are read as that character;
  * `decode_octetsOf`: so the octets of a text decode to the text, and nothing is held back;
  * `Carry.Awaits`: the octets held and those to come are a text to the end.  It holds before the
    first octet of a text (`Carry.awaits_octetsOf`).
-/
import ObjectFeed.Utf8.Carry

namespace ObjectFeed

namespace Utf8

/-! ## Beginnings of code points -/

theorem isBeginning_of_append {octets rest : Octets} (h : isBeginning (octets ++ rest) = true) :
    isBeginning octets = true := by
  rcases octets with _ | ⟨lead, _ | ⟨second, more⟩⟩
  · rfl
  · rcases rest with _ | ⟨second, more⟩
    · exact h
    · simp only [List.cons_append, List.nil_append, isBeginning, Bool.and_eq_true,
        decide_eq_true_eq] at h
      simp only [isBeginning, bne_iff_ne]
      omega
  · simp only [List.cons_append, isBeginning, Bool.and_eq_true, decide_eq_true_eq,
      List.all_append, List.length_append] at h ⊢
    obtain ⟨⟨hsecond, hmore, -⟩, hlength⟩ := h
    exact ⟨⟨hsecond, hmore⟩, by omega⟩

theorem length_le_width {lead : UInt8} {tails : Octets}
    (h : isBeginning (lead :: tails) = true) : tails.length + 1 ≤ width lead := by
  rcases tails with _ | ⟨second, more⟩
  · simp only [isBeginning, bne_iff_ne] at h
    simp only [List.length_nil]
    omega
  · simp only [isBeginning, Bool.and_eq_true, decide_eq_true_eq] at h
    exact h.2

theorem Reading.isBeginning_of_ne_broken {octets : Octets} (h : Reading.of octets ≠ .broken) :
    isBeginning octets = true := by
  cases hb : isBeginning octets with
  | true => rfl
  | false => exact absurd (by simp [Reading.of, hb]) h

/-- A proper beginning of what is not broken is begun. -/
theorem Reading.of_prefix {octets rest : Octets} (h : Reading.of (octets ++ rest) ≠ .broken)
    (hrest : rest ≠ []) : Reading.of octets = .begun := by
  have hbeginning := isBeginning_of_ne_broken h
  rcases octets with _ | ⟨lead, tails⟩
  · rfl
  · have hshort : tails.length + 1 ≠ width lead := by
      have hwidth : (tails ++ rest).length + 1 ≤ width lead := length_le_width hbeginning
      rw [List.length_append] at hwidth
      have hpos := List.length_pos_iff.2 hrest
      omega
    simp only [Reading.of, isBeginning_of_append hbeginning, hshort, Bool.not_true,
      Bool.false_eq_true, if_false]

/-! ## Decoding over parts -/

/-- The octets of one code point, some of them held already. -/
theorem decodeAfter_whole {held tails : Octets} {c : Char}
    (h : Reading.of (held ++ tails) = .whole c) (htails : tails ≠ []) (text : String)
    (rest : Octets) :
    decodeAfter text held (tails ++ rest) = decodeAfter (text.push c) [] rest := by
  induction tails generalizing held with
  | nil => exact absurd rfl htails
  | cons b more ih =>
    have hsplit : held ++ b :: more = (held ++ [b]) ++ more := by simp
    rw [hsplit] at h
    rw [List.cons_append, decodeAfter]
    by_cases hmore : more = []
    · subst hmore
      rw [List.append_nil] at h
      simp only [h, List.nil_append]
    · have hbegun := Reading.of_prefix (by rw [h]; exact Reading.noConfusion) hmore
      simp only [hbegun]
      exact ih h hmore

/-- The beginning of a code point, some of it held already. -/
theorem decodeAfter_begun {held tails : Octets} (h : Reading.of (held ++ tails) = .begun)
    (text : String) : decodeAfter text held tails = .upTo text (held ++ tails) := by
  induction tails generalizing held with
  | nil => rw [List.append_nil, decodeAfter]
  | cons b more ih =>
    have hsplit : held ++ b :: more = (held ++ [b]) ++ more := by simp
    rw [hsplit] at h ⊢
    have hbegun : Reading.of (held ++ [b]) = .begun := by
      by_cases hmore : more = []
      · rw [hmore, List.append_nil] at h
        exact h
      · exact Reading.of_prefix (by rw [h]; exact Reading.noConfusion) hmore
    simp only [decodeAfter, hbegun]
    exact ih h

theorem decode_of_begun {held : Octets} (h : Reading.of held = .begun) :
    decode held = .upTo "" held := by
  rw [← List.nil_append held] at h
  exact decodeAfter_begun h ""

theorem decode_held_append {held : Octets} (h : Reading.of held = .begun) (octets : Octets) :
    decode (held ++ octets) = decodeAfter "" held octets := by
  have hheld := decode_of_begun h
  rw [decode] at hheld
  rw [decode, decodeAfter_append, hheld]

theorem begun_of_decodeAfter {text text' : String} {held octets held' : Octets}
    (h : decodeAfter text held octets = .upTo text' held') (hheld : Reading.of held = .begun) :
    Reading.of held' = .begun := by
  induction octets generalizing text held with
  | nil =>
    rw [decodeAfter, Decoding.upTo.injEq] at h
    exact h.2 ▸ hheld
  | cons b rest ih =>
    rw [decodeAfter] at h
    cases hreading : Reading.of (held ++ [b]) with
    | whole c => rw [hreading] at h; exact ih h rfl
    | begun => rw [hreading] at h; exact ih h hreading
    | broken => rw [hreading] at h; cases h

theorem decodeAfter_text {text' : String} {held octets held' : Octets} {before : String}
    (h : decodeAfter before held octets = .upTo text' held') :
    ∃ more, before ++ more = text' ∧
      ∀ text, decodeAfter text held octets = .upTo (text ++ more) held' := by
  induction octets generalizing before held with
  | nil =>
    simp only [decodeAfter, Decoding.upTo.injEq] at h ⊢
    exact ⟨"", by rw [String.append_empty, h.1], fun text => ⟨String.append_empty.symm, h.2⟩⟩
  | cons b rest ih =>
    rw [decodeAfter] at h
    cases hreading : Reading.of (held ++ [b]) with
    | whole c =>
      rw [hreading] at h
      obtain ⟨more, hmore, hall⟩ := ih h
      have hpush : ∀ text : String, text.push c ++ more = text ++ (String.singleton c ++ more) := by
        intro text
        rw [← String.append_singleton, String.append_assoc]
      refine ⟨String.singleton c ++ more, by rw [← hpush, hmore], fun text => ?_⟩
      rw [decodeAfter, hreading, ← hpush]
      exact hall (text.push c)
    | begun =>
      rw [hreading] at h
      obtain ⟨more, hmore, hall⟩ := ih h
      refine ⟨more, hmore, fun text => ?_⟩
      rw [decodeAfter, hreading]
      exact hall text
    | broken => rw [hreading] at h; cases h

/-! ## The octets of a text -/

theorem isTail_iff (b : UInt8) : isTail b = true ↔ 0x80 ≤ b.toNat ∧ b.toNat ≤ 0xBF := by
  simp [isTail, UInt8.le_iff_toNat_le]

theorem width_eq (lead : UInt8) :
    width lead = if lead.toNat < 0x80 then 1 else if lead.toNat < 0xC2 then 0
      else if lead.toNat < 0xE0 then 2 else if lead.toNat < 0xF0 then 3
      else if lead.toNat < 0xF5 then 4 else 0 := by
  simp only [width, UInt8.lt_iff_toNat_lt]
  rfl

/-- After any lead but four the second octet is one like the others. -/
theorem followsLead_of_isTail {lead b : UInt8} (htail : isTail b = true)
    (hE0 : lead.toNat = 0xE0 → 0xA0 ≤ b.toNat) (hED : lead.toNat = 0xED → b.toNat ≤ 0x9F)
    (hF0 : lead.toNat = 0xF0 → 0x90 ≤ b.toNat) (hF4 : lead.toNat = 0xF4 → b.toNat ≤ 0x8F) :
    followsLead lead b = true := by
  obtain ⟨hlow, hhigh⟩ := (isTail_iff b).1 htail
  simp only [followsLead, ← UInt8.toNat_inj]
  split
  next h => simpa [UInt8.le_iff_toNat_le] using ⟨hE0 h, hhigh⟩
  next =>
    split
    next h => simpa [UInt8.le_iff_toNat_le] using ⟨hlow, hED h⟩
    next =>
      split
      next h => simpa [UInt8.le_iff_toNat_le] using ⟨hF0 h, hhigh⟩
      next =>
        split
        next h => simpa [UInt8.le_iff_toNat_le] using ⟨hlow, hF4 h⟩
        next => exact htail

theorem Reading.of_eq_whole {lead : UInt8} {tails : Octets} {c : Char}
    (hbeginning : isBeginning (lead :: tails) = true) (hwidth : width lead = tails.length + 1)
    (hcode : codePoint (lead :: tails) = c.toNat) : Reading.of (lead :: tails) = .whole c := by
  simp only [Reading.of, hbeginning, hwidth, hcode, Char.ofNat_toNat, Bool.not_true,
    Bool.false_eq_true, if_false, if_true]

section
variable {c : Char} {b₁ b₂ b₃ b₄ : UInt8}

theorem reading_one (hc : c.toNat ≤ 0x7F) (h₁ : b₁.toNat = c.toNat) :
    Reading.of [b₁] = .whole c := by
  have hwidth : width b₁ = 1 := by rw [width_eq, if_pos (by omega)]
  refine Reading.of_eq_whole ?_ hwidth ?_
  · simp [isBeginning, hwidth]
  · simp only [codePoint, leadBits, hwidth, List.foldl_nil, h₁]

theorem reading_two (hlow : 0x7F < c.toNat) (hhigh : c.toNat ≤ 0x7FF)
    (h₁ : b₁.toNat = c.toNat / 64 + 192) (h₂ : b₂.toNat = c.toNat % 64 + 128) :
    Reading.of [b₁, b₂] = .whole c := by
  have hwidth : width b₁ = 2 := by
    rw [width_eq, if_neg (by omega), if_neg (by omega), if_pos (by omega)]
  have htail : isTail b₂ = true := by rw [isTail_iff]; omega
  have hsecond : followsLead b₁ b₂ = true := by
    apply followsLead_of_isTail htail <;> omega
  refine Reading.of_eq_whole ?_ hwidth ?_
  · simp [isBeginning, hsecond, hwidth]
  · simp only [codePoint, leadBits, hwidth, List.foldl_cons, List.foldl_nil, h₁, h₂]
    omega

theorem reading_three (hlow : 0x7FF < c.toNat) (hhigh : c.toNat ≤ 0xFFFF)
    (h₁ : b₁.toNat = c.toNat / 4096 + 224) (h₂ : b₂.toNat = c.toNat / 64 % 64 + 128)
    (h₃ : b₃.toNat = c.toNat % 64 + 128) : Reading.of [b₁, b₂, b₃] = .whole c := by
  have hvalid : c.toNat < 0xD800 ∨ 0xDFFF < c.toNat ∧ c.toNat < 0x110000 := c.valid
  have hwidth : width b₁ = 3 := by
    rw [width_eq, if_neg (by omega), if_neg (by omega), if_neg (by omega), if_pos (by omega)]
  have htail₂ : isTail b₂ = true := by rw [isTail_iff]; omega
  have htail₃ : isTail b₃ = true := by rw [isTail_iff]; omega
  have hsecond : followsLead b₁ b₂ = true := by
    apply followsLead_of_isTail htail₂ <;> omega
  refine Reading.of_eq_whole ?_ hwidth ?_
  · simp [isBeginning, hsecond, htail₃, hwidth]
  · simp only [codePoint, leadBits, hwidth, List.foldl_cons, List.foldl_nil, h₁, h₂, h₃]
    omega

theorem reading_four (hlow : 0xFFFF < c.toNat)
    (h₁ : b₁.toNat = c.toNat / 262144 + 240) (h₂ : b₂.toNat = c.toNat / 4096 % 64 + 128)
    (h₃ : b₃.toNat = c.toNat / 64 % 64 + 128) (h₄ : b₄.toNat = c.toNat % 64 + 128) :
    Reading.of [b₁, b₂, b₃, b₄] = .whole c := by
  have hvalid : c.toNat < 0xD800 ∨ 0xDFFF < c.toNat ∧ c.toNat < 0x110000 := c.valid
  have hwidth : width b₁ = 4 := by
    rw [width_eq, if_neg (by omega), if_neg (by omega), if_neg (by omega), if_neg (by omega),
      if_pos (by omega)]
  have htail₂ : isTail b₂ = true := by rw [isTail_iff]; omega
  have htail₃ : isTail b₃ = true := by rw [isTail_iff]; omega
  have htail₄ : isTail b₄ = true := by rw [isTail_iff]; omega
  have hsecond : followsLead b₁ b₂ = true := by
    apply followsLead_of_isTail htail₂ <;> omega
  refine Reading.of_eq_whole ?_ hwidth ?_
  · simp [isBeginning, hsecond, htail₃, htail₄, hwidth]
  · simp only [codePoint, leadBits, hwidth, List.foldl_cons, List.foldl_nil, h₁, h₂, h₃, h₄]
    omega

end

theorem reading_utf8EncodeChar (c : Char) : Reading.of (String.utf8EncodeChar c) = .whole c := by
  have hvalid : c.toNat < 0xD800 ∨ 0xDFFF < c.toNat ∧ c.toNat < 0x110000 := c.valid
  have hval : c.val.toNat = c.toNat := rfl
  simp only [String.utf8EncodeChar, hval]
  split
  next h₁ =>
    apply reading_one h₁
    rw [UInt8.toNat_ofNat']
    omega
  next h₁ =>
    split
    next h₂ =>
      apply reading_two (by omega) h₂ <;> rw [UInt8.toNat_ofNat'] <;> omega
    next h₂ =>
      split
      next h₃ => apply reading_three (by omega) h₃ <;> rw [UInt8.toNat_ofNat'] <;> omega
      next h₃ => apply reading_four (by omega) <;> rw [UInt8.toNat_ofNat'] <;> omega

private theorem toList_loop_eq (octets : ByteArray) (i : Nat) (r : Octets) :
    ByteArray.toList.loop octets i r = r.reverse ++ octets.data.toList.drop i := by
  fun_induction ByteArray.toList.loop octets i r with
  | case1 i r hlt ih =>
    have hi : i < octets.data.toList.length := hlt
    have hget : octets.get! i = octets.data.toList[i] := by
      rcases octets with ⟨data⟩
      exact getElem!_pos data i hlt
    rw [ih, List.drop_eq_getElem_cons hi, hget, List.reverse_cons, List.append_assoc]
    rfl
  | case2 i r hge =>
    have hi : octets.data.toList.length ≤ i := Nat.le_of_not_lt hge
    rw [List.drop_eq_nil_of_le hi, List.append_nil]

theorem octetsOf_eq_flatMap (text : String) :
    octetsOf text = text.toList.flatMap String.utf8EncodeChar := by
  have hlist : ∀ octets : ByteArray, octets.toList = octets.data.toList := by
    intro octets
    rw [ByteArray.toList, toList_loop_eq]
    rfl
  rw [octetsOf, String.toUTF8_eq_toByteArray, ← String.utf8Encode_toList, hlist, List.utf8Encode,
    List.toList_data_toByteArray]

/-- **The octets of a text decode to the text**, and no octet is held back. -/
theorem decode_octetsOf (text : String) : decode (octetsOf text) = .upTo text [] := by
  have hchars : ∀ (cs : List Char) (before : String),
      decodeAfter before [] (cs.flatMap String.utf8EncodeChar) =
        .upTo (before ++ String.ofList cs) [] := by
    intro cs
    induction cs with
    | nil =>
      intro before
      rw [List.flatMap_nil, decodeAfter, String.ofList_nil, String.append_empty]
    | cons c cs ih =>
      intro before
      have hne : String.utf8EncodeChar c ≠ [] := by
        apply List.ne_nil_of_length_pos
        rw [String.length_utf8EncodeChar]
        exact Char.utf8Size_pos c
      rw [List.flatMap_cons, decodeAfter_whole (reading_utf8EncodeChar c) hne, ih,
        String.ofList_cons, ← String.append_assoc, String.append_singleton]
  rw [decode, octetsOf_eq_flatMap, hchars, String.empty_append, String.ofList_toList]

/-! ## Chunks -/

namespace Carry

/-- The octets held go on, with the octets to come, to be this text to the end. -/
structure Awaits (carry : Carry) (coming : Octets) (text : String) : Prop where
  begun : Reading.of carry.held = .begun
  decodes : decode (carry.held ++ coming) = .upTo text []

theorem awaits_octetsOf (text : String) : empty.Awaits (octetsOf text) text where
  begun := rfl
  decodes := decode_octetsOf text

end Carry

end Utf8

end ObjectFeed
