/-
  Well-formed octets, and what decoding says about them.

  * `IsText`, `BeginsText` and `LongestText`: octets that are a text, octets that a text begins with, and
    the longest text that octets begin with.  They speak of the octets that encode characters only;
  * `Reading.eq_utf8EncodeChar`: octets that are read as a character are those that encode it, so
    decoding neither drops nor adds an octet (`octets_of_decodeAfter`);
  * `Reading.exists_whole`: the beginning of a code point goes on to be one;
  * `beginsText_iff`: so octets begin a text where decoding meets nothing that is ill-formed;
  * `longestText_of_upTo`, `exists_longestText_of_illFormed`: what is decoded is the longest text, and
    decoding stops at its end.
-/
import ObjectFeed.Proofs.Utf8.Chunks

namespace ObjectFeed

namespace Utf8

/-! ## Octets read as a character -/

/-- After any lead the second octet is one that may stand in the later places, and four leads restrict
    it further. -/
theorem isTail_of_followsLead {lead b : UInt8} (h : followsLead lead b = true) :
    isTail b = true ∧ (lead.toNat = 0xE0 → 0xA0 ≤ b.toNat) ∧ (lead.toNat = 0xED → b.toNat ≤ 0x9F) ∧
      (lead.toNat = 0xF0 → 0x90 ≤ b.toNat) ∧ (lead.toNat = 0xF4 → b.toNat ≤ 0x8F) := by
  rw [isTail_iff]
  simp only [followsLead, ← UInt8.toNat_inj] at h
  repeat' split at h
  all_goals
    simp only [isTail_iff, Bool.and_eq_true, decide_eq_true_eq, UInt8.le_iff_toNat_le] at h
    simp at *
    omega

/-- A number that no surrogate has is the number of its character. -/
theorem toNat_ofNat_of_isValidChar {n : Nat} (h : n.isValidChar) : (Char.ofNat n).toNat = n := by
  rw [Char.ofNat, dif_pos h]
  exact UInt32.toNat_ofNatLT

theorem Reading.whole_inv {octets : Octets} {c : Char} (h : Reading.of octets = .whole c) :
    ∃ lead tails, octets = lead :: tails ∧ isBeginning (lead :: tails) = true ∧
      width lead = tails.length + 1 ∧ Char.ofNat (codePoint (lead :: tails)) = c := by
  have hbeginning : isBeginning octets = true :=
    isBeginning_of_ne_broken (by rw [h]; exact Reading.noConfusion)
  rcases octets with _ | ⟨lead, tails⟩
  · cases h
  · by_cases hwidth : tails.length + 1 = width lead
    · simp only [Reading.of, hbeginning, hwidth, Bool.not_true, Bool.false_eq_true, if_false, if_true,
        Reading.whole.injEq] at h
      exact ⟨lead, tails, rfl, hbeginning, hwidth.symm, h⟩
    · simp [Reading.of, hbeginning, hwidth] at h

theorem lead_of_width (lead : UInt8) :
    (width lead = 1 → lead.toNat < 0x80) ∧
      (width lead = 2 → 0xC2 ≤ lead.toNat ∧ lead.toNat < 0xE0) ∧
      (width lead = 3 → 0xE0 ≤ lead.toNat ∧ lead.toNat < 0xF0) ∧
      (width lead = 4 → 0xF0 ≤ lead.toNat ∧ lead.toNat < 0xF5) := by
  rw [width_eq]
  repeat' split
  all_goals omega

theorem width_le (lead : UInt8) : width lead ≤ 4 := by
  rw [width_eq]
  repeat' split
  all_goals omega

section
variable {b₁ b₂ b₃ b₄ : UInt8}

theorem utf8EncodeChar_one (hwidth : width b₁ = 1) :
    String.utf8EncodeChar (Char.ofNat (codePoint [b₁])) = [b₁] := by
  obtain ⟨hleads, -⟩ := lead_of_width b₁
  have hlead := hleads hwidth
  have hcode : codePoint [b₁] = b₁.toNat := by
    simp only [codePoint, leadBits, hwidth, List.foldl_nil]
  have hval : (Char.ofNat (codePoint [b₁])).val.toNat = b₁.toNat := by
    rw [hcode]
    exact toNat_ofNat_of_isValidChar (by left; omega)
  simp only [String.utf8EncodeChar, hval, if_pos (show b₁.toNat ≤ 0x7F by omega), UInt8.ofNat_toNat]

theorem utf8EncodeChar_two (hwidth : width b₁ = 2) (hsecond : followsLead b₁ b₂ = true) :
    String.utf8EncodeChar (Char.ofNat (codePoint [b₁, b₂])) = [b₁, b₂] := by
  obtain ⟨-, hleads, -⟩ := lead_of_width b₁
  have hlead := hleads hwidth
  have h₂ := (isTail_iff b₂).1 (isTail_of_followsLead hsecond).1
  obtain ⟨n, hn⟩ : ∃ n, n = codePoint [b₁, b₂] := ⟨_, rfl⟩
  have hcode : n = b₁.toNat % 32 * 64 + b₂.toNat % 64 := by
    simp only [hn, codePoint, leadBits, hwidth, List.foldl_cons, List.foldl_nil]
  have hval : (Char.ofNat n).val.toNat = n := toNat_ofNat_of_isValidChar (by left; omega)
  rw [← hn]
  simp only [String.utf8EncodeChar, hval]
  rw [if_neg (by omega), if_pos (by omega)]
  simp only [List.cons.injEq, and_true, ← UInt8.toNat_inj, UInt8.toNat_ofNat']
  omega

theorem utf8EncodeChar_three (hwidth : width b₁ = 3) (hsecond : followsLead b₁ b₂ = true)
    (hthird : isTail b₃ = true) :
    String.utf8EncodeChar (Char.ofNat (codePoint [b₁, b₂, b₃])) = [b₁, b₂, b₃] := by
  obtain ⟨-, -, hleads, -⟩ := lead_of_width b₁
  have hlead := hleads hwidth
  obtain ⟨htail, hE0, hED, -, -⟩ := isTail_of_followsLead hsecond
  have h₂ := (isTail_iff b₂).1 htail
  have h₃ := (isTail_iff b₃).1 hthird
  obtain ⟨n, hn⟩ : ∃ n, n = codePoint [b₁, b₂, b₃] := ⟨_, rfl⟩
  have hcode : n = (b₁.toNat % 16 * 64 + b₂.toNat % 64) * 64 + b₃.toNat % 64 := by
    simp only [hn, codePoint, leadBits, hwidth, List.foldl_cons, List.foldl_nil]
  have hvalid : n.isValidChar := by
    show n < 0xD800 ∨ 0xDFFF < n ∧ n < 0x110000
    omega
  have hval : (Char.ofNat n).val.toNat = n := toNat_ofNat_of_isValidChar hvalid
  rw [← hn]
  simp only [String.utf8EncodeChar, hval]
  rw [if_neg (by omega), if_neg (by omega), if_pos (by omega)]
  simp only [List.cons.injEq, and_true, ← UInt8.toNat_inj, UInt8.toNat_ofNat']
  omega

theorem utf8EncodeChar_four (hwidth : width b₁ = 4) (hsecond : followsLead b₁ b₂ = true)
    (hthird : isTail b₃ = true) (hfourth : isTail b₄ = true) :
    String.utf8EncodeChar (Char.ofNat (codePoint [b₁, b₂, b₃, b₄])) = [b₁, b₂, b₃, b₄] := by
  obtain ⟨-, -, -, hleads⟩ := lead_of_width b₁
  have hlead := hleads hwidth
  obtain ⟨htail, -, -, hF0, hF4⟩ := isTail_of_followsLead hsecond
  have h₂ := (isTail_iff b₂).1 htail
  have h₃ := (isTail_iff b₃).1 hthird
  have h₄ := (isTail_iff b₄).1 hfourth
  obtain ⟨n, hn⟩ : ∃ n, n = codePoint [b₁, b₂, b₃, b₄] := ⟨_, rfl⟩
  have hcode : n = ((b₁.toNat % 8 * 64 + b₂.toNat % 64) * 64 + b₃.toNat % 64) * 64 +
      b₄.toNat % 64 := by
    simp only [hn, codePoint, leadBits, hwidth, List.foldl_cons, List.foldl_nil]
  have hvalid : n.isValidChar := by
    show n < 0xD800 ∨ 0xDFFF < n ∧ n < 0x110000
    omega
  have hval : (Char.ofNat n).val.toNat = n := toNat_ofNat_of_isValidChar hvalid
  rw [← hn]
  simp only [String.utf8EncodeChar, hval]
  rw [if_neg (by omega), if_neg (by omega), if_neg (by omega)]
  simp only [List.cons.injEq, and_true, ← UInt8.toNat_inj, UInt8.toNat_ofNat']
  omega

end

/-- **Octets that are read as a character are those that encode it.** -/
theorem Reading.eq_utf8EncodeChar {octets : Octets} {c : Char} (h : Reading.of octets = .whole c) :
    octets = String.utf8EncodeChar c := by
  obtain ⟨lead, tails, rfl, hbeginning, hwidth, rfl⟩ := whole_inv h
  have hshort := width_le lead
  rcases tails with _ | ⟨b₂, _ | ⟨b₃, _ | ⟨b₄, _ | ⟨b₅, more⟩⟩⟩⟩
  · exact (utf8EncodeChar_one hwidth).symm
  all_goals
    simp only [isBeginning, List.all_cons, List.all_nil, Bool.and_true, Bool.and_eq_true] at hbeginning
  · exact (utf8EncodeChar_two hwidth hbeginning.1).symm
  · exact (utf8EncodeChar_three hwidth hbeginning.1.1 hbeginning.1.2).symm
  · exact (utf8EncodeChar_four hwidth hbeginning.1.1 hbeginning.1.2.1 hbeginning.1.2.2).symm
  · rw [hwidth, List.length_cons, List.length_cons, List.length_cons, List.length_cons] at hshort
    omega

/-! ## Completing a code point -/

theorem exists_followsLead (lead : UInt8) : ∃ second, followsLead lead second = true := by
  by_cases hE0 : lead = 0xE0
  · exact ⟨0xA0, by rw [hE0]; decide⟩
  by_cases hF0 : lead = 0xF0
  · exact ⟨0x90, by rw [hF0]; decide⟩
  refine ⟨0x80, followsLead_of_isTail (by decide) ?_ ?_ ?_ ?_⟩
  · exact fun h => absurd (UInt8.toNat_inj.1 h) hE0
  · exact fun _ => by decide
  · exact fun h => absurd (UInt8.toNat_inj.1 h) hF0
  · exact fun _ => by decide

theorem Reading.exists_whole {octets : Octets} (h : isBeginning octets = true) :
    ∃ more c, Reading.of (octets ++ more) = .whole c := by
  -- as many later octets are missing as the width says
  have hlonger : ∀ lead second more, isBeginning (lead :: second :: more) = true →
      ∃ rest c, Reading.of (lead :: second :: more ++ rest) = .whole c := by
    intro lead second more hbeginning
    have hwidth : more.length + 1 + 1 ≤ width lead := length_le_width hbeginning
    let rest : Octets := List.replicate (width lead - (more.length + 2)) 0x80
    have hlength : (more ++ rest).length + 2 = width lead := by
      rw [List.length_append, List.length_replicate]
      omega
    have hwhole : isBeginning (lead :: second :: (more ++ rest)) = true := by
      simp only [isBeginning, Bool.and_eq_true, decide_eq_true_eq] at hbeginning ⊢
      refine ⟨⟨hbeginning.1.1, ?_⟩, by omega⟩
      rw [List.all_append, hbeginning.1.2, List.all_replicate]
      split <;> rfl
    refine ⟨rest, Char.ofNat (codePoint (lead :: second :: (more ++ rest))), ?_⟩
    simp only [Reading.of, List.cons_append, hwhole, List.length_cons, hlength, Bool.not_true,
      Bool.false_eq_true, if_false, if_true]
  rcases octets with _ | ⟨lead, _ | ⟨second, more⟩⟩
  · exact ⟨[0x20], ' ', by decide⟩
  · by_cases hwidth : width lead = 1
    · refine ⟨[], Char.ofNat (codePoint [lead]), ?_⟩
      simp [Reading.of, h, hwidth]
    · obtain ⟨second, hsecond⟩ := exists_followsLead lead
      have hpair : isBeginning [lead, second] = true := by
        simp only [isBeginning, bne_iff_ne] at h
        simp only [isBeginning, hsecond, List.all_nil, List.length_nil, Bool.and_self, Bool.true_and,
          decide_eq_true_eq]
        omega
      obtain ⟨rest, c, hwhole⟩ := hlonger lead second [] hpair
      exact ⟨second :: rest, c, hwhole⟩
  · exact hlonger lead second more h

theorem Reading.length_le_of_begun {held : Octets} (h : Reading.of held = .begun) :
    held.length ≤ 3 := by
  have hbeginning := isBeginning_of_ne_broken (by rw [h]; exact Reading.noConfusion)
  rcases held with _ | ⟨lead, tails⟩
  · exact Nat.zero_le 3
  · have hwidth : tails.length + 1 ≠ width lead := by
      intro hwidth
      simp [Reading.of, hbeginning, hwidth] at h
    have hle := length_le_width hbeginning
    have hfour := width_le lead
    rw [List.length_cons]
    omega

/-! ## What decoding has read -/

@[simp] theorem octetsOf_empty : octetsOf "" = [] := by
  rw [octetsOf_eq_flatMap]
  rfl

theorem octetsOf_append (text more : String) :
    octetsOf (text ++ more) = octetsOf text ++ octetsOf more := by
  rw [octetsOf_eq_flatMap, String.toList_append, List.flatMap_append, ← octetsOf_eq_flatMap,
    ← octetsOf_eq_flatMap]

theorem octetsOf_push (text : String) (c : Char) :
    octetsOf (text.push c) = octetsOf text ++ String.utf8EncodeChar c := by
  rw [← String.append_singleton, octetsOf_append, octetsOf_eq_flatMap (String.singleton c),
    String.toList_singleton, List.flatMap_singleton]

theorem length_octetsOf (text : String) : (octetsOf text).length = text.utf8ByteSize := by
  rw [octetsOf_eq_flatMap, ← List.size_toByteArray, ← List.utf8Encode, String.utf8Encode_toList]
  rfl

/-- **Decoding neither drops nor adds an octet.** -/
theorem octets_of_decodeAfter {text text' : String} {held octets held' : Octets}
    (h : decodeAfter text held octets = .upTo text' held') :
    octetsOf text ++ (held ++ octets) = octetsOf text' ++ held' := by
  induction octets generalizing text held with
  | nil =>
    rw [decodeAfter, Decoding.upTo.injEq] at h
    rw [List.append_nil, h.1, h.2]
  | cons b rest ih =>
    have hsplit : held ++ b :: rest = held ++ [b] ++ rest := by simp
    rw [decodeAfter] at h
    rw [hsplit]
    cases hreading : Reading.of (held ++ [b]) with
    | whole c =>
      rw [hreading] at h
      rw [← ih h, Reading.eq_utf8EncodeChar hreading, octetsOf_push, List.nil_append,
        List.append_assoc]
    | begun =>
      rw [hreading] at h
      exact ih h
    | broken =>
      rw [hreading] at h
      cases h

/-! ## Well-formed octets -/

/-- These octets are a text. -/
def IsText (octets : Octets) : Prop :=
  ∃ text, octetsOf text = octets

/-- A text begins with these octets. -/
def BeginsText (octets : Octets) : Prop :=
  ∃ text, octets <+: octetsOf text

/-- This is the longest text that octets begin with. -/
structure LongestText (octets : Octets) (text : String) : Prop where
  isPrefix : octetsOf text <+: octets
  longest : ∀ other, octetsOf other <+: octets → (octetsOf other).length ≤ (octetsOf text).length

theorem octets_of_decode {octets held : Octets} {text : String}
    (h : decode octets = .upTo text held) : octetsOf text ++ held = octets := by
  rw [← octets_of_decodeAfter h, octetsOf_empty, List.nil_append, List.nil_append]

/-- **Octets begin a text where decoding meets nothing that is ill-formed.** -/
theorem beginsText_iff {octets : Octets} :
    BeginsText octets ↔ ∃ text held, decode octets = .upTo text held := by
  constructor
  · rintro ⟨text, coming, h⟩
    exact exists_upTo_of_append (h ▸ decode_octetsOf text)
  · rintro ⟨text, held, h⟩
    have hbegun := begun_of_decodeAfter h rfl
    obtain ⟨more, c, hwhole⟩ := Reading.exists_whole
      (Reading.isBeginning_of_ne_broken (by rw [hbegun]; exact Reading.noConfusion))
    refine ⟨text.push c, more, ?_⟩
    rw [octetsOf_push, ← Reading.eq_utf8EncodeChar hwhole, ← List.append_assoc, octets_of_decode h]

theorem BeginsText.of_append {octets coming : Octets} (h : BeginsText (octets ++ coming)) :
    BeginsText octets := by
  obtain ⟨text, hbegin⟩ := h
  exact ⟨text, (List.prefix_append octets coming).trans hbegin⟩

theorem isText_iff_of_upTo {octets held : Octets} {text : String}
    (h : decode octets = .upTo text held) : IsText octets ↔ held = [] := by
  constructor
  · rintro ⟨whole, rfl⟩
    rw [decode_octetsOf, Decoding.upTo.injEq] at h
    exact h.2.symm
  · rintro rfl
    exact ⟨text, by rw [← octets_of_decode h, List.append_nil]⟩

theorem longestText_of_upTo {octets held : Octets} {text : String}
    (h : decode octets = .upTo text held) : LongestText octets text where
  isPrefix := ⟨held, octets_of_decode h⟩
  longest := by
    rintro other ⟨rest, rfl⟩
    rw [decode, decodeAfter_append, ← decode, decode_octetsOf] at h
    obtain ⟨more, rfl, -⟩ := decodeAfter_text h
    rw [octetsOf_append, List.length_append]
    exact Nat.le_add_right _ _

/-- Where decoding stops, a text ends, and the ill-formed sequence has one to three octets. -/
theorem exists_text_of_illFormed {before : String} {held octets : Octets} {index length : Nat}
    (h : decodeAfter before held octets = .illFormed index length)
    (hheld : Reading.of held = .begun) :
    (∃ text, octetsOf text <+: octetsOf before ++ (held ++ octets) ∧
      (octetsOf text).length = index) ∧ 1 ≤ length ∧ length ≤ 3 := by
  induction octets generalizing before held with
  | nil => cases h
  | cons b rest ih =>
    have hsplit : held ++ b :: rest = held ++ [b] ++ rest := by simp
    rw [decodeAfter] at h
    cases hreading : Reading.of (held ++ [b]) with
    | whole c =>
      rw [hreading] at h
      have hrest := ih h rfl
      rwa [octetsOf_push, ← Reading.eq_utf8EncodeChar hreading, List.nil_append,
        List.append_assoc, ← hsplit] at hrest
    | begun =>
      rw [hreading] at h
      rw [hsplit]
      exact ih h hreading
    | broken =>
      rw [hreading] at h
      obtain ⟨rfl, rfl⟩ := Decoding.illFormed.inj h
      have hle := Reading.length_le_of_begun hheld
      exact ⟨⟨before, List.prefix_append _ _, length_octetsOf before⟩, by omega, by omega⟩

/-- **Decoding stops at the end of the longest text.** -/
theorem exists_longestText_of_illFormed {octets : Octets} {index length : Nat}
    (h : decode octets = .illFormed index length) :
    (∃ text, LongestText octets text ∧ (octetsOf text).length = index) ∧ 1 ≤ length ∧
      length ≤ 3 := by
  obtain ⟨⟨text, hbegin, hindex⟩, hlength⟩ := exists_text_of_illFormed h rfl
  rw [octetsOf_empty, List.nil_append, List.nil_append] at hbegin
  refine ⟨⟨text, ⟨hbegin, ?_⟩, hindex⟩, hlength⟩
  rintro other ⟨rest, rfl⟩
  rw [decode, decodeAfter_append, ← decode, decode_octetsOf] at h
  rw [hindex, length_octetsOf]
  exact le_index_of_decodeAfter h

end Utf8

end ObjectFeed
