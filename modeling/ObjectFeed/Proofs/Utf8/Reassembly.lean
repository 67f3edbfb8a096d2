/-
  Chunks put together to text: without loss, and with what is ill-formed met at once.

  * `reassembles_text`: chunks of octets that begin a text are taken, the texts given are the longest text
    so far, and the rest is held;
  * `fault_from_first_illFormed`: chunks of octets that begin no text are taken up to the first chunk with
    which they begin none, and from then on each chunk meets the same fault;
  * `arrivals_of_illFormed`: once something ill-formed is held, it stays held.
-/
import ObjectFeed.Proofs.Utf8.WellFormed

namespace ObjectFeed

namespace Utf8

namespace Carry

/-- A chunk that shows what is held to be ill-formed gives nothing, and is held with it. -/
theorem push_of_illFormed {carry : Carry} {chunk : Octets} {index length : Nat}
    (h : decode (carry.held ++ chunk) = .illFormed index length) :
    carry.push chunk = (.error (.illFormedText index length), ⟨carry.held ++ chunk⟩) := by
  rw [push, h]

/-- **Once something ill-formed is held, each chunk meets the same fault**, and is held too. -/
theorem arrivals_of_illFormed (carry : Carry) {index length : Nat}
    (h : decode carry.held = .illFormed index length) (chunks : List Octets) :
    carry.arrivals chunks =
        List.replicate chunks.length (.error (.illFormedText index length)) ∧
      carry.afterChunks chunks = ⟨carry.held ++ chunks.flatten⟩ := by
  induction chunks generalizing carry with
  | nil => exact ⟨rfl, by rw [List.flatten_nil, List.append_nil]; rfl⟩
  | cons chunk chunks ih =>
    have hchunk : decode (carry.held ++ chunk) = .illFormed index length := by
      rw [decode, decodeAfter_append, ← decode, h]
    have hpush := push_of_illFormed hchunk
    obtain ⟨harrivals, hafter⟩ := ih ⟨carry.held ++ chunk⟩ hchunk
    constructor
    · rw [arrivals, hpush, harrivals, List.length_cons, List.replicate_succ]
    · rw [afterChunks_cons, hpush, hafter, List.flatten_cons, List.append_assoc]

theorem flush_fst_eq_ok_iff {carry : Carry} : carry.flush.1 = .ok () ↔ carry.held = [] := by
  rw [← List.isEmpty_iff, flush]
  cases carry.held.isEmpty <;> simp

theorem flush_of_ne_nil {carry : Carry} (h : carry.held ≠ []) :
    carry.flush = (.error (.unfinishedText carry.held.length), empty) := by
  rw [flush, if_neg (by rwa [List.isEmpty_iff])]

/-- Chunks of octets that begin a text arrive as what can be decoded of them. -/
theorem exists_arrivals_of_beginsText {chunks : List Octets} (h : BeginsText chunks.flatten) :
    ∃ fragments, empty.arrivals chunks = fragments.map .ok ∧
      decode chunks.flatten = .upTo (String.join fragments) (empty.afterChunks chunks).held := by
  obtain ⟨text, held, hdecode⟩ := beginsText_iff.1 h
  obtain ⟨fragments, rfl, harrivals, rfl⟩ := exists_arrivals empty rfl hdecode
  exact ⟨fragments, harrivals, hdecode⟩

/-- **Chunks of octets that begin a text are put together without loss.**  However the octets are
    divided, every chunk is taken; after each the texts given so far are the longest text of the octets
    so far, and what is held is the rest, at most three octets.  The input ends well if the octets are a
    text; if not, the octets held are reported as unfinished.  In any case nothing is held any more. -/
theorem reassembles_text {chunks : List Octets} (h : BeginsText chunks.flatten) :
    (∀ taken, taken <+: chunks →
      ∃ fragments, empty.arrivals taken = fragments.map .ok ∧
        LongestText taken.flatten (String.join fragments) ∧
        octetsOf (String.join fragments) ++ (empty.afterChunks taken).held = taken.flatten ∧
        (empty.afterChunks taken).held.length ≤ 3) ∧
      let last := empty.afterChunks chunks
      (last.flush.1 = .ok () ↔ IsText chunks.flatten) ∧
        (¬ IsText chunks.flatten → ∃ fault, last.flush.1 = .error fault ∧
          fault.kind = .unexpectedEnd ∧
          fault.message = "stream ended with " ++ toString last.held.length ++
            " byte(s) of an incomplete UTF-8 sequence") ∧
        last.flush.2 = empty := by
  constructor
  · rintro taken ⟨coming, rfl⟩
    rw [List.flatten_append] at h
    obtain ⟨fragments, harrivals, hdecode⟩ := exists_arrivals_of_beginsText h.of_append
    exact ⟨fragments, harrivals, longestText_of_upTo hdecode, octets_of_decode hdecode,
      Reading.length_le_of_begun (begun_of_decodeAfter hdecode rfl)⟩
  · intro last
    obtain ⟨fragments, -, hdecode⟩ := exists_arrivals_of_beginsText h
    have htext : IsText chunks.flatten ↔ last.held = [] := isText_iff_of_upTo hdecode
    rw [htext]
    refine ⟨flush_fst_eq_ok_iff, fun hheld => ?_, flush_snd last⟩
    exact ⟨.unfinishedText last.held.length, by rw [flush_of_ne_nil hheld], rfl, rfl⟩

/-- A character of two octets in two chunks, an empty chunk, and a character of four octets that is cut
    off. -/
theorem reassembles_text_cut_off :
    let chunks : List Octets := [[0x41, 0xC3], [], [0xA9, 0xF0, 0x9F]]
    BeginsText chunks.flatten ∧
      (∃ fragments, empty.arrivals chunks = fragments.map .ok ∧
        LongestText chunks.flatten (String.join fragments)) ∧
      (empty.afterChunks chunks).flush.2 = empty := by
  intro chunks
  have h : BeginsText chunks.flatten := ⟨"Aé🦀", by rw [octetsOf_eq_flatMap]; decide +kernel⟩
  obtain ⟨fragments, harrivals, hlongest, -⟩ := (reassembles_text h).1 chunks (List.prefix_refl chunks)
  exact ⟨h, ⟨fragments, harrivals, hlongest⟩, (reassembles_text h).2.2.2⟩

/-- Among chunks of octets that begin no text there is a first with which the octets begin none. -/
theorem exists_first_of_not_beginsText {chunks : List Octets} (h : ¬ BeginsText chunks.flatten) :
    ∃ good bad later, chunks = good ++ bad :: later ∧
      BeginsText good.flatten ∧ ¬ BeginsText (good.flatten ++ bad) := by
  cases hdecode : decode chunks.flatten with
  | upTo text held => exact absurd (beginsText_iff.2 ⟨text, held, hdecode⟩) h
  | illFormed index length =>
    obtain ⟨good, bad, later, fragments, -, hchunks, -, -, ⟨left, hgood⟩, i, l, hbad⟩ :=
      exists_fault_of_illFormed empty rfl hdecode
    refine ⟨good, bad, later, hchunks, beginsText_iff.2 ⟨_, left, hgood⟩, fun hbegins => ?_⟩
    obtain ⟨text, held, hupTo⟩ := beginsText_iff.1 hbegins
    exact Decoding.noConfusion (hupTo.symm.trans hbad)

theorem exists_illFormed_of_not_beginsText {good : List Octets} {bad : Octets}
    (hgood : BeginsText good.flatten) (hbad : ¬ BeginsText (good.flatten ++ bad)) :
    ∃ index length,
      decode ((empty.afterChunks good).held ++ bad) = .illFormed index length := by
  obtain ⟨fragments, -, hdecode⟩ := exists_arrivals_of_beginsText hgood
  cases hheld : decode ((empty.afterChunks good).held ++ bad) with
  | illFormed index length => exact ⟨index, length, rfl⟩
  | upTo text held =>
    exfalso
    rw [decode_held_append (begun_of_decodeAfter hdecode rfl)] at hheld
    obtain ⟨more, -, hall⟩ := decodeAfter_text hheld
    refine hbad (beginsText_iff.2 ⟨String.join fragments ++ more, held, ?_⟩)
    rw [decode, decodeAfter_append, ← decode, hdecode]
    exact hall (String.join fragments)

/-- **Octets that begin no text are met at once, and from then on.**  The chunk that brings them is the
    first with which the octets begin no text.  It gives a fault that tells the length of the longest
    text of what is then held and the one to three octets behind it, and it is held as well.  So is each
    chunk after it, whichever these are, and it gives the same fault, until the input ends.  The end is a
    fault too, and leaves nothing held, as at the start. -/
theorem fault_from_first_illFormed (chunks : List Octets) :
    (BeginsText chunks.flatten ∧
      ∃ fragments : List String, empty.arrivals chunks = fragments.map .ok) ∨
    ∃ (good : List Octets) (bad : Octets) (later : List Octets) (fragments : List String)
        (index length : Nat),
      chunks = good ++ bad :: later ∧
      BeginsText good.flatten ∧ ¬ BeginsText (good.flatten ++ bad) ∧
      empty.arrivals good = fragments.map .ok ∧
      let held := (empty.afterChunks good).held ++ bad
      let fault := Fault.illFormedText index length
      (∃ text, LongestText held text ∧ (octetsOf text).length = index) ∧
      1 ≤ length ∧ length ≤ 3 ∧ fault.kind = .invalidData ∧
      ∀ pushed : List Octets,
        let carry := empty.afterChunks (good ++ bad :: pushed)
        empty.arrivals (good ++ bad :: pushed) =
            fragments.map .ok ++ List.replicate (pushed.length + 1) (.error fault) ∧
          carry.held = held ++ pushed.flatten ∧
          carry.flush = (.error (.unfinishedText carry.held.length), empty) := by
  by_cases h : BeginsText chunks.flatten
  · obtain ⟨fragments, harrivals, -⟩ := exists_arrivals_of_beginsText h
    exact .inl ⟨h, fragments, harrivals⟩
  · obtain ⟨good, bad, later, hchunks, hgood, hbad⟩ := exists_first_of_not_beginsText h
    obtain ⟨fragments, harrivals, -⟩ := exists_arrivals_of_beginsText hgood
    obtain ⟨index, length, hheld⟩ := exists_illFormed_of_not_beginsText hgood hbad
    obtain ⟨hlongest, hone, hthree⟩ := exists_longestText_of_illFormed hheld
    refine .inr ⟨good, bad, later, fragments, index, length, hchunks, hgood, hbad, harrivals,
      hlongest, hone, hthree, rfl, fun pushed => ?_⟩
    have hpush := push_of_illFormed hheld
    obtain ⟨hpushed, hafter⟩ :=
      arrivals_of_illFormed ⟨(empty.afterChunks good).held ++ bad⟩ hheld pushed
    have hcarry : empty.afterChunks (good ++ bad :: pushed) =
        ⟨(empty.afterChunks good).held ++ bad ++ pushed.flatten⟩ := by
      rw [← hafter, afterChunks_append, afterChunks_cons, hpush]
    intro carry
    refine ⟨?_, congrArg held hcarry, flush_of_ne_nil ?_⟩
    · rw [arrivals_append, harrivals, arrivals, hpush, hpushed, List.replicate_succ]
    · show (empty.afterChunks (good ++ bad :: pushed)).held ≠ []
      rw [hcarry]
      intro hnil
      rw [List.append_eq_nil_iff] at hnil
      rw [hnil.1] at hheld
      cases hheld

example :
    empty.arrivals [[0x41, 0xE2], [0x82], [0x28, 0x42], [0x43]] =
      [.ok "A", .ok "", .error (.illFormedText 0 2), .error (.illFormedText 0 2)] := rfl

end Carry

end Utf8

end ObjectFeed
