/-
  What a supply over a reader reads, and what it gives of that.

  * `Logged` is a reader with what it was asked for and what it answered;
  * `exists_retries`: a read that is interrupted is made again until one is not.  `Ends` is what a call
    does with the last of its reads, and `ends_of_unreleased`: every call does one of these things;
  * `Tells` says what a call answers to the last of its reads, if the octets begin a text.  `Ends.tells`:
    it does, and the text given is still what can be decoded of the octets read;
  * `IsFaithful` is what a caller may rely on, and `reader_faithful`: it holds of every supply over a
    reader, from its start on.
-/
import ObjectFeed.Proofs.Feeds.Pulling
import ObjectFeed.Proofs.Utf8.Reassembly
import ObjectFeed.Script

namespace ObjectFeed

variable {ρ : Type}

/-! ## Logged readers -/

/-- A reader and what it has answered, oldest first, each with the number of octets that it was asked
    for. -/
structure Logged (ρ : Type) where
  reader : ρ
  log : List (Nat × ReadAnswer) := []

instance [OctetReader ρ] : OctetReader (Logged ρ) where
  read n r :=
    let (answer, reader) := OctetReader.read n r.reader
    (answer, { reader, log := r.log ++ [(n, answer)] })
  remaining r := OctetReader.remaining r.reader
  remaining_octets_lt {n r r' octets} hn h hne := by
    simp only [Prod.mk.injEq] at h
    rw [← h.2]
    exact OctetReader.remaining_octets_lt hn (Prod.ext h.1 rfl) hne
  remaining_interrupted_lt {n r r' fault} hn h hk := by
    simp only [Prod.mk.injEq] at h
    rw [← h.2]
    exact OctetReader.remaining_interrupted_lt hn (Prod.ext h.1 rfl) hk

/-- The octets that an answer brings. -/
def ReadAnswer.brought : ReadAnswer → Octets
  | .octets chunk => chunk
  | .failed _ => []

/-- The read was interrupted. -/
def ReadAnswer.IsInterrupted : ReadAnswer → Prop
  | .octets _ => False
  | .failed fault => fault.kind = .interrupted

namespace Logged

/-- The octets that were read. -/
def octets (r : Logged ρ) : Octets :=
  r.log.flatMap fun entry => entry.2.brought

variable {r r' : Logged ρ}

theorem octets_of_log {n : Nat} {retries : List ReadAnswer} {last : ReadAnswer}
    (hretries : ∀ answer ∈ retries, ReadAnswer.IsInterrupted answer)
    (hlog : r'.log = r.log ++ (retries ++ [last]).map fun answer => (n, answer)) :
    r'.octets = r.octets ++ last.brought := by
  have hnone : retries.flatMap ReadAnswer.brought = [] := by
    rw [List.flatMap_eq_nil_iff]
    intro answer hanswer
    cases answer with
    | octets => exact (hretries _ hanswer).elim
    | failed => rfl
  simp [octets, hlog, List.flatMap_map, hnone]

variable [OctetReader ρ]

theorem log_of_read {n : Nat} {answer : ReadAnswer} (hread : OctetReader.read n r = (answer, r')) :
    r'.log = r.log ++ [(n, answer)] := by
  obtain ⟨rfl, rfl⟩ := Prod.mk.inj hread
  rfl

/-- **An interrupted read is made again**, until one is not interrupted, and only that one is
    answered. -/
theorem exists_retries (n : { n : Nat // 0 < n }) (r : Logged ρ) :
    ∃ retries last r', OctetReader.readThrough n r = (last, r') ∧ ¬ last.IsInterrupted ∧
      (∀ answer ∈ retries, ReadAnswer.IsInterrupted answer) ∧
      r'.log = r.log ++ (retries ++ [last]).map fun answer => (n.val, answer) := by
  fun_induction OctetReader.readThrough n r with
  | case1 r octets r' hread => exact ⟨[], _, r', rfl, id, List.forall_mem_nil _, log_of_read hread⟩
  | case2 r fault r' hread hkind ih =>
    obtain ⟨retries, last, r'', hthrough, hlast, hretries, hlog⟩ := ih
    refine ⟨.failed fault :: retries, last, r'', hthrough, hlast, ?_, ?_⟩
    · rintro answer (_ | ⟨_, hanswer⟩)
      · exact hkind
      · exact hretries answer hanswer
    · rw [hlog, log_of_read hread, List.append_assoc]
      rfl
  | case3 r fault r' hread hkind =>
    exact ⟨[], _, r', rfl, hkind, List.forall_mem_nil _, log_of_read hread⟩

end Logged

namespace ReaderSupply

open Utf8

/-! ## One call -/

/-- What a call answers to the last of its reads, and whether it releases the reader, where these octets
    were read before, and this text was given. -/
inductive Tells (octets : Octets) (given : String) : ReadAnswer → Pulled → Bool → Prop
  | fragment {chunk : Octets} {text : String} :
      chunk ≠ [] → Tells octets given (.octets chunk) (.fragment text) false
  | failed {fault : Fault} :
      fault.kind ≠ .interrupted → Tells octets given (.failed fault) (.failed fault) false
  /-- All octets were given as text. -/
  | ended : octetsOf given = octets → Tells octets given (.octets []) .ended true
  /-- Some octets are held back. -/
  | unfinished {held : Octets} {fault : Fault} : held ≠ [] → octetsOf given ++ held = octets →
      fault = .unfinishedText held.length → fault.kind = .unexpectedEnd →
      Tells octets given (.octets []) (.failed fault) true

/-- What a call answers to the last of its reads, which leaves this reader, and what it leaves. -/
inductive Ends (s : ReaderSupply (Logged ρ)) (reader : Logged ρ) :
    ReadAnswer → Pulled → ReaderSupply (Logged ρ) → Prop
  | fragment {chunk : Octets} {text : String} {carry : Carry} :
      chunk ≠ [] → s.carry.push chunk = (.ok text, carry) →
      Ends s reader (.octets chunk) (.fragment text) { s with reader, carry }
  | illFormed {chunk : Octets} {fault : Fault} {carry : Carry} :
      chunk ≠ [] → s.carry.push chunk = (.error fault, carry) →
      Ends s reader (.octets chunk) (.failed fault) { s with reader, carry }
  | failed {fault : Fault} :
      fault.kind ≠ .interrupted → Ends s reader (.failed fault) (.failed fault) { s with reader }
  | ended : s.carry.held = [] →
      Ends s reader (.octets []) .ended { s with reader, carry := .empty, released := true }
  | unfinished : s.carry.held ≠ [] →
      Ends s reader (.octets []) (.failed (.unfinishedText s.carry.held.length))
        { s with reader, carry := .empty, released := true }

section

variable {s : ReaderSupply (Logged ρ)} {given : String}

/-- A chunk with which the octets still begin a text is taken, and decoded with what is held. -/
theorem push_of_beginsText {carry : Carry} {octets chunk : Octets}
    (hdecode : decode octets = .upTo given carry.held) (hbegins : BeginsText (octets ++ chunk)) :
    ∃ text held, carry.push chunk = (.ok text, ⟨held⟩) ∧
      decode (octets ++ chunk) = .upTo (given ++ text) held := by
  obtain ⟨all, held, hall⟩ := beginsText_iff.1 hbegins
  have hafter : decodeAfter given carry.held chunk = .upTo all held := by
    rw [decode, decodeAfter_append, ← decode, hdecode] at hall
    exact hall
  obtain ⟨text, rfl, hany⟩ := decodeAfter_text hafter
  have hchunk : decode (carry.held ++ chunk) = .upTo text held := by
    rw [decode_held_append (begun_of_decodeAfter hdecode rfl), hany "", String.empty_append]
  exact ⟨text, held, (Carry.push_of_upTo hchunk).1, hall⟩

/-- **A call tells what comes of its reads**, if the octets read still begin a text, and the text given then
    is what can be decoded of them. -/
theorem Ends.tells {s' : ReaderSupply (Logged ρ)} {reader : Logged ρ} {last : ReadAnswer}
    {answer : Pulled} (hends : Ends s reader last answer s') (hs : s.released = false)
    (hdecode : decode s.reader.octets = .upTo given s.carry.held)
    (hoctets : reader.octets = s.reader.octets ++ last.brought)
    (hbegins : BeginsText s'.reader.octets) :
    s'.reader = reader ∧ Tells s.reader.octets given last answer s'.released ∧
      ∃ held, decode s'.reader.octets = .upTo (given ++ answer.fragment?.getD "") held ∧
        (s'.released = false → s'.carry.held = held) := by
  have hgiven := octets_of_decode hdecode
  -- a read that brings nothing leaves what was decoded
  have hnothing : last.brought = [] →
      decode reader.octets = .upTo (given ++ "") s.carry.held := by
    intro hnone
    rw [hoctets, hnone, List.append_nil, String.append_empty]
    exact hdecode
  cases hends with
  | @fragment chunk text carry hne hpush =>
    rw [hoctets] at hbegins
    obtain ⟨text', held, hpush', hnext⟩ := push_of_beginsText hdecode hbegins
    obtain ⟨htext, rfl⟩ := Prod.mk.inj (hpush.symm.trans hpush')
    obtain rfl : text = text' := Except.ok.inj htext
    rw [hs]
    exact ⟨rfl, .fragment hne, held, hoctets ▸ hnext, fun _ => rfl⟩
  | illFormed hne hpush =>
    rw [hoctets] at hbegins
    obtain ⟨text', held, hpush', -⟩ := push_of_beginsText hdecode hbegins
    cases hpush.symm.trans hpush'
  | failed hkind =>
    rw [hs]
    exact ⟨rfl, .failed hkind, _, hnothing rfl, fun _ => rfl⟩
  | ended hheld =>
    rw [hheld, List.append_nil] at hgiven
    exact ⟨rfl, .ended hgiven, _, hnothing rfl, fun hkept => absurd hkept.symm Bool.false_ne_true⟩
  | unfinished hheld =>
    exact ⟨rfl, .unfinished hheld hgiven rfl rfl, _, hnothing rfl,
      fun hkept => absurd hkept.symm Bool.false_ne_true⟩

variable [OctetReader ρ]

theorem pull_eq_of_released (hs : s.released = true) : pull s = (.ended, s) :=
  if_pos hs

/-- **A call reads until it is not interrupted**, and answers to the last of its reads. -/
theorem ends_of_unreleased (hs : s.released = false) :
    ∃ retries last reader, (∀ answer ∈ retries, ReadAnswer.IsInterrupted answer) ∧
      reader.log = s.reader.log ++ (retries ++ [last]).map (fun answer => (max s.readSize 1, answer)) ∧
      Ends s reader last (pull s).1 (pull s).2 := by
  obtain ⟨retries, last, reader, hthrough, hlast, hretries, hlog⟩ :=
    Logged.exists_retries s.asked s.reader
  refine ⟨retries, last, reader, hretries, hlog, ?_⟩
  rw [pull, hs, if_neg Bool.false_ne_true, hthrough, ← hs]
  cases last with
  | failed fault => exact .failed hlast
  | octets chunk =>
    cases chunk with
    | nil =>
      by_cases hheld : s.carry.held = []
      · have hflush : s.carry.flush = (.ok (), .empty) := by
          rw [Carry.flush, if_pos (List.isEmpty_iff.2 hheld)]
        rw [hflush]
        exact .ended hheld
      · rw [Carry.flush_of_ne_nil hheld]
        exact .unfinished hheld
    | cons first more =>
      have hne := List.cons_ne_nil first more
      rcases hpush : s.carry.push (first :: more) with ⟨fault | text, carry⟩ <;> simp only [hpush]
      · exact .illFormed hne hpush
      · exact .fragment hne hpush

theorem pull_adds (s : ReaderSupply (Logged ρ)) :
    (pull s).2.readSize = s.readSize ∧
      ∃ more, (pull s).2.reader.octets = s.reader.octets ++ more := by
  cases hs : s.released with
  | true =>
    rw [pull_eq_of_released hs]
    exact ⟨rfl, [], (List.append_nil _).symm⟩
  | false =>
    obtain ⟨retries, last, reader, hretries, hlog, hends⟩ := ends_of_unreleased hs
    have hoctets := Logged.octets_of_log hretries hlog
    generalize (pull s).1 = answer, (pull s).2 = s' at hends
    cases hends <;> exact ⟨rfl, _, hoctets⟩

end

/-! ## All calls -/

variable [OctetReader ρ] {s : ReaderSupply (Logged ρ)}

/-- The text of the fragments among these answers. -/
def textOf (told : List Pulled) : String :=
  String.join (told.filterMap Pulled.fragment?)

theorem textOf_concat (told : List Pulled) (answer : Pulled) :
    textOf (told ++ [answer]) = textOf told ++ answer.fragment?.getD "" := by
  rw [textOf, textOf, List.filterMap_append, String.join_append]
  cases answer <;> simp [Pulled.fragment?, List.filterMap_cons]

/-- What a caller may rely on in this state of a supply, after these answers, if the octets that are read begin
    a text. -/
structure IsFaithful (size : Nat) (told : List Pulled) (s : ReaderSupply (Logged ρ)) : Prop where
  /-- The fragments so far are the longest text of the octets read so far. -/
  text : BeginsText s.reader.octets → LongestText s.reader.octets (textOf told)
  /-- A call reads until it is not interrupted, each time at most this many octets, and answers to the
      last of its reads. -/
  call : s.released = false → BeginsText (pull s).2.reader.octets →
    ∃ retries last, (∀ answer ∈ retries, ReadAnswer.IsInterrupted answer) ∧
      (pull s).2.reader.log =
        s.reader.log ++ (retries ++ [last]).map (fun answer => (size, answer)) ∧
      Tells s.reader.octets (textOf told) last (pull s).1 (pull s).2.released
  /-- A reader that was released is not read again, and every call tells that the end was reached. -/
  released : s.released = true → ∀ j, ObjectFeed.asked pull j s = (List.replicate j .ended, s)
  /-- Nor is a reader that was closed, and to close it reads nothing. -/
  closed : s.close.reader = s.reader ∧
    ∀ j, ObjectFeed.asked pull j s.close = (List.replicate j .ended, s.close)

theorem asked_of_released (hs : s.released = true) (j : Nat) :
    ObjectFeed.asked pull j s = (List.replicate j .ended, s) := by
  induction j with
  | zero => rfl
  | succ j ih => rw [ObjectFeed.asked, pull_eq_of_released hs, ih, List.replicate_succ]

/-- The octets read are the text given and what is held, unless the reader was released. -/
def IsDecoded (told : List Pulled) (s : ReaderSupply (Logged ρ)) : Prop :=
  ∃ held, decode s.reader.octets = .upTo (textOf told) held ∧
    (s.released = false → s.carry.held = held)

/-- **What was given is what can be decoded of the octets read**, as long as these begin a text. -/
theorem isDecoded_asked (reader : ρ) (readSize k : Nat) :
    let start : ReaderSupply (Logged ρ) := { reader := { reader }, readSize }
    let s := (ObjectFeed.asked pull k start).2
    s.readSize = readSize ∧
      (BeginsText s.reader.octets → IsDecoded (ObjectFeed.asked pull k start).1 s) := by
  intro start
  induction k with
  | zero => exact ⟨rfl, fun _ => ⟨[], rfl, fun _ => rfl⟩⟩
  | succ k ih =>
    obtain ⟨hsize, hdecoded⟩ := ih
    rw [asked_succ]
    simp only
    generalize (ObjectFeed.asked pull k start).1 = told,
      (ObjectFeed.asked pull k start).2 = s at hsize hdecoded ⊢
    obtain ⟨hsame, more, hmore⟩ := pull_adds s
    refine ⟨hsame.trans hsize, fun hbegins => ?_⟩
    obtain ⟨held, hdecode, hheld⟩ := hdecoded (hmore ▸ hbegins).of_append
    cases hs : s.released with
    | true =>
      rw [pull_eq_of_released hs]
      refine ⟨held, ?_, fun hkept => absurd (hkept.symm.trans hs) Bool.false_ne_true⟩
      rw [textOf_concat]
      simpa [Pulled.fragment?] using hdecode
    | false =>
      obtain rfl := hheld hs
      obtain ⟨retries, last, reader, hretries, hlog, hends⟩ := ends_of_unreleased hs
      obtain ⟨-, -, held, hnext, hheld'⟩ :=
        hends.tells hs hdecode (Logged.octets_of_log hretries hlog) hbegins
      rw [← textOf_concat] at hnext
      exact ⟨held, hnext, hheld'⟩

/-- **A supply over a reader is a faithful view of it**, after any number of calls, whatever the reader
    answers, and however many octets it is asked for: zero counts as one. -/
theorem reader_faithful (reader : ρ) (readSize k : Nat) :
    let start : ReaderSupply (Logged ρ) := { reader := { reader }, readSize }
    IsFaithful (max readSize 1) (ObjectFeed.asked pull k start).1
      (ObjectFeed.asked pull k start).2 := by
  intro start
  obtain ⟨hsize, hdecoded⟩ := isDecoded_asked reader readSize k
  refine ⟨fun hbegins => ?_, fun hs hbegins => ?_, asked_of_released, rfl, asked_of_released rfl⟩
  · obtain ⟨held, hdecode, -⟩ := hdecoded hbegins
    exact longestText_of_upTo hdecode
  · obtain ⟨-, more, hmore⟩ := pull_adds (ObjectFeed.asked pull k start).2
    obtain ⟨held, hdecode, hheld⟩ := hdecoded (hmore ▸ hbegins).of_append
    obtain rfl := hheld hs
    obtain ⟨retries, last, reader, hretries, hlog, hends⟩ := ends_of_unreleased hs
    obtain ⟨hreader, htells, -⟩ :=
      hends.tells hs hdecode (Logged.octets_of_log hretries hlog) hbegins
    rw [hsize] at hlog
    exact ⟨retries, last, hretries, hreader ▸ hlog, htells⟩

/-- Read octet by octet, a character of two octets with an interruption and a fault between them, and then
    one that is cut off.  The fault comes once, from the call that was interrupted, and nothing is lost by
    it; the end tells the octet that is held back. -/
theorem reader_faithful_cut_off :
    let reset := Fault.reported .other "reset"
    let script : Script := { events := [.chunk [0x41, 0xC3], .fault (.reported .interrupted "signal"),
      .fault reset, .chunk [0xA9, 0xE2]] }
    let start : ReaderSupply (Logged Script) := { reader := { reader := script }, readSize := 0 }
    let told := (ObjectFeed.asked pull 5 start).1
    let s := (ObjectFeed.asked pull 5 start).2
    told = [.fragment "A", .fragment "", .failed reset, .fragment "é", .fragment ""] ∧
      LongestText s.reader.octets "Aé" ∧
      (pull s).1 = .failed (.unfinishedText 1) ∧ IsFaithful 1 told s := by
  intro reset script start told s
  have hs : IsFaithful 1 told s := reader_faithful script 0 5
  have hbegins : BeginsText s.reader.octets := by
    have hoctets : s.reader.octets = [0x41, 0xC3, 0xA9, 0xE2] := by decide +kernel
    exact hoctets ▸ ⟨"Aé€", by rw [octetsOf_eq_flatMap]; decide +kernel⟩
  have htold : textOf told = "Aé" := by decide +kernel
  exact ⟨by decide +kernel, htold ▸ hs.text hbegins, by decide +kernel, hs⟩

end ReaderSupply

end ObjectFeed
