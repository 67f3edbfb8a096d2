/-
  Fragments out of a reader of octets.

  * `OctetReader` is the class of blocking readers: a read gives some octets, none at the end of the
    input, or a fault;
  * `ReaderSupply` is the supply over a reader.  Each pull reads once, asks again when the read was
    interrupted, and never cuts a code point.  At the end of the input, or when it is closed, the
    reader is released and not read again.
-/
import ObjectFeed.Supply
import ObjectFeed.Utf8.Carry

namespace ObjectFeed

/-- The answer of a reader. -/
inductive ReadAnswer where
  /-- Some octets; none at the end of the input. -/
  | octets (octets : Octets)
  | failed (fault : Fault)
  deriving DecidableEq, Repr

/-- A blocking reader of octets. -/
class OctetReader (ρ : Type) where
  /-- Ask for at most this many octets. -/
  read : Nat → ρ → ReadAnswer × ρ
  /-- A bound on the reads still to come that bring octets or are interrupted. -/
  remaining : ρ → Nat
  remaining_octets_lt : ∀ {n : Nat} {r r' : ρ} {octets : Octets}, 0 < n →
    read n r = (.octets octets, r') → octets ≠ [] → remaining r' < remaining r
  remaining_interrupted_lt : ∀ {n : Nat} {r r' : ρ} {fault : Fault}, 0 < n →
    read n r = (.failed fault, r') → fault.kind = .interrupted → remaining r' < remaining r

/-- Read, and ask again while the read is interrupted. -/
def OctetReader.readThrough {ρ : Type} [OctetReader ρ] (n : { n : Nat // 0 < n }) (r : ρ) :
    ReadAnswer × ρ :=
  match _h : OctetReader.read n.val r with
  | (.octets octets, r') => (.octets octets, r')
  | (.failed fault, r') =>
    if _hk : fault.kind = .interrupted then readThrough n r' else (.failed fault, r')
termination_by OctetReader.remaining r
decreasing_by exact OctetReader.remaining_interrupted_lt n.property _h _hk

/-- Interrupted reads are spent, so what a read brings lessens what remains. -/
theorem OctetReader.remaining_readThrough_lt {ρ : Type} [OctetReader ρ] {n : { n : Nat // 0 < n }}
    {r r' : ρ} {octets : Octets} (h : readThrough n r = (.octets octets, r'))
    (hne : octets ≠ []) : remaining r' < remaining r := by
  fun_induction readThrough n r with
  | case1 r os r'' hr =>
    simp only [Prod.mk.injEq, ReadAnswer.octets.injEq] at h
    rw [← h.2]
    exact remaining_octets_lt n.property hr (h.1 ▸ hne)
  | case2 r fault r'' hr hk ih =>
    exact Nat.lt_trans (ih h) (remaining_interrupted_lt n.property hr hk)
  | case3 r fault r'' hr hk => simp at h

/-- The supply over a reader.  Room for a whole read is set aside when the supply is made, and of a read only
    the octets that it brought are looked at: the size is taken to be one that can be allocated, and the
    room itself is left out. -/
structure ReaderSupply (ρ : Type) where
  reader : ρ
  /-- The number of octets asked for at a time; zero counts as one. -/
  readSize : Nat
  carry : Utf8.Carry := .empty
  /-- The reader is not read any more. -/
  released : Bool := false

namespace ReaderSupply

variable {ρ : Type} [OctetReader ρ]

/-- The number of octets asked for. -/
def asked (s : ReaderSupply ρ) : { n : Nat // 0 < n } :=
  ⟨max s.readSize 1, by omega⟩

/-- Read once, and give the text that is now complete. -/
def pull (s : ReaderSupply ρ) : Pulled × ReaderSupply ρ :=
  if s.released then (.ended, s)
  else
    match OctetReader.readThrough s.asked s.reader with
    | (.failed fault, reader) => (.failed fault, { s with reader })
    | (.octets [], reader) =>
      let (checked, carry) := s.carry.flush
      let answer := match checked with
        | .ok () => .ended
        | .error fault => .failed fault
      (answer, { s with reader, carry, released := true })
    | (.octets (first :: more), reader) =>
      let (text, carry) := s.carry.push (first :: more)
      let answer := match text with
        | .ok text => .fragment text
        | .error fault => .failed fault
      (answer, { s with reader, carry })

/-- Release the reader. -/
def close (s : ReaderSupply ρ) : ReaderSupply ρ := { s with released := true }

/-- A bound on the fragments still to come. -/
def remaining (s : ReaderSupply ρ) : Nat :=
  if s.released then 0 else OctetReader.remaining s.reader

theorem remaining_pull_lt {s s' : ReaderSupply ρ} {text : String}
    (h : s.pull = (.fragment text, s')) : s'.remaining < s.remaining := by
  unfold pull at h
  split at h
  · simp at h
  · rename_i hs
    split at h
    · simp at h
    · rcases hf : s.carry.flush with ⟨_ | _, carry⟩ <;> simp [hf] at h
    · rename_i first more reader hr
      simp only [Prod.mk.injEq] at h
      have hlt := OctetReader.remaining_readThrough_lt hr (by simp)
      simp [remaining, ← h.2, hs, hlt]

instance : Supply (ReaderSupply ρ) where
  pull := pull
  close := close
  remaining := remaining
  remaining_pull_lt := remaining_pull_lt
  remaining_close_le s := by simp [remaining, close]

end ReaderSupply

end ObjectFeed
