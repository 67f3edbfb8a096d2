/-
  Chunks out of a polled reader of octets.

  * `PolledReader` is the class of readers that may not be ready;
  * `ReaderInflow` is the inflow over such a reader: a chunk is what one read brings.  After the
    first fault the reader is not read again, and the next poll ends the inflow.
-/
import ObjectFeed.Fault
import ObjectFeed.Inflow

namespace ObjectFeed

/-- The answer of a polled reader. -/
inductive PolledRead where
  | notReady
  /-- Some octets; none at the end of the input. -/
  | octets (octets : Octets)
  | failed (fault : Fault)
  deriving DecidableEq, Repr

/-- A reader of octets that is polled. -/
class PolledReader (ρ : Type) where
  /-- Ask for at most this many octets. -/
  pollRead : Nat → ρ → PolledRead × ρ
  /-- A bound on the reads still to come that bring octets. -/
  remaining : ρ → Nat
  remaining_octets_lt : ∀ {n : Nat} {r r' : ρ} {octets : Octets}, 0 < n →
    pollRead n r = (.octets octets, r') → octets ≠ [] → remaining r' < remaining r

/-- The inflow over a polled reader.  Room for a whole read is asked for before the reader is: the size is
    taken to be one that can be allocated. -/
structure ReaderInflow (ρ : Type) where
  reader : ρ
  /-- The number of octets asked for at a time; zero counts as one. -/
  readSize : Nat
  /-- A read has failed. -/
  stopped : Bool := false

namespace ReaderInflow

variable {ρ : Type} [PolledReader ρ]

/-- Read once. -/
def poll (s : ReaderInflow ρ) : Polled × ReaderInflow ρ :=
  if s.stopped then (.ended, s)
  else
    match PolledReader.pollRead (max s.readSize 1) s.reader with
    | (.notReady, reader) => (.notReady, { s with reader })
    | (.octets [], reader) => (.ended, { s with reader })
    | (.octets (first :: more), reader) => (.chunk (first :: more), { s with reader })
    | (.failed fault, reader) => (.failed fault.message, { s with reader, stopped := true })

instance : Inflow (ReaderInflow ρ) where
  poll := poll
  remaining s := PolledReader.remaining s.reader
  remaining_poll_lt {s s' octets} h := by
    unfold poll at h
    split at h
    · simp at h
    · split at h <;> simp at h
      rename_i first more reader hr
      rw [← h.2]
      exact PolledReader.remaining_octets_lt (by omega) hr (by simp)

end ReaderInflow

end ObjectFeed
