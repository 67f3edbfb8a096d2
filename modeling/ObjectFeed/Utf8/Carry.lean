/-
  Text out of octets that come in chunks.

  A chunk may end inside a code point.  The octets of the unfinished code point are held back until
  the next chunk brings the rest of it.

  * `Utf8.Carry` holds these octets;
  * `Carry.push` adds a chunk and gives the text that is now complete.  If the octets held are not
    text, it gives nothing, and they stay held, so each later push meets the same fault;
  * `Carry.flush` ends the input and lets go of what is held.
-/
import ObjectFeed.Fault
import ObjectFeed.Utf8.Octets

namespace ObjectFeed.Utf8

/-- The octets held back for the next chunk. -/
structure Carry where
  held : Octets := []
  deriving DecidableEq, Repr

namespace Carry

/-- Nothing is held. -/
def empty : Carry := {}

/-- Add a chunk, and give the text that is now complete. -/
def push (carry : Carry) (chunk : Octets) : Except Fault String × Carry :=
  match decode (carry.held ++ chunk) with
  | .upTo text held => (.ok text, ⟨held⟩)
  | .illFormed index length => (.error (.illFormedText index length), ⟨carry.held ++ chunk⟩)

/-- End the input.  What is held is an unfinished code point; nothing is held afterwards. -/
def flush (carry : Carry) : Except Fault Unit × Carry :=
  if carry.held.isEmpty then (.ok (), empty)
  else (.error (.unfinishedText carry.held.length), empty)

theorem flush_snd (carry : Carry) : carry.flush.2 = empty := by
  unfold flush; split <;> rfl

end Carry

end ObjectFeed.Utf8
