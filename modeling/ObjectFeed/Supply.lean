/-
  Where a blocking feed takes its fragments from.

  Fragments carry no structure: they are consecutive parts of the text and may cut it anywhere.

  * `Supply` is the class of states that can be asked for a fragment and closed; `Supply.remaining`
    bounds the fragments still to come, so that pulling for an object ends;
  * `Fragments` is the supply of a list, in which a pull may fail;
  * `Counted` counts the pulls and the closes of a supply.
-/
import ObjectFeed.Fault

namespace ObjectFeed

/-- The answer of a supply to a pull. -/
inductive Pulled where
  | fragment (text : String)
  | ended
  | failed (fault : Fault)
  deriving DecidableEq, Repr

/-- A supply of fragments. -/
class Supply (σ : Type) where
  /-- Ask for the next fragment. -/
  pull : σ → Pulled × σ
  /-- Let go of what the fragments come from. -/
  close : σ → σ
  /-- A bound on the fragments still to come. -/
  remaining : σ → Nat
  remaining_pull_lt : ∀ {s s' : σ} {text : String}, pull s = (.fragment text, s') →
    remaining s' < remaining s
  remaining_close_le : ∀ s : σ, remaining (close s) ≤ remaining s

/-! ## Fragments in memory -/

/-- Fragments in memory; each pull takes the first or fails with it. -/
structure Fragments where
  list : List (Except Fault String)

namespace Fragments

/-- Fragments that all arrive. -/
def ofList (fragments : List String) : Fragments := ⟨fragments.map .ok⟩

/-- Take the first fragment. -/
def pull : Fragments → Pulled × Fragments
  | ⟨.ok text :: rest⟩ => (.fragment text, ⟨rest⟩)
  | ⟨.error fault :: rest⟩ => (.failed fault, ⟨rest⟩)
  | ⟨[]⟩ => (.ended, ⟨[]⟩)

instance : Supply Fragments where
  pull := pull
  close _ := ⟨[]⟩
  remaining s := s.list.length
  remaining_pull_lt {s s' text} h := by
    rcases s with ⟨_ | ⟨_ | text', rest⟩⟩ <;> simp [pull] at h
    simp [← h.2]
  remaining_close_le s := by simp

end Fragments

/-! ## Counting -/

/-- A supply and how often it was asked and closed. -/
structure Counted (σ : Type) where
  supply : σ
  pulls : Nat := 0
  closes : Nat := 0

instance {σ : Type} [Supply σ] : Supply (Counted σ) where
  pull s :=
    let (answer, supply) := Supply.pull s.supply
    (answer, { s with supply, pulls := s.pulls + 1 })
  close s := { s with supply := Supply.close s.supply, closes := s.closes + 1 }
  remaining s := Supply.remaining s.supply
  remaining_pull_lt {s s' text} h := by
    simp only [Prod.mk.injEq] at h
    rw [← h.2]
    exact Supply.remaining_pull_lt (Prod.ext h.1 rfl)
  remaining_close_le s := Supply.remaining_close_le s.supply

end ObjectFeed
