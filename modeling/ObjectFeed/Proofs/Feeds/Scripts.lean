/-
  What a script without faults brings.

  * `Script.octets` are the octets of the chunks of a script;
  * `brings_inflow`, `brings_read`, `brings_pollRead`: as an inflow, as a blocking reader and as a
    polled reader, asked for any number of octets at a time, a script brings them all.
-/
import ObjectFeed.Proofs.Feeds.Polling
import ObjectFeed.Proofs.Feeds.Pulling
import ObjectFeed.Script

namespace ObjectFeed.Script

/-- The octets that come with an event. -/
def Event.octets : Event → Octets
  | chunk octets => octets
  | fault _ | notReady => []

/-- Something arrives, or nothing is ready yet.  A reader ends at a chunk without octets. -/
def Event.isCalm : Event → Bool
  | chunk octets => !octets.isEmpty
  | fault _ => false
  | notReady => true

/-- The octets of the chunks. -/
def octets (events : List Event) : Octets :=
  events.flatMap Event.octets

variable {n : Nat} {events rest : List Event} {chunk : Octets}

theorem brings_inflow (hcalm : ∀ event ∈ events, ∀ fault, event ≠ .fault fault) (asked : Nat) :
    Inflow.Brings { events, asked : Script } (octets events) := by
  induction events generalizing asked with
  | nil => exact .ended rfl
  | cons event rest ih =>
    have hrest := ih (fun event h => hcalm event (List.mem_cons_of_mem _ h)) (asked + 1)
    cases event with
    | chunk chunk => exact .chunk rfl hrest
    | fault fault => exact absurd rfl (hcalm _ List.mem_cons_self fault)
    | notReady => exact .notReady rfl hrest

/-! ## Readers -/

theorem octets_cut (n : Nat) (chunk : Octets) (rest : List Event) :
    (cut n chunk rest).1 ++ octets (cut n chunk rest).2 = octets (.chunk chunk :: rest) := by
  unfold cut
  split
  · rfl
  · next hleft =>
    rw [octets, List.flatMap_cons, ← List.append_assoc, Event.octets, List.take_append_drop]
    rfl

/-- A read of at least one octet takes some of a chunk, and leaves no empty one. -/
theorem isCalm_cut (hn : 0 < n) (hchunk : chunk ≠ [])
    (hrest : ∀ event ∈ rest, event.isCalm = true) :
    (cut n chunk rest).1 ≠ [] ∧ ∀ event ∈ (cut n chunk rest).2, event.isCalm = true := by
  unfold cut
  split
  · exact ⟨hchunk, hrest⟩
  · next hleft =>
    refine ⟨?_, ?_⟩
    · intro hnil
      rcases List.take_eq_nil_iff.1 hnil with hzero | hempty
      · omega
      · exact hchunk hempty
    · intro event hevent
      rcases List.mem_cons.1 hevent with rfl | hevent
      · simpa [Event.isCalm] using hleft
      · exact hrest event hevent

/-- What holds at the end of a script, and holds of a script if it holds once it is read from, holds
    of scripts without faults. -/
theorem read_induction {P : List Event → Prop} (hn : 0 < n) (nil : P [])
    (notReady : ∀ rest, P rest → P (.notReady :: rest))
    (chunk : ∀ chunk rest, (cut n chunk rest).1 ≠ [] → P (cut n chunk rest).2 →
      P (.chunk chunk :: rest))
    (hcalm : ∀ event ∈ events, event.isCalm = true) : P events := by
  -- a long chunk is read in parts, so it is the weight of the events that falls, not their number
  induction hw : weightOf events using Nat.strongRecOn generalizing events with
  | _ w ih =>
    subst hw
    cases events with
    | nil => exact nil
    | cons event rest =>
      have hrest : ∀ event ∈ rest, event.isCalm = true :=
        fun event h => hcalm event (List.mem_cons_of_mem _ h)
      cases event with
      | chunk octets =>
        have hoctets : octets ≠ [] := by
          simpa [Event.isCalm] using hcalm _ List.mem_cons_self
        obtain ⟨htaken, hleft⟩ := isCalm_cut hn hoctets hrest
        exact chunk octets rest htaken (ih _ (weight_cut_lt hn octets rest) hleft rfl)
      | fault fault => exact absurd (hcalm _ List.mem_cons_self) Bool.false_ne_true
      | notReady =>
        have hlt : weightOf rest < weightOf (.notReady :: rest) := by
          simp only [weightOf, Event.weight]
          omega
        exact notReady rest (ih _ hlt hrest rfl)

theorem brings_read (hn : 0 < n) (hcalm : ∀ event ∈ events, event.isCalm = true) (asked : Nat) :
    OctetReader.Brings n { events, asked : Script } (octets events) := by
  refine read_induction
    (P := fun events => ∀ asked, OctetReader.Brings n { events, asked : Script } (octets events))
    hn ?_ ?_ ?_ hcalm asked
  · intro asked
    exact .ended rfl
  · intro rest hrest asked
    change OctetReader.Brings n _ (octets rest)
    refine OctetReader.Brings.congr ?_ (hrest asked)
    rfl
  · intro chunk rest htaken hrest asked
    rw [← octets_cut n chunk rest]
    exact .octets rfl htaken (hrest (asked + 1))

theorem brings_pollRead (hn : 0 < n) (hcalm : ∀ event ∈ events, event.isCalm = true)
    (asked : Nat) : PolledReader.Brings n { events, asked : Script } (octets events) := by
  refine read_induction
    (P := fun events => ∀ asked, PolledReader.Brings n { events, asked : Script } (octets events))
    hn ?_ ?_ ?_ hcalm asked
  · intro asked
    exact .ended rfl
  · intro rest hrest asked
    change PolledReader.Brings n _ (octets rest)
    exact .notReady rfl (hrest (asked + 1))
  · intro chunk rest htaken hrest asked
    rw [← octets_cut n chunk rest]
    exact .octets rfl htaken (hrest (asked + 1))

end ObjectFeed.Script
