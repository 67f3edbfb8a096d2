/-
  What a feed with a limit on the size of objects hands out.

  * `Hopper.IsBounded` says that what waits in a hopper, and what its splitter has read of the next
    object, is within the limit.  `IsBounded.move` keeps it, so it holds in every state of a feed;
  * `feedsWithin`: fragments complete the same objects as without a limit, up to the first that is
    too large before its closing brace;
  * `limit_bounds`: no feed holds a larger object, or interprets one.
-/
import ObjectFeed.Proofs.Feeds.Moves
import ObjectFeed.Proofs.Splitter.Limits

namespace ObjectFeed

open Splitter

variable {α : Type} {limit : Nat}

/-! ## Fragments -/

namespace Splitter

theorem refusal_ne_tooLarge {o : Options} (hlimit : o.sizeLimit = none) (text : List Char) :
    (run o .before text).refusal ≠ some (.tooLarge limit) := by
  intro hrefusal
  have hstands := (stands_of_run hlimit text).1
  rw [hrefusal] at hstands
  cases hstands.1

theorem failure_eq_tooLarge_iff (o : Options) (fragments : List String) :
    (({ options := o } : Splitter).feedEach fragments).failure = some (.tooLarge limit) ↔
      (run o .before (String.join fragments).toList).refusal = some (.tooLarge limit) := by
  obtain ⟨quoted, n, hfed, -⟩ := feedEach_eq_run ({ options := o } : Splitter) fragments rfl
  rw [hfed, String.toList_join]
  rcases (run o .before (fragments.flatMap String.toList)).refusal with _ | _ | limit'
  · exact ⟨nofun, nofun⟩
  · exact ⟨nofun, nofun⟩
  · constructor
    · intro h
      cases h
      rfl
    · intro h
      cases h
      rfl

/-- What becomes of fragments with a limit, and without one. -/
structure FeedsWithin (o : Options) (limit : Nat) (fragments : List String) (fed free : Fed) :
    Prop where
  /-- A completed object is within the limit, but for its closing brace. -/
  within : ∀ object ∈ fed.objects, IsWithin limit object
  /-- No other objects are completed than without a limit. -/
  objects : fed.objects <+: free.objects
  /-- The limit is reported if a beginning of the text outgrows it. -/
  failure : fed.failure = some (.tooLarge limit) ↔
    ∃ read, read <+: (String.join fragments).toList ∧ Outgrows o limit .before read
  /-- Unless it is, all objects are completed. -/
  complete : fed.failure ≠ some (.tooLarge limit) → fed.objects = free.objects
  /-- A larger object is not completed but reported. -/
  larger : ∀ object ∈ free.objects, limit + 1 < object.utf8ByteSize →
    fed.failure = some (.tooLarge limit)

/-- **Fragments complete the same objects as without a limit, until one outgrows it.** -/
theorem feedsWithin {o : Options} (hlimit : o.sizeLimit = some limit) (fragments : List String) :
    FeedsWithin o limit fragments (({ options := o } : Splitter).feedEach fragments)
      (({ options := o.unlimited } : Splitter).feedEach fragments) := by
  set fed := ({ options := o } : Splitter).feedEach fragments
  set free := ({ options := o.unlimited } : Splitter).feedEach fragments
  have hfed : fed.objects = (run o .before (String.join fragments).toList).objects :=
    objects_feedEach o fragments
  have hfree : free.objects = (run o.unlimited .before (String.join fragments).toList).objects :=
    objects_feedEach o.unlimited fragments
  have hstart : Place.before.object.utf8ByteSize ≤ limit := Nat.zero_le limit
  have hwithin : ∀ object ∈ fed.objects, IsWithin limit object := by
    rw [hfed]
    exact isWithin_of_run hlimit hstart _
  have hfailure : fed.failure = some (.tooLarge limit) ↔
      (run o .before (String.join fragments).toList).refusal = some (.tooLarge limit) :=
    failure_eq_tooLarge_iff o fragments
  rcases run_limited hlimit hstart (String.join fragments).toList with
    ⟨hsame, hsmall⟩ | ⟨read, rest, htext, houtgrows, -, hrun⟩
  · have hobjects : fed.objects = free.objects := by rw [hfed, hfree, hsame]
    have hnot : fed.failure ≠ some (.tooLarge limit) := by
      intro htooLarge
      have hrefusal := hfailure.1 htooLarge
      rw [hsame] at hrefusal
      exact refusal_ne_tooLarge rfl _ hrefusal
    refine ⟨hwithin, hobjects ▸ List.prefix_refl _, ?_, fun _ => hobjects,
      fun object hobject hlarge => ?_⟩
    · exact ⟨fun h => absurd h hnot, fun ⟨read, hread, h⟩ => absurd h (hsmall read hread)⟩
    · rw [← hobjects] at hobject
      exact absurd (hwithin object hobject).utf8ByteSize_le (Nat.not_le.2 hlarge)
  · have htooLarge : fed.failure = some (.tooLarge limit) := by
      rw [hfailure, hrun]
    refine ⟨hwithin, ?_, ⟨fun _ => ?_, fun _ => htooLarge⟩, fun hnot => absurd htooLarge hnot,
      fun _ _ _ => htooLarge⟩
    · rw [hfed, hfree, hrun, htext]
      exact objects_mono o.unlimited .before (List.prefix_append read rest)
    · exact ⟨read, htext ▸ List.prefix_append read rest, houtgrows⟩

end Splitter

namespace Hopper

/-! ## Hoppers -/

/-- What waits in a hopper, and what is read of the next object, is within the limit. -/
structure IsBounded (limit : Nat) (h : Hopper α) : Prop where
  sizeLimit : h.splitter.options.sizeLimit = some limit
  object : h.isLive = true → h.splitter.place.object.utf8ByteSize ≤ limit
  backlog : ∀ text ∈ h.backlog.toList, IsWithin limit text

variable {h h' : Hopper α}

theorem isBounded_new (interpret : Interpretation α) {settings : Settings}
    (hlimit : settings.splitter.sizeLimit = some limit) :
    (Hopper.new interpret settings).IsBounded limit where
  sizeLimit := hlimit
  object _ := Nat.zero_le limit
  backlog := nofun

theorem IsBounded.pour (hh : h.IsBounded limit) (hlive : h.isLive = true) (fragment : String) :
    (h.pour fragment).IsBounded limit := by
  have hstart := hh.object hlive
  have hbacklog : ∀ text ∈ (h.backlog.pushAll (h.splitter.feed fragment).objects).toList,
      IsWithin limit text := by
    intro text htext
    rw [Backlog.toList_pushAll] at htext
    rcases List.mem_append.1 htext with hwaits | hmore
    · exact hh.backlog text hwaits
    · exact isWithin_of_run hh.sizeLimit hstart fragment.toList text hmore
  rw [Hopper.pour]
  cases hfailure : (h.splitter.feed fragment).failure with
  | none =>
    have hread : (run h.splitter.options h.splitter.place fragment.toList).refusal = none :=
      Option.map_eq_none_iff.1 hfailure
    exact ⟨hh.sizeLimit, fun _ => object_le_of_run hh.sizeLimit hstart hread, hbacklog⟩
  | some failure => exact ⟨hh.sizeLimit, nofun, hbacklog⟩

/-- **Whatever a feed does to its hopper, what waits stays within the limit.** -/
theorem IsBounded.move (hh : h.IsBounded limit) (hmove : h.Move h') : h'.IsBounded limit := by
  cases hmove with
  | pour text hlive => exact hh.pour hlive text
  | dispense =>
    have hframe := h.dispense_frame
    refine ⟨?_, fun hlive => ?_, fun text htext => ?_⟩
    · rw [hframe.splitter]
      exact hh.sizeLimit
    · rw [hframe.splitter]
      exact hh.object (hframe.isLive.symm.trans hlive)
    · exact hh.backlog text (h.backlog_dispense.subset htext)
  | endInput hlive =>
    rw [endInput]
    cases h.splitter.truncation? with
    | none => exact ⟨hh.sizeLimit, fun _ => hh.object hlive, hh.backlog⟩
    | some failure =>
      cases h.settings.failOnTruncation with
      | false => exact ⟨hh.sizeLimit, fun _ => hh.object hlive, hh.backlog⟩
      | true => exact ⟨hh.sizeLimit, fun _ => hh.object hlive, hh.backlog⟩
  | abandon =>
    refine ⟨hh.sizeLimit, fun hlive => ?_, nofun⟩
    rw [abandon_isLive] at hlive
    cases hlive

/-- What waits in a hopper is within the limit, and how larger texts are interpreted makes no
    difference to what the hopper hands out. -/
def HoldsWithin (limit : Nat) (h : Hopper α) : Prop :=
  (∀ text ∈ h.backlog.toList, IsWithin limit text) ∧
    ∀ interpret, (∀ text, IsWithin limit text → interpret text = h.interpret text) →
      ({ h with interpret } : Hopper α).dispense.1 = h.dispense.1

theorem IsBounded.holdsWithin (hh : h.IsBounded limit) : h.HoldsWithin limit := by
  refine ⟨hh.backlog, fun interpret hsame => ?_⟩
  exact h.dispense_interpret interpret fun text htext => hsame text (hh.backlog text htext)

end Hopper

/-! ## Feeds -/

/-- **The limit bounds what is delivered, but for the closing brace.**  Fragments complete the objects
    that they complete without a limit, up to the first that is larger than the limit before its closing
    brace.  In every state of a feed what waits is within the limit in this sense, and how larger texts
    are interpreted makes no difference. -/
theorem limit_bounds {σ ρ : Type} [Supply σ] [Inflow ρ] {settings : Settings}
    (hlimit : settings.splitter.sizeLimit = some limit) (supply : σ) (inflow : ρ)
    (interpret : Interpretation α) :
    (∀ fragments : List String, FeedsWithin settings.splitter limit fragments
        (({ options := settings.splitter } : Splitter).feedEach fragments)
        (({ options := settings.splitter.unlimited } : Splitter).feedEach fragments)) ∧
      (∀ f, (PullFeed.new supply interpret settings).Reaches f → f.hopper.HoldsWithin limit) ∧
      (∀ f, (PollFeed.new inflow interpret settings).Reaches f → f.hopper.HoldsWithin limit) := by
  have hnew := Hopper.isBounded_new interpret hlimit
  refine ⟨feedsWithin hlimit, fun f hf => ?_, fun f hf => ?_⟩
  · exact (hf.moves.induction Hopper.IsBounded.move hnew).holdsWithin
  · exact (hf.moves.induction Hopper.IsBounded.move hnew).holdsWithin

/-- The limit is one octet.  An object whose second octet is its closing brace is within it, and stays
    in the feed as such; one with a second octet before that is reported. -/
theorem limit_bounds_closingBrace :
    let settings : Settings := { splitter := { sizeLimit := some 1 } }
    let fed := fun fragments => ({ options := settings.splitter } : Splitter).feedEach fragments
    let feed : PullFeed Fragments String :=
      .new (Fragments.ofList ["[\x7b", "\x7d,\x7b\x7d]"]) .verbatim settings
    (fed ["[\x7b", "\x7d]"]).objects = ["\x7b\x7d"] ∧
      (∀ object ∈ (fed ["[\x7b", "\x7d]"]).objects, IsWithin 1 object) ∧
      (fed ["[\x7b1", "\x7d]"]).failure = some (.tooLarge 1) ∧
      feed.next.2.hopper.HoldsWithin 1 ∧
      (PollFeed.ofChannel 1 .verbatim settings).poll.2.hopper.HoldsWithin 1 := by
  intro settings fed feed
  have hlimit : settings.splitter.sizeLimit = some 1 := rfl
  obtain ⟨hfed, hpull, hpoll⟩ := limit_bounds hlimit
    (Fragments.ofList ["[\x7b", "\x7d,\x7b\x7d]"]) ({ capacity := 1 } : Channel Octets) .verbatim
  have houtgrows : Outgrows settings.splitter 1 .before ['[', '{', '1'] := by decide
  refine ⟨by decide, (hfed _).within, ?_, hpull _ (.single .next), hpoll _ (.single .poll)⟩
  exact (hfed ["[\x7b1", "\x7d]"]).failure.2 ⟨_, by decide, houtgrows⟩

end ObjectFeed
