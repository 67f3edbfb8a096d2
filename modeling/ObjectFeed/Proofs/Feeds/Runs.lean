/-
  What feeds give when they are run to their end.

  * `Yields`: asked again and again, a feed gives these items and then its end.  Answers that are not
    ready do not show;
  * `Drains`: it gives these items, and then nothing but its end.  `Yields.drains`: that is so if it
    yields them and, once it gave its end, gives it again;
  * `HandsOut`: a feed hands out what its hopper dispenses.  It yields what is ahead of the hopper, if
    it does so from where nothing is queued (`HandsOut.yields_of_drained`);
  * `GoesThrough`: a feed is asked once and goes through turns before it answers.  It keeps what every turn
    keeps.
-/
import Mathlib.Logic.Function.Iterate
import Mathlib.Logic.Relation
import ObjectFeed.PollFeed
import ObjectFeed.Proofs.Feeds.Arrivals

namespace ObjectFeed

open Relation (ReflTransGen)

/-- Asked until its end, a feed in this state gives these items.  Only finitely many answers before
    the end are not ready. -/
inductive Yields {S I : Type} (ask : S → Readiness (Option I) × S) : S → List I → Prop where
  | ended {s s' : S} : ask s = (.ready none, s') → Yields ask s []
  | item {s s' : S} {i : I} {is : List I} :
      ask s = (.ready (some i), s') → Yields ask s' is → Yields ask s (i :: is)
  | notReady {s s' : S} {is : List I} :
      ask s = (.notReady, s') → Yields ask s' is → Yields ask s is

namespace Yields

variable {S I : Type} {ask : S → Readiness (Option I) × S} {s s' : S} {is js : List I}

theorem congr (h : ask s = ask s') (hs : Yields ask s' is) : Yields ask s is := by
  cases hs with
  | ended hask => exact .ended (h.trans hask)
  | item hask hrest => exact .item (h.trans hask) hrest
  | notReady hask hrest => exact .notReady (h.trans hask) hrest

theorem unique (h : Yields ask s is) (h' : Yields ask s js) : is = js := by
  induction h generalizing js with
  | ended hask =>
    cases h' with
    | ended => rfl
    | item hask' _ => rw [hask] at hask'; cases hask'
    | notReady hask' _ => rw [hask] at hask'; cases hask'
  | item hask _ ih =>
    cases h' with
    | ended hask' => rw [hask] at hask'; cases hask'
    | item hask' hrest => rw [hask] at hask'; cases hask'; rw [ih hrest]
    | notReady hask' _ => rw [hask] at hask'; cases hask'
  | notReady hask _ ih =>
    cases h' with
    | ended hask' => rw [hask] at hask'; cases hask'
    | item hask' _ => rw [hask] at hask'; cases hask'
    | notReady hask' hrest => rw [hask] at hask'; cases hask'; exact ih hrest

theorem exists_rest {i : I} (h : Yields ask s is) (hask : ask s = (.ready (some i), s')) :
    ∃ rest, is = i :: rest ∧ Yields ask s' rest := by
  cases h with
  | ended hask' => rw [hask] at hask'; cases hask'
  | item hask' hrest =>
    rw [hask] at hask'
    cases hask'
    exact ⟨_, rfl, hrest⟩
  | notReady hask' _ => rw [hask] at hask'; cases hask'

theorem last {item : Option I} (hask : ask s = (.ready item, s')) (hrest : Yields ask s' []) :
    Yields ask s item.toList := by
  cases item with
  | none => exact .ended hask
  | some item => exact .item hask hrest

end Yields

/-- However often it is asked, a feed in this state gives its end. -/
def IsSilent {S I : Type} (ask : S → Readiness (Option I) × S) (s : S) : Prop :=
  ∀ n, (ask ((fun s => (ask s).2)^[n] s)).1 = .ready none

/-- Asked again and again, a feed gives these items, and then nothing but its end.  Only finitely many
    answers before the end are not ready. -/
inductive Drains {S I : Type} (ask : S → Readiness (Option I) × S) : S → List I → Prop where
  | silent {s : S} : IsSilent ask s → Drains ask s []
  | item {s s' : S} {i : I} {is : List I} :
      ask s = (.ready (some i), s') → Drains ask s' is → Drains ask s (i :: is)
  | notReady {s s' : S} {is : List I} :
      ask s = (.notReady, s') → Drains ask s' is → Drains ask s is

section

variable {S I : Type} {ask : S → Readiness (Option I) × S}
  (hlast : ∀ s, (ask s).1 = .ready none → (ask (ask s).2).1 = .ready none)
include hlast

theorem isSilent_of_ended {s : S} (hs : (ask s).1 = .ready none) : IsSilent ask s := by
  intro n
  induction n with
  | zero => exact hs
  | succ n ih =>
    rw [Function.iterate_succ_apply']
    exact hlast _ ih

/-- **Such a feed drains what it yields.** -/
theorem Yields.drains {s : S} {is : List I} (h : Yields ask s is) : Drains ask s is := by
  induction h with
  | ended hask => exact .silent (isSilent_of_ended hlast (congrArg Prod.fst hask))
  | item hask _ ih => exact .item hask ih
  | notReady hask _ ih => exact .notReady hask ih

end

/-- With this hopper in it, a feed hands out what the hopper dispenses, and ends when that is over. -/
structure HandsOut {S α : Type} (ask : S → Readiness (Option (Item α)) × S)
    (feed : Hopper α → S) : Prop where
  dispensed : ∀ {h h' : Hopper α} {item : Item α}, h.dispense = (some item, h') →
    ask (feed h) = (.ready (some item), feed h')
  spent : ∀ {h h' : Hopper α}, h.dispense = (none, h') → h'.isLive = false →
    ask (feed h) = (.ready none, feed h')

namespace HandsOut

variable {S α : Type} {ask : S → Readiness (Option (Item α)) × S} {feed : Hopper α → S}
  {ending : Splitter → List (Item α)} {arrivals : List Arrival} {h : Hopper α}

/-- **What is queued comes out first.**  A feed yields what is ahead of its hopper, if it does so once
    nothing is queued. -/
theorem yields_of_dispensed (hf : HandsOut ask feed) (h : Hopper α)
    (hnone : ∀ {h₀ h' : Hopper α}, h₀.dispense = (none, h') → h.Frame h' → h'.queued = [] →
      Yields ask (feed h₀) (h'.ahead ending arrivals)) :
    Yields ask (feed h) (h.ahead ending arrivals) := by
  induction hq : h.queued generalizing h with
  | nil =>
    obtain ⟨h', hd, hframe⟩ := Hopper.dispense_of_queued_nil hq
    obtain ⟨-, hqueued⟩ := Hopper.queued_of_dispense_none hd
    rw [hframe.ahead ending arrivals [] (by rw [hq, hqueued]; rfl)]
    exact hnone hd hframe hqueued
  | cons item items ih =>
    obtain ⟨h', hd, hframe, hqueued⟩ := Hopper.dispense_of_queued_cons hq
    rw [hframe.ahead ending arrivals [item] (by rw [hq, hqueued]; rfl)]
    exact .item (hf.dispensed hd)
      (ih h' (fun hd' hframe' => hnone hd' (hframe.trans hframe')) hqueued)

/-- A feed that takes no more fragments yields what is queued, whatever would arrive. -/
theorem yields_of_not_live (hf : HandsOut ask feed) (hlive : h.isLive = false)
    (ending : Splitter → List (Item α)) (arrivals : List Arrival) :
    Yields ask (feed h) (h.ahead ending arrivals) := by
  refine hf.yields_of_dispensed h ?_
  intro h₀ h' hd hframe hqueued
  have hover : h'.isLive = false := hframe.isLive.trans hlive
  rw [Hopper.ahead_of_not_live _ _ hover, hqueued]
  exact .ended (hf.spent hd hover)

theorem yields_nil (hf : HandsOut ask feed) (hlive : h.isLive = false) (hqueued : h.queued = []) :
    Yields ask (feed h) [] := by
  have hyields := hf.yields_of_not_live hlive (fun _ => []) []
  rw [Hopper.ahead_of_not_live _ _ hlive, hqueued] at hyields
  exact hyields

/-- A feed yields what is ahead of its hopper, if it does so where it wants more fragments. -/
theorem yields_of_drained (hf : HandsOut ask feed) (h : Hopper α)
    (hdrained : ∀ {h₀ h' : Hopper α}, h₀.dispense = (none, h') → h.Frame h' → h'.isLive = true →
      h'.queued = [] → Yields ask (feed h₀) (h'.ahead ending arrivals)) :
    Yields ask (feed h) (h.ahead ending arrivals) := by
  cases hlive : h.isLive with
  | false => exact hf.yields_of_not_live hlive ending arrivals
  | true =>
    refine hf.yields_of_dispensed h ?_
    intro h₀ h' hd hframe hqueued
    exact hdrained hd hframe (hframe.isLive.trans hlive) hqueued

end HandsOut

/-! ## First answers -/

/-- The item that an answer gives, if it gives one. -/
def Readiness.item? {I : Type} : Readiness (Option I) → Option I
  | .ready item => item
  | .notReady => none

/-- The first `n` answers of a feed, and the state that they leave it in. -/
def asked {S B : Type} (ask : S → B × S) : Nat → S → List B × S
  | 0, s => ([], s)
  | n + 1, s => ((ask s).1 :: (asked ask n (ask s).2).1, (asked ask n (ask s).2).2)

section

variable {S B : Type} (ask : S → B × S)

theorem asked_add (n m : Nat) (s : S) :
    asked ask (n + m) s =
      ((asked ask n s).1 ++ (asked ask m (asked ask n s).2).1, (asked ask m (asked ask n s).2).2) := by
  induction n generalizing s with
  | zero => rw [Nat.zero_add]; rfl
  | succ n ih => rw [Nat.succ_add, asked, ih]; rfl

theorem asked_succ (n : Nat) (s : S) :
    asked ask (n + 1) s =
      ((asked ask n s).1 ++ [(ask (asked ask n s).2).1], (ask (asked ask n s).2).2) :=
  asked_add ask n 1 s

theorem length_asked (n : Nat) (s : S) : (asked ask n s).1.length = n := by
  induction n generalizing s with
  | zero => rfl
  | succ n ih => rw [asked, List.length_cons, ih]

end

/-! ## Turns -/

/-- Asked once, a feed goes through turns that answer nothing, and then answers what a last turn does. -/
def GoesThrough {S B : Type} (Turn : S → Option B → S → Prop) (ask : S → B × S) : Prop :=
  ∀ s, ∃ s', ReflTransGen (fun s s' => Turn s none s') s s' ∧ Turn s' (some (ask s).1) (ask s).2

namespace GoesThrough

variable {S B : Type} {Turn : S → Option B → S → Prop} {ask : S → B × S} {P : S → Prop} {s : S}

/-- What every turn keeps that answers nothing holds before the last turn. -/
theorem exists_last (h : GoesThrough Turn ask)
    (hturn : ∀ {s s'}, P s → Turn s none s' → P s') (hs : P s) :
    ∃ s', P s' ∧ Turn s' (some (ask s).1) (ask s).2 := by
  obtain ⟨s', hturns, hlast⟩ := h s
  refine ⟨s', ?_, hlast⟩
  clear hlast
  induction hturns with
  | refl => exact hs
  | tail _ hnext ih => exact hturn ih hnext

/-- **What every turn keeps, being asked keeps.** -/
theorem keeps (h : GoesThrough Turn ask)
    (hturn : ∀ {s s' answer}, P s → Turn s answer s' → P s') (hs : P s) : P (ask s).2 := by
  obtain ⟨s', hs', hlast⟩ := h.exists_last (fun hs hnext => hturn hs hnext) hs
  exact hturn hs' hlast

end GoesThrough

end ObjectFeed
