/-
  When a feed that pulls is over, and its supply closed.

  * `PullFeed.Turn` is one turn of the loop in which a feed looks for its next item, and
    `next_goesThrough`: a call of `next` goes through turns that take fragments in, and answers what the
    last of its turns answers;
  * `PullFeed.Steps` are calls in any order, turns of them, and changes of the supply.  What every turn,
    every cancellation and every change of the supply keeps, they keep (`Steps.induction`);
  * `PullFeed.IsOrderly`: the hopper is orderly, and the supply has been closed once it is over;
  * `PullFeed.Lifecycle` is what a caller may rely on, and `pull_lifecycle`: it holds in every state
    of a feed.
-/
import ObjectFeed.Proofs.Feeds.Order
import ObjectFeed.Proofs.Feeds.Pulling

namespace ObjectFeed

open Relation (ReflTransGen)

variable {σ α : Type}

/-! ## Counted supplies -/

namespace Counted

variable [Supply σ] {s s' : Counted σ} {answer : Pulled}

theorem closes_of_pull (hpull : Supply.pull s = (answer, s')) : s'.closes = s.closes := by
  obtain ⟨-, rfl⟩ := Prod.mk.inj hpull
  rfl

end Counted

namespace PullFeed

/-! ## Order -/

/-- The hopper is orderly, and the supply has been closed if and only if the hopper is over. -/
structure IsOrderly (f : PullFeed (Counted σ) α) : Prop where
  hopper : f.hopper.IsOrderly
  closed : 0 < f.supply.closes ↔ f.hopper.isLive = false

theorem isOrderly_new (supply : σ) (interpret : Interpretation α) (settings : Settings) :
    (PullFeed.new ({ supply } : Counted σ) interpret settings).IsOrderly where
  hopper := Hopper.isOrderly_new interpret settings
  closed := ⟨nofun, nofun⟩

/-! ## Turns -/

section

variable [Supply σ] {f f' : PullFeed σ α}

/-- One turn of a feed: what it answers, unless it goes on with a fragment. -/
inductive Turn (f : PullFeed σ α) : Option (Option (Item α)) → PullFeed σ α → Prop
  /-- An item is handed out. -/
  | given {item : Item α} {h : Hopper α} :
      f.hopper.dispense = (some item, h) → Turn f (some (some item)) { f with hopper := h }
  /-- There is none, and the feed is over. -/
  | spent {h : Hopper α} :
      f.hopper.dispense = (none, h) → h.isLive = false → Turn f (some none) { f with hopper := h }
  /-- There is none, and a fragment is taken in.  The supply is closed if it cannot be split. -/
  | fragment {h : Hopper α} {text : String} {supply : σ} :
      f.hopper.dispense = (none, h) → h.isLive = true →
      Supply.pull f.supply = (.fragment text, supply) →
      Turn f none
        { supply := if (h.pour text).isLive then supply else Supply.close supply
          hopper := h.pour text }
  /-- There is none, and the supply ends. -/
  | ended {h : Hopper α} {supply : σ} :
      f.hopper.dispense = (none, h) → h.isLive = true →
      Supply.pull f.supply = (.ended, supply) →
      Turn f (some (h.endInput.1.map .error))
        { supply := Supply.close supply, hopper := h.endInput.2 }
  /-- There is none, and the supply fails. -/
  | failed {h : Hopper α} {fault : Fault} {supply : σ} :
      f.hopper.dispense = (none, h) → h.isLive = true →
      Supply.pull f.supply = (.failed fault, supply) →
      Turn f (some (some (.error (.transport fault)))) { supply, hopper := h }

/-- **A call goes through turns, and answers what the last of them answers.** -/
theorem next_goesThrough : GoesThrough Turn (next : PullFeed σ α → _) := by
  intro f
  fun_induction next f with
  | case1 f item h' hd => exact ⟨f, .refl, .given hd⟩
  | case2 f h' hd hover => exact ⟨f, .refl, .spent hd (by simpa using hover)⟩
  | case3 f h' hd hlive text supply hpull poured hpoured ih =>
    have hturn := Turn.fragment hd (Hopper.isLive_of_not hlive) hpull
    rw [if_pos hpoured] at hturn
    obtain ⟨f₀, hturns, hlast⟩ := ih
    exact ⟨f₀, .head hturn hturns, hlast⟩
  | case4 f h' hd hlive text supply hpull poured hpoured ih =>
    have hturn := Turn.fragment hd (Hopper.isLive_of_not hlive) hpull
    rw [if_neg hpoured] at hturn
    obtain ⟨f₀, hturns, hlast⟩ := ih
    exact ⟨f₀, .head hturn hturns, hlast⟩
  | case5 f h' hd hlive supply hpull failure ended hend =>
    have hturn := Turn.ended hd (Hopper.isLive_of_not hlive) hpull
    rw [hend] at hturn
    exact ⟨f, .refl, hturn⟩
  | case6 f h' hd hlive fault supply hpull =>
    exact ⟨f, .refl, .failed hd (Hopper.isLive_of_not hlive) hpull⟩

theorem Turn.isOver_of_end (hturn : f.Turn (some none) f') : f'.isOver = true := by
  generalize hanswer : (some none : Option (Option (Item α))) = answer at hturn
  cases hturn with
  | given => cases hanswer
  | spent hd hover => exact Hopper.isSpent_of_dispense hd hover
  | fragment => cases hanswer
  | ended hd =>
    obtain ⟨-, hempty, hnone⟩ := Hopper.drained_of_dispense hd
    exact Hopper.endInput_isSpent hempty hnone
  | failed => cases hanswer

theorem batchOf_induction {P : PullFeed σ α → Prop} (hnext : ∀ {f}, P f → P f.next.2) (n : Nat)
    (hf : P f) : P (batchOf n f).2 := by
  induction n generalizing f with
  | zero => exact hf
  | succ n ih =>
    have hf' := hnext hf
    rw [batchOf]
    rcases hask : f.next with ⟨_ | failure | a, f'⟩
    · rw [hask] at hf'
      exact hf'
    · rw [hask] at hf'
      exact hf'
    · rw [hask] at hf'
      exact ih hf'

end

/-! ## Steps -/

variable [Supply σ] {f f' : PullFeed (Counted σ) α}

/-- What happens to a feed at a time.  Besides the calls of its caller these are the turns of a call, so
    that what holds after any steps holds also within a call, and changes of the supply, so that also a
    supply is meant that answers anything at any time, and for ever. -/
inductive Step (f : PullFeed (Counted σ) α) : PullFeed (Counted σ) α → Prop
  | next : Step f f.next.2
  | batch : Step f f.batch.2
  | cancel : Step f f.cancel
  | turn {f' : PullFeed (Counted σ) α} {answer : Option (Option (Item α))} :
      f.Turn answer f' → Step f f'
  | supply (s : σ) : Step f { f with supply := { f.supply with supply := s } }

/-- Any number of steps. -/
def Steps : PullFeed (Counted σ) α → PullFeed (Counted σ) α → Prop :=
  ReflTransGen Step

/-- What every turn, every cancellation and every change of the supply keeps, any steps keep. -/
theorem Steps.induction {P : PullFeed (Counted σ) α → Prop}
    (hturn : ∀ {f f' answer}, P f → Turn f answer f' → P f') (hcancel : ∀ {f}, P f → P f.cancel)
    (hsupply : ∀ {f}, P f → ∀ s, P { f with supply := { f.supply with supply := s } })
    (hsteps : f.Steps f') (hf : P f) : P f' := by
  induction hsteps with
  | refl => exact hf
  | tail _ hstep ih =>
    cases hstep with
    | next => exact next_goesThrough.keeps hturn ih
    | batch => exact batchOf_induction (next_goesThrough.keeps hturn) _ ih
    | cancel => exact hcancel ih
    | turn hlast => exact hturn ih hlast
    | supply s => exact hsupply ih s

/-! ### Order -/

theorem IsOrderly.turn {answer : Option (Option (Item α))} (hf : f.IsOrderly)
    (hturn : f.Turn answer f') : f'.IsOrderly := by
  -- a live feed has not closed its supply, and an answer of the supply does not change that
  have hopen : ∀ {h : Hopper α} {item : Option (Item α)} {pulled : Pulled} {supply : Counted σ},
      f.hopper.dispense = (item, h) → h.isLive = true →
      Supply.pull f.supply = (pulled, supply) → supply.closes = 0 := by
    intro h item pulled supply hd hlive hpull
    rw [Counted.closes_of_pull hpull]
    refine Nat.eq_zero_of_not_pos fun hclosed => ?_
    have hover := hf.closed.1 hclosed
    rw [← Hopper.isLive_of_dispense hd, hlive] at hover
    cases hover
  cases hturn with
  | given hd =>
    refine ⟨hf.hopper.dispense hd, ?_⟩
    rw [Hopper.isLive_of_dispense hd]
    exact hf.closed
  | spent hd hover =>
    refine ⟨hf.hopper.dispense hd, ?_⟩
    rw [Hopper.isLive_of_dispense hd]
    exact hf.closed
  | @fragment h text supply hd hlive hpull =>
    refine ⟨(hf.hopper.dispense hd).pour hlive text, ?_⟩
    have hcloses := hopen hd hlive hpull
    cases hpoured : (h.pour text).isLive with
    | true => simp [hcloses]
    | false => simp [Supply.close]
  | @ended h supply hd hlive hpull =>
    obtain ⟨-, hempty, hnone⟩ := Hopper.drained_of_dispense hd
    refine ⟨Hopper.isOrderly_of_isSpent (Hopper.endInput_isSpent hempty hnone), ?_⟩
    simp [Supply.close, h.endInput_spec.2.1]
  | @failed h fault supply hd hlive hpull =>
    refine ⟨hf.hopper.dispense hd, ?_⟩
    simp [hlive, hopen hd hlive hpull]

theorem IsOrderly.cancel (f : PullFeed (Counted σ) α) : f.cancel.IsOrderly where
  hopper := Hopper.isOrderly_of_isSpent f.hopper.abandon_isSpent
  closed := by simp [PullFeed.cancel, Supply.close, Hopper.abandon_isLive]

/-- **Every state of a feed is orderly.** -/
theorem IsOrderly.steps (hf : f.IsOrderly) (hsteps : f.Steps f') : f'.IsOrderly :=
  hsteps.induction IsOrderly.turn (fun _ => .cancel _) (fun hg _ => ⟨hg.hopper, hg.closed⟩) hf

/-! ## Feeds that are over -/

theorem Turn.of_over {answer : Option (Option (Item α))} (hturn : f.Turn answer f')
    (hover : f.hopper.isLive = false) :
    ∃ item h, f.hopper.dispense = (item, h) ∧ answer = some item ∧ f' = { f with hopper := h } := by
  have hdead : ∀ {h : Hopper α} {item : Option (Item α)}, f.hopper.dispense = (item, h) →
      h.isLive ≠ true := by
    intro h item hd hlive
    rw [Hopper.isLive_of_dispense hd, hover] at hlive
    cases hlive
  cases hturn with
  | given hd => exact ⟨_, _, hd, rfl, rfl⟩
  | spent hd => exact ⟨_, _, hd, rfl, rfl⟩
  | fragment hd hlive => exact absurd hlive (hdead hd)
  | ended hd hlive => exact absurd hlive (hdead hd)
  | failed hd hlive => exact absurd hlive (hdead hd)

/-- **A feed that takes no more fragments keeps its status, and pulls no more.** -/
theorem Steps.settled (hsteps : f.Steps f') (hover : f.hopper.isLive = false) :
    f'.hopper.status = f.hopper.status ∧ f'.supply.pulls = f.supply.pulls := by
  refine hsteps.induction
    (P := fun f' => f'.hopper.status = f.hopper.status ∧ f'.supply.pulls = f.supply.pulls)
    ?_ ?_ ?_ ⟨rfl, rfl⟩
  · rintro g g' answer ⟨hstatus, hpulls⟩ hturn
    obtain ⟨item, h, hd, -, rfl⟩ := hturn.of_over ((Hopper.isLive_congr hstatus).trans hover)
    exact ⟨(Hopper.status_of_dispense hd).trans hstatus, hpulls⟩
  · rintro g ⟨hstatus, hpulls⟩
    refine ⟨?_, hpulls⟩
    have hmove : g.hopper.Move g.cancel.hopper := .abandon
    exact (hmove.status_eq ((Hopper.isLive_congr hstatus).trans hover)).trans hstatus
  · intro g hg s
    exact hg

theorem Turn.isOver {answer : Option (Option (Item α))} (hturn : f.Turn answer f')
    (hover : f.isOver = true) : f'.isOver = true := by
  obtain ⟨item, h, hd, -, rfl⟩ := hturn.of_over (Hopper.isSpent_iff.1 hover).1
  exact (Hopper.dispense_of_isSpent hover hd).2

/-- **A feed that is over stays so.** -/
theorem Steps.isOver (hsteps : f.Steps f') (hover : f.isOver = true) : f'.isOver = true :=
  hsteps.induction (P := fun f' => f'.isOver = true) (fun hg hturn => hturn.isOver hg)
    (fun {g} _ => g.hopper.abandon_isSpent) (fun hg _ => hg) hover

theorem next_of_isOver (hover : f.isOver = true) : f.next.1 = none := by
  obtain ⟨hdead, hempty, hnone⟩ := Hopper.isSpent_iff.1 hover
  have hdone : f.IsDone := ⟨hdead, by simp [Hopper.queued, hempty, hnone]⟩
  exact hdone.next

/-- A turn that answers with a failure leaves nothing if and only if the failure is final. -/
theorem Turn.isOver_of_failure {failure : Failure} (hf : f.IsOrderly)
    (hturn : f.Turn (some (some (.error failure))) f') : f'.isOver = failure.isFinal := by
  generalize hanswer : (some (some (.error failure)) : Option (Option (Item α))) = answer at hturn
  cases hturn with
  | given hd =>
    cases hanswer
    exact hf.hopper.isSpent_of_failure hd
  | spent => cases hanswer
  | fragment => cases hanswer
  | @ended h supply hd =>
    obtain ⟨-, hempty, hnone⟩ := Hopper.drained_of_dispense hd
    cases hend : h.endInput.1 with
    | none => rw [hend] at hanswer; cases hanswer
    | some failure' =>
      rw [hend] at hanswer
      cases hanswer
      rw [h.endInput_spec.1 failure hend]
      exact Hopper.endInput_isSpent hempty hnone
  | failed hd hlive =>
    cases hanswer
    exact Hopper.isSpent_eq_false_of_live hlive

/-! ## The life of a feed -/

/-- What holds of a feed whatever happened to it before. -/
structure Lifecycle (f : PullFeed (Counted σ) α) : Prop where
  /-- Once it is not live, a feed keeps its status and pulls no more. -/
  settled : f.hopper.status ≠ .live → ∀ f', f.Steps f' →
    f'.hopper.status = f.hopper.status ∧ f'.supply.pulls = f.supply.pulls
  /-- Only a broken feed holds a failure back. -/
  withheld : f.hopper.withheld ≠ none → f.hopper.status = .broken
  /-- Nothing waits in a feed that has ended or was cancelled. -/
  empty : f.hopper.status = .ended ∨ f.hopper.status = .cancelled → f.waiting = 0
  /-- The supply has been closed if and only if the feed is not live. -/
  closed : 0 < f.supply.closes ↔ f.hopper.status ≠ .live
  /-- A feed that gives its end is over. -/
  ended : f.next.1 = none → f.next.2.isOver = true
  /-- A feed that is over stays so and gives nothing but its end. -/
  stays : f.isOver = true → ∀ f', f.Steps f' → f'.isOver = true ∧ f'.next.1 = none
  /-- A feed that was cancelled, once or more often, is over, and nothing waits in it. -/
  cancelled : ∀ f', f.cancel.Steps f' → f'.isOver = true ∧ f'.waiting = 0
  /-- After a failure the feed is over if and only if the failure is final. -/
  failed : ∀ failure, f.next.1 = some (.error failure) → f.next.2.isOver = failure.isFinal

/-- **The life of a feed that pulls**: it is live until it ends, breaks or is cancelled, closes its supply
    then, and hands out what it still has. -/
theorem pull_lifecycle (supply : σ) (interpret : Interpretation α) (settings : Settings)
    (hsteps : (PullFeed.new ({ supply } : Counted σ) interpret settings).Steps f) :
    f.Lifecycle := by
  have hf := (isOrderly_new _ _ _).steps hsteps
  have hwithheld : f.hopper.withheld ≠ none → f.hopper.status = .broken := by
    intro hsome
    obtain ⟨failure, hfailure⟩ := Option.ne_none_iff_exists'.1 hsome
    exact (hf.hopper.withheld failure hfailure).1
  refine ⟨?_, hwithheld, ?_, ?_, ?_, ?_, ?_, ?_⟩
  · intro hstatus f' hsteps'
    exact hsteps'.settled (Hopper.isLive_eq_false_iff.2 hstatus)
  · intro hstatus
    have hnone : f.hopper.withheld = none := by
      by_contra hsome
      rw [hwithheld hsome] at hstatus
      rcases hstatus with hstatus | hstatus <;> cases hstatus
    have hdead : f.hopper.isLive = false := by
      rw [Hopper.isLive_eq_false_iff]
      rcases hstatus with hstatus | hstatus <;> rw [hstatus] <;> exact nofun
    rw [waiting, Hopper.waiting, Backlog.size_eq_length, hf.hopper.backlog hdead hnone]
    rfl
  · rw [← Hopper.isLive_eq_false_iff]
    exact hf.closed
  · intro hnext
    obtain ⟨f₀, -, hlast⟩ := next_goesThrough f
    rw [hnext] at hlast
    exact hlast.isOver_of_end
  · intro hover f' hsteps'
    have hover' := hsteps'.isOver hover
    exact ⟨hover', next_of_isOver hover'⟩
  · intro f' hsteps'
    have hover' := hsteps'.isOver f.hopper.abandon_isSpent
    obtain ⟨-, hempty, -⟩ := Hopper.isSpent_iff.1 hover'
    refine ⟨hover', ?_⟩
    rw [waiting, Hopper.waiting, Backlog.size_eq_length, hempty]
    rfl
  · intro failure hnext
    obtain ⟨f₀, hf₀, hlast⟩ := next_goesThrough.exists_last IsOrderly.turn hf
    rw [hnext] at hlast
    exact hlast.isOver_of_failure hf₀

/-- A feed whose first fragment has an object and a brace too much: it gives the object, then the
    failure, which was held back until then, and then its end.  Its supply, which has more to give, is
    pulled once and closed once. -/
theorem pull_lifecycle_heldBack :
    let feed : PullFeed (Counted Fragments) String :=
      .new { supply := .ofList ["[\x7b\x7d\x7d", "]"] } .verbatim
    let given := feed.next.2
    let failed := given.next.2
    feed.next.1 = some (.ok "\x7b\x7d") ∧ given.hopper.status = .broken ∧ given.Lifecycle ∧
      given.next.1 = some (.error (.malformed "[\x7b\x7d\x7d")) ∧ failed.Lifecycle ∧
      failed.isOver = true ∧ failed.next.1 = none ∧ failed.supply.pulls = 1 ∧
      failed.supply.closes = 1 := by
  intro feed given failed
  have hgiven : given.Lifecycle := pull_lifecycle _ _ _ (.single .next)
  have hbroken : given.hopper.status = .broken := by decide +kernel
  have hfailure : given.next.1 = some (.error (.malformed "[\x7b\x7d\x7d")) := by decide +kernel
  have hpulls := (hgiven.settled (hbroken ▸ nofun) failed (.single .next)).2
  have hover : failed.isOver = true := hgiven.failed _ hfailure
  have hfailed : failed.Lifecycle := pull_lifecycle _ _ _ (.tail (.single .next) .next)
  refine ⟨by decide +kernel, hbroken, hgiven, hfailure, hfailed, hover,
    (hfailed.stays hover failed .refl).2, ?_, by decide +kernel⟩
  exact hpulls.trans (by decide +kernel)

end PullFeed

end ObjectFeed
