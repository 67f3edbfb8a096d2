/-
  When a feed that is polled is over, and its inflow released.

  * `Watched` is an inflow with what it answered;
  * `PollFeed.Turn` is one turn of the loop in which a feed answers a poll, and `poll_goesThrough`: a poll
    goes through turns that take chunks in, and is answered by the last of its turns;
  * `PollFeed.Steps` are polls, batches and cancellations in any order, turns of them, and changes of the
    inflow.  What every turn, every cancellation and every change of the inflow keeps, they keep
    (`Steps.induction`);
  * `PollFeed.IsOrderly`: the hopper is orderly, and the inflow is released if and only if it is over;
  * `PollFeed.Lifecycle` is what a caller may rely on, and `poll_lifecycle`: it holds in every state of a
    feed;
  * `isOver_iff_of_failed_poll`: the failures after which a feed is over are those that are final, and
    that the octets end inside a code point.
-/
import ObjectFeed.Proofs.Feeds.Order
import ObjectFeed.Proofs.Feeds.Polling
import ObjectFeed.Script

namespace ObjectFeed

open Relation (ReflTransGen)

variable {σ α : Type}

/-! ## Watched inflows -/

/-- An inflow and what it has answered, oldest first. -/
structure Watched (σ : Type) where
  inflow : σ
  answers : List Polled := []

instance [Inflow σ] : Inflow (Watched σ) where
  poll s :=
    let (answer, inflow) := Inflow.poll s.inflow
    (answer, { inflow, answers := s.answers ++ [answer] })
  remaining s := Inflow.remaining s.inflow
  remaining_poll_lt {s s' octets} h := by
    simp only [Prod.mk.injEq] at h
    rw [← h.2]
    exact Inflow.remaining_poll_lt (Prod.ext h.1 rfl)

/-- The chunk that an answer brings, if it brings one. -/
def Polled.chunk? : Polled → Option Octets
  | .chunk octets => some octets
  | _ => none

/-- The chunks that it has given. -/
def Watched.chunks (s : Watched σ) : List Octets :=
  s.answers.filterMap Polled.chunk?

theorem Watched.answers_of_poll [Inflow σ] {s s' : Watched σ} {answer : Polled}
    (hpoll : Inflow.poll s = (answer, s')) : s'.answers = s.answers ++ [answer] := by
  obtain ⟨rfl, rfl⟩ := Prod.mk.inj hpoll
  rfl

theorem Watched.chunks_of_poll [Inflow σ] {s s' : Watched σ} {answer : Polled}
    (hpoll : Inflow.poll s = (answer, s')) : s'.chunks = s.chunks ++ answer.chunk?.toList := by
  rw [chunks, chunks, answers_of_poll hpoll, List.filterMap_append]
  cases hchunk : answer.chunk? <;> simp [hchunk]

namespace PollFeed

/-! ## Order -/

section

variable {f : PollFeed σ α} {h : Hopper α}

/-- The feed has nothing to hand out, and wants a chunk. -/
structure Wants (f : PollFeed σ α) (h : Hopper α) : Prop where
  drained : f.hopper.dispense = (none, h)
  live : h.isLive = true
  unreleased : f.released = false

theorem wants_of_not (hd : f.hopper.dispense = (none, h))
    (hlive : ¬ (!h.isLive || f.released) = true) : f.Wants h := by
  refine ⟨hd, isLive_of_not_over hlive, ?_⟩
  cases hreleased : f.released with
  | true => exact absurd (by rw [hreleased, Bool.or_true]) hlive
  | false => rfl

/-- The hopper is orderly, and the inflow is released if and only if the hopper is over. -/
structure IsOrderly (f : PollFeed σ α) : Prop where
  hopper : f.hopper.IsOrderly
  released : f.released = !f.hopper.isLive

theorem isOrderly_new (inflow : σ) (interpret : Interpretation α) (settings : Settings) :
    (PollFeed.new inflow interpret settings).IsOrderly where
  hopper := Hopper.isOrderly_new interpret settings
  released := rfl

theorem IsOrderly.cancel (f : PollFeed σ α) : f.cancel.IsOrderly where
  hopper := Hopper.isOrderly_of_isSpent f.hopper.abandon_isSpent
  released := by simp [PollFeed.cancel, Hopper.abandon_isLive]

theorem IsOrderly.unreleased (hf : f.IsOrderly) (hd : f.hopper.dispense = (none, h))
    (hlive : h.isLive = true) : f.released = false := by
  rw [hf.released, ← Hopper.isLive_of_dispense hd, hlive]
  rfl

/-- The end of the inflow ends the feed.  An unfinished code point is reported, else an array that is
    still open. -/
theorem endInflow_spec (f : PollFeed σ α) :
    f.endInflow.1 = (match f.carry.unfinished? with
      | some fault => some (.error (.transport fault))
      | none => f.hopper.endInput.1.map .error) ∧
      f.endInflow.2 =
        { f with hopper := f.hopper.endInput.2, carry := .empty, released := true } := by
  simp only [endInflow, f.carry.flush_eq]
  cases f.carry.unfinished? <;> simp

end

/-! ## Turns -/

variable [Inflow σ] {f f' : PollFeed σ α}

/-- One turn of a feed: what it answers to a poll, unless it goes on with a chunk. -/
inductive Turn (f : PollFeed σ α) : Option (Readiness (Option (Item α))) → PollFeed σ α → Prop
  /-- An item is handed out. -/
  | given {item : Item α} {h : Hopper α} :
      f.hopper.dispense = (some item, h) →
      Turn f (some (.ready (some item))) { f with hopper := h }
  /-- There is none, and the feed is over or has released its inflow. -/
  | spent {h : Hopper α} :
      f.hopper.dispense = (none, h) → (!h.isLive || f.released) = true →
      Turn f (some (.ready none)) { f with hopper := h }
  | notReady {h : Hopper α} {inflow : σ} :
      f.Wants h → Inflow.poll f.inflow = (.notReady, inflow) →
      Turn f (some .notReady) { f with inflow, hopper := h }
  | failed {h : Hopper α} {report : String} {inflow : σ} :
      f.Wants h → Inflow.poll f.inflow = (.failed report, inflow) →
      Turn f (some (.ready (some (.error (.transport (.reported .other report))))))
        { f with inflow, hopper := h }
  | ended {h : Hopper α} {inflow : σ} :
      f.Wants h → Inflow.poll f.inflow = (.ended, inflow) →
      Turn f (some (.ready (endInflow { f with inflow, hopper := h }).1))
        (endInflow { f with inflow, hopper := h }).2
  /-- A chunk comes, and what is held is not text. -/
  | illFormed {h : Hopper α} {octets : Octets} {inflow : σ} {fault : Fault} {carry : Utf8.Carry} :
      f.Wants h → Inflow.poll f.inflow = (.chunk octets, inflow) →
      f.carry.push octets = (.error fault, carry) →
      Turn f (some (.ready (some (.error (.transport fault))))) { f with inflow, hopper := h, carry }
  /-- A chunk comes, and its text is taken in.  The inflow is released if it cannot be split. -/
  | chunk {h : Hopper α} {octets : Octets} {inflow : σ} {text : String} {carry : Utf8.Carry} :
      f.Wants h → Inflow.poll f.inflow = (.chunk octets, inflow) →
      f.carry.push octets = (.ok text, carry) →
      Turn f none
        { f with inflow, hopper := h.pour text, carry, released := !(h.pour text).isLive }

/-- **A poll goes through turns, and is answered by the last of them.** -/
theorem poll_goesThrough : GoesThrough Turn (poll : PollFeed σ α → _) := by
  intro f
  fun_induction poll f with
  | case1 f item h' hd => exact ⟨f, .refl, .given hd⟩
  | case2 f h' hd hover => exact ⟨f, .refl, .spent hd hover⟩
  | case3 f h' hd hlive inflow hpoll => exact ⟨f, .refl, .notReady (wants_of_not hd hlive) hpoll⟩
  | case4 f h' hd hlive report inflow hpoll =>
    exact ⟨f, .refl, .failed (wants_of_not hd hlive) hpoll⟩
  | case5 f h' hd hlive inflow hpoll item f' hend =>
    have hturn := Turn.ended (wants_of_not hd hlive) hpoll
    rw [hend] at hturn
    exact ⟨f, .refl, hturn⟩
  | case6 f h' hd hlive octets inflow hpoll fault carry hpush =>
    exact ⟨f, .refl, .illFormed (wants_of_not hd hlive) hpoll hpush⟩
  | case7 f h' hd hlive octets inflow hpoll text carry hpush poured ih =>
    obtain ⟨f₀, hturns, hlast⟩ := ih
    exact ⟨f₀, .head (.chunk (wants_of_not hd hlive) hpoll hpush) hturns, hlast⟩

theorem nextWithin_induction {P : PollFeed σ α → Prop} (hpoll : ∀ {f}, P f → P f.poll.2)
    (patience : Nat) (hf : P f) : P (nextWithin patience f).2.2 := by
  induction patience generalizing f with
  | zero => exact hf
  | succ patience ih =>
    have hf' := hpoll hf
    rw [nextWithin]
    rcases hask : f.poll with ⟨_ | answer, f'⟩
    · rw [hask] at hf'
      exact ih hf'
    · rw [hask] at hf'
      exact hf'

theorem batchOf_induction {P : PollFeed σ α → Prop} (hpoll : ∀ {f}, P f → P f.poll.2)
    (n patience : Nat) (hf : P f) : P (batchOf n patience f).2 := by
  induction n generalizing f patience with
  | zero => exact hf
  | succ n ih =>
    have hf' := nextWithin_induction hpoll patience hf
    rw [batchOf]
    rcases hask : nextWithin patience f with ⟨_ | _ | failure | a, left, f'⟩
    · rw [hask] at hf'
      exact hf'
    · rw [hask] at hf'
      exact hf'
    · rw [hask] at hf'
      exact hf'
    · rw [hask] at hf'
      have hrest := ih left hf'
      simp only
      rcases hbatch : batchOf n left f' with ⟨_ | values, f''⟩
      · rw [hbatch] at hrest
        exact hrest
      · rw [hbatch] at hrest
        exact hrest

theorem IsOrderly.turn {answer : Option (Readiness (Option (Item α)))} (hf : f.IsOrderly)
    (hturn : f.Turn answer f') : f'.IsOrderly := by
  -- handing out, and answers of the inflow, leave the feed as orderly as it was
  have hsame : ∀ {h : Hopper α} {item : Option (Item α)}, f.hopper.dispense = (item, h) →
      ∀ inflow carry, ({ f with inflow, hopper := h, carry } : PollFeed σ α).IsOrderly := by
    intro h item hd inflow carry
    refine ⟨hf.hopper.dispense hd, ?_⟩
    rw [Hopper.isLive_of_dispense hd]
    exact hf.released
  cases hturn with
  | given hd => exact hsame hd _ _
  | spent hd => exact hsame hd _ _
  | notReady hwants => exact hsame hwants.drained _ _
  | failed hwants => exact hsame hwants.drained _ _
  | illFormed hwants => exact hsame hwants.drained _ _
  | @ended h inflow hwants =>
    obtain ⟨-, hempty, hnone⟩ := Hopper.drained_of_dispense hwants.drained
    rw [(endInflow_spec _).2]
    refine ⟨Hopper.isOrderly_of_isSpent (Hopper.endInput_isSpent hempty hnone), ?_⟩
    simp [h.endInput_spec.2.1]
  | chunk hwants => exact ⟨(hf.hopper.dispense hwants.drained).pour hwants.live _, rfl⟩

/-! ## What a turn answers -/

theorem Turn.of_over {answer : Option (Readiness (Option (Item α)))} (hturn : f.Turn answer f')
    (hover : f.hopper.isLive = false) :
    ∃ item h, f.hopper.dispense = (item, h) ∧ answer = some (.ready item) ∧
      f' = { f with hopper := h } := by
  have hdead : ∀ h, ¬ f.Wants h := by
    intro h hwants
    have hlive := hwants.live
    rw [Hopper.isLive_of_dispense hwants.drained, hover] at hlive
    cases hlive
  cases hturn with
  | given hd => exact ⟨_, _, hd, rfl, rfl⟩
  | spent hd => exact ⟨_, _, hd, rfl, rfl⟩
  | notReady hwants => exact absurd hwants (hdead _)
  | failed hwants => exact absurd hwants (hdead _)
  | ended hwants => exact absurd hwants (hdead _)
  | illFormed hwants => exact absurd hwants (hdead _)
  | chunk hwants => exact absurd hwants (hdead _)

theorem Turn.isOver {answer : Option (Readiness (Option (Item α)))} (hturn : f.Turn answer f')
    (hover : f.isOver = true) : f'.isOver = true := by
  obtain ⟨item, h, hd, -, rfl⟩ := hturn.of_over (Hopper.isSpent_iff.1 hover).1
  exact (Hopper.dispense_of_isSpent hover hd).2

theorem Turn.isOver_of_end (hf : f.IsOrderly) (hturn : f.Turn (some (.ready none)) f') :
    f'.isOver = true := by
  generalize hanswer : (some (.ready none) : Option (Readiness (Option (Item α)))) = answer at hturn
  cases hturn with
  | given => cases hanswer
  | @spent h hd hover =>
    refine Hopper.isSpent_of_dispense hd ?_
    cases hlive : h.isLive with
    | false => rfl
    | true =>
      rw [hf.unreleased hd hlive, hlive] at hover
      cases hover
  | notReady => cases hanswer
  | failed => cases hanswer
  | ended hwants =>
    obtain ⟨-, hempty, hnone⟩ := Hopper.drained_of_dispense hwants.drained
    rw [(endInflow_spec _).2]
    exact Hopper.endInput_isSpent hempty hnone
  | illFormed => cases hanswer
  | chunk => cases hanswer

/-- Octets are not pushed because they are not text, never because they are unfinished. -/
theorem exists_of_push_error {carry carry' : Utf8.Carry} {octets : Octets} {fault : Fault}
    (hpush : carry.push octets = (.error fault, carry')) :
    ∃ index length, fault = .illFormedText index length := by
  rw [Utf8.Carry.push] at hpush
  cases hdecode : Utf8.decode (carry.held ++ octets) with
  | upTo text held =>
    rw [hdecode] at hpush
    cases hpush
  | illFormed index length =>
    rw [hdecode] at hpush
    cases hpush
    exact ⟨index, length, rfl⟩

/-- A turn that answers with a failure leaves nothing if and only if the failure is final, or is that
    the octets end inside a code point. -/
theorem Turn.isOver_iff_of_failure (hf : f.IsOrderly) {failure : Failure}
    (hturn : f.Turn (some (.ready (some (.error failure)))) f') :
    f'.isOver = true ↔
      failure.isFinal = true ∨ ∃ held, failure = .transport (.unfinishedText held) := by
  generalize hanswer :
    (some (.ready (some (.error failure))) : Option (Readiness (Option (Item α)))) = answer at hturn
  cases hturn with
  | @given item h hd =>
    cases hanswer
    change h.isSpent = true ↔ _
    rw [hf.hopper.isSpent_of_failure hd]
    constructor
    · exact .inl
    · rintro (hfinal | ⟨held, hfault⟩)
      · exact hfinal
      · exact absurd hfault (hf.hopper.ne_transport hd _)
  | spent => cases hanswer
  | notReady => cases hanswer
  | @failed h report inflow hwants =>
    cases hanswer
    change h.isSpent = true ↔ _
    simp [Hopper.isSpent_eq_false_of_live hwants.live, Failure.isFinal]
  | @ended h inflow hwants =>
    obtain ⟨-, hempty, hnone⟩ := Hopper.drained_of_dispense hwants.drained
    obtain ⟨hitem, hended⟩ := endInflow_spec { f with inflow, hopper := h }
    have hover : (endInflow { f with inflow, hopper := h }).2.isOver = true := by
      rw [hended]
      exact Hopper.endInput_isSpent hempty hnone
    refine ⟨fun _ => ?_, fun _ => hover⟩
    have hgiven : some (.error failure) = (endInflow { f with inflow, hopper := h }).1 :=
      Readiness.ready.inj (Option.some.inj hanswer)
    rw [hitem, Utf8.Carry.unfinished?] at hgiven
    cases hheld : f.carry.held.isEmpty with
    | true =>
      simp only [hheld, if_true] at hgiven
      obtain ⟨failure', hend, heq⟩ := Option.map_eq_some_iff.1 hgiven.symm
      obtain rfl : failure' = failure := Except.error.inj heq
      exact .inl (h.endInput_spec.1 failure' hend)
    | false =>
      simp only [hheld, Bool.false_eq_true, if_false] at hgiven
      exact .inr ⟨_, Except.error.inj (Option.some.inj hgiven)⟩
  | @illFormed h octets inflow fault carry hwants _ hpush =>
    cases hanswer
    change h.isSpent = true ↔ _
    obtain ⟨index, length, rfl⟩ := exists_of_push_error hpush
    simp [Hopper.isSpent_eq_false_of_live hwants.live, Failure.isFinal]
  | chunk => cases hanswer

/-! ## Steps -/

section

variable {f f' : PollFeed (Watched σ) α}

/-- What happens to a feed at a time.  Besides the calls of its caller these are the turns of a call, so
    that what holds after any steps holds also within a call, and changes of the inflow, so that also an
    inflow is meant that answers anything at any time, and for ever. -/
inductive Step (f : PollFeed (Watched σ) α) : PollFeed (Watched σ) α → Prop
  | poll : Step f f.poll.2
  /-- A batch, which is given up when `patience` polls were not ready. -/
  | batch (patience : Nat) : Step f (f.batchWithin patience).2
  | cancel : Step f f.cancel
  | turn {f' : PollFeed (Watched σ) α} {answer : Option (Readiness (Option (Item α)))} :
      f.Turn answer f' → Step f f'
  | inflow (s : σ) : Step f { f with inflow := { f.inflow with inflow := s } }

/-- Any number of steps. -/
def Steps : PollFeed (Watched σ) α → PollFeed (Watched σ) α → Prop :=
  ReflTransGen Step

theorem Steps.induction {P : PollFeed (Watched σ) α → Prop}
    (hturn : ∀ {f f' answer}, P f → Turn f answer f' → P f') (hcancel : ∀ {f}, P f → P f.cancel)
    (hinflow : ∀ {f}, P f → ∀ s, P { f with inflow := { f.inflow with inflow := s } })
    (hsteps : f.Steps f') (hf : P f) : P f' := by
  induction hsteps with
  | refl => exact hf
  | tail _ hstep ih =>
    cases hstep with
    | poll => exact poll_goesThrough.keeps hturn ih
    | batch patience => exact batchOf_induction (poll_goesThrough.keeps hturn) _ patience ih
    | cancel => exact hcancel ih
    | turn hlast => exact hturn ih hlast
    | inflow s => exact hinflow ih s

/-- **Every state of a feed is orderly.** -/
theorem IsOrderly.steps (hf : f.IsOrderly) (hsteps : f.Steps f') : f'.IsOrderly :=
  hsteps.induction IsOrderly.turn (fun _ => .cancel _) (fun hg _ => ⟨hg.hopper, hg.released⟩) hf

/-- A turn hands out what its hopper has, or polls the inflow, once and while the feed is live.  After
    the end of the inflow the feed is not. -/
theorem Turn.answers {answer : Option (Readiness (Option (Item α)))} (hturn : f.Turn answer f') :
    (∃ item h, f.hopper.dispense = (item, h) ∧ answer = some (.ready item) ∧
      f' = { f with hopper := h }) ∨
    ∃ polled, f.hopper.isLive = true ∧ f'.inflow.answers = f.inflow.answers ++ [polled] ∧
      (polled = .ended → f'.hopper.isLive = false) := by
  have hlive : ∀ {h : Hopper α}, f.Wants h → f.hopper.isLive = true := by
    intro h hwants
    rw [← Hopper.isLive_of_dispense hwants.drained]
    exact hwants.live
  cases hturn with
  | given hd => exact .inl ⟨_, _, hd, rfl, rfl⟩
  | spent hd => exact .inl ⟨_, _, hd, rfl, rfl⟩
  | notReady hwants hpoll => exact .inr ⟨_, hlive hwants, Watched.answers_of_poll hpoll, nofun⟩
  | failed hwants hpoll => exact .inr ⟨_, hlive hwants, Watched.answers_of_poll hpoll, nofun⟩
  | @ended h inflow hwants hpoll =>
    rw [(endInflow_spec _).2]
    exact .inr ⟨_, hlive hwants, Watched.answers_of_poll hpoll, fun _ => h.endInput_spec.2.1⟩
  | illFormed hwants hpoll => exact .inr ⟨_, hlive hwants, Watched.answers_of_poll hpoll, nofun⟩
  | chunk hwants hpoll => exact .inr ⟨_, hlive hwants, Watched.answers_of_poll hpoll, nofun⟩

/-! ### Feeds that are over -/

/-- **A feed that takes no more chunks keeps its status, and polls no more.** -/
theorem Steps.settled (hsteps : f.Steps f') (hover : f.hopper.isLive = false) :
    f'.hopper.status = f.hopper.status ∧ f'.inflow.answers = f.inflow.answers := by
  refine hsteps.induction
    (P := fun f' => f'.hopper.status = f.hopper.status ∧ f'.inflow.answers = f.inflow.answers)
    ?_ ?_ ?_ ⟨rfl, rfl⟩
  · rintro g g' answer ⟨hstatus, hanswers⟩ hturn
    obtain ⟨item, h, hd, -, rfl⟩ := hturn.of_over ((Hopper.isLive_congr hstatus).trans hover)
    exact ⟨(Hopper.status_of_dispense hd).trans hstatus, hanswers⟩
  · rintro g ⟨hstatus, hanswers⟩
    refine ⟨?_, hanswers⟩
    have hmove : g.hopper.Move g.cancel.hopper := .abandon
    exact (hmove.status_eq ((Hopper.isLive_congr hstatus).trans hover)).trans hstatus
  · intro g hg s
    exact hg

/-- **A feed that is over stays so.** -/
theorem Steps.isOver (hsteps : f.Steps f') (hover : f.isOver = true) : f'.isOver = true :=
  hsteps.induction (P := fun f' => f'.isOver = true) (fun hg hturn => hturn.isOver hg)
    (fun {g} _ => g.hopper.abandon_isSpent) (fun hg _ => hg) hover

/-- The inflow has answered with its end at most once, after all its other answers, and the feed is not
    live then. -/
structure EndsOnce (f : PollFeed (Watched σ) α) : Prop where
  live : f.hopper.isLive = true → Polled.ended ∉ f.inflow.answers
  last : Polled.ended ∉ f.inflow.answers.dropLast

theorem EndsOnce.turn {answer : Option (Readiness (Option (Item α)))} (hf : f.EndsOnce)
    (hturn : f.Turn answer f') : f'.EndsOnce := by
  obtain ⟨item, h, hd, -, rfl⟩ | ⟨polled, hlive, hanswers, hended⟩ := hturn.answers
  · refine ⟨fun hlive => ?_, hf.last⟩
    rw [Hopper.isLive_of_dispense hd] at hlive
    exact hf.live hlive
  · refine ⟨fun hlive' hmem => ?_, ?_⟩
    · rw [hanswers, List.mem_append, List.mem_singleton] at hmem
      rcases hmem with hmem | hpolled
      · exact hf.live hlive hmem
      · rw [hended hpolled.symm] at hlive'
        cases hlive'
    · rw [hanswers, List.dropLast_concat]
      exact hf.live hlive

theorem EndsOnce.steps (hf : f.EndsOnce) (hsteps : f.Steps f') : f'.EndsOnce := by
  refine hsteps.induction EndsOnce.turn ?_ (fun hg _ => ⟨hg.live, hg.last⟩) hf
  intro g hg
  refine ⟨fun hlive => ?_, hg.last⟩
  have hover : g.cancel.hopper.isLive = false := g.hopper.abandon_isLive
  rw [hover] at hlive
  cases hlive

theorem Turn.length_answers {answer : Option (Readiness (Option (Item α)))}
    (hturn : f.Turn answer f') : f.inflow.answers.length ≤ f'.inflow.answers.length := by
  obtain ⟨item, h, -, -, rfl⟩ | ⟨polled, -, hpolled, -⟩ := hturn.answers
  · exact Nat.le_refl _
  · simp [hpolled]

theorem length_answers_of_turns (hturns : ReflTransGen (fun f f' => Turn f none f') f f') :
    f.inflow.answers.length ≤ f'.inflow.answers.length := by
  induction hturns with
  | refl => exact Nat.le_refl _
  | tail _ hturn ih => exact Nat.le_trans ih hturn.length_answers

theorem turn_of_answers_eq (hanswers : f.poll.2.inflow.answers = f.inflow.answers) :
    f.Turn (some f.poll.1) f.poll.2 := by
  obtain ⟨f₀, hturns, hlast⟩ := poll_goesThrough f
  rcases hturns.cases_head with rfl | ⟨f₁, hfirst, hturns⟩
  · exact hlast
  · -- a turn that goes on has polled the inflow
    have hafter := Nat.le_trans (length_answers_of_turns hturns) hlast.length_answers
    obtain ⟨item, h, -, hnone, -⟩ | ⟨polled, -, hpolled, -⟩ := hfirst.answers
    · cases hnone
    · rw [hanswers, hpolled, List.length_append, List.length_singleton] at hafter
      omega

/-- **A feed is over if and only if a poll gives the end without polling the inflow.** -/
theorem IsOrderly.isOver_iff (hf : f.IsOrderly) :
    f.isOver = true ↔
      f.poll.1 = .ready none ∧ f.poll.2.inflow.answers = f.inflow.answers := by
  constructor
  · intro hover
    obtain ⟨hdead, hempty, hnone⟩ := Hopper.isSpent_iff.1 hover
    have hdone : f.IsDone := ⟨by simp [hdead], by simp [Hopper.queued, hempty, hnone]⟩
    have hpoll : f.Steps f.poll.2 := .single .poll
    exact ⟨hdone.poll, (hpoll.settled hdead).2⟩
  · rintro ⟨hend, hanswers⟩
    have hturn := turn_of_answers_eq hanswers
    rw [hend] at hturn
    have hover := hturn.isOver_of_end hf
    obtain ⟨item, h, hd, hitem, hleft⟩ | ⟨polled, -, hpolled, -⟩ := hturn.answers
    · obtain rfl : none = item := Readiness.ready.inj (Option.some.inj hitem)
      rw [hleft] at hover
      obtain ⟨hdead, -, -⟩ := Hopper.isSpent_iff.1 hover
      obtain ⟨hnone, -, -⟩ := Hopper.drained_of_dispense hd
      exact hf.hopper.isSpent_iff.2 ⟨(Hopper.isLive_of_dispense hd).symm.trans hdead, hnone⟩
    · rw [hanswers] at hpolled
      simp at hpolled

/-! ## The life of a feed -/

/-- What holds of a feed whatever happened to it before. -/
structure Lifecycle (f : PollFeed (Watched σ) α) : Prop where
  /-- The inflow is released if and only if the feed is not live. -/
  released : f.released = true ↔ f.hopper.status ≠ .live
  /-- No poll finds the inflow released where it wants a chunk. -/
  unreleased : ∀ h, f.hopper.dispense = (none, h) → h.isLive = true → f.released = false
  /-- Only a broken feed holds a failure back. -/
  withheld : f.hopper.withheld ≠ none → f.hopper.status = .broken
  /-- Once it is not live, a feed keeps its status and polls no more, whatever it still hands out. -/
  settled : f.hopper.status ≠ .live → ∀ f', f.Steps f' →
    f'.hopper.status = f.hopper.status ∧ f'.inflow.answers = f.inflow.answers
  /-- Once its inflow ended, a feed is not live. -/
  ended : Polled.ended ∈ f.inflow.answers → f.hopper.status ≠ .live
  /-- The end of the inflow is the last of its answers. -/
  last : Polled.ended ∉ f.inflow.answers.dropLast
  /-- A feed is over if and only if it gives its end next, without polling the inflow. -/
  isOver_iff : f.isOver = true ↔
    f.poll.1 = .ready none ∧ f.poll.2.inflow.answers = f.inflow.answers
  /-- A feed that gave its end is over and stays so. -/
  stays : f.poll.1 = .ready none → ∀ f', f.poll.2.Steps f' → f'.isOver = true
  /-- A feed that was cancelled is not live, and is over and stays so. -/
  cancelled : f.cancel.hopper.status ≠ .live ∧ ∀ f', f.cancel.Steps f' → f'.isOver = true

/-- **The life of a feed that is polled**: it has its inflow while it is live, polls it then only, and
    once it gave its end or was cancelled it is over for good. -/
theorem poll_lifecycle (inflow : σ) (interpret : Interpretation α) (settings : Settings)
    (hsteps : (PollFeed.new ({ inflow } : Watched σ) interpret settings).Steps f) :
    f.Lifecycle := by
  have hf := (isOrderly_new _ _ _).steps hsteps
  have hends : f.EndsOnce := EndsOnce.steps ⟨fun _ => List.not_mem_nil, List.not_mem_nil⟩ hsteps
  refine ⟨?_, ?_, ?_, ?_, ?_, hends.last, hf.isOver_iff, ?_, ?_, ?_⟩
  · rw [hf.released, ← Hopper.isLive_eq_false_iff, Bool.not_eq_true']
  · intro h hd hlive
    exact hf.unreleased hd hlive
  · intro hsome
    obtain ⟨failure, hfailure⟩ := Option.ne_none_iff_exists'.1 hsome
    exact (hf.hopper.withheld failure hfailure).1
  · intro hstatus f' hsteps'
    exact hsteps'.settled (Hopper.isLive_eq_false_iff.2 hstatus)
  · intro hended hstatus
    exact hends.live (Hopper.isLive_iff.2 hstatus) hended
  · intro hend f' hsteps'
    obtain ⟨f₀, hf₀, hlast⟩ := poll_goesThrough.exists_last IsOrderly.turn hf
    rw [hend] at hlast
    exact hsteps'.isOver (hlast.isOver_of_end hf₀)
  · exact Hopper.isLive_eq_false_iff.1 f.hopper.abandon_isLive
  · intro f' hsteps'
    exact hsteps'.isOver f.hopper.abandon_isSpent

/-- A feed whose first chunk has an object and a brace too much: it gives the object, then the failure,
    which was held back until then, and then its end.  Its inflow, which has more to give, is released
    with the object and polled no more. -/
theorem poll_lifecycle_heldBack :
    let script : Script := { events := [.notReady, .chunk (octetsOf "[\x7b\x7d\x7d"), .notReady] }
    let feed : PollFeed (Watched Script) String := .new { inflow := script } .verbatim
    let waited := feed.poll.2
    let given := waited.poll.2
    let failed := given.poll.2
    feed.poll.1 = .notReady ∧ waited.poll.1 = .ready (some (.ok "\x7b\x7d")) ∧ given.Lifecycle ∧
      given.released = true ∧ given.isOver = false ∧
      given.poll.1 = .ready (some (.error (.malformed "[\x7b\x7d\x7d"))) ∧ failed.Lifecycle ∧
      failed.isOver = true ∧ failed.poll.1 = .ready none ∧
      failed.inflow.answers = [.notReady, .chunk (octetsOf "[\x7b\x7d\x7d")] := by
  intro script feed waited given failed
  have hwaited : feed.Steps waited := .single .poll
  have hsteps : feed.Steps given := hwaited.tail .poll
  have hgiven : given.Lifecycle := poll_lifecycle _ _ _ hsteps
  have hfailed : failed.Lifecycle := poll_lifecycle _ _ _ (hsteps.tail .poll)
  have hbroken : given.hopper.status ≠ .live := by decide +kernel
  have hover : failed.isOver = true := by decide +kernel
  refine ⟨by decide +kernel, by decide +kernel, hgiven, hgiven.released.2 hbroken,
    by decide +kernel, by decide +kernel, hfailed, hover, (hfailed.isOver_iff.1 hover).1, ?_⟩
  rw [(hgiven.settled hbroken failed (.single .poll)).2]
  decide +kernel

/-! ## Failures -/

/-- **After a failure a feed is over if and only if the failure is final, or is that the octets end
    inside a code point**: then the inflow has ended. -/
theorem isOver_iff_of_failed_poll (inflow : σ) (interpret : Interpretation α) (settings : Settings)
    (hsteps : (PollFeed.new ({ inflow } : Watched σ) interpret settings).Steps f)
    {failure : Failure} (hpoll : f.poll.1 = .ready (some (.error failure))) :
    f.poll.2.isOver = true ↔
      failure.isFinal = true ∨ ∃ held, failure = .transport (.unfinishedText held) := by
  have hf := (isOrderly_new _ _ _).steps hsteps
  obtain ⟨f₀, hf₀, hlast⟩ := poll_goesThrough.exists_last IsOrderly.turn hf
  rw [hpoll] at hlast
  exact hlast.isOver_iff_of_failure hf₀

/-- The octets of an open array and the first one of a code point: that they end there is not final, but
    the feed is over. -/
theorem isOver_iff_of_failed_poll_unfinished :
    let script : Script := { events := [.chunk (octetsOf "["), .chunk [0xC3]] }
    let feed : PollFeed (Watched Script) String := .new { inflow := script } .verbatim
    let failure : Failure := .transport (.unfinishedText 1)
    feed.poll.1 = .ready (some (.error failure)) ∧ failure.isFinal = false ∧
      feed.poll.2.isOver = true ∧
      (feed.poll.2.isOver = true ↔
        failure.isFinal = true ∨ ∃ held, failure = .transport (.unfinishedText held)) := by
  intro script feed failure
  have hpoll : feed.poll.1 = .ready (some (.error failure)) := by decide +kernel
  have hiff := isOver_iff_of_failed_poll script .verbatim {} (f := feed) .refl hpoll
  exact ⟨hpoll, rfl, hiff.2 (.inr ⟨1, rfl⟩), hiff⟩

end

end PollFeed

end ObjectFeed
