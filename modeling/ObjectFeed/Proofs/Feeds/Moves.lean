/-
  What feeds do to their hopper.

  * `Hopper.Move` is one of the four things that a feed does to its hopper, and `Hopper.Moves` any
    number of them;
  * `PullFeed.Use` and `PollFeed.Use` are what a caller does to a feed, and `Reaches` any number of such
    uses.  `PullFeed.Reaches.moves` and `PollFeed.Reaches.moves`: to the hopper they are moves, so that
    what every move keeps holds in every state of a feed;
  * `dispense_interpret`: a hopper interprets nothing but what waits in it.
-/
import Mathlib.Data.List.Basic
import Mathlib.Logic.Relation
import ObjectFeed.PollFeed
import ObjectFeed.Proofs.Feeds.Items
import ObjectFeed.PullFeed

namespace ObjectFeed

open Relation (ReflTransGen)

variable {σ α : Type}

/-! ## Moves -/

namespace Hopper

/-- What a feed does to its hopper at a time.  Fragments and the end of the input come only to a live
    one. -/
inductive Move (h : Hopper α) : Hopper α → Prop
  | pour (text : String) : h.isLive = true → Move h (h.pour text)
  | dispense : Move h h.dispense.2
  | endInput : h.isLive = true → Move h h.endInput.2
  | abandon : Move h h.abandon

/-- Any number of moves. -/
def Moves : Hopper α → Hopper α → Prop :=
  ReflTransGen Move

theorem Moves.induction {P : Hopper α → Prop} (hmove : ∀ {h h' : Hopper α}, P h → h.Move h' → P h')
    {h h' : Hopper α} (hmoves : h.Moves h') (hh : P h) : P h' := by
  induction hmoves with
  | refl => exact hh
  | tail _ hlast ih => exact hmove ih hlast

theorem move_of_dispense {h h' : Hopper α} {item : Option (Item α)} (hd : h.dispense = (item, h')) :
    h.Move h' := by
  have hmove : h.Move h.dispense.2 := .dispense
  rwa [hd] at hmove

theorem isLive_of_not {h : Hopper α} (hlive : ¬ (!h.isLive) = true) : h.isLive = true := by
  simpa using hlive

theorem abandon_isLive (h : Hopper α) : h.abandon.isLive = false := by
  cases hlive : h.isLive with
  | true =>
    rw [abandon, hlive]
    rfl
  | false =>
    rw [abandon, hlive]
    exact hlive

/-! ### What is interpreted -/

/-- **A hopper interprets nothing but what waits in it.** -/
theorem dispense_interpret (h : Hopper α) (interpret : Interpretation α)
    (hsame : ∀ text ∈ h.backlog.toList, interpret text = h.interpret text) :
    ({ h with interpret } : Hopper α).dispense.1 = h.dispense.1 := by
  have hqueued : ({ h with interpret } : Hopper α).queued = h.queued := by
    have hitems : ∀ text ∈ h.backlog.toList,
        itemOf? interpret h.settings text = itemOf? h.interpret h.settings text := by
      intro text htext
      rw [itemOf?, itemOf?, hsame text htext]
    rw [queued, queued, List.filterMap_congr hitems]
  rw [(dispense_queued _).1, (dispense_queued h).1, hqueued]

theorem backlog_dispense (h : Hopper α) :
    h.dispense.2.backlog.toList <:+ h.backlog.toList := by
  fun_induction dispense h with
  | case2 h text rest hpop tally rejection hinterpret h' hskip ih =>
    rw [Backlog.toList_of_pop? hpop]
    exact ih.trans (List.suffix_cons _ _)
  | case4 h hpop => exact List.suffix_refl _
  | case1 h text rest hpop | case3 h text rest hpop =>
    rw [Backlog.toList_of_pop? hpop]
    exact List.suffix_cons _ _

end Hopper

/-! ## Feeds that pull -/

namespace PullFeed

variable [Supply σ] {f f' : PullFeed σ α}

/-- What a caller does to a feed at a time. -/
inductive Use (f : PullFeed σ α) : PullFeed σ α → Prop
  | next : Use f f.next.2
  | cancel : Use f f.cancel

/-- The states of a feed that any uses lead to. -/
def Reaches : PullFeed σ α → PullFeed σ α → Prop :=
  ReflTransGen Use

theorem next_moves (f : PullFeed σ α) : f.hopper.Moves f.next.2.hopper := by
  fun_induction next f with
  | case1 f item h' hd => exact .single (Hopper.move_of_dispense hd)
  | case2 f h' hd hlive => exact .single (Hopper.move_of_dispense hd)
  | case3 f h' hd hlive text supply hpull poured hpoured ih =>
    exact .head (Hopper.move_of_dispense hd) (.head (.pour text (Hopper.isLive_of_not hlive)) ih)
  | case4 f h' hd hlive text supply hpull poured hpoured ih =>
    exact .head (Hopper.move_of_dispense hd) (.head (.pour text (Hopper.isLive_of_not hlive)) ih)
  | case5 f h' hd hlive supply hpull failure ended hend =>
    have hmove : h'.Move h'.endInput.2 := .endInput (Hopper.isLive_of_not hlive)
    rw [hend] at hmove
    exact .head (Hopper.move_of_dispense hd) (.single hmove)
  | case6 f h' hd hlive fault supply hpull => exact .single (Hopper.move_of_dispense hd)

theorem Reaches.moves (hf : f.Reaches f') : f.hopper.Moves f'.hopper := by
  induction hf with
  | refl => exact .refl
  | tail _ huse ih =>
    cases huse with
    | next => exact ih.trans (next_moves _)
    | cancel => exact ih.tail .abandon

end PullFeed

/-! ## Feeds that are polled -/

namespace PollFeed

variable [Inflow σ] {f f' : PollFeed σ α}

/-- What happens to a feed at a time.  The inflow may change between polls, as a channel does when
    something is sent. -/
inductive Use (f : PollFeed σ α) : PollFeed σ α → Prop
  | poll : Use f f.poll.2
  | cancel : Use f f.cancel
  | inflow (s : σ) : Use f { f with inflow := s }

/-- The states of a feed that any uses lead to. -/
def Reaches : PollFeed σ α → PollFeed σ α → Prop :=
  ReflTransGen Use

theorem isLive_of_not_over {h : Hopper α} {released : Bool}
    (hlive : ¬ (!h.isLive || released) = true) : h.isLive = true :=
  Hopper.isLive_of_not fun hover => hlive (by rw [hover, Bool.true_or])

theorem poll_moves (f : PollFeed σ α) : f.hopper.Moves f.poll.2.hopper := by
  fun_induction poll f with
  | case1 f item h' hd => exact .single (Hopper.move_of_dispense hd)
  | case2 f h' hd hover => exact .single (Hopper.move_of_dispense hd)
  | case3 f h' hd hlive inflow hpoll => exact .single (Hopper.move_of_dispense hd)
  | case4 f h' hd hlive report inflow hpoll => exact .single (Hopper.move_of_dispense hd)
  | case5 f h' hd hlive inflow hpoll item f' hend =>
    have hmove : h'.Move h'.endInput.2 :=
      .endInput (isLive_of_not_over hlive)
    have hended : h'.endInput.2 = f'.hopper := congrArg (fun ended => ended.2.hopper) hend
    rw [hended] at hmove
    exact .head (Hopper.move_of_dispense hd) (.single hmove)
  | case6 f h' hd hlive octets inflow hpoll fault carry hpush =>
    exact .single (Hopper.move_of_dispense hd)
  | case7 f h' hd hlive octets inflow hpoll text carry hpush poured ih =>
    have hmove : h'.Move poured :=
      .pour text (isLive_of_not_over hlive)
    exact .head (Hopper.move_of_dispense hd) (.head hmove ih)

theorem Reaches.moves (hf : f.Reaches f') : f.hopper.Moves f'.hopper := by
  induction hf with
  | refl => exact .refl
  | tail _ huse ih =>
    cases huse with
    | poll => exact ih.trans (poll_moves _)
    | cancel => exact ih.tail .abandon
    | inflow => exact ih

end PollFeed

end ObjectFeed
