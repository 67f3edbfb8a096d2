/-
  How much a feed takes for the objects that it gives.

  * `Hopper.Course.demand`: a hopper that hands out an object has taken the fragments that complete it and no
    more, since it takes a fragment in only when nothing is queued;
  * `Hopper.Course.length_le_of_refused`: nor does it take more than the fragment that cannot be split;
  * `PullFeed.Paced` and `PollFeed.Paced` say how much a feed has taken of what its supply or inflow brings,
    and `Paced.turn` keeps them;
  * `OnDemand` says this of the answers of a feed, and `taken_on_demand`: it holds of feeds over fragments
    and over the chunks of a text.
-/
import Mathlib.Order.Bounds.Defs
import ObjectFeed.Proofs.Feeds.Courses
import ObjectFeed.Proofs.Feeds.Faults
import ObjectFeed.Proofs.Feeds.Interpreting
import ObjectFeed.Proofs.Splitter.Limits

namespace ObjectFeed

open Splitter (run completions)

variable {σ α : Type}

/-! ## Hoppers -/

theorem toList_join_prefix {fragments more : List String} (h : fragments <+: more) :
    (String.join fragments).toList <+: (String.join more).toList := by
  obtain ⟨rest, rfl⟩ := h
  rw [String.toList_join, String.toList_join, List.flatMap_append]
  exact List.prefix_append _ _

theorem itemOf?_of_not_skip {interpret : Interpretation α} {settings : Settings}
    (hskip : settings.skipInvalid = false) (text : String) :
    itemOf? interpret settings text = some (Item.interpreted interpret (.ok text)) := by
  rw [itemOf?, Item.interpreted, hskip]
  cases interpret text <;> rfl

namespace Hopper.Course

variable {interpret : Interpretation α} {settings : Settings} {fed rest : List String}
  {given : List (Item α)} {h h' : Hopper α}

/-- What was given and what is queued are the items of the objects completed, and the failure to split. -/
theorem items (hskip : settings.skipInvalid = false)
    (hc : (Hopper.new interpret settings).Course (fed.map .ok) given h) :
    given ++ h.queued =
      (run settings.splitter .before (String.join fed).toList).objects.map
          (fun text => Item.interpreted interpret (.ok text)) ++
        ((({ options := settings.splitter } : Splitter).feedEach fed).failure.map .error).toList := by
  have hnow : h.ahead (fun _ => []) [] = h.queued := by
    rw [ahead]
    cases h.isLive <;> exact List.append_nil _
  have hall := hc.continues (fun _ => []) []
  rw [List.append_nil, ahead_new, itemsThrough_texts, hnow, Splitter.objects_feedEach,
    List.filterMap_congr fun text _ => itemOf?_of_not_skip hskip text, List.filterMap_eq_map'] at hall
  rw [← hall]
  cases (({ options := settings.splitter } : Splitter).feedEach fed).failure <;> rfl

/-- **Nothing is taken ahead of need.**  The text before any fragment taken was split, and no more objects
    were completed in it than were given. -/
theorem beforeTaken (hskip : settings.skipInvalid = false)
    (hc : (Hopper.new interpret settings).Course (fed.map .ok) given h) {n : Nat}
    (hless : n < fed.length) :
    let text := (String.join ((fed ++ rest).take n)).toList
    (run settings.splitter .before text).refusal = none ∧
      completions settings.splitter.honorEscapes text ≤ given.length := by
  intro text
  rcases fed.eq_nil_or_concat' with rfl | ⟨before, last, rfl⟩
  · exact absurd hless (Nat.not_lt_zero n)
  rw [List.length_append, List.length_singleton, Nat.lt_succ_iff] at hless
  have htext : text <+: (String.join before).toList := by
    refine toList_join_prefix ?_
    rw [List.append_assoc, List.take_append_of_le_length hless]
    exact List.take_prefix n before
  -- when the last fragment was taken, the objects of those before it had been given
  rw [List.map_append] at hc
  obtain ⟨earlier, h₀, hearlier, hlive, hqueued, hprefix⟩ := hc.prompt
  have hsplit : (({ options := settings.splitter } : Splitter).feedEach before).failure = none := by
    have hnone := (hearlier.feedEach hlive).1
    rwa [arrived_map_ok] at hnone
  have haccepted := (Splitter.failure_feedEach _ _).1 hsplit
  have hitems := congrArg List.length (hearlier.items hskip)
  rw [hqueued, hsplit, List.append_nil, Option.map_none, Option.toList_none, List.append_nil,
    List.length_map, (Splitter.length_objects_le_completions _ _).2 haccepted] at hitems
  constructor
  · by_contra hrefused
    exact hrefused ((Splitter.run_of_refused htext hrefused).1.symm.trans haccepted)
  · calc completions settings.splitter.honorEscapes text
        ≤ completions settings.splitter.honorEscapes (String.join before).toList :=
          Splitter.completions_mono _ htext
      _ = earlier.length := hitems.symm
      _ ≤ given.length := hprefix.length_le

/-- **What a hopper hands out is the next object, and it has taken the fragments up to the closing brace of
    that object and no more.** -/
theorem demand {item : Item α} (hskip : settings.skipInvalid = false)
    (hc : (Hopper.new interpret settings).Course (fed.map .ok) given h)
    (hd : h.dispense = (some item, h')) {objects : List String}
    (hobjects : (run settings.splitter .before (String.join (fed ++ rest)).toList).objects = objects)
    (hlt : given.length < objects.length) :
    objects[given.length]?.map (fun text => Item.interpreted interpret (.ok text)) = some item ∧
      IsLeast {n | given.length <
        completions settings.splitter.honorEscapes
          (String.join ((fed ++ rest).take n)).toList} fed.length := by
  have hfed := toList_join_prefix (List.prefix_append fed rest)
  have hitems := hc.items hskip
  rw [queued_of_dispense hd, Option.toList_some] at hitems
  -- the failure to split stands behind all objects, so it is not what is handed out
  have hshort : given.length <
      (run settings.splitter .before (String.join fed).toList).objects.length := by
    by_cases hrefusal : (run settings.splitter .before (String.join fed).toList).refusal = none
    · have hlength := congrArg List.length hitems
      rw [(Splitter.failure_feedEach _ _).2 hrefusal] at hlength
      simp only [List.length_append, List.length_map, List.length_cons, List.length_nil,
        Option.map_none, Option.toList_none] at hlength
      omega
    · rwa [← hobjects, (Splitter.run_of_refused hfed hrefusal).2] at hlt
  refine ⟨?_, ?_, ?_⟩
  · have hhere := congrArg (fun items => items[given.length]?) hitems
    simp only [List.singleton_append, List.getElem?_append_right (Nat.le_refl given.length),
      Nat.sub_self, List.getElem?_cons_zero] at hhere
    rw [List.getElem?_append_left (by rwa [List.length_map]), List.getElem?_map] at hhere
    obtain ⟨more, hmore⟩ := Splitter.objects_mono settings.splitter .before hfed
    rw [← hobjects, ← hmore, List.getElem?_append_left hshort, ← hhere]
  · show given.length < completions settings.splitter.honorEscapes _
    rw [List.take_left]
    exact Nat.lt_of_lt_of_le hshort (Splitter.length_objects_le_completions _ _).1
  · intro n hn
    by_contra hless
    exact absurd hn (Nat.not_lt.2 (hc.beforeTaken hskip (Nat.not_le.1 hless)).2)

/-- **A hopper takes no fragment after the one that cannot be split.** -/
theorem length_le_of_refused (hskip : settings.skipInvalid = false)
    (hc : (Hopper.new interpret settings).Course (fed.map .ok) given h) {n : Nat}
    (hrefused : (run settings.splitter .before
      (String.join ((fed ++ rest).take n)).toList).refusal ≠ none) :
    fed.length ≤ n := by
  by_contra hless
  exact hrefused (hc.beforeTaken hskip (Nat.not_le.1 hless)).1

end Hopper.Course

/-! ## Feeds that pull -/

namespace Counted

variable [Supply σ] {s s' : Counted σ} {rest : List String}

theorem pull_eq (s : Counted σ) :
    Supply.pull s = ((Supply.pull s.supply).1,
      { s with supply := (Supply.pull s.supply).2, pulls := s.pulls + 1 }) := rfl

theorem pull_spec {answer : Pulled} (hpull : Supply.pull s = (answer, s')) :
    Supply.pull s.supply = (answer, s'.supply) ∧ s'.pulls = s.pulls + 1 := by
  rw [pull_eq] at hpull
  obtain ⟨hanswer, rfl⟩ := Prod.mk.inj hpull
  exact ⟨Prod.ext hanswer rfl, rfl⟩

theorem pull_of_pull {answer : Pulled} {supply : σ} (hpull : Supply.pull s.supply = (answer, supply)) :
    Supply.pull s = (answer, { s with supply, pulls := s.pulls + 1 }) := by
  rw [pull_eq, hpull]

theorem brings (hs : Supply.Brings s.supply rest) : Supply.Brings s rest := by
  generalize hsupply : s.supply = supply at hs
  induction hs generalizing s with
  | ended hpull =>
    subst hsupply
    exact .ended (pull_of_pull hpull)
  | fragment hpull _ ih =>
    subst hsupply
    exact .fragment (pull_of_pull hpull) (ih rfl)

theorem brings_of_takes {came : List Arrival} (hs : Supply.Brings s.supply rest)
    (htakes : Supply.Takes s came s') :
    ∃ texts left, came = texts.map .ok ∧ rest = texts ++ left ∧
      s'.pulls = s.pulls + texts.length ∧ Supply.Brings s'.supply left := by
  cases htakes with
  | nothing => exact ⟨[], rest, rfl, rfl, rfl, hs⟩
  | @fragment text _ hpull =>
    obtain ⟨hanswer, hpulls⟩ := pull_spec hpull
    cases hs with
    | ended hended => rw [hended] at hanswer; cases hanswer
    | fragment hfragment hleft =>
      rw [hfragment] at hanswer
      obtain ⟨htext, rfl⟩ := Prod.mk.inj hanswer
      cases htext
      exact ⟨[text], _, rfl, rfl, hpulls, hleft⟩
  | failed hpull =>
    obtain ⟨hanswer, -⟩ := pull_spec hpull
    cases hs with
    | ended hended => rw [hended] at hanswer; cases hanswer
    | fragment hfragment => rw [hfragment] at hanswer; cases hanswer

theorem brings_of_ended (hs : Supply.Brings s.supply rest) (hpull : Supply.pull s = (.ended, s')) :
    rest = [] := by
  obtain ⟨hanswer, -⟩ := pull_spec hpull
  cases hs with
  | ended => rfl
  | fragment hfragment => rw [hfragment] at hanswer; cases hanswer

end Counted

/-- An item that is given after `n` of these fragments: the hopper hands it out where it stands, or the input
    has ended. -/
inductive GivenAfter (start : Hopper α) (fragments : List String) (given : List (Item α))
    (item : Item α) (n : Nat) : Prop
  | dispensed {fed rest : List String} {h h' : Hopper α} : fragments = fed ++ rest →
      n = fed.length → start.Course (fed.map .ok) given h → h.dispense = (some item, h') →
      GivenAfter start fragments given item n
  | ended {h : Hopper α} : start.Course (fragments.map .ok) given h → h.queued = [] →
      GivenAfter start fragments given item n

namespace PullFeed

variable [Supply σ] {f f' : PullFeed (Counted σ) α} {start : Hopper α} {fragments : List String}
  {given : List (Item α)}

/-- How much of the fragments a feed has taken: some of them, and the others are still to come if it is live,
    or all of them and the end. -/
inductive Paced (start : Hopper α) (fragments : List String) (given : List (Item α))
    (f : PullFeed (Counted σ) α) : Prop
  | running (fed rest : List String) : fragments = fed ++ rest → f.supply.pulls = fed.length →
      (f.hopper.isLive = true → Supply.Brings f.supply.supply rest) →
      start.Course (fed.map .ok) given f.hopper → Paced start fragments given f
  | finished : start.Finished start.settings.ending (fragments.map .ok) given f.hopper →
      Paced start fragments given f

theorem Paced.turn {answer : Option (Option (Item α))} (hf : f.Paced start fragments given)
    (hturn : f.Turn answer f') : f'.Paced start fragments (given ++ answer.join.toList) := by
  cases hf with
  | running fed rest heq hpulls hbrings hc =>
    cases hlive : f.hopper.isLive with
    | false =>
      obtain ⟨item, h, hd, rfl, rfl⟩ := hturn.of_over hlive
      refine .running fed rest heq hpulls (fun hlive' => ?_) (hc.dispense hd)
      exact hbrings ((Hopper.isLive_of_dispense hd).symm.trans hlive')
    | true =>
      rcases hturn.course hc with
        ⟨came, supply, htakes, hsupply, hnext⟩ | ⟨supply, hpull, -, hfinished⟩
      · obtain ⟨texts, left, rfl, hrest, htaken, hleft⟩ :=
          Counted.brings_of_takes (hbrings hlive) htakes
        refine .running (fed ++ texts) left ?_ ?_ (fun hlive' => ?_) ?_
        · rw [heq, hrest, List.append_assoc]
        · rw [List.length_append, ← hpulls, ← htaken]
          rcases hsupply with hsupply | ⟨-, hsupply⟩ <;> rw [hsupply]
          rfl
        · rcases hsupply with hsupply | ⟨hover, -⟩
          · rwa [hsupply]
          · rw [hover] at hlive'
            cases hlive'
        · rw [List.map_append]
          exact hnext
      · rw [Counted.brings_of_ended (hbrings hlive) hpull, List.append_nil] at heq
        exact .finished (heq ▸ hfinished)
  | finished hfinished =>
    obtain ⟨item, h, hd, rfl, rfl⟩ := hturn.of_over hfinished.dead
    obtain ⟨rfl, hfinished'⟩ := hfinished.dispense hd
    refine .finished ?_
    rw [Option.join_some, Option.toList_none, List.append_nil]
    exact hfinished'

theorem Paced.givenAfter {item : Item α} (hf : f.Paced start fragments given)
    (hturn : f.Turn (some (some item)) f') :
    GivenAfter start fragments given item f'.supply.pulls := by
  generalize hanswer : (some (some item) : Option (Option (Item α))) = answer at hturn
  cases hf with
  | running fed rest heq hpulls hbrings hc =>
    cases hturn with
    | given hd =>
      cases hanswer
      exact .dispensed heq hpulls hc hd
    | spent => cases hanswer
    | fragment => cases hanswer
    | ended hd hlive hpull =>
      have hrest := Counted.brings_of_ended (hbrings ((Hopper.isLive_of_dispense hd).symm.trans hlive)) hpull
      rw [hrest, List.append_nil] at heq
      exact .ended (heq ▸ hc.drain hd) (Hopper.queued_of_dispense_none hd).2
    | failed hd hlive hpull =>
      obtain ⟨texts, left, hcame, -⟩ := Counted.brings_of_takes
        (hbrings ((Hopper.isLive_of_dispense hd).symm.trans hlive)) (.failed hpull)
      cases texts <;> cases hcame
  | finished hfinished =>
    obtain ⟨item', h, hd, heq, -⟩ := hturn.of_over hfinished.dead
    obtain ⟨rfl, -⟩ := hfinished.dispense hd
    rw [← hanswer] at heq
    cases heq

/-- What a feed has taken led its hopper on, unless all of it could be split. -/
theorem Paced.taken (hf : f.Paced start fragments given) :
    (∃ fed rest h, fragments = fed ++ rest ∧ f.supply.pulls = fed.length ∧
      start.Course (fed.map .ok) given h) ∨
      (start.splitter.feedEach fragments).failure = none := by
  cases hf with
  | running fed rest heq hpulls _ hc => exact .inl ⟨fed, rest, _, heq, hpulls, hc⟩
  | finished hfinished =>
    have hsplit := hfinished.split
    rw [arrived_map_ok] at hsplit
    exact .inr hsplit

/-- A feed that is asked keeps pace up to the turn that answers. -/
theorem Paced.exists_last (hf : f.Paced start fragments given) :
    ∃ f₀ : PullFeed (Counted σ) α, f₀.Paced start fragments given ∧
      f₀.Turn (some f.next.1) f.next.2 := by
  refine next_goesThrough.exists_last
    (P := fun f : PullFeed (Counted σ) α => f.Paced start fragments given) ?_ hf
  intro f f' hf hturn
  simpa using hf.turn hturn

theorem Paced.ask (hf : f.Paced start fragments given) :
    f.ask.2.Paced start fragments (given ++ f.ask.1.item?.toList) := by
  obtain ⟨f₀, hf₀, hlast⟩ := hf.exists_last
  exact hf₀.turn hlast

theorem Paced.givenAfter_ask {item : Item α} (hf : f.Paced start fragments given)
    (hask : f.ask = (.ready (some item), f')) :
    GivenAfter start fragments given item f'.supply.pulls := by
  obtain ⟨hitem, rfl⟩ := Prod.mk.inj hask
  obtain ⟨f₀, hf₀, hlast⟩ := hf.exists_last
  rw [Readiness.ready.inj hitem] at hlast
  exact hf₀.givenAfter hlast

end PullFeed

/-! ## Feeds that are polled -/

namespace Watched

variable [Inflow σ] {s s' : Watched σ} {rest : List Octets}

theorem poll_eq (s : Watched σ) :
    Inflow.poll s = ((Inflow.poll s.inflow).1,
      { s with inflow := (Inflow.poll s.inflow).2
               answers := s.answers ++ [(Inflow.poll s.inflow).1] }) := rfl

theorem poll_spec {answer : Polled} (hpoll : Inflow.poll s = (answer, s')) :
    Inflow.poll s.inflow = (answer, s'.inflow) ∧ s'.chunks = s.chunks ++ answer.chunk?.toList := by
  refine ⟨?_, chunks_of_poll hpoll⟩
  rw [poll_eq] at hpoll
  obtain ⟨rfl, rfl⟩ := Prod.mk.inj hpoll
  rfl

theorem poll_of_poll {answer : Polled} {inflow : σ} (hpoll : Inflow.poll s.inflow = (answer, inflow)) :
    Inflow.poll s = (answer, { s with inflow, answers := s.answers ++ [answer] }) := by
  rw [poll_eq, hpoll]

theorem delivers (hs : Inflow.Delivers s.inflow rest) : Inflow.Delivers s rest := by
  generalize hinflow : s.inflow = inflow at hs
  induction hs generalizing s with
  | ended hpoll =>
    subst hinflow
    exact .ended (poll_of_poll hpoll)
  | chunk hpoll _ ih =>
    subst hinflow
    exact .chunk (poll_of_poll hpoll) (ih rfl)
  | notReady hpoll _ ih =>
    subst hinflow
    exact .notReady (poll_of_poll hpoll) (ih rfl)

theorem delivers_of_takes {came : List Delivery} (hs : Inflow.Delivers s.inflow rest)
    (htakes : Inflow.Takes s came s') :
    ∃ taken left, came = taken.map .ok ∧ rest = taken ++ left ∧ s'.chunks = s.chunks ++ taken ∧
      Inflow.Delivers s'.inflow left := by
  cases htakes with
  | nothing => exact ⟨[], rest, rfl, rfl, (List.append_nil _).symm, hs⟩
  | notReady hpoll =>
    obtain ⟨hanswer, hchunks⟩ := poll_spec hpoll
    cases hs with
    | ended hended => rw [hended] at hanswer; cases hanswer
    | chunk hchunk => rw [hchunk] at hanswer; cases hanswer
    | notReady hwaits hleft =>
      rw [hwaits] at hanswer
      obtain ⟨-, rfl⟩ := Prod.mk.inj hanswer
      exact ⟨[], rest, rfl, rfl, hchunks, hleft⟩
  | @chunk octets _ hpoll =>
    obtain ⟨hanswer, hchunks⟩ := poll_spec hpoll
    cases hs with
    | ended hended => rw [hended] at hanswer; cases hanswer
    | chunk hchunk hleft =>
      rw [hchunk] at hanswer
      obtain ⟨hoctets, rfl⟩ := Prod.mk.inj hanswer
      cases hoctets
      exact ⟨[octets], _, rfl, rfl, hchunks, hleft⟩
    | notReady hwaits => rw [hwaits] at hanswer; cases hanswer
  | failed hpoll =>
    obtain ⟨hanswer, -⟩ := poll_spec hpoll
    cases hs with
    | ended hended => rw [hended] at hanswer; cases hanswer
    | chunk hchunk => rw [hchunk] at hanswer; cases hanswer
    | notReady hwaits => rw [hwaits] at hanswer; cases hanswer

theorem delivers_of_ended (hs : Inflow.Delivers s.inflow rest)
    (hpoll : Inflow.poll s = (.ended, s')) : rest = [] := by
  obtain ⟨hanswer, -⟩ := poll_spec hpoll
  cases hs with
  | ended => rfl
  | chunk hchunk => rw [hchunk] at hanswer; cases hanswer
  | notReady hwaits => rw [hwaits] at hanswer; cases hanswer

end Watched

namespace PollFeed

variable [Inflow σ] {f f' : PollFeed (Watched σ) α} {start : Hopper α} {chunks : List Octets}
  {given : List (Item α)}

/-- How much of the chunks a feed has taken: some of them, and the others are still to come if it is live, or
    all of them and the end. -/
inductive Paced (start : Hopper α) (chunks : List Octets) (given : List (Item α))
    (f : PollFeed (Watched σ) α) : Prop
  | running (rest : List Octets) : chunks = f.inflow.chunks ++ rest →
      (f.hopper.isLive = true → Inflow.Delivers f.inflow.inflow rest) →
      f.Follows start (f.inflow.chunks.map .ok) given → Paced start chunks given f
  | finished : f.IsFinished start (chunks.map .ok) given → Paced start chunks given f

theorem Paced.turn {answer : Option (Readiness (Option (Item α)))}
    (hf : f.Paced start chunks given) (hturn : f.Turn answer f') :
    f'.Paced start chunks (given ++ (answer.bind Readiness.item?).toList) := by
  cases hf with
  | running rest heq hdelivers hfollows =>
    cases hlive : f.hopper.isLive with
    | false =>
      obtain ⟨item, h, hd, rfl, rfl⟩ := hturn.of_over hlive
      have hover : h.isLive = false := (Hopper.isLive_of_dispense hd).trans hlive
      have hdead : h.isLive ≠ true := by rw [hover]; exact Bool.false_ne_true
      exact .running rest heq (fun hlive' => absurd hlive' hdead)
        ⟨hfollows.course.dispense hd, fun hlive' => absurd hlive' hdead⟩
    | true =>
      rcases hfollows.turn hturn with ⟨came, htakes, hnext⟩ | ⟨hpoll, hfinished⟩
      · obtain ⟨taken, left, rfl, hrest, hchunks, hleft⟩ :=
          Watched.delivers_of_takes (hdelivers hlive) htakes
        refine .running left ?_ (fun _ => hleft) ?_
        · rw [heq, hrest, hchunks, List.append_assoc]
        · rw [hchunks, List.map_append]
          exact hnext
      · rw [Watched.delivers_of_ended (hdelivers hlive) hpoll, List.append_nil] at heq
        exact .finished (heq ▸ hfinished)
  | finished hfinished =>
    obtain ⟨item, h, hd, rfl, rfl⟩ := hturn.of_over hfinished.dead
    obtain ⟨rfl, hfinished'⟩ := hfinished.dispense hd
    refine .finished ?_
    change start.Finished _ _ (given ++ []) h
    rwa [List.append_nil]

theorem exists_texts {fragments : List String}
    (harrivals : Utf8.Carry.empty.arrivals chunks = fragments.map .ok) {fed rest : List Octets}
    (heq : chunks = fed ++ rest) :
    ∃ texts left, fragments = texts ++ left ∧ fed.length = texts.length ∧
      Utf8.Carry.empty.received (fed.map .ok) = texts.map .ok := by
  rw [heq, Utf8.Carry.arrivals_append] at harrivals
  obtain ⟨texts, left, rfl, htexts, -⟩ := List.map_eq_append_iff.1 harrivals.symm
  refine ⟨texts, left, rfl, ?_, ?_⟩
  · rw [← Utf8.Carry.length_arrivals .empty fed, ← htexts, List.length_map]
  · rw [Utf8.Carry.received_map_ok, htexts]

theorem Paced.givenAfter {fragments : List String} {item : Item α}
    (harrivals : Utf8.Carry.empty.arrivals chunks = fragments.map .ok)
    (hf : f.Paced start chunks given) (hturn : f.Turn (some (.ready (some item))) f') :
    GivenAfter start fragments given item f'.inflow.chunks.length := by
  generalize hanswer : (some (.ready (some item)) : Option (Readiness (Option (Item α)))) = answer
    at hturn
  cases hf with
  | running rest heq hdelivers hfollows =>
    have hlive : ∀ {h}, f.Wants h → f.hopper.isLive = true := fun hwants =>
      (Hopper.isLive_of_dispense hwants.drained).symm.trans hwants.live
    obtain ⟨texts, left, hfragments, hlength, htexts⟩ := exists_texts harrivals heq
    have hc := hfollows.course
    rw [htexts] at hc
    cases hturn with
    | given hd =>
      cases hanswer
      exact .dispensed hfragments hlength hc hd
    | spent => cases hanswer
    | notReady => cases hanswer
    | failed hwants hpoll =>
      obtain ⟨taken, left, hcame, -⟩ :=
        Watched.delivers_of_takes (hdelivers (hlive hwants)) (.failed hpoll)
      cases taken <;> cases hcame
    | ended hwants hpoll =>
      rw [Watched.delivers_of_ended (hdelivers (hlive hwants)) hpoll, List.append_nil] at heq
      rw [← heq, Utf8.Carry.received_map_ok, harrivals] at htexts
      rw [← htexts] at hc
      exact .ended (hc.drain hwants.drained) (Hopper.queued_of_dispense_none hwants.drained).2
    | @illFormed h octets inflow fault carry hwants hpoll hpush =>
      -- the chunk is one of those that bring the fragments, so it is text
      obtain ⟨taken, left, hcame, hrest, -⟩ :=
        Watched.delivers_of_takes (hdelivers (hlive hwants)) (.chunk hpoll)
      rw [hrest, ← List.append_assoc] at heq
      obtain ⟨texts, -, -, -, htexts⟩ := exists_texts harrivals heq
      rw [List.map_append, ← hcame, (Utf8.Carry.received_concat_ok _ octets).1,
        ← hfollows.carry (hlive hwants), hpush] at htexts
      have hmem : (.error fault : Arrival) ∈ texts.map .ok :=
        htexts ▸ List.mem_append_right _ List.mem_cons_self
      obtain ⟨text, -, htext⟩ := List.mem_map.1 hmem
      cases htext
    | chunk => cases hanswer
  | finished hfinished =>
    obtain ⟨item', h, hd, heq, -⟩ := hturn.of_over hfinished.dead
    obtain ⟨rfl, -⟩ := hfinished.dispense hd
    rw [← hanswer] at heq
    cases heq

theorem Paced.taken {fragments : List String}
    (harrivals : Utf8.Carry.empty.arrivals chunks = fragments.map .ok)
    (hf : f.Paced start chunks given) :
    (∃ fed rest h, fragments = fed ++ rest ∧ f.inflow.chunks.length = fed.length ∧
      start.Course (fed.map .ok) given h) ∨
      (start.splitter.feedEach fragments).failure = none := by
  cases hf with
  | running rest heq _ hfollows =>
    obtain ⟨fed, left, hfragments, hlength, hreceived⟩ := exists_texts harrivals heq
    have hc := hfollows.course
    rw [hreceived] at hc
    exact .inl ⟨fed, left, _, hfragments, hlength, hc⟩
  | finished hfinished =>
    have hsplit := hfinished.split
    rw [Utf8.Carry.received_map_ok, harrivals, arrived_map_ok] at hsplit
    exact .inr hsplit

theorem Paced.exists_last (hf : f.Paced start chunks given) :
    ∃ f₀ : PollFeed (Watched σ) α, f₀.Paced start chunks given ∧
      f₀.Turn (some f.poll.1) f.poll.2 := by
  refine poll_goesThrough.exists_last
    (P := fun f : PollFeed (Watched σ) α => f.Paced start chunks given) ?_ hf
  intro f f' hf hturn
  simpa using hf.turn hturn

theorem Paced.poll (hf : f.Paced start chunks given) :
    f.poll.2.Paced start chunks (given ++ f.poll.1.item?.toList) := by
  obtain ⟨f₀, hf₀, hlast⟩ := hf.exists_last
  exact hf₀.turn hlast

theorem Paced.givenAfter_poll {fragments : List String} {item : Item α}
    (harrivals : Utf8.Carry.empty.arrivals chunks = fragments.map .ok)
    (hf : f.Paced start chunks given) (hpoll : f.poll = (.ready (some item), f')) :
    GivenAfter start fragments given item f'.inflow.chunks.length := by
  obtain ⟨hitem, rfl⟩ := Prod.mk.inj hpoll
  obtain ⟨f₀, hf₀, hlast⟩ := hf.exists_last
  rw [hitem] at hlast
  exact hf₀.givenAfter harrivals hlast

end PollFeed

/-! ## On demand -/

/-- What a feed takes for what it gives.  These are the `things` that it could take, `reads` tells the text
    of the first of them, and `taken` how many of them it has taken. -/
structure OnDemand {S B : Type} (ask : S → Readiness (Option (Item α)) × S) (feed : S)
    (taken : S → Nat) (things : List B) (reads : List B → String → Prop)
    (interpret : Interpretation α) (settings : Settings) (objects : List String) : Prop where
  /-- The objects come first, each as its value or its rejection. -/
  gives : ∃ later, Drains ask feed
    (objects.map (fun text => Item.interpreted interpret (.ok text)) ++ later)
  /-- When the object after the first `k` is given, it has taken the least that completes more than `k`. -/
  demanded : ∀ p item feed', ask (asked ask p feed).2 = (.ready (some item), feed') →
    let k := ((asked ask p feed).1.filterMap Readiness.item?).length
    k < objects.length →
      objects[k]?.map (fun text => Item.interpreted interpret (.ok text)) = some item ∧
      IsLeast {n | ∃ read, reads (things.take n) read ∧
        k < completions settings.splitter.honorEscapes read.toList} (taken feed')
  /-- It takes nothing after what brings a text that cannot be split. -/
  refused : ∀ n read, reads (things.take n) read →
    (run settings.splitter .before read.toList).refusal ≠ none →
    ∀ p, taken (asked ask p feed).2 ≤ n

theorem ahead_new_objects {interpret : Interpretation α} {settings : Settings}
    (hskip : settings.skipInvalid = false) (ending : Splitter → List (Item α))
    (fragments : List String) :
    ∃ later, (Hopper.new interpret settings).ahead ending (fragments.map .ok) =
      (run settings.splitter .before (String.join fragments).toList).objects.map
        (fun text => Item.interpreted interpret (.ok text)) ++ later := by
  rw [Hopper.ahead_new, itemsThrough_texts, Splitter.objects_feedEach,
    List.filterMap_congr fun text _ => itemOf?_of_not_skip hskip text, List.filterMap_eq_map']
  exact ⟨_, rfl⟩

section

variable {S B : Type} {ask : S → Readiness (Option (Item α)) × S} {feed : S}
  {P : List (Item α) → S → Prop}

/-- What each answer keeps, beside the items given so far, the first answers keep. -/
theorem asked_induction (hnew : P [] feed)
    (hask : ∀ {given s}, P given s → P (given ++ (ask s).1.item?.toList) (ask s).2) (n : Nat) :
    P ((asked ask n feed).1.filterMap Readiness.item?) (asked ask n feed).2 := by
  induction n with
  | zero => exact hnew
  | succ n ih =>
    have hnext := hask ih
    rw [asked_succ, List.filterMap_append]
    cases hitem : (ask (asked ask n feed).2).1.item? with
    | none =>
      rw [hitem] at hnext
      simpa [hitem] using hnext
    | some item =>
      rw [hitem] at hnext
      simpa [hitem] using hnext

theorem onDemand_of_paced {taken : S → Nat} {things : List B} {reads : List B → String → Prop}
    {interpret : Interpretation α} {settings : Settings} {fragments : List String}
    {ending : Splitter → List (Item α)} (hskip : settings.skipInvalid = false)
    (hreads : ∀ n read, reads (things.take n) read ↔ String.join (fragments.take n) = read)
    (hdrains : Drains ask feed ((Hopper.new interpret settings).ahead ending (fragments.map .ok)))
    (hnew : P [] feed)
    (hask : ∀ {given s}, P given s → P (given ++ (ask s).1.item?.toList) (ask s).2)
    (hgiven : ∀ {given s item s'}, P given s → ask s = (.ready (some item), s') →
      GivenAfter (Hopper.new interpret settings) fragments given item (taken s'))
    (htaken : ∀ {given s}, P given s →
      (∃ fed rest h, fragments = fed ++ rest ∧ taken s = fed.length ∧
        (Hopper.new interpret settings).Course (fed.map .ok) given h) ∨
      (({ options := settings.splitter } : Splitter).feedEach fragments).failure = none) :
    OnDemand ask feed taken things reads interpret settings
      (run settings.splitter .before (String.join fragments).toList).objects where
  gives := by
    obtain ⟨later, hlater⟩ := ahead_new_objects hskip ending fragments
    exact ⟨later, hlater ▸ hdrains⟩
  demanded p item feed' hnext := by
    intro k hlt
    simp only [hreads, exists_eq_left']
    cases hgiven (asked_induction hnew hask p) hnext with
    | dispensed hfragments hn hc hd =>
      subst hfragments
      rw [hn]
      exact hc.demand hskip hd rfl hlt
    | ended hc hqueued =>
      have hlength := congrArg List.length (hc.items hskip)
      rw [hqueued, List.append_nil, List.length_append, List.length_map] at hlength
      omega
  refused n read hread hrefusal p := by
    rw [hreads] at hread
    subst hread
    rcases htaken (asked_induction hnew hask p) with ⟨fed, rest, h, rfl, hn, hc⟩ | haccepted
    · rw [hn]
      exact hc.length_le_of_refused hskip hrefusal
    · have hfirst := toList_join_prefix (List.take_prefix n fragments)
      have hnone := (Splitter.failure_feedEach _ _).1 haccepted
      rw [(Splitter.run_of_refused hfirst hrefusal).1] at hnone
      exact absurd hnone hrefusal

end

/-- The text read of the first chunks is that of the first fragments. -/
theorem readsAs_take_iff {chunks : List Octets} {fragments : List String} {text : String}
    {held : Octets} (htext : Utf8.decode chunks.flatten = .upTo text held)
    (harrivals : Utf8.Carry.empty.arrivals chunks = fragments.map .ok) (n : Nat) (read : String) :
    ReadsAs (chunks.take n) read ↔ String.join (fragments.take n) = read := by
  have hsome : ∃ read held, Utf8.decode (chunks.take n).flatten = .upTo read held := by
    rw [← List.take_append_drop n chunks, List.flatten_append] at htext
    exact Utf8.exists_upTo_of_append htext
  have hjoin : ∀ {read held}, Utf8.decode (chunks.take n).flatten = .upTo read held →
      String.join (fragments.take n) = read := by
    intro read held hread
    obtain ⟨parts, rfl, hparts, -⟩ := Utf8.Carry.exists_arrivals .empty rfl hread
    rw [Utf8.Carry.arrivals_take, harrivals, ← List.map_take] at hparts
    rw [List.map_injective_iff.2 (fun _ _ => Except.ok.inj) hparts]
  constructor
  · rintro ⟨held, hread⟩
    exact hjoin hread
  · rintro rfl
    obtain ⟨read, held, hread⟩ := hsome
    exact ⟨held, hjoin hread ▸ hread⟩

theorem PullFeed.onDemand [Supply σ] (interpret : Interpretation α) {settings : Settings}
    (hskip : settings.skipInvalid = false) {fragments : List String} {supply : σ}
    (hsupply : Supply.Brings supply fragments) :
    OnDemand PullFeed.ask (.new ({ supply } : Counted σ) interpret settings)
      (fun feed => feed.supply.pulls) fragments Joins interpret settings
      (run settings.splitter .before (String.join fragments).toList).objects := by
  have hbrings : Supply.Brings ({ supply } : Counted σ) fragments := Counted.brings hsupply
  have hyields := yields_arrivals (Supply.brings_iff_answers.1 hbrings) (.new interpret settings)
  exact onDemand_of_paced hskip (fun _ _ => Iff.rfl) (P := Paced _ fragments)
    (hyields.drains ask_lasts) (.running [] fragments rfl rfl (fun _ => hsupply) .start)
    .ask Paced.givenAfter_ask Paced.taken

theorem PollFeed.onDemand [Inflow σ] (interpret : Interpretation α) {settings : Settings}
    (hskip : settings.skipInvalid = false) {text : String} {chunks : List Octets}
    (hchunks : chunks.flatten = octetsOf text) {inflow : σ}
    (hinflow : Inflow.Delivers inflow chunks) :
    OnDemand PollFeed.poll (.new ({ inflow } : Watched σ) interpret settings)
      (fun feed => feed.inflow.chunks.length) chunks ReadsAs interpret settings
      (run settings.splitter .before text.toList).objects := by
  have hawaits := Utf8.Carry.awaits_octetsOf text
  rw [← hchunks] at hawaits
  obtain ⟨fragments, rfl, harrivals, -⟩ := hawaits.exists_arrivals
  have hdelivers : Inflow.Delivers ({ inflow } : Watched σ) chunks := Watched.delivers hinflow
  have hyields := yields_arrivals hdelivers .empty (.new interpret settings)
  rw [harrivals] at hyields
  exact onDemand_of_paced hskip (readsAs_take_iff hawaits.decodes harrivals) (P := Paced _ chunks)
    (hyields.drains poll_lasts)
    (.running chunks rfl (fun _ => hinflow) ⟨.start, fun _ => rfl⟩)
    .poll (Paced.givenAfter_poll harrivals) (Paced.taken harrivals)

/-- **Feeds take on demand.**  If no object is passed over, a feed over the fragments of a text gives an
    object when it has taken the least number of fragments with its closing brace, and takes no fragment
    after one that cannot be split.  So does a feed over the chunks of the text, of the chunks. -/
theorem taken_on_demand {ρ : Type} [Supply σ] [Inflow ρ] (interpret : Interpretation α)
    {settings : Settings} (hskip : settings.skipInvalid = false) {text : String}
    {fragments : List String} (hfragments : String.join fragments = text)
    {supply : σ} (hsupply : Supply.Brings supply fragments)
    {chunks : List Octets} (hchunks : chunks.flatten = octetsOf text)
    {inflow : ρ} (hinflow : Inflow.Delivers inflow chunks) :
    let objects := (run settings.splitter .before text.toList).objects
    OnDemand PullFeed.ask (.new ({ supply } : Counted σ) interpret settings)
        (fun feed => feed.supply.pulls) fragments Joins interpret settings objects ∧
      OnDemand PollFeed.poll (.new ({ inflow } : Watched ρ) interpret settings)
        (fun feed => feed.inflow.chunks.length) chunks ReadsAs interpret settings objects := by
  subst hfragments
  exact ⟨PullFeed.onDemand interpret hskip hsupply,
    PollFeed.onDemand interpret hskip hchunks hinflow⟩

/-- Two objects that end in the first fragment, and one that ends in the third.  The text cannot be split
    behind it, so the last fragment is not taken. -/
theorem taken_on_demand_unsplit :
    let fragments := ["[\x7b\x7d,\x7b\x7d,", "\x7b\"é", "\":1\x7d]x", "]"]
    let chunks : List Octets := [[0x5B, 0x7B, 0x7D, 0x2C, 0x7B, 0x7D, 0x2C], [0x7B, 0x22, 0xC3],
      [0xA9, 0x22, 0x3A, 0x31, 0x7D, 0x5D, 0x78], [0x5D]]
    let supply : Counted Fragments := { supply := Fragments.ofList fragments }
    let inflow : Watched Script := { inflow := { events := .notReady :: chunks.map .chunk } }
    let objects := ["\x7b\x7d", "\x7b\x7d", "\x7b\"é\":1\x7d"]
    OnDemand PullFeed.ask (.new supply .verbatim) (fun feed => feed.supply.pulls) fragments Joins
        .verbatim {} objects ∧
      OnDemand PollFeed.poll (.new inflow .verbatim) (fun feed => feed.inflow.chunks.length) chunks
        ReadsAs .verbatim {} objects ∧
      [1, 2, 3, 4].map (fun n => (asked PullFeed.ask n (.new supply .verbatim)).2.supply.pulls) =
        [1, 1, 3, 3] := by
  intro fragments chunks supply inflow objects
  have hoctets : chunks.flatten = octetsOf "[\x7b\x7d,\x7b\x7d,\x7b\"é\":1\x7d]x]" := by
    rw [Utf8.octetsOf_eq_flatMap]
    decide
  have hobjects :
      (run {} .before "[\x7b\x7d,\x7b\x7d,\x7b\"é\":1\x7d]x]".toList).objects = objects := by
    decide
  have hinflow : Inflow.Delivers ({ events := .notReady :: chunks.map .chunk } : Script) chunks :=
    .notReady rfl <| .chunk rfl <| .chunk rfl <| .chunk rfl <| .chunk rfl <| .ended rfl
  have hskip : ({} : Settings).skipInvalid = false := rfl
  have hjoin : String.join fragments = "[\x7b\x7d,\x7b\x7d,\x7b\"é\":1\x7d]x]" := by decide
  obtain ⟨hpull, hpoll⟩ := taken_on_demand .verbatim hskip hjoin
    (Fragments.brings_ofList fragments) hoctets hinflow
  exact ⟨hobjects ▸ hpull, hobjects ▸ hpoll, by decide +kernel⟩

end ObjectFeed
