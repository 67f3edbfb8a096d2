/-
  What a feed has made of what came so far.

  * `Hopper.Course` says how a hopper came to stand where it stands: what it took in, and what it gave;
  * `Course.continues`: what it gave and what is ahead of it is what was ahead of it at the start,
    whatever arrives next and ends the items;
  * `Course.prompt`: the last thing that it took in came when nothing was queued, so everything that came
    of what arrived before had been given;
  * `PullFeed.Turn.course` and `PollFeed.Follows.turn`: a turn of a feed leads its hopper on, by what its
    supply or inflow brings, or ends it.
-/
import ObjectFeed.Proofs.Feeds.Closing
import ObjectFeed.Proofs.Feeds.Releasing
import ObjectFeed.Proofs.Splitter.Cuts

namespace ObjectFeed

variable {σ α : Type}

namespace Hopper

/-- A hopper that stood at `start` has taken in what arrived, given these items, and stands here.  It took
    something in only while it was live and nothing was queued. -/
inductive Course (start : Hopper α) : List Arrival → List (Item α) → Hopper α → Prop
  | start : Course start [] [] start
  | dispense {arrivals : List Arrival} {given : List (Item α)} {h h' : Hopper α}
      {item : Option (Item α)} :
      Course start arrivals given h → h.dispense = (item, h') →
      Course start arrivals (given ++ item.toList) h'
  | fragment {arrivals : List Arrival} {given : List (Item α)} {h : Hopper α} (text : String) :
      Course start arrivals given h → h.isLive = true → h.queued = [] →
      Course start (arrivals ++ [.ok text]) given (h.pour text)
  | fault {arrivals : List Arrival} {given : List (Item α)} {h : Hopper α} (fault : Fault) :
      Course start arrivals given h → h.isLive = true → h.queued = [] →
      Course start (arrivals ++ [.error fault]) (given ++ [.error (.transport fault)]) h

namespace Course

variable {start h h' : Hopper α} {arrivals : List Arrival} {given : List (Item α)}

theorem drain (hc : start.Course arrivals given h) (hd : h.dispense = (none, h')) :
    start.Course arrivals given h' := by
  have hdrained := hc.dispense hd
  rwa [Option.toList_none, List.append_nil] at hdrained

theorem settings (hc : start.Course arrivals given h) : h.settings = start.settings := by
  induction hc with
  | start => rfl
  | @dispense _ _ h h' item _ hd ih =>
    have hframe := h.dispense_frame
    rw [hd] at hframe
    exact hframe.settings.trans ih
  | fragment text _ _ _ ih => exact (pour_settings _ text).trans ih
  | fault _ _ _ _ ih => exact ih

/-- **Nothing is lost on the way.**  What is given and what is ahead is what was ahead at the start, whatever
    arrives next. -/
theorem continues (hc : start.Course arrivals given h) (ending : Splitter → List (Item α))
    (more : List Arrival) :
    start.ahead ending (arrivals ++ more) = given ++ h.ahead ending more := by
  induction hc generalizing more with
  | start => rfl
  | @dispense _ given h h' item _ hd ih =>
    have hframe := h.dispense_frame
    rw [hd] at hframe
    rw [ih, hframe.ahead ending more item.toList (queued_of_dispense hd), List.append_assoc]
  | fragment text _ hlive hqueued ih =>
    rw [List.append_assoc, List.singleton_append, ih, ahead_pour ending more hlive hqueued]
  | fault fault _ hlive hqueued ih =>
    rw [List.append_assoc, List.singleton_append, ih, ahead_fault ending more hlive hqueued,
      List.append_assoc, List.singleton_append]

theorem feedEach (hc : start.Course arrivals given h) (hlive : h.isLive = true) :
    (start.splitter.feedEach (arrived arrivals)).failure = none ∧
      (start.splitter.feedEach (arrived arrivals)).splitter = h.splitter := by
  induction hc with
  | start => exact ⟨rfl, rfl⟩
  | @dispense _ _ h h' item _ hd ih =>
    have hframe := h.dispense_frame
    rw [hd] at hframe
    rw [hframe.splitter]
    exact ih (hframe.isLive.symm.trans hlive)
  | @fragment arrivals _ h text _ hbefore _ ih =>
    obtain ⟨hnone, hsplitter⟩ := ih hbefore
    rw [isLive_pour hbefore, Option.isNone_iff_eq_none] at hlive
    obtain ⟨hmore, hfailure, -, -⟩ := Splitter.feedEach_concat hnone text
    rw [hsplitter] at hmore hfailure
    rw [arrived_append, arrived_ok, arrived_nil, pour_splitter]
    exact ⟨hfailure.trans hlive, hmore⟩
  | fault fault _ hbefore _ ih =>
    rw [arrived_append, arrived_error, arrived_nil, List.append_nil]
    exact ih hlive

/-- **What was taken in last came when nothing was queued.** -/
theorem prompt {before : List Arrival} {arrival : Arrival}
    (hc : start.Course (before ++ [arrival]) given h) :
    ∃ earlier h₀, start.Course before earlier h₀ ∧ h₀.isLive = true ∧ h₀.queued = [] ∧
      earlier <+: given := by
  generalize harrivals : before ++ [arrival] = arrivals at hc
  induction hc with
  | start => simp at harrivals
  | dispense _ _ ih =>
    obtain ⟨earlier, h₀, hbefore, hlive, hqueued, hprefix⟩ := ih harrivals
    exact ⟨earlier, h₀, hbefore, hlive, hqueued, hprefix.trans (List.prefix_append _ _)⟩
  | @fragment arrivals given h text hc hlive hqueued _ =>
    obtain ⟨rfl, -⟩ := List.append_inj' harrivals rfl
    exact ⟨given, h, hc, hlive, hqueued, List.prefix_refl given⟩
  | @fault arrivals given h fault hc hlive hqueued _ =>
    obtain ⟨rfl, -⟩ := List.append_inj' harrivals rfl
    exact ⟨given, h, hc, hlive, hqueued, List.prefix_append given _⟩

end Course

/-- The input has ended: the hopper takes no more, nothing is queued, everything that arrived could be split,
    and all that was ahead of it at the start was given, up to these items at the end. -/
structure Finished (start : Hopper α) (ending : Splitter → List (Item α)) (arrivals : List Arrival)
    (given : List (Item α)) (h : Hopper α) : Prop where
  dead : h.isLive = false
  queued : h.queued = []
  split : (start.splitter.feedEach (arrived arrivals)).failure = none
  given : given = start.ahead ending arrivals

section

variable {start h h' : Hopper α} {ending : Splitter → List (Item α)} {arrivals : List Arrival}
  {given : List (Item α)}

theorem Course.finish (hc : start.Course arrivals given h) (hlive : h.isLive = true)
    (hqueued : h.queued = []) (ending : Splitter → List (Item α)) :
    start.Finished ending arrivals (given ++ ending h.splitter) h.endInput.2 where
  dead := (endInput_eq hqueued).2.1
  queued := (endInput_eq hqueued).2.2
  split := (hc.feedEach hlive).1
  given := by
    have hall := hc.continues ending []
    rw [List.append_nil, ahead_of_drained ending [] hlive hqueued, itemsThrough] at hall
    exact hall.symm

theorem Finished.dispense {item : Option (Item α)} (hf : start.Finished ending arrivals given h)
    (hd : h.dispense = (item, h')) :
    item = none ∧ start.Finished ending arrivals given h' := by
  obtain ⟨h₀, hd₀, hframe⟩ := dispense_of_queued_nil hf.queued
  obtain ⟨rfl, rfl⟩ := Prod.mk.inj (hd.symm.trans hd₀)
  exact ⟨rfl, hframe.isLive.trans hf.dead, (queued_of_dispense_none hd).2, hf.split, hf.given⟩

end

end Hopper

/-! ## Feeds that pull -/

/-- What a supply gives to one pull, or to none, short of its end. -/
inductive Supply.Takes [Supply σ] (s : σ) : List Arrival → σ → Prop
  | nothing : Takes s [] s
  | fragment {text : String} {s' : σ} : pull s = (.fragment text, s') → Takes s [.ok text] s'
  | failed {fault : Fault} {s' : σ} : pull s = (.failed fault, s') → Takes s [.error fault] s'

namespace PullFeed

variable [Supply σ] {f f' : PullFeed σ α} {start : Hopper α} {arrivals : List Arrival}
  {given : List (Item α)}

/-- **A turn of a feed that pulls leads its hopper on** by what the supply gives, or ends it. -/
theorem Turn.course {answer : Option (Option (Item α))} (hturn : f.Turn answer f')
    (hc : start.Course arrivals given f.hopper) :
    (∃ came supply, Supply.Takes f.supply came supply ∧
      (f'.supply = supply ∨ f'.hopper.isLive = false ∧ f'.supply = Supply.close supply) ∧
      start.Course (arrivals ++ came) (given ++ answer.join.toList) f'.hopper) ∨
    ∃ supply, Supply.pull f.supply = (.ended, supply) ∧ f'.supply = Supply.close supply ∧
      start.Finished start.settings.ending arrivals (given ++ answer.join.toList) f'.hopper := by
  cases hturn with
  | given hd =>
    refine .inl ⟨[], _, .nothing, .inl rfl, ?_⟩
    rw [List.append_nil]
    exact hc.dispense hd
  | spent hd =>
    refine .inl ⟨[], _, .nothing, .inl rfl, ?_⟩
    rw [List.append_nil]
    exact hc.dispense hd
  | @fragment h text supply hd hlive hpull =>
    refine .inl ⟨_, _, .fragment hpull, ?_, ?_⟩
    · cases hpoured : (h.pour text).isLive with
      | true => exact .inl rfl
      | false => exact .inr ⟨rfl, rfl⟩
    · rw [Option.join_none, Option.toList_none, List.append_nil]
      exact (hc.drain hd).fragment text hlive (Hopper.queued_of_dispense_none hd).2
  | @ended h supply hd hlive hpull =>
    obtain ⟨-, hqueued⟩ := Hopper.queued_of_dispense_none hd
    have hfinished := (hc.drain hd).finish hlive hqueued start.settings.ending
    have hitems := (Hopper.endInput_eq hqueued).1
    rw [(hc.drain hd).settings] at hitems
    rw [← hitems] at hfinished
    exact .inr ⟨supply, hpull, rfl, hfinished⟩
  | @failed h fault supply hd hlive hpull =>
    refine .inl ⟨_, _, .failed hpull, .inl rfl, ?_⟩
    exact (hc.drain hd).fault fault hlive (Hopper.queued_of_dispense_none hd).2

end PullFeed

/-! ## Feeds that are polled -/

/-- What an inflow gives to one poll, or to none, short of its end. -/
inductive Inflow.Takes [Inflow σ] (s : σ) : List Delivery → σ → Prop
  | nothing : Takes s [] s
  | notReady {s' : σ} : poll s = (.notReady, s') → Takes s [] s'
  | chunk {octets : Octets} {s' : σ} : poll s = (.chunk octets, s') → Takes s [.ok octets] s'
  | failed {report : String} {s' : σ} :
      poll s = (.failed report, s') → Takes s [.error (.reported .other report)] s'

namespace Utf8.Carry

/-- What a chunk brings after what was delivered before, and what is held then. -/
theorem received_concat_ok (deliveries : List Delivery) (chunk : Octets) :
    empty.received (deliveries ++ [.ok chunk]) =
        empty.received deliveries ++ [((empty.afterChunks (arrived deliveries)).push chunk).1] ∧
      empty.afterChunks (arrived (deliveries ++ [.ok chunk])) =
        ((empty.afterChunks (arrived deliveries)).push chunk).2 := by
  constructor
  · rw [received_append, received, received]
  · rw [arrived_append, arrived_ok, arrived_nil, afterChunks_append]
    rfl

theorem received_concat_error (deliveries : List Delivery) (fault : Fault) :
    empty.received (deliveries ++ [.error fault]) = empty.received deliveries ++ [.error fault] ∧
      empty.afterChunks (arrived (deliveries ++ [.error fault])) =
        empty.afterChunks (arrived deliveries) := by
  constructor
  · rw [received_append, received, received]
  · rw [arrived_append, arrived_error, arrived_nil, List.append_nil]

end Utf8.Carry

namespace PollFeed

/-- The hopper stands where these deliveries lead it, and while it is live the feed holds what they leave
    unfinished. -/
structure Follows (start : Hopper α) (deliveries : List Delivery) (given : List (Item α))
    (f : PollFeed σ α) : Prop where
  course : start.Course (Utf8.Carry.empty.received deliveries) given f.hopper
  carry : f.hopper.isLive = true → f.carry = Utf8.Carry.empty.afterChunks (arrived deliveries)

/-- The inflow ended after these deliveries, and everything that came of them was given. -/
def IsFinished (start : Hopper α) (deliveries : List Delivery) (given : List (Item α))
    (f : PollFeed σ α) : Prop :=
  start.Finished ((Utf8.Carry.empty.afterChunks (arrived deliveries)).ending start.settings)
    (Utf8.Carry.empty.received deliveries) given f.hopper

theorem toList_endInflow (f : PollFeed σ α) (hqueued : f.hopper.queued = []) :
    f.endInflow.1.toList = f.carry.ending f.hopper.settings f.hopper.splitter := by
  rw [(endInflow_spec f).1, Utf8.Carry.ending]
  cases f.carry.unfinished? with
  | none => exact (Hopper.endInput_eq hqueued).1
  | some fault => rfl

variable [Inflow σ] {f f' : PollFeed σ α} {start : Hopper α} {deliveries : List Delivery}
  {given : List (Item α)}

/-- **A turn of a feed that is polled leads it on** by what the inflow gives, or ends it. -/
theorem Follows.turn {answer : Option (Readiness (Option (Item α)))}
    (hf : f.Follows start deliveries given) (hturn : f.Turn answer f') :
    (∃ came, Inflow.Takes f.inflow came f'.inflow ∧
      f'.Follows start (deliveries ++ came) (given ++ (answer.bind Readiness.item?).toList)) ∨
    Inflow.poll f.inflow = (.ended, f'.inflow) ∧
      f'.IsFinished start deliveries (given ++ (answer.bind Readiness.item?).toList) := by
  -- handing out keeps what is held, so it only matters what came
  have hcarry : ∀ {h : Hopper α} {item : Option (Item α)}, f.hopper.dispense = (item, h) →
      h.isLive = true → f.carry = Utf8.Carry.empty.afterChunks (arrived deliveries) := by
    intro h item hd hlive
    exact hf.carry ((Hopper.isLive_of_dispense hd).symm.trans hlive)
  cases hturn with
  | given hd =>
    refine .inl ⟨[], .nothing, ?_, ?_⟩
    · rw [List.append_nil]
      exact hf.course.dispense hd
    · rw [List.append_nil]
      exact hcarry hd
  | spent hd =>
    refine .inl ⟨[], .nothing, ?_, ?_⟩
    · rw [List.append_nil]
      exact hf.course.dispense hd
    · rw [List.append_nil]
      exact hcarry hd
  | notReady hwants hpoll =>
    refine .inl ⟨[], .notReady hpoll, ?_, ?_⟩
    · rw [List.append_nil]
      exact hf.course.dispense hwants.drained
    · rw [List.append_nil]
      exact hcarry hwants.drained
  | @failed h report inflow hwants hpoll =>
    obtain ⟨hreceived, hafter⟩ :=
      Utf8.Carry.received_concat_error deliveries (.reported .other report)
    obtain ⟨-, hqueued⟩ := Hopper.queued_of_dispense_none hwants.drained
    refine .inl ⟨_, .failed hpoll, ?_, ?_⟩
    · rw [hreceived]
      exact (hf.course.drain hwants.drained).fault _ hwants.live hqueued
    · rw [hafter]
      exact hcarry hwants.drained
  | @ended h inflow hwants hpoll =>
    obtain ⟨-, hqueued⟩ := Hopper.queued_of_dispense_none hwants.drained
    have hdrained := hf.course.drain hwants.drained
    have hitems := toList_endInflow { f with inflow, hopper := h } hqueued
    have hopper : (endInflow { f with inflow, hopper := h }).2.hopper = h.endInput.2 :=
      congrArg PollFeed.hopper (endInflow_spec _).2
    have hfinished := hdrained.finish hwants.live hqueued
      ((Utf8.Carry.empty.afterChunks (arrived deliveries)).ending start.settings)
    rw [← hcarry hwants.drained hwants.live, ← hdrained.settings, ← hitems, ← hopper] at hfinished
    refine .inr ⟨?_, ?_⟩
    · rw [(endInflow_spec _).2]
      exact hpoll
    · rw [IsFinished, ← hcarry hwants.drained hwants.live, ← hdrained.settings]
      exact hfinished
  | @illFormed h octets inflow fault carry hwants hpoll hpush =>
    obtain ⟨hreceived, hafter⟩ := Utf8.Carry.received_concat_ok deliveries octets
    obtain ⟨-, hqueued⟩ := Hopper.queued_of_dispense_none hwants.drained
    rw [← hcarry hwants.drained hwants.live, hpush] at hreceived hafter
    refine .inl ⟨_, .chunk hpoll, ?_, fun _ => hafter.symm⟩
    rw [hreceived]
    exact (hf.course.drain hwants.drained).fault fault hwants.live hqueued
  | @chunk h octets inflow text carry hwants hpoll hpush =>
    obtain ⟨hreceived, hafter⟩ := Utf8.Carry.received_concat_ok deliveries octets
    obtain ⟨-, hqueued⟩ := Hopper.queued_of_dispense_none hwants.drained
    rw [← hcarry hwants.drained hwants.live, hpush] at hreceived hafter
    refine .inl ⟨_, .chunk hpoll, ?_, fun _ => hafter.symm⟩
    rw [hreceived, Option.bind_none, Option.toList_none, List.append_nil]
    exact (hf.course.drain hwants.drained).fragment text hwants.live hqueued

end PollFeed

end ObjectFeed
