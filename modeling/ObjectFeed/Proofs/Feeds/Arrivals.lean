/-
  The items that come of fragments and faults.

  * `itemsThrough` are the items of what arrives, told without running a hopper: a fault is an item of
    its own and changes nothing else, and what cannot be split is the last item;
  * `itemsThrough_append` and `itemsThrough_texts`: arrivals in two parts, and without faults;
  * `itemsThrough_ending`: the end of the input adds to the items before it, unless they are over;
  * `Hopper.ahead` are the items of a hopper and of what arrives next, and `ahead_pour`: taking a
    fragment in changes nothing about them.
-/
import ObjectFeed.Proofs.Feeds.Items
import ObjectFeed.Proofs.Utf8.Chunks

namespace ObjectFeed

variable {α : Type}

/-- The item at the end of the input: the failure to report, if the array is still open. -/
def Settings.ending (settings : Settings) (splitter : Splitter) : List (Item α) :=
  ((if settings.failOnTruncation then splitter.truncation? else none).map .error).toList

/-- The items of arrivals, up to a fragment that cannot be split.  Then come those of the end of the
    input, with what has been split so far. -/
def itemsThrough (interpret : Interpretation α) (settings : Settings)
    (ending : Splitter → List (Item α)) : Splitter → List Arrival → List (Item α)
  | splitter, [] => ending splitter
  | splitter, .error fault :: rest =>
    .error (.transport fault) :: itemsThrough interpret settings ending splitter rest
  | splitter, .ok text :: rest =>
    (splitter.feed text).objects.filterMap (itemOf? interpret settings) ++
      match (splitter.feed text).failure with
      | some failure => [.error failure]
      | none => itemsThrough interpret settings ending (splitter.feed text).splitter rest

section

variable (interpret : Interpretation α) (settings : Settings) (ending : Splitter → List (Item α))

theorem itemsThrough_append (splitter : Splitter) (arrivals rest : List Arrival) :
    itemsThrough interpret settings ending splitter (arrivals ++ rest) =
      itemsThrough interpret settings
        (fun splitter => itemsThrough interpret settings ending splitter rest) splitter
        arrivals := by
  induction arrivals generalizing splitter with
  | nil => rfl
  | cons arrival arrivals ih =>
    cases arrival with
    | error fault => rw [List.cons_append, itemsThrough, itemsThrough, ih]
    | ok text =>
      rw [List.cons_append, itemsThrough, itemsThrough]
      cases (splitter.feed text).failure with
      | some failure => rfl
      | none => rw [ih]

theorem itemsThrough_texts (splitter : Splitter) (fragments : List String) :
    itemsThrough interpret settings ending splitter (fragments.map .ok) =
      (splitter.feedEach fragments).objects.filterMap (itemOf? interpret settings) ++
        match (splitter.feedEach fragments).failure with
        | some failure => [.error failure]
        | none => ending (splitter.feedEach fragments).splitter := by
  induction fragments generalizing splitter with
  | nil => rfl
  | cons fragment fragments ih =>
    rw [List.map_cons, itemsThrough, Splitter.feedEach]
    cases (splitter.feed fragment).failure with
    | some failure => rfl
    | none => simp only [ih, List.filterMap_append, List.append_assoc]

theorem itemsOf_eq_itemsThrough (splitter : Splitter) (fragments : List String) :
    itemsOf interpret settings splitter fragments =
      itemsThrough interpret settings settings.ending splitter (fragments.map .ok) := by
  rw [itemsThrough_texts, itemsOf, Settings.ending]
  cases (splitter.feedEach fragments).failure <;> rfl

/-- After fragments, a fault stands behind their objects, if not the failure to split them. -/
theorem itemsThrough_texts_fault (splitter : Splitter) (fragments : List String) (fault : Fault)
    (arrivals : List Arrival) :
    ∃ failure later,
      itemsThrough interpret settings ending splitter (fragments.map .ok ++ .error fault :: arrivals) =
        (splitter.feedEach fragments).objects.filterMap (itemOf? interpret settings) ++
          .error failure :: later := by
  rw [itemsThrough_append, itemsThrough_texts]
  cases (splitter.feedEach fragments).failure with
  | some failure => exact ⟨failure, [], rfl⟩
  | none => exact ⟨_, _, rfl⟩

/-- The fragments among arrivals. -/
def texts (arrivals : List Arrival) : List String :=
  arrivals.filterMap Except.toOption

/-- **The end of the input adds to the items before it**, unless a fragment could not be split. -/
theorem itemsThrough_ending (splitter : Splitter) (arrivals : List Arrival) :
    itemsThrough interpret settings ending splitter arrivals =
      itemsThrough interpret settings (fun _ => []) splitter arrivals ++
        if (splitter.feedEach (texts arrivals)).failure = none then
          ending (splitter.feedEach (texts arrivals)).splitter
        else [] := by
  induction arrivals generalizing splitter with
  | nil => rfl
  | cons arrival arrivals ih =>
    cases arrival with
    | error fault =>
      rw [itemsThrough, itemsThrough, ih, List.cons_append]
      rfl
    | ok text =>
      have htexts : texts (.ok text :: arrivals) = text :: texts arrivals := rfl
      rw [itemsThrough, itemsThrough, htexts, Splitter.feedEach, List.append_assoc]
      cases hfailure : (splitter.feed text).failure with
      | some failure => simp only [reduceCtorEq, if_false, List.append_nil]
      | none => simp only [ih]

end

namespace Hopper

/-- The items to hand out if this is what arrives, and these are the items at its end. -/
def ahead (h : Hopper α) (ending : Splitter → List (Item α)) (arrivals : List Arrival) :
    List (Item α) :=
  h.queued ++
    if h.isLive then itemsThrough h.interpret h.settings ending h.splitter arrivals else []

section

variable {h h' : Hopper α} (ending : Splitter → List (Item α)) (arrivals : List Arrival)

theorem coming_eq_ahead (h : Hopper α) (fragments : List String) :
    h.coming fragments = h.ahead h.settings.ending (fragments.map .ok) := by
  rw [coming, ahead, itemsOf_eq_itemsThrough]

theorem ahead_of_not_live (hlive : h.isLive = false) : h.ahead ending arrivals = h.queued := by
  simp only [ahead, hlive, Bool.false_eq_true, if_false, List.append_nil]

theorem ahead_of_drained (hlive : h.isLive = true) (hqueued : h.queued = []) :
    h.ahead ending arrivals =
      itemsThrough h.interpret h.settings ending h.splitter arrivals := by
  simp only [ahead, hlive, if_true, hqueued, List.nil_append]

theorem ahead_new (interpret : Interpretation α) (settings : Settings) :
    (Hopper.new interpret settings).ahead ending arrivals =
      itemsThrough interpret settings ending { options := settings.splitter } arrivals :=
  ahead_of_drained ending arrivals rfl rfl

theorem Frame.ahead (hf : h.Frame h') (given : List (Item α))
    (hqueued : h.queued = given ++ h'.queued) :
    h.ahead ending arrivals = given ++ h'.ahead ending arrivals := by
  rw [Hopper.ahead, Hopper.ahead, hf.interpret, hf.settings, hf.splitter, hf.isLive, hqueued,
    List.append_assoc]

theorem pour_status (h : Hopper α) (fragment : String) :
    (h.pour fragment).status =
      if (h.splitter.feed fragment).failure.isNone then h.status else .broken := by
  rw [pour]
  cases (h.splitter.feed fragment).failure <;> rfl

theorem isLive_pour (hlive : h.isLive = true) (fragment : String) :
    (h.pour fragment).isLive = (h.splitter.feed fragment).failure.isNone := by
  rw [isLive, pour_status]
  cases (h.splitter.feed fragment).failure with
  | none => exact hlive
  | some failure => rfl

/-- What a fragment brings is queued: what comes of its objects, and the failure to split it. -/
theorem queued_pour (hqueued : h.queued = []) (fragment : String) :
    (h.pour fragment).queued =
      (h.splitter.feed fragment).objects.filterMap (itemOf? h.interpret h.settings) ++
        ((h.splitter.feed fragment).failure.map .error).toList := by
  have hwithheld := withheld_of_queued_nil hqueued
  have hobjects : h.backlog.toList.filterMap (itemOf? h.interpret h.settings) = [] :=
    (List.append_eq_nil_iff.1 hqueued).1
  rw [pour]
  cases (h.splitter.feed fragment).failure with
  | none =>
    simp only [queued, hwithheld, Backlog.toList_pushAll, List.filterMap_append, hobjects,
      List.nil_append]
  | some failure =>
    simp only [queued, Backlog.toList_pushAll, List.filterMap_append, hobjects, List.nil_append]

theorem pour_interpret (h : Hopper α) (fragment : String) :
    (h.pour fragment).interpret = h.interpret := by
  rw [pour]
  cases (h.splitter.feed fragment).failure <;> rfl

theorem pour_settings (h : Hopper α) (fragment : String) :
    (h.pour fragment).settings = h.settings := by
  rw [pour]
  cases (h.splitter.feed fragment).failure <;> rfl

theorem pour_splitter (h : Hopper α) (fragment : String) :
    (h.pour fragment).splitter = (h.splitter.feed fragment).splitter := by
  rw [pour]
  cases (h.splitter.feed fragment).failure <;> rfl

theorem toList_backlog_pour (h : Hopper α) (fragment : String) :
    (h.pour fragment).backlog.toList = h.backlog.toList ++ (h.splitter.feed fragment).objects := by
  rw [← Backlog.toList_pushAll, pour]
  cases (h.splitter.feed fragment).failure <;> rfl

theorem pour_tally (h : Hopper α) (fragment : String) :
    (h.pour fragment).tally =
      { h.tally with
        fragments := h.tally.fragments + 1
        waiting := (h.pour fragment).waiting } := by
  rw [waiting, pour]
  cases (h.splitter.feed fragment).failure <;> rfl

/-- **Taking in the first fragment changes nothing about the items ahead.** -/
theorem ahead_pour (hlive : h.isLive = true) (hqueued : h.queued = []) (fragment : String) :
    h.ahead ending (.ok fragment :: arrivals) = (h.pour fragment).ahead ending arrivals := by
  rw [ahead_of_drained _ _ hlive hqueued, itemsThrough, ahead, queued_pour hqueued,
    isLive_pour hlive, pour_interpret, pour_settings, pour_splitter, List.append_assoc]
  cases (h.splitter.feed fragment).failure with
  | none => rfl
  | some failure => rfl

theorem ahead_fault (hlive : h.isLive = true) (hqueued : h.queued = []) (fault : Fault) :
    h.ahead ending (.error fault :: arrivals) =
      .error (.transport fault) :: h.ahead ending arrivals := by
  rw [ahead_of_drained _ _ hlive hqueued, ahead_of_drained _ _ hlive hqueued, itemsThrough]

theorem endInput_eq (hqueued : h.queued = []) :
    ((h.endInput.1.map .error).toList : List (Item α)) = h.settings.ending h.splitter ∧
      h.endInput.2.isLive = false ∧ h.endInput.2.queued = [] := by
  rw [endInput, Settings.ending]
  cases h.splitter.truncation? with
  | none => exact ⟨by rw [ite_self], rfl, hqueued⟩
  | some failure =>
    cases h.settings.failOnTruncation
    · exact ⟨rfl, rfl, hqueued⟩
    · exact ⟨rfl, rfl, hqueued⟩

end

end Hopper

end ObjectFeed
