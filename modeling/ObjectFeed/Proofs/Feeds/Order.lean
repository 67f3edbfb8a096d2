/-
  The order that the hopper of a feed keeps.

  * `Hopper.Dispensed` says what a hopper hands out, and what that leaves: what comes of an object that
    waits, or else the failure that is held back;
  * `Hopper.IsOrderly`: only a broken hopper holds a failure back, a final one, and a hopper that is
    over without one is empty.  It is kept by everything that a feed does to its hopper, if the input
    ends only where nothing waits;
  * `IsOrderly.isSpent_of_failure`: after a failure an orderly hopper is spent if and only if the
    failure is final;
  * `Move.status_eq`: a hopper that is over stays what it then is.
-/
import ObjectFeed.Proofs.Feeds.Moves

namespace ObjectFeed.Hopper

variable {α : Type} {h h' : Hopper α}

theorem isLive_iff : h.isLive = true ↔ h.status = .live := by
  rw [isLive, beq_iff_eq]

theorem isLive_eq_false_iff : h.isLive = false ↔ h.status ≠ .live := by
  rw [Ne, ← isLive_iff, Bool.not_eq_true]

theorem isLive_congr (hstatus : h.status = h'.status) : h.isLive = h'.isLive := by
  rw [isLive, isLive, hstatus]

theorem isSpent_iff :
    h.isSpent = true ↔ h.isLive = false ∧ h.backlog.toList = [] ∧ h.withheld = none := by
  simp [isSpent, and_assoc]

theorem isSpent_eq_false_of_live (hlive : h.isLive = true) : h.isSpent = false := by
  simp [isSpent, hlive]

/-! ## Handing out -/

/-- What a hopper hands out. -/
inductive Dispensed (h : Hopper α) : Option (Item α) → Hopper α → Prop
  /-- What comes of an object that waits. -/
  | object {item : Item α} {h' : Hopper α} (text : String) :
      itemOf? h.interpret h.settings text = some item → h.backlog.toList ≠ [] →
      h'.withheld = h.withheld → Dispensed h (some item) h'
  /-- The failure held back, if there is one, once nothing waits. -/
  | withheld {h' : Hopper α} :
      h'.backlog.toList = [] → h'.withheld = none → Dispensed h (h.withheld.map .error) h'

theorem dispensed (h : Hopper α) : h.Dispensed h.dispense.1 h.dispense.2 := by
  fun_induction dispense h with
  | case1 h text rest hpop tally a hinterpret =>
    refine .object text ?_ ?_ rfl
    · simp only [itemOf?, hinterpret]
    · simp [Backlog.toList_of_pop? hpop]
  | case2 h text rest hpop tally rejection hinterpret h' hskip ih =>
    -- the object that is passed over waits in front of the one that is handed out
    generalize h'.dispense.1 = item at ih ⊢
    cases ih with
    | object text' hitem _ hwithheld =>
      exact .object text' hitem (by simp [Backlog.toList_of_pop? hpop]) hwithheld
    | withheld hempty hnone => exact .withheld hempty hnone
  | case3 h text rest hpop tally rejection hinterpret h' hskip =>
    refine .object text ?_ ?_ rfl
    · simp only [itemOf?, hinterpret, hskip, Bool.false_eq_true, if_false]
    · simp [Backlog.toList_of_pop? hpop]
  | case4 h hpop => exact .withheld ((Backlog.pop?_eq_none_iff _).1 hpop) rfl

theorem dispensed_of_eq {item : Option (Item α)} (hd : h.dispense = (item, h')) :
    h.Dispensed item h' := by
  have hdispensed := h.dispensed
  rwa [hd] at hdispensed

theorem status_of_dispense {item : Option (Item α)} (hd : h.dispense = (item, h')) :
    h'.status = h.status := by
  have hframe := h.dispense_frame
  rw [hd] at hframe
  exact hframe.status

theorem isLive_of_dispense {item : Option (Item α)} (hd : h.dispense = (item, h')) :
    h'.isLive = h.isLive :=
  isLive_congr (status_of_dispense hd)

theorem drained_of_dispense (hd : h.dispense = (none, h')) :
    h.withheld = none ∧ h'.backlog.toList = [] ∧ h'.withheld = none := by
  generalize hitem : (none : Option (Item α)) = item at hd
  cases dispensed_of_eq hd with
  | object => cases hitem
  | withheld hempty hnone => exact ⟨Option.map_eq_none_iff.1 hitem.symm, hempty, hnone⟩

theorem isSpent_of_dispense (hd : h.dispense = (none, h')) (hlive : h'.isLive = false) :
    h'.isSpent = true := by
  obtain ⟨-, hempty, hnone⟩ := drained_of_dispense hd
  exact isSpent_iff.2 ⟨hlive, hempty, hnone⟩

theorem dispense_of_isSpent {item : Option (Item α)} (hspent : h.isSpent = true)
    (hd : h.dispense = (item, h')) : item = none ∧ h'.isSpent = true := by
  obtain ⟨hover, hempty, hnone⟩ := isSpent_iff.1 hspent
  obtain ⟨h₀, hd₀, -⟩ := dispense_of_queued_nil (h := h) (by simp [queued, hempty, hnone])
  obtain ⟨rfl, rfl⟩ := Prod.mk.inj (hd.symm.trans hd₀)
  exact ⟨rfl, isSpent_of_dispense hd ((isLive_of_dispense hd).trans hover)⟩

theorem isRejected_of_itemOf? {interpret : Interpretation α} {settings : Settings} {text : String}
    {failure : Failure} (hitem : itemOf? interpret settings text = some (.error failure)) :
    ∃ rejection, failure = .rejected rejection := by
  rw [itemOf?] at hitem
  cases hinterpret : interpret text with
  | ok a => rw [hinterpret] at hitem; cases hitem
  | error rejection =>
    rw [hinterpret] at hitem
    cases hskip : settings.skipInvalid with
    | true => simp [hskip] at hitem
    | false =>
      simp only [hskip, Bool.false_eq_true, if_false, Option.some.injEq, Except.error.injEq] at hitem
      exact ⟨rejection, hitem.symm⟩

/-! ## The end of the input -/

theorem isFinal_of_truncation? {splitter : Splitter} {failure : Failure}
    (htruncation : splitter.truncation? = some failure) : failure.isFinal = true := by
  rw [Splitter.truncation?] at htruncation
  cases hplace : splitter.place with
  | inside depth mode object =>
    rw [hplace] at htruncation
    cases htruncation
    rfl
  | before => rw [hplace] at htruncation; cases htruncation
  | after => rw [hplace] at htruncation; cases htruncation

/-- The end of the input is reported by a final failure, if at all, and ends the hopper.  What waits is
    left. -/
theorem endInput_spec (h : Hopper α) :
    (∀ failure, h.endInput.1 = some failure → failure.isFinal = true) ∧
      h.endInput.2.isLive = false ∧ h.endInput.2.backlog = h.backlog ∧
      h.endInput.2.withheld = h.withheld := by
  rw [endInput]
  cases htruncation : h.splitter.truncation? with
  | none => exact ⟨nofun, rfl, rfl, rfl⟩
  | some failure =>
    cases h.settings.failOnTruncation with
    | false => exact ⟨nofun, rfl, rfl, rfl⟩
    | true =>
      refine ⟨?_, rfl, rfl, rfl⟩
      rintro _ ⟨⟩
      exact isFinal_of_truncation? htruncation

theorem endInput_isSpent (hempty : h.backlog.toList = []) (hnone : h.withheld = none) :
    h.endInput.2.isSpent = true := by
  obtain ⟨-, hover, hbacklog, hwithheld⟩ := h.endInput_spec
  exact isSpent_iff.2 ⟨hover, hbacklog ▸ hempty, hwithheld.trans hnone⟩

theorem abandon_isSpent (h : Hopper α) : h.abandon.isSpent = true :=
  isSpent_iff.2 ⟨h.abandon_isLive, rfl, rfl⟩

/-! ## Order -/

/-- Nothing is left behind in a hopper. -/
structure IsOrderly (h : Hopper α) : Prop where
  /-- Only a broken hopper holds a failure back, and only a final one. -/
  withheld : ∀ failure, h.withheld = some failure → h.status = .broken ∧ failure.isFinal = true
  /-- A hopper that is over and holds no failure back is empty. -/
  backlog : h.isLive = false → h.withheld = none → h.backlog.toList = []

theorem isOrderly_new (interpret : Interpretation α) (settings : Settings) :
    (Hopper.new interpret settings).IsOrderly where
  withheld := nofun
  backlog := nofun

theorem isOrderly_of_isSpent (hspent : h.isSpent = true) : h.IsOrderly := by
  obtain ⟨-, hempty, hnone⟩ := isSpent_iff.1 hspent
  refine ⟨?_, fun _ _ => hempty⟩
  rw [hnone]
  exact nofun

namespace IsOrderly

theorem withheld_eq_none (hh : h.IsOrderly) (hlive : h.isLive = true) : h.withheld = none := by
  cases hwithheld : h.withheld with
  | none => rfl
  | some failure =>
    have hbroken := (hh.withheld failure hwithheld).1
    rw [isLive_iff.1 hlive] at hbroken
    cases hbroken

theorem isSpent_iff (hh : h.IsOrderly) :
    h.isSpent = true ↔ h.isLive = false ∧ h.withheld = none := by
  rw [Hopper.isSpent_iff]
  constructor
  · rintro ⟨hover, -, hnone⟩
    exact ⟨hover, hnone⟩
  · rintro ⟨hover, hnone⟩
    exact ⟨hover, hh.backlog hover hnone, hnone⟩

theorem pour (hh : h.IsOrderly) (hlive : h.isLive = true) (text : String) :
    (h.pour text).IsOrderly := by
  have hnone := hh.withheld_eq_none hlive
  rw [Hopper.pour]
  cases hfailure : (h.splitter.feed text).failure with
  | none =>
    refine ⟨fun failure hwithheld => ?_, fun hover => ?_⟩
    · exact absurd (hwithheld.symm.trans hnone) nofun
    · exact absurd (hlive.symm.trans hover) nofun
  | some failure =>
    obtain ⟨refusal, -, rfl⟩ := Option.map_eq_some_iff.1 hfailure
    refine ⟨?_, fun _ => nofun⟩
    rintro _ ⟨⟩
    cases refusal <;> exact ⟨rfl, rfl⟩

theorem dispense (hh : h.IsOrderly) {item : Option (Item α)} (hd : h.dispense = (item, h')) :
    h'.IsOrderly := by
  cases dispensed_of_eq hd with
  | object text hitem hwaits hwithheld =>
    refine ⟨?_, fun hover hnone => ?_⟩
    · rw [hwithheld, status_of_dispense hd]
      exact hh.withheld
    · -- an object waited, so an orderly hopper that is over held a failure back, and does so still
      have hempty := hh.backlog ((isLive_of_dispense hd).symm.trans hover) (hwithheld.symm.trans hnone)
      exact absurd hempty hwaits
  | withheld hempty hnone =>
    refine ⟨?_, fun _ _ => hempty⟩
    rw [hnone]
    exact nofun

/-- A failure that an orderly hopper hands out is a rejection, after which something is left, or was held
    back, and nothing is left. -/
theorem failure_cases (hh : h.IsOrderly) {failure : Failure}
    (hd : h.dispense = (some (.error failure), h')) :
    (∃ rejection, failure = .rejected rejection ∧ h'.isSpent = false) ∨
      (failure.isFinal = true ∧ h'.isSpent = true) := by
  have hh' := hh.dispense hd
  have hlive := isLive_of_dispense hd
  generalize hitem : (some (.error failure) : Option (Item α)) = item at hd
  cases dispensed_of_eq hd with
  | object text hitem' hwaits hwithheld =>
    obtain ⟨rejection, rfl⟩ := isRejected_of_itemOf? (hitem' ▸ hitem.symm)
    refine .inl ⟨rejection, rfl, ?_⟩
    rw [← Bool.not_eq_true, hh'.isSpent_iff, hlive, hwithheld]
    rintro ⟨hover, hnone⟩
    exact hwaits (hh.backlog hover hnone)
  | withheld hempty hnone =>
    have hwithheld : h.withheld = some failure := by
      cases hfailure : h.withheld with
      | none => rw [hfailure] at hitem; cases hitem
      | some failure' => rw [hfailure] at hitem; cases hitem; rfl
    obtain ⟨hbroken, hfinal⟩ := hh.withheld failure hwithheld
    refine .inr ⟨hfinal, ?_⟩
    rw [hh'.isSpent_iff, hlive, isLive_eq_false_iff, hbroken]
    exact ⟨nofun, hnone⟩

/-- **After a failure that it handed out, an orderly hopper is spent if and only if the failure is
    final.** -/
theorem isSpent_of_failure (hh : h.IsOrderly) {failure : Failure}
    (hd : h.dispense = (some (.error failure), h')) : h'.isSpent = failure.isFinal := by
  rcases hh.failure_cases hd with ⟨rejection, rfl, hleft⟩ | ⟨hfinal, hspent⟩
  · exact hleft
  · rw [hspent, hfinal]

theorem ne_transport (hh : h.IsOrderly) {failure : Failure}
    (hd : h.dispense = (some (.error failure), h')) (fault : Fault) :
    failure ≠ .transport fault := by
  rintro rfl
  rcases hh.failure_cases hd with ⟨rejection, heq, -⟩ | ⟨hfinal, -⟩
  · cases heq
  · cases hfinal

end IsOrderly

/-! ## Hoppers that are over -/

/-- **A hopper that is over stays what it then is.** -/
theorem Move.status_eq (hmove : h.Move h') (hover : h.isLive = false) : h'.status = h.status := by
  cases hmove with
  | pour text hlive => exact absurd (hlive.symm.trans hover) nofun
  | dispense => exact h.dispense_frame.status
  | endInput hlive => exact absurd (hlive.symm.trans hover) nofun
  | abandon => simp [Hopper.abandon, hover]

end ObjectFeed.Hopper
