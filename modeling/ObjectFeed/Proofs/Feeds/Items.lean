/-
  The items that a hopper gives, told without running it.

  * `itemsOf` are the items that come of the rest of an array, in fragments, up to the end;
  * `Hopper.queued` are the items that a hopper hands out before it takes another fragment, and
    `Hopper.coming` all items that it gives when it is fed these fragments and no more;
  * `dispense_frame`, `dispense_queued`: an item handed out is the first of those that are queued, and
    handing it out changes nothing else.
-/
import ObjectFeed.Hopper

namespace ObjectFeed

variable {α : Type}

/-- What comes of an object.  Nothing does if it is rejected and rejected objects are passed over. -/
def itemOf? (interpret : Interpretation α) (settings : Settings) (text : String) :
    Option (Item α) :=
  match interpret text with
  | .ok a => some (.ok a)
  | .error rejection =>
    if settings.skipInvalid then none else some (.error (.rejected rejection))

/-- The items that come of the rest of an array: those of its objects, and the failure at the end if
    there is one. -/
def itemsOf (interpret : Interpretation α) (settings : Settings) (splitter : Splitter)
    (fragments : List String) : List (Item α) :=
  let fed := splitter.feedEach fragments
  let failure := match fed.failure with
    | some failure => some failure
    | none => if settings.failOnTruncation then fed.splitter.truncation? else none
  fed.objects.filterMap (itemOf? interpret settings) ++ (failure.map .error).toList

namespace Hopper

/-- The items to hand out before another fragment is taken. -/
def queued (h : Hopper α) : List (Item α) :=
  h.backlog.toList.filterMap (itemOf? h.interpret h.settings) ++ (h.withheld.map .error).toList

/-- All items to hand out if these are the fragments to come. -/
def coming (h : Hopper α) (fragments : List String) : List (Item α) :=
  h.queued ++ if h.isLive then itemsOf h.interpret h.settings h.splitter fragments else []

/-! ## Handing out -/

/-- Hoppers that differ only in what waits and in the tally. -/
structure Frame (h h' : Hopper α) : Prop where
  interpret : h'.interpret = h.interpret
  settings : h'.settings = h.settings
  splitter : h'.splitter = h.splitter
  status : h'.status = h.status

section

variable {h h' h'' : Hopper α}

theorem Frame.trans (h₁ : h.Frame h') (h₂ : h'.Frame h'') : h.Frame h'' where
  interpret := h₂.interpret.trans h₁.interpret
  settings := h₂.settings.trans h₁.settings
  splitter := h₂.splitter.trans h₁.splitter
  status := h₂.status.trans h₁.status

theorem Frame.isLive (hf : h.Frame h') : h'.isLive = h.isLive := by
  rw [Hopper.isLive, Hopper.isLive, hf.status]

/-- Handing out changes nothing but what waits and the tally. -/
theorem dispense_frame (h : Hopper α) : h.Frame h.dispense.2 := by
  fun_induction dispense h with
  | case2 h text rest hpop tally rejection hinterpret h' hskip ih =>
    exact ⟨ih.interpret, ih.settings, ih.splitter, ih.status⟩
  | _ => exact ⟨rfl, rfl, rfl, rfl⟩

theorem dispense_queued (h : Hopper α) :
    h.dispense.1 = h.queued.head? ∧ h.dispense.2.queued = h.queued.tail := by
  fun_induction dispense h with
  | case1 h text rest hpop tally a hinterpret =>
    have hitem : itemOf? h.interpret h.settings text = some (.ok a) := by
      simp only [itemOf?, hinterpret]
    simp only [queued, Backlog.toList_of_pop? hpop, List.filterMap_cons, hitem]
    exact ⟨rfl, rfl⟩
  | case2 h text rest hpop tally rejection hinterpret h' hskip ih =>
    have hitem : itemOf? h.interpret h.settings text = none := by
      simp only [itemOf?, hinterpret, hskip, if_true]
    have hqueued : h.queued = h'.queued := by
      simp only [queued, Backlog.toList_of_pop? hpop, List.filterMap_cons, hitem, h']
    rw [hqueued]
    exact ih
  | case3 h text rest hpop tally rejection hinterpret h' hskip =>
    have hitem : itemOf? h.interpret h.settings text = some (.error (.rejected rejection)) := by
      simp only [itemOf?, hinterpret, hskip, Bool.false_eq_true, if_false]
    simp only [queued, Backlog.toList_of_pop? hpop, List.filterMap_cons, hitem, h']
    exact ⟨rfl, rfl⟩
  | case4 h hpop =>
    have hempty : h.backlog.toList = [] := (Backlog.pop?_eq_none_iff _).1 hpop
    simp only [queued, hempty]
    cases h.withheld <;> exact ⟨rfl, rfl⟩

theorem queued_of_dispense {item : Option (Item α)} (hd : h.dispense = (item, h')) :
    h.queued = item.toList ++ h'.queued := by
  obtain ⟨hhead, htail⟩ := h.dispense_queued
  rw [hd] at hhead htail
  obtain rfl : item = h.queued.head? := hhead
  rw [show h'.queued = h.queued.tail from htail]
  cases h.queued <;> rfl

theorem queued_of_dispense_none (hd : h.dispense = (none, h')) : h.queued = [] ∧ h'.queued = [] := by
  obtain ⟨hhead, htail⟩ := h.dispense_queued
  rw [hd] at hhead htail
  have hqueued : h.queued = [] := List.head?_eq_none_iff.1 hhead.symm
  rw [hqueued] at htail
  exact ⟨hqueued, htail⟩

theorem dispense_of_queued_nil (hqueued : h.queued = []) :
    ∃ h', h.dispense = (none, h') ∧ h.Frame h' := by
  have hhead := h.dispense_queued.1
  have hframe := h.dispense_frame
  rcases hd : h.dispense with ⟨item, h'⟩
  rw [hd, hqueued] at hhead
  rw [hd] at hframe
  obtain rfl : item = none := hhead
  exact ⟨h', rfl, hframe⟩

theorem dispense_of_queued_cons {item : Item α} {items : List (Item α)}
    (hqueued : h.queued = item :: items) :
    ∃ h', h.dispense = (some item, h') ∧ h.Frame h' ∧ h'.queued = items := by
  obtain ⟨hhead, htail⟩ := h.dispense_queued
  rw [hqueued] at hhead htail
  exact ⟨h.dispense.2, Prod.ext hhead rfl, h.dispense_frame, htail⟩

theorem withheld_of_queued_nil (hqueued : h.queued = []) : h.withheld = none := by
  have hnone := (List.append_eq_nil_iff.1 hqueued).2
  cases hwithheld : h.withheld with
  | none => rfl
  | some failure => rw [hwithheld] at hnone; cases hnone

end

end Hopper

end ObjectFeed
