/-
  What the interpretation of objects changes about what a feed gives.

  * `Skims`: a feed passes over some answers, and then gives one that counts;
  * `exists_asked`: if the answers of one feed are those of another that count, one at a time, so are any
    number of first answers;
  * `Hopper.Translates`: a hopper holds what another one holds, but for what is made of its items.  It is
    kept by whatever a feed does to both;
  * `PullFeed.next_skims` and `PollFeed.poll_skims`: so a feed with such a hopper gives what is made of the
    items of the other, and has taken as much from its supply or inflow;
  * `interpretation_acts_on_items`: hence how objects are interpreted, and whether rejected ones are passed
    over, makes no difference but to the items themselves.
-/
import ObjectFeed.Proofs.Feeds.Pulling
import ObjectFeed.Proofs.Feeds.Releasing

namespace ObjectFeed

variable {σ α β : Type}

/-! ## Answers that count -/

section

variable {S S' B C : Type} {ask : S → B × S} {ask' : S' → C × S'} {made : B → Option C}

/-- A feed passes over answers of which nothing is made, and then this is made of its answer. -/
inductive Skims (ask : S → B × S) (made : B → Option C) : S → C → S → Prop
  | passed {s s' s'' : S} {b : B} {c : C} :
      ask s = (b, s') → made b = none → Skims ask made s' c s'' → Skims ask made s c s''
  | given {s s' : S} {b : B} {c : C} :
      ask s = (b, s') → made b = some c → Skims ask made s c s'

theorem Skims.congr {s s' t : S} {c : C} (h : ask s = ask s') (hs : Skims ask made s' c t) :
    Skims ask made s c t := by
  cases hs with
  | passed hask hnone hrest => exact .passed (h.trans hask) hnone hrest
  | given hask hsome => exact .given (h.trans hask) hsome

/-- The answers that are passed over, and the one that counts. -/
theorem Skims.exists_asked {s t : S} {c : C} (hs : Skims ask made s c t) :
    ∃ k, (asked ask k s).1.filterMap made = [] ∧ made (ask (asked ask k s).2).1 = some c ∧
      (ask (asked ask k s).2).2 = t := by
  induction hs with
  | passed hask hnone _ ih =>
    obtain ⟨k, hpassed, hgiven, hleft⟩ := ih
    refine ⟨k + 1, ?_, ?_, ?_⟩
    · rw [asked, hask, List.filterMap_cons_none hnone, hpassed]
    · rw [asked, hask, hgiven]
    · rw [asked, hask, hleft]
  | given hask hsome =>
    refine ⟨0, rfl, ?_, ?_⟩
    · rw [asked, hask, hsome]
    · rw [asked, hask]

/-- **If each answer of a feed is what is made of the next answer of another that counts**, its first answers
    are what is made of the first answers of the other, up to the last that counts. -/
theorem exists_asked {R : S → S' → Prop}
    (hstep : ∀ {s s'}, R s s' → ∃ t, Skims ask made s (ask' s').1 t ∧ R t (ask' s').2) {s : S}
    {s' : S'} (hs : R s s') (n : Nat) :
    ∃ m, n ≤ m ∧ (asked ask' n s').1 = (asked ask m s).1.filterMap made ∧
      (asked ask m s).1.getLast?.map made = (asked ask' n s').1.getLast?.map some ∧
      R (asked ask m s).2 (asked ask' n s').2 := by
  induction n with
  | zero => exact ⟨0, Nat.le_refl 0, rfl, rfl, hs⟩
  | succ n ih =>
    obtain ⟨m, hle, hanswers, -, hm⟩ := ih
    obtain ⟨t, hskims, ht⟩ := hstep hm
    obtain ⟨k, hpassed, hgiven, rfl⟩ := hskims.exists_asked
    have hmore := asked_add ask m k s
    refine ⟨m + k + 1, by omega, ?_, ?_, ?_⟩
    · rw [asked_succ, asked_succ, hmore, List.filterMap_append, List.filterMap_append, hpassed,
        List.append_nil, ← hanswers, List.filterMap_cons_some hgiven]
      rfl
    · rw [asked_succ, asked_succ, hmore, List.getLast?_concat, List.getLast?_concat,
        Option.map_some, Option.map_some, hgiven]
    · rw [asked_succ, asked_succ, hmore]
      exact ht

end

/-! ## What is made of items -/

/-- What is made of an answer, if this is made of items.  The end and answers that are not ready count. -/
def Readiness.through (made : Item β → Option (Item α)) :
    Readiness (Option (Item β)) → Option (Readiness (Option (Item α)))
  | .notReady => some .notReady
  | .ready none => some (.ready none)
  | .ready (some item) => (made item).map fun item => .ready (some item)

/-- Only what comes of objects changes. -/
def KeepsFailures (made : Item β → Option (Item α)) : Prop :=
  ∀ failure : Failure, (∀ rejection, failure ≠ .rejected rejection) →
    made (.error failure) = some (.error failure)

theorem through_error {made : Item β → Option (Item α)} (hmade : KeepsFailures made)
    {failure : Failure} (hne : ∀ rejection, failure ≠ .rejected rejection) :
    Readiness.through made (.ready (some (.error failure))) =
      some (.ready (some (.error failure))) := by
  rw [Readiness.through, hmade failure hne]
  rfl

theorem through_fault {made : Item β → Option (Item α)} (hmade : KeepsFailures made) (fault : Fault) :
    Readiness.through made (.ready (some (.error (.transport fault)))) =
      some (.ready (some (.error (.transport fault)))) := by
  refine through_error hmade fun rejection hrejected => ?_
  cases hrejected

theorem through_endInput {made : Item β → Option (Item α)} (hmade : KeepsFailures made)
    (k : Hopper β) :
    Readiness.through made (.ready (k.endInput.1.map .error)) =
      some (.ready (k.endInput.1.map .error)) := by
  cases hend : k.endInput.1 with
  | none => rfl
  | some failure =>
    refine through_error hmade fun rejection hrejected => ?_
    have hfinal := k.endInput_spec.1 failure hend
    rw [hrejected] at hfinal
    cases hfinal

namespace Hopper

/-- `h` holds what `k` holds, but for what is made of the items. -/
structure Translates (made : Item β → Option (Item α)) (k : Hopper β) (h : Hopper α) : Prop where
  splitter : h.splitter = k.splitter
  status : h.status = k.status
  failOnTruncation : h.settings.failOnTruncation = k.settings.failOnTruncation
  /-- An object is interpreted as what is made of what the other hopper makes of it. -/
  object : ∀ text, itemOf? h.interpret h.settings text =
    (itemOf? k.interpret k.settings text).bind made
  queued : h.queued = k.queued.filterMap made

namespace Translates

variable {made : Item β → Option (Item α)} {k k' : Hopper β} {h h' : Hopper α}

theorem isLive (hk : k.Translates made h) : k.isLive = h.isLive := by
  rw [Hopper.isLive, Hopper.isLive, hk.status]

/-- Handing out keeps it, if what is queued then is what is made of what is queued then. -/
theorem frame (hk : k.Translates made h) (hframe : k.Frame k') (hframe' : h.Frame h')
    (hqueued : h'.queued = k'.queued.filterMap made) : k'.Translates made h' where
  splitter := by rw [hframe'.splitter, hframe.splitter, hk.splitter]
  status := by rw [hframe'.status, hframe.status, hk.status]
  failOnTruncation := by rw [hframe'.settings, hframe.settings, hk.failOnTruncation]
  object text := by
    rw [hframe'.interpret, hframe'.settings, hframe.interpret, hframe.settings, hk.object]
  queued := hqueued

theorem filterMap_failure (hmade : KeepsFailures made) (splitter : Splitter) (text : String) :
    ((splitter.feed text).failure.map (.error : Failure → Item β)).toList.filterMap made =
      ((splitter.feed text).failure.map .error).toList := by
  cases hfailure : (splitter.feed text).failure with
  | none => rfl
  | some failure =>
    obtain ⟨refusal, -, rfl⟩ := Option.map_eq_some_iff.1 hfailure
    have hkept : made (.error (refusal.toFailure text)) = some (.error (refusal.toFailure text)) := by
      refine hmade _ fun rejection => ?_
      cases refusal <;> exact nofun
    exact List.filterMap_cons_some hkept

theorem pour (hk : k.Translates made h) (hmade : KeepsFailures made) (hqueued : k.queued = [])
    (text : String) : (k.pour text).Translates made (h.pour text) where
  splitter := by rw [pour_splitter, pour_splitter, hk.splitter]
  status := by rw [pour_status, pour_status, hk.splitter, hk.status]
  failOnTruncation := by rw [pour_settings, pour_settings, hk.failOnTruncation]
  object := by
    rw [pour_interpret, pour_settings, pour_interpret, pour_settings]
    exact hk.object
  queued := by
    have hqueued' : h.queued = [] := by rw [hk.queued, hqueued]; rfl
    rw [queued_pour hqueued', queued_pour hqueued, hk.splitter, List.filterMap_append,
      List.filterMap_filterMap, filterMap_failure hmade,
      List.filterMap_congr fun text _ => hk.object text]

theorem endInput (hk : k.Translates made h) :
    h.endInput.1 = k.endInput.1 ∧ k.endInput.2.Translates made h.endInput.2 := by
  rw [Hopper.endInput, Hopper.endInput, hk.splitter, hk.failOnTruncation]
  cases k.splitter.truncation? with
  | none => exact ⟨rfl, rfl, rfl, hk.failOnTruncation, hk.object, hk.queued⟩
  | some failure =>
    cases k.settings.failOnTruncation with
    | true => exact ⟨rfl, rfl, rfl, hk.failOnTruncation, hk.object, hk.queued⟩
    | false => exact ⟨rfl, rfl, rfl, hk.failOnTruncation, hk.object, hk.queued⟩

end Translates

end Hopper

/-! ## Feeds with such hoppers -/

namespace HandsOut

variable {S : Type} {ask : S → Readiness (Option (Item β)) × S} {feed : Hopper β → S}
  {made : Item β → Option (Item α)} {k : Hopper β} {h h' : Hopper α}

theorem passes (hf : HandsOut ask feed) {passed rest : List (Item β)}
    (hnone : ∀ item ∈ passed, made item = none) (hqueued : k.queued = passed ++ rest) :
    ∃ k', k.Frame k' ∧ k'.queued = rest ∧ ∀ {c t},
      Skims ask (Readiness.through made) (feed k') c t →
        Skims ask (Readiness.through made) (feed k) c t := by
  induction passed generalizing k with
  | nil => exact ⟨k, ⟨rfl, rfl, rfl, rfl⟩, hqueued, id⟩
  | cons item passed ih =>
    obtain ⟨k₁, hd, hframe, hleft⟩ := Hopper.dispense_of_queued_cons hqueued
    obtain ⟨k', hframe', hqueued', hskims⟩ :=
      ih (fun item hitem => hnone item (List.mem_cons_of_mem _ hitem)) hleft
    refine ⟨k', hframe.trans hframe', hqueued', fun hs => .passed (hf.dispensed hd) ?_ (hskims hs)⟩
    rw [Readiness.through, hnone item List.mem_cons_self]
    rfl

/-- An item that is handed out is made of one that the other feed hands out. -/
theorem skims_dispensed (hf : HandsOut ask feed) (hk : k.Translates made h) {item : Item α}
    (hd : h.dispense = (some item, h')) :
    ∃ k', Skims ask (Readiness.through made) (feed k) (.ready (some item)) (feed k') ∧
      k'.Translates made h' := by
  have hqueued := Hopper.queued_of_dispense hd
  rw [hk.queued] at hqueued
  obtain ⟨passed, i, rest, hsplit, hnone, hitem, hrest⟩ := List.filterMap_eq_cons_iff.1 hqueued
  obtain ⟨k₁, hframe, hleft, hskims⟩ := hf.passes hnone hsplit
  obtain ⟨k', hd', hframe', hqueued'⟩ := Hopper.dispense_of_queued_cons hleft
  have hgiven : Readiness.through made (.ready (some i)) = some (.ready (some item)) := by
    rw [Readiness.through, hitem]
    rfl
  refine ⟨k', hskims (.given (hf.dispensed hd') hgiven), ?_⟩
  refine hk.frame (hframe.trans hframe') ?_ ?_
  · have hframe'' := h.dispense_frame
    rwa [hd] at hframe''
  · rw [hqueued', hrest]
    rfl

/-- Where nothing is handed out, all that the other feed hands out is passed over. -/
theorem skims_drained (hf : HandsOut ask feed) (hk : k.Translates made h)
    (hd : h.dispense = (none, h')) :
    ∃ k₁ k', k₁.dispense = (none, k') ∧ k'.queued = [] ∧ k'.Translates made h' ∧ ∀ {c t},
      Skims ask (Readiness.through made) (feed k₁) c t →
        Skims ask (Readiness.through made) (feed k) c t := by
  obtain ⟨hqueued, hqueued'⟩ := Hopper.queued_of_dispense_none hd
  rw [hk.queued] at hqueued
  have hnone : ∀ item ∈ k.queued, made item = none := List.filterMap_eq_nil_iff.1 hqueued
  obtain ⟨k₁, hframe, hleft, hskims⟩ := hf.passes hnone (List.append_nil _).symm
  obtain ⟨k', hd', hframe'⟩ := Hopper.dispense_of_queued_nil hleft
  have hempty := (Hopper.queued_of_dispense_none hd').2
  refine ⟨k₁, k', hd', hempty, ?_, hskims⟩
  refine hk.frame (hframe.trans hframe') ?_ ?_
  · have hframe'' := h.dispense_frame
    rwa [hd] at hframe''
  · rw [hqueued', hempty]
    rfl

end HandsOut

namespace PullFeed

/-- **A pull gives what is made of the next item of which something is made**, and has pulled from the
    supply as often. -/
theorem next_skims [Supply σ] {made : Item β → Option (Item α)}
    (hmade : KeepsFailures made) (f : PullFeed σ α) (k : Hopper β)
    (hk : k.Translates made f.hopper) :
    ∃ k', Skims ask (Readiness.through made) { supply := f.supply, hopper := k } (.ready f.next.1)
        { supply := f.next.2.supply, hopper := k' } ∧
      k'.Translates made f.next.2.hopper := by
  fun_induction next f generalizing k with
  | case1 f item h' hd => exact (handsOut f.supply).skims_dispensed hk hd
  | case2 f h' hd hlive =>
    obtain ⟨k₁, k', hd', hqueued, hk', hskims⟩ := (handsOut f.supply).skims_drained hk hd
    have hover : k'.isLive = false := by
      rw [hk'.isLive]
      simpa using hlive
    exact ⟨k', hskims (.given (ask_of_over hd' hover) rfl), hk'⟩
  | case3 f h' hd hlive text supply hpull poured hpoured ih =>
    obtain ⟨k₁, k', hd', hqueued, hk', hskims⟩ := (handsOut f.supply).skims_drained hk hd
    have hlive' := hk'.isLive.trans (Hopper.isLive_of_not hlive)
    have hask := ask_of_fragment hd' hlive' hpull
    have hpour := hk'.pour hmade hqueued text
    rw [hpour.isLive, if_pos hpoured] at hask
    obtain ⟨k'', hrest, hk''⟩ := ih _ hpour
    exact ⟨k'', hskims (hrest.congr hask), hk''⟩
  | case4 f h' hd hlive text supply hpull poured hpoured ih =>
    obtain ⟨k₁, k', hd', hqueued, hk', hskims⟩ := (handsOut f.supply).skims_drained hk hd
    have hlive' := hk'.isLive.trans (Hopper.isLive_of_not hlive)
    have hask := ask_of_fragment hd' hlive' hpull
    have hpour := hk'.pour hmade hqueued text
    rw [hpour.isLive, if_neg hpoured] at hask
    obtain ⟨k'', hrest, hk''⟩ := ih _ hpour
    exact ⟨k'', hskims (hrest.congr hask), hk''⟩
  | case5 f h' hd hlive supply hpull failure ended hend =>
    obtain ⟨k₁, k', hd', hqueued, hk', hskims⟩ := (handsOut f.supply).skims_drained hk hd
    have hlive' := hk'.isLive.trans (Hopper.isLive_of_not hlive)
    have hask := ask_of_ended hd' hlive' hpull
    obtain ⟨hfailure, hended⟩ := hk'.endInput
    rw [hend] at hfailure hended
    have hgiven := through_endInput hmade k'
    rw [← hfailure] at hask hgiven
    exact ⟨k'.endInput.2, hskims (.given hask hgiven), hended⟩
  | case6 f h' hd hlive fault supply hpull =>
    obtain ⟨k₁, k', hd', hqueued, hk', hskims⟩ := (handsOut f.supply).skims_drained hk hd
    have hlive' := hk'.isLive.trans (Hopper.isLive_of_not hlive)
    have hask := ask_of_failed hd' hlive' hpull
    exact ⟨k', hskims (.given hask (through_fault hmade _)), hk'⟩

theorem exists_asked_of_translates [Supply σ] {made : Item β → Option (Item α)}
    (hmade : KeepsFailures made) (supply : σ) {k : Hopper β} {h : Hopper α}
    (hk : k.Translates made h) (n : Nat) :
    ∃ m, n ≤ m ∧
      (asked ask n { supply, hopper := h }).1 =
        (asked ask m { supply, hopper := k }).1.filterMap (Readiness.through made) ∧
      (asked ask m { supply, hopper := k }).1.getLast?.map (Readiness.through made) =
        (asked ask n { supply, hopper := h }).1.getLast?.map some ∧
      (asked ask m { supply, hopper := k }).2.supply =
        (asked ask n { supply, hopper := h }).2.supply := by
  let R (g : PullFeed σ β) (f : PullFeed σ α) : Prop :=
    g.supply = f.supply ∧ g.hopper.Translates made f.hopper
  have hstep : ∀ {g f}, R g f → ∃ g', Skims ask (Readiness.through made) g f.ask.1 g' ∧
      R g' f.ask.2 := by
    rintro ⟨_, k⟩ f ⟨rfl, hk⟩
    obtain ⟨k', hskims, hk'⟩ := next_skims hmade f k hk
    exact ⟨_, hskims, rfl, hk'⟩
  have hstart : R { supply, hopper := k } { supply, hopper := h } := ⟨rfl, hk⟩
  obtain ⟨m, hle, hanswers, hlast, hsame, -⟩ := exists_asked hstep hstart n
  exact ⟨m, hle, hanswers, hlast, hsame⟩

end PullFeed

namespace PollFeed

theorem through_endInflow {made : Item β → Option (Item α)} (hmade : KeepsFailures made)
    {g : PollFeed σ β} {f : PollFeed σ α} (hcarry : g.carry = f.carry)
    (hk : g.hopper.Translates made f.hopper) :
    Readiness.through made (.ready g.endInflow.1) = some (.ready f.endInflow.1) := by
  rw [(endInflow_spec g).1, (endInflow_spec f).1, hcarry]
  cases f.carry.unfinished? with
  | some fault => exact through_fault hmade _
  | none =>
    simp only
    rw [hk.endInput.1]
    exact through_endInput hmade g.hopper

/-- **A poll gives what is made of the next item of which something is made**, and has polled the inflow as
    often. -/
theorem poll_skims [Inflow σ] {made : Item β → Option (Item α)} (hmade : KeepsFailures made)
    (f : PollFeed σ α) (k : Hopper β) (hk : k.Translates made f.hopper) :
    ∃ k', Skims poll (Readiness.through made)
        { inflow := f.inflow, hopper := k, carry := f.carry, released := f.released } f.poll.1
        { inflow := f.poll.2.inflow, hopper := k', carry := f.poll.2.carry
          released := f.poll.2.released } ∧
      k'.Translates made f.poll.2.hopper := by
  have hout : ∀ f : PollFeed σ α, HandsOut poll fun k : Hopper β =>
      { inflow := f.inflow, hopper := k, carry := f.carry, released := f.released } :=
    fun f => handsOut f.inflow f.carry f.released
  fun_induction poll f generalizing k with
  | case1 f item h' hd => exact (hout f).skims_dispensed hk hd
  | case2 f h' hd hover =>
    obtain ⟨k₁, k', hd', hqueued, hk', hskims⟩ := (hout f).skims_drained hk hd
    rw [← hk'.isLive] at hover
    exact ⟨k', hskims (.given (poll_of_spent hd' hover) rfl), hk'⟩
  | case3 f h' hd hlive inflow hpoll =>
    obtain ⟨k₁, k', hd', hqueued, hk', hskims⟩ := (hout f).skims_drained hk hd
    have hwants := wants_of_not hd hlive
    rw [hwants.unreleased] at hskims ⊢
    have hlive' := hk'.isLive.trans hwants.live
    exact ⟨k', hskims (.given (poll_of_notReady hd' hlive' hpoll) rfl), hk'⟩
  | case4 f h' hd hlive report inflow hpoll =>
    obtain ⟨k₁, k', hd', hqueued, hk', hskims⟩ := (hout f).skims_drained hk hd
    have hwants := wants_of_not hd hlive
    rw [hwants.unreleased] at hskims ⊢
    have hlive' := hk'.isLive.trans hwants.live
    refine ⟨k', hskims (.given (poll_of_failed hd' hlive' hpoll) ?_), hk'⟩
    exact through_fault hmade _
  | case5 f h' hd hlive inflow hpoll item f' hend =>
    obtain ⟨k₁, k', hd', hqueued, hk', hskims⟩ := (hout f).skims_drained hk hd
    have hwants := wants_of_not hd hlive
    rw [hwants.unreleased] at hskims ⊢
    have hlive' := hk'.isLive.trans hwants.live
    let g : PollFeed σ β := { inflow, hopper := k', carry := f.carry }
    have hgiven := through_endInflow (g := g) (f := { f with inflow, hopper := h' }) hmade rfl hk'
    have hleft := endInflow_spec { f with inflow, hopper := h' }
    rw [hend] at hgiven hleft
    refine ⟨k'.endInput.2, hskims (.given ?_ hgiven), ?_⟩
    · rw [poll_of_endInflow hd' hlive' hpoll, (endInflow_spec g).2, hleft.2]
    · rw [hleft.2]
      exact hk'.endInput.2
  | case6 f h' hd hlive octets inflow hpoll fault carry hpush =>
    obtain ⟨k₁, k', hd', hqueued, hk', hskims⟩ := (hout f).skims_drained hk hd
    have hwants := wants_of_not hd hlive
    rw [hwants.unreleased] at hskims ⊢
    have hlive' := hk'.isLive.trans hwants.live
    refine ⟨k', hskims (.given (poll_of_illFormed hd' hlive' hpoll hpush) ?_), hk'⟩
    exact through_fault hmade _
  | case7 f h' hd hlive octets inflow hpoll text carry hpush poured ih =>
    obtain ⟨k₁, k', hd', hqueued, hk', hskims⟩ := (hout f).skims_drained hk hd
    have hwants := wants_of_not hd hlive
    rw [hwants.unreleased] at hskims ⊢
    have hask := poll_of_chunk hd' (hk'.isLive.trans hwants.live) hpoll hpush
    have hpour := hk'.pour hmade hqueued text
    rw [hpour.isLive] at hask
    obtain ⟨k'', hrest, hk''⟩ := ih _ hpour
    exact ⟨k'', hskims (hrest.congr hask), hk''⟩

theorem exists_asked_of_translates [Inflow σ] {made : Item β → Option (Item α)}
    (hmade : KeepsFailures made) (inflow : σ) {k : Hopper β} {h : Hopper α}
    (hk : k.Translates made h) (n : Nat) :
    ∃ m, n ≤ m ∧
      (asked poll n { inflow, hopper := h }).1 =
        (asked poll m { inflow, hopper := k }).1.filterMap (Readiness.through made) ∧
      (asked poll m { inflow, hopper := k }).1.getLast?.map (Readiness.through made) =
        (asked poll n { inflow, hopper := h }).1.getLast?.map some ∧
      (asked poll m { inflow, hopper := k }).2.inflow =
        (asked poll n { inflow, hopper := h }).2.inflow := by
  let R (g : PollFeed σ β) (f : PollFeed σ α) : Prop :=
    (g.inflow = f.inflow ∧ g.carry = f.carry ∧ g.released = f.released) ∧
      g.hopper.Translates made f.hopper
  have hstep : ∀ {g f}, R g f → ∃ g', Skims poll (Readiness.through made) g f.poll.1 g' ∧
      R g' f.poll.2 := by
    rintro ⟨_, k, _, _⟩ f ⟨⟨rfl, rfl, rfl⟩, hk⟩
    obtain ⟨k', hskims, hk'⟩ := poll_skims hmade f k hk
    exact ⟨_, hskims, ⟨rfl, rfl, rfl⟩, hk'⟩
  have hstart : R { inflow, hopper := k } { inflow, hopper := h } := ⟨⟨rfl, rfl, rfl⟩, hk⟩
  obtain ⟨m, hle, hanswers, hlast, ⟨hsame, -, -⟩, -⟩ := exists_asked hstep hstart n
  exact ⟨m, hle, hanswers, hlast, hsame⟩

end PollFeed

/-! ## Texts, values and rejections -/

/-- What comes of an item if the text in it is interpreted. -/
def Item.interpreted (interpret : Interpretation α) : Item String → Item α
  | .ok text =>
    match interpret text with
    | .ok a => .ok a
    | .error rejection => .error (.rejected rejection)
  | .error failure => .error failure

/-- Whether an item tells that an object was rejected. -/
def Item.isRejection : Item α → Bool
  | .error (.rejected _) => true
  | _ => false

namespace Readiness

/-- The answer, with what is made of the item. -/
def mapItem {I J : Type} (f : I → J) : Readiness (Option I) → Readiness (Option J)
  | .notReady => .notReady
  | .ready item => .ready (item.map f)

/-- Whether an answer tells that an object was rejected. -/
def isRejection : Readiness (Option (Item α)) → Bool
  | .ready (some item) => Item.isRejection item
  | _ => false

theorem through_some (f : Item β → Item α) :
    through (fun item => some (f item)) = fun answer => some (answer.mapItem f) := by
  funext answer
  rcases answer with _ | _ | item <;> rfl

theorem through_guard :
    through (Option.guard fun item : Item α => !Item.isRejection item) =
      Option.guard fun answer => !answer.isRejection := by
  funext answer
  rcases answer with _ | _ | item
  · rfl
  · rfl
  · cases hitem : Item.isRejection item <;>
      simp [through, isRejection, Option.guard, hitem]

end Readiness

namespace Hopper

/-- Interpreted texts are what is made of the texts themselves. -/
theorem translates_new (interpret : Interpretation α) (settings : Settings) :
    (Hopper.new .verbatim settings).Translates (fun item => some (Item.interpreted interpret item))
      (Hopper.new interpret { settings with skipInvalid := false }) where
  splitter := rfl
  status := rfl
  failOnTruncation := rfl
  object text := by
    change itemOf? interpret _ text = some (Item.interpreted interpret (.ok text))
    rw [itemOf?, Item.interpreted]
    cases interpret text <;> rfl
  queued := rfl

/-- With rejected objects passed over, what is left are the items that are not rejections. -/
theorem translates_skipping (interpret : Interpretation α) (settings : Settings) :
    (Hopper.new interpret { settings with skipInvalid := false }).Translates
      (Option.guard fun item => !Item.isRejection item)
      (Hopper.new interpret { settings with skipInvalid := true }) where
  splitter := rfl
  status := rfl
  failOnTruncation := rfl
  object text := by
    change itemOf? interpret _ text = (itemOf? interpret _ text).bind _
    rw [itemOf?, itemOf?]
    cases interpret text <;> rfl
  queued := rfl

end Hopper

/-- What a feed gives if it interprets the objects, and if it passes over rejected ones moreover, beside one
    that gives their texts: `left` and `leftRaw` are what is left of what they take their fragments from. -/
structure ActsOnItems {R S T : Type} (interpret : Interpretation α)
    (askRaw : R → Readiness (Option (Item String)) × R) (leftRaw : R → T) (raw : R)
    (ask : S → Readiness (Option (Item α)) × S) (left : S → T) (plain skipping : S) : Prop where
  /-- Each answer is the same, with the text in it interpreted, and so much has been taken for it. -/
  interpreted : ∀ n,
    (asked ask n plain).1 =
      (asked askRaw n raw).1.map (Readiness.mapItem (Item.interpreted interpret)) ∧
    left (asked ask n plain).2 = leftRaw (asked askRaw n raw).2
  /-- The answers are those that are no rejections, and up to each of them so much has been taken. -/
  skipped : ∀ n, ∃ m, n ≤ m ∧
    (asked ask n skipping).1 =
      (asked ask m plain).1.filter (fun answer => !answer.isRejection) ∧
    (asked ask n skipping).1.getLast? = (asked ask m plain).1.getLast? ∧
    left (asked ask n skipping).2 = left (asked ask m plain).2

theorem actsOnItems_of_asked {R S T : Type} {interpret : Interpretation α}
    {askRaw : R → Readiness (Option (Item String)) × R} {leftRaw : R → T} {raw : R}
    {ask : S → Readiness (Option (Item α)) × S} {left : S → T} {plain skipping : S}
    (hplain : ∀ n, ∃ m, n ≤ m ∧
      (asked ask n plain).1 = (asked askRaw m raw).1.filterMap
        (Readiness.through fun item => some (Item.interpreted interpret item)) ∧
      leftRaw (asked askRaw m raw).2 = left (asked ask n plain).2)
    (hskipping : ∀ n, ∃ m, n ≤ m ∧
      (asked ask n skipping).1 = (asked ask m plain).1.filterMap
        (Readiness.through (Option.guard fun item => !Item.isRejection item)) ∧
      (asked ask m plain).1.getLast?.map
          (Readiness.through (Option.guard fun item => !Item.isRejection item)) =
        (asked ask n skipping).1.getLast?.map some ∧
      left (asked ask m plain).2 = left (asked ask n skipping).2) :
    ActsOnItems interpret askRaw leftRaw raw ask left plain skipping where
  interpreted n := by
    obtain ⟨m, -, hanswers, hleft⟩ := hplain n
    rw [Readiness.through_some, List.filterMap_eq_map'] at hanswers
    have hlength := congrArg List.length hanswers
    rw [List.length_map, length_asked, length_asked] at hlength
    subst hlength
    exact ⟨hanswers, hleft.symm⟩
  skipped n := by
    obtain ⟨m, hle, hanswers, hlast, hleft⟩ := hskipping n
    rw [Readiness.through_guard] at hanswers hlast
    refine ⟨m, hle, ?_, ?_, hleft.symm⟩
    · rw [hanswers]
      exact congrFun List.filterMap_eq_filter _
    · cases hgiven : (asked ask n skipping).1.getLast? with
      | none =>
        rw [hgiven] at hlast
        exact (Option.map_eq_none_iff.1 hlast).symm
      | some answer =>
        rw [hgiven, Option.map_some] at hlast
        obtain ⟨last, hlast, hguard⟩ := Option.map_eq_some_iff.1 hlast
        rw [hlast, (Option.guard_eq_some_iff.1 hguard).1]

/-- **Interpretation acts on items only.**  Whatever a supply or an inflow brings, and whatever fails in
    between, a feed that interprets objects gives, one for one, what a feed gives that does not, but for the
    texts, each of which is now the value or its rejection, in the same place.  A feed that passes over
    rejected objects gives the same without the rejections.  Each answer, the end too, comes after the same
    fragments and chunks. -/
theorem interpretation_acts_on_items {ρ : Type} [Supply σ] [Inflow ρ] (supply : σ) (inflow : ρ)
    (interpret : Interpretation α) (settings : Settings) :
    ActsOnItems interpret PullFeed.ask PullFeed.supply (.new supply .verbatim settings)
        PullFeed.ask PullFeed.supply
        (.new supply interpret { settings with skipInvalid := false })
        (.new supply interpret { settings with skipInvalid := true }) ∧
      ActsOnItems interpret PollFeed.poll PollFeed.inflow (.new inflow .verbatim settings)
        PollFeed.poll PollFeed.inflow
        (.new inflow interpret { settings with skipInvalid := false })
        (.new inflow interpret { settings with skipInvalid := true }) := by
  have hsome : KeepsFailures fun item => some (Item.interpreted interpret item) := fun _ _ => rfl
  have hguard : KeepsFailures (Option.guard fun item : Item α => !Item.isRejection item) := by
    intro failure hne
    cases failure with
    | rejected rejection => exact absurd rfl (hne rejection)
    | _ => rfl
  have hplain := Hopper.translates_new interpret settings
  have hskipping := Hopper.translates_skipping interpret settings
  refine ⟨actsOnItems_of_asked (fun n => ?_) (fun n => ?_),
    actsOnItems_of_asked (fun n => ?_) (fun n => ?_)⟩
  · obtain ⟨m, hle, hanswers, -, hleft⟩ :=
      PullFeed.exists_asked_of_translates hsome supply hplain n
    exact ⟨m, hle, hanswers, hleft⟩
  · exact PullFeed.exists_asked_of_translates hguard supply hskipping n
  · obtain ⟨m, hle, hanswers, -, hleft⟩ :=
      PollFeed.exists_asked_of_translates hsome inflow hplain n
    exact ⟨m, hle, hanswers, hleft⟩
  · exact PollFeed.exists_asked_of_translates hguard inflow hskipping n

end ObjectFeed
