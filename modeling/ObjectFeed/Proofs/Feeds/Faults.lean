/-
  Feeds whose transport fails now and then.

  * `Item.fault?` is the fault of the transport that an item tells of, and `faultless` are the items that
    tell of none;
  * `itemsThrough_faultless`: without the faults, the items of what arrives are those of its fragments;
  * `itemsThrough_fault`: a fault stands behind the items of what arrived before it, and before those of
    what arrives after it;
  * `Splitter.reached` is the number of arrivals up to the fragment that cannot be split, and
    `itemsThrough_faults`: the faults that are given are those among these;
  * `Interspersed` says this of a list of items, and `faults_interspersed`: it holds of what feeds give
    over fragments, over a blocking reader and over chunks.
-/
import ObjectFeed.Proofs.Feeds.Order
import ObjectFeed.Proofs.Feeds.Scripts
import ObjectFeed.Proofs.Splitter.Cuts

namespace ObjectFeed

open Splitter (run)

variable {α β : Type}

/-! ## Items that tell of faults -/

/-- The fault of the transport that an item tells of. -/
def Item.fault? : Item α → Option Fault
  | .error (.transport fault) => some fault
  | _ => none

/-- The items that tell of no fault of the transport. -/
def faultless (items : List (Item α)) : List (Item α) :=
  items.filter fun item => (Item.fault? item).isNone

@[simp] theorem faultless_transport (fault : Fault) (items : List (Item α)) :
    faultless (.error (.transport fault) :: items) = faultless items := rfl

theorem faultless_append (items others : List (Item α)) :
    faultless (items ++ others) = faultless items ++ faultless others :=
  List.filter_append _ _

section

variable {items : List (Item α)} (h : ∀ item ∈ items, Item.fault? item = none)
include h

theorem faultless_eq_self : faultless items = items :=
  List.filter_eq_self.2 fun item hitem => by rw [h item hitem]; rfl

theorem filterMap_fault?_eq_nil : items.filterMap Item.fault? = [] :=
  List.filterMap_eq_nil_iff.2 h

end

theorem fault?_of_objects {interpret : Interpretation α} {settings : Settings}
    {objects : List String} :
    ∀ item ∈ objects.filterMap (itemOf? interpret settings), Item.fault? item = none := by
  intro item hitem
  obtain ⟨text, -, htext⟩ := List.mem_filterMap.1 hitem
  rw [itemOf?] at htext
  cases hinterpret : interpret text with
  | ok a =>
    rw [hinterpret] at htext
    cases htext
    rfl
  | error rejection =>
    rw [hinterpret] at htext
    cases hskip : settings.skipInvalid with
    | true => simp [hskip] at htext
    | false =>
      simp only [hskip, Bool.false_eq_true, if_false, Option.some.injEq] at htext
      rw [← htext]
      rfl

theorem fault?_of_isFinal {failure : Failure} (hfinal : failure.isFinal = true) :
    Item.fault? (.error failure : Item α) = none := by
  cases failure with
  | transport => cases hfinal
  | _ => rfl

theorem fault?_of_feed {splitter : Splitter} {text : String} {failure : Failure}
    (h : (splitter.feed text).failure = some failure) :
    ∀ item ∈ [(.error failure : Item α)], Item.fault? item = none := by
  obtain ⟨refusal, -, rfl⟩ := Option.map_eq_some_iff.1 h
  intro item hitem
  rw [List.mem_singleton.1 hitem]
  cases refusal <;> exact fault?_of_isFinal rfl

theorem fault?_of_ending (settings : Settings) (splitter : Splitter) :
    ∀ item ∈ (settings.ending splitter : List (Item α)), Item.fault? item = none := by
  intro item hitem
  rw [Settings.ending, Option.mem_toList, Option.map_eq_some_iff] at hitem
  obtain ⟨failure, hfailure, rfl⟩ := hitem
  cases hfail : settings.failOnTruncation with
  | false => simp [hfail] at hfailure
  | true =>
    rw [hfail, if_pos rfl] at hfailure
    exact fault?_of_isFinal (Hopper.isFinal_of_truncation? hfailure)

/-! ## Items of what arrives -/

namespace Splitter

/-- The number of arrivals up to the fragment that cannot be split. -/
def reached : Splitter → List Arrival → Nat
  | _, [] => 0
  | splitter, .error _ :: rest => splitter.reached rest + 1
  | splitter, .ok text :: rest =>
    match (splitter.feed text).failure with
    | some _ => 1
    | none => (splitter.feed text).splitter.reached rest + 1

/-- An arrival is reached if and only if the fragments before it can be split. -/
theorem length_lt_reached_iff (splitter : Splitter) (before : List Arrival) (arrival : Arrival)
    (after : List Arrival) :
    before.length < splitter.reached (before ++ arrival :: after) ↔
      (splitter.feedEach (arrived before)).failure = none := by
  induction before generalizing splitter with
  | nil =>
    refine iff_of_true ?_ rfl
    cases arrival with
    | error fault => exact Nat.succ_pos _
    | ok text =>
      rw [List.nil_append, reached]
      cases (splitter.feed text).failure with
      | some failure => exact Nat.one_pos
      | none => exact Nat.succ_pos _
  | cons first before ih =>
    cases first with
    | error fault =>
      rw [List.cons_append, reached, List.length_cons, Nat.add_lt_add_iff_right, ih, arrived_error]
    | ok text =>
      rw [List.cons_append, reached, arrived_ok, feedEach, List.length_cons]
      cases hfailure : (splitter.feed text).failure with
      | some failure => simp
      | none => simp only [Nat.add_lt_add_iff_right, ih]

theorem reached_eq_length {splitter : Splitter} {arrivals : List Arrival}
    (h : (splitter.feedEach (arrived arrivals)).failure = none) :
    splitter.reached arrivals = arrivals.length := by
  induction arrivals generalizing splitter with
  | nil => rfl
  | cons arrival arrivals ih =>
    cases arrival with
    | error fault => rw [reached, ih h, List.length_cons]
    | ok text =>
      rw [arrived_ok, feedEach] at h
      rw [reached]
      cases hfailure : (splitter.feed text).failure with
      | some failure =>
        rw [hfailure] at h
        cases h
      | none =>
        rw [hfailure] at h
        simp only [ih h, List.length_cons]

end Splitter

section

variable (interpret : Interpretation α) (settings : Settings) {ending : Splitter → List (Item α)}
  (hending : ∀ splitter, ∀ item ∈ ending splitter, Item.fault? item = none)
include hending

/-- **Without the faults, the items of what arrives are those of its fragments.** -/
theorem itemsThrough_faultless (splitter : Splitter) (arrivals : List Arrival) :
    faultless (itemsThrough interpret settings ending splitter arrivals) =
      itemsThrough interpret settings ending splitter ((arrived arrivals).map .ok) := by
  induction arrivals generalizing splitter with
  | nil => exact faultless_eq_self (hending splitter)
  | cons arrival arrivals ih =>
    cases arrival with
    | error fault => rw [itemsThrough, faultless_transport, ih, arrived_error]
    | ok text =>
      rw [arrived_ok, List.map_cons, itemsThrough, itemsThrough, faultless_append,
        faultless_eq_self fault?_of_objects]
      cases hfailure : (splitter.feed text).failure with
      | some failure => rw [faultless_eq_self (fault?_of_feed hfailure)]
      | none => rw [ih]

/-- **The faults that are given** are those that are reached. -/
theorem itemsThrough_faults (splitter : Splitter) (arrivals : List Arrival) :
    (itemsThrough interpret settings ending splitter arrivals).filterMap Item.fault? =
      faults (arrivals.take (splitter.reached arrivals)) := by
  induction arrivals generalizing splitter with
  | nil => exact filterMap_fault?_eq_nil (hending splitter)
  | cons arrival arrivals ih =>
    cases arrival with
    | error fault =>
      rw [itemsThrough, Splitter.reached, List.take_succ_cons, faults_error, ← ih]
      rfl
    | ok text =>
      rw [itemsThrough, Splitter.reached, List.filterMap_append,
        filterMap_fault?_eq_nil fault?_of_objects, List.nil_append]
      cases hfailure : (splitter.feed text).failure with
      | some failure => exact filterMap_fault?_eq_nil (fault?_of_feed hfailure)
      | none => simp only [List.take_succ_cons, faults_ok, ih]

end

/-- **A fault stands behind the items of what arrived before it**, and before those of what arrives after
    it, if the fragments before it can be split. -/
theorem itemsThrough_fault (interpret : Interpretation α) (settings : Settings)
    (ending : Splitter → List (Item α)) (splitter : Splitter) (before after : List Arrival)
    (fault : Fault) (hfailure : (splitter.feedEach (arrived before)).failure = none) :
    itemsThrough interpret settings ending splitter (before ++ .error fault :: after) =
      itemsThrough interpret settings (fun _ => []) splitter before ++
        .error (.transport fault) ::
          itemsThrough interpret settings ending (splitter.feedEach (arrived before)).splitter
            after := by
  have htexts : texts before = arrived before := rfl
  rw [itemsThrough_append, itemsThrough_ending, htexts, if_pos hfailure, itemsThrough]

/-! ## Feeds -/

/-- Fragments and their text. -/
def Joins (fragments : List String) (text : String) : Prop :=
  String.join fragments = text

/-- Chunks and the text that can be read of them.  They may end inside a code point. -/
def ReadsAs (chunks : List Octets) (text : String) : Prop :=
  ∃ held, Utf8.decode chunks.flatten = .upTo text held

/-- The items of a feed to which these events came, with faults among them, beside the items without the
    faults.  Events are reached up to the one that brings what cannot be split. -/
structure Interspersed (interpret : Interpretation α) (settings : Settings)
    (reads : List β → String → Prop) (events : List (Except Fault β)) (calm items : List (Item α))
    (reached : Nat) : Prop where
  /-- Nothing is lost, given twice or out of order. -/
  others : faultless items = calm
  /-- The faults that are reached are given, each once and in order. -/
  given : items.filterMap Item.fault? = faults (events.take reached)
  /-- A fault is reached if the text read before it can be split, and then stands behind what comes of the
      objects of this text and before all else. -/
  placed : ∀ before fault after, events = before ++ .error fault :: after →
    ∃ read, reads (arrived before) read ∧
      ((run settings.splitter .before read.toList).refusal = none ↔ before.length < reached) ∧
      (before.length < reached → ∃ earlier later,
        items = earlier ++ .error (.transport fault) :: later ∧
          faultless earlier =
            (run settings.splitter .before read.toList).objects.filterMap
              (itemOf? interpret settings) ∧
          earlier.filterMap Item.fault? = faults before)

/-- **The items of what arrives are those of its fragments, with the faults among them.** -/
theorem interspersed_arrivals (interpret : Interpretation α) (settings : Settings)
    (arrivals : List Arrival) :
    ∃ reached, Interspersed interpret settings Joins arrivals
      (itemsThrough interpret settings settings.ending { options := settings.splitter }
        ((arrived arrivals).map .ok))
      (itemsThrough interpret settings settings.ending { options := settings.splitter } arrivals)
      reached := by
  have hempty : ∀ splitter : Splitter, ∀ item ∈ ([] : List (Item α)), Item.fault? item = none :=
    fun _ _ hitem => absurd hitem List.not_mem_nil
  refine ⟨_, itemsThrough_faultless _ _ (fault?_of_ending settings) _ _,
    itemsThrough_faults _ _ (fault?_of_ending settings) _ _, ?_⟩
  rintro before fault after rfl
  refine ⟨_, rfl, ?_, fun hlt => ?_⟩
  · rw [Splitter.length_lt_reached_iff, Splitter.failure_feedEach]
  · have hfailure := (Splitter.length_lt_reached_iff _ _ _ _).1 hlt
    rw [itemsThrough_fault _ _ _ _ _ _ _ hfailure]
    refine ⟨_, _, rfl, ?_, ?_⟩
    · rw [itemsThrough_faultless _ _ hempty, itemsThrough_texts, hfailure,
        Splitter.objects_feedEach, List.append_nil]
    · rw [itemsThrough_faults _ _ hempty, Splitter.reached_eq_length hfailure, List.take_length]

/-- What holds of what arrives holds of what was delivered, if its chunks begin a text. -/
theorem Interspersed.of_received {interpret : Interpretation α} {settings : Settings}
    {deliveries : List Delivery} {calm items : List (Item α)} {reached : Nat} {text : String}
    {held : Octets} (htext : Utf8.decode (arrived deliveries).flatten = .upTo text held)
    (h : Interspersed interpret settings Joins (Utf8.Carry.empty.received deliveries) calm items
      reached) :
    Interspersed interpret settings ReadsAs deliveries calm items reached := by
  obtain ⟨-, -, hwhere, -⟩ := Utf8.Carry.received_of_upTo htext
  have hreached : faults ((Utf8.Carry.empty.received deliveries).take reached) =
      faults (deliveries.take reached) :=
    faults_congr (by rw [List.map_take, List.map_take, hwhere])
  refine ⟨h.others, h.given.trans hreached, ?_⟩
  rintro before fault after rfl
  rw [arrived_append, List.flatten_append] at htext
  obtain ⟨read, left, hread⟩ := Utf8.exists_upTo_of_append htext
  obtain ⟨-, hjoin, hbefore, -⟩ := Utf8.Carry.received_of_upTo hread
  have hlength : (Utf8.Carry.empty.received before).length = before.length := by
    simpa using congrArg List.length hbefore
  obtain ⟨read', rfl, hiff, hplaced⟩ := h.placed (Utf8.Carry.empty.received before) fault _
    (by rw [Utf8.Carry.received_append, Utf8.Carry.received])
  rw [hjoin, hlength] at hiff hplaced
  rw [faults_congr hbefore] at hplaced
  exact ⟨read, ⟨left, hread⟩, hiff, hplaced⟩

/-- A feed to which these events come gives the items of a feed without the faults, and the faults among
    them. -/
def Withstands {S S' : Type} (interpret : Interpretation α) (settings : Settings)
    (reads : List β → String → Prop) (events : List (Except Fault β))
    (ask : S → Readiness (Option (Item α)) × S) (feed : S)
    (ask' : S' → Readiness (Option (Item α)) × S') (calmFeed : S') : Prop :=
  ∃ items calm reached, Drains ask feed items ∧ Drains ask' calmFeed calm ∧
    Interspersed interpret settings reads events calm items reached

/-- A reader and an inflow that do not fail bring the same fragments as ones that do, and then nothing is
    held. -/
theorem received_of_text {deliveries : List Delivery} {text : String}
    (htext : (arrived deliveries).flatten = octetsOf text) :
    Utf8.Carry.empty.arrivals (arrived deliveries) =
        (arrived (Utf8.Carry.empty.received deliveries)).map .ok ∧
      (Utf8.Carry.empty.afterChunks (arrived deliveries)).unfinished? = none ∧
      Utf8.decode (arrived deliveries).flatten = .upTo text [] := by
  have hdecode := Utf8.decode_octetsOf text
  rw [← htext] at hdecode
  obtain ⟨harrivals, -, -, hheld⟩ := Utf8.Carry.received_of_upTo hdecode
  exact ⟨harrivals, by rw [Utf8.Carry.unfinished?, hheld]; rfl, hdecode⟩

/-- **Faults of the transport change nothing else**, and come where they came.  This holds of fragments, of
    a blocking reader and of an inflow, whatever the faults stand in, and however often the reader is
    interrupted, which is never told, and the inflow is not ready. -/
theorem faults_interspersed {ρ ρ' σ σ' : Type} [OctetReader ρ] [OctetReader ρ'] [Inflow σ]
    [Inflow σ'] (interpret : Interpretation α) (settings : Settings)
    (fragments : List (Except Fault String)) {text : String}
    {reads : List Delivery} (hreads : (arrived reads).flatten = octetsOf text)
    {failing : ρ} (hfailing : OctetReader.Answers (max settings.readSize 1) failing reads)
    {reader : ρ'} (hreader : OctetReader.Reads (max settings.readSize 1) reader (arrived reads))
    {chunks : List Delivery} (hchunks : (arrived chunks).flatten = octetsOf text)
    {faulty : σ} (hfaulty : Inflow.Answers faulty chunks)
    {inflow : σ'} (hinflow : Inflow.Delivers inflow (arrived chunks)) :
    Withstands interpret settings Joins fragments
        PullFeed.ask (.new (⟨fragments⟩ : Fragments) interpret settings)
        PullFeed.ask (.new (Fragments.ofList (arrived fragments)) interpret settings) ∧
      Withstands interpret settings ReadsAs reads
        PullFeed.ask (.ofReader failing interpret settings)
        PullFeed.ask (.ofReader reader interpret settings) ∧
      (∀ fault ∈ faults reads, fault.kind ≠ .interrupted) ∧
      Withstands interpret settings ReadsAs chunks
        PollFeed.poll (.new faulty interpret settings)
        PollFeed.poll (.new inflow interpret settings) := by
  refine ⟨?_, ?_, hfailing.ne_interrupted, ?_⟩
  · obtain ⟨reached, hitems⟩ := interspersed_arrivals interpret settings fragments
    have hgiven := PullFeed.yields_arrivals (Fragments.answers fragments)
      (Hopper.new interpret settings)
    have hcalm := PullFeed.yields_arrivals (Fragments.answers ((arrived fragments).map .ok))
      (Hopper.new interpret settings)
    rw [Hopper.ahead_new] at hgiven hcalm
    exact ⟨_, _, reached, hgiven.drains PullFeed.ask_lasts, hcalm.drains PullFeed.ask_lasts, hitems⟩
  · obtain ⟨harrivals, hfinished, hdecode⟩ := received_of_text hreads
    obtain ⟨reached, hitems⟩ := interspersed_arrivals interpret settings
      (Utf8.Carry.empty.received reads)
    have hgiven := PullFeed.yields_arrivals (ReaderSupply.answers_received .empty hfailing)
      (Hopper.new interpret settings)
    have hcalm := PullFeed.yields_arrivals (ReaderSupply.answers .empty hreader)
      (Hopper.new interpret settings)
    rw [hfinished, Option.map_none, Option.toList_none, List.append_nil, Hopper.ahead_new]
      at hgiven hcalm
    rw [harrivals] at hcalm
    exact ⟨_, _, reached, hgiven.drains PullFeed.ask_lasts, hcalm.drains PullFeed.ask_lasts,
      hitems.of_received hdecode⟩
  · obtain ⟨harrivals, hfinished, hdecode⟩ := received_of_text hchunks
    obtain ⟨reached, hitems⟩ := interspersed_arrivals interpret settings
      (Utf8.Carry.empty.received chunks)
    have hgiven := PollFeed.yields_received hfaulty .empty (Hopper.new interpret settings)
    have hcalm := PollFeed.yields_arrivals hinflow .empty (Hopper.new interpret settings)
    rw [Utf8.Carry.ending_of_finished hfinished, Hopper.ahead_new] at hgiven hcalm
    rw [harrivals] at hcalm
    exact ⟨_, _, reached, hgiven.drains PollFeed.poll_lasts, hcalm.drains PollFeed.poll_lasts,
      hitems.of_received hdecode⟩

/-- The chunks of a text that goes on behind its array, with faults inside a letter, inside an object,
    between objects, and behind what cannot be split. -/
def torn : List Delivery :=
  let reset := Fault.reported .other "reset"
  [.ok [0x5B, 0x7B, 0x22, 0xC3], .error reset, .ok [0xA9, 0x22, 0x3A, 0x31], .error reset,
    .ok [0x7D, 0x2C], .error reset, .ok [0x7B, 0x7D, 0x5D, 0x78], .error reset]

/-- The torn text as fragments, from a reader that is interrupted too, and from an inflow that is not ready
    at once: the last fault is not reached. -/
theorem faults_interspersed_torn :
    let reset := Fault.reported .other "reset"
    let fragments : List (Except Fault String) :=
      [.ok "[\x7b\"é", .error reset, .ok "\":1\x7d,", .ok "\x7b\x7d]x", .error reset]
    let reading : Script := { events := [.chunk [0x5B, 0x7B, 0x22, 0xC3],
      .fault (.reported .interrupted "signal"), .fault reset, .chunk [0xA9, 0x22, 0x3A, 0x31],
      .fault reset, .chunk [0x7D, 0x2C], .fault reset, .chunk [0x7B, 0x7D, 0x5D, 0x78],
      .fault reset] }
    let flowing : Script := { events := [.chunk [0x5B, 0x7B, 0x22, 0xC3], .notReady, .fault reset,
      .chunk [0xA9, 0x22, 0x3A, 0x31], .fault reset, .notReady, .chunk [0x7D, 0x2C], .fault reset,
      .chunk [0x7B, 0x7D, 0x5D, 0x78], .fault reset] }
    let calm : Script := { events := (arrived torn).map .chunk }
    let items : List (Item String) := [.error (.transport reset), .error (.transport reset),
      .ok "\x7b\"é\":1\x7d", .error (.transport reset), .ok "\x7b\x7d", .error (.malformed "\x7b\x7d]x")]
    (PullFeed.take 9 (.ofReader reading .verbatim)).1 = items ∧
      Withstands .verbatim {} Joins fragments
        PullFeed.ask (.new (⟨fragments⟩ : Fragments) .verbatim)
        PullFeed.ask (.new (Fragments.ofList (arrived fragments)) .verbatim) ∧
      Withstands .verbatim {} ReadsAs torn PullFeed.ask (.ofReader reading .verbatim)
        PullFeed.ask (.ofReader calm .verbatim) ∧
      (∀ fault ∈ faults torn, fault.kind ≠ .interrupted) ∧
      Withstands .verbatim {} ReadsAs torn PollFeed.poll (.new flowing .verbatim)
        PollFeed.poll (.new calm .verbatim) := by
  intro reset fragments reading flowing calm items
  have hoctets : (arrived torn).flatten = octetsOf "[\x7b\"é\":1\x7d,\x7b\x7d]x" := by
    rw [Utf8.octetsOf_eq_flatMap]
    decide
  have hkind : reset.kind ≠ .interrupted := by decide
  have hreading : OctetReader.Answers (max 1024 1) reading torn :=
    .octets rfl (by decide) <| .interrupted rfl rfl <| .failed rfl hkind <|
      .octets rfl (by decide) <| .failed rfl hkind <| .octets rfl (by decide) <|
      .failed rfl hkind <| .octets rfl (by decide) <| .failed rfl hkind <| .ended rfl
  have hcalm : OctetReader.Reads (max 1024 1) calm (arrived torn) :=
    .octets rfl (by decide) <| .octets rfl (by decide) <| .octets rfl (by decide) <|
      .octets rfl (by decide) <| .ended rfl
  have hflowing : Inflow.Answers flowing torn :=
    .chunk rfl <| .notReady rfl <| .failed rfl <| .chunk rfl <| .failed rfl <| .notReady rfl <|
      .chunk rfl <| .failed rfl <| .chunk rfl <| .failed rfl <| .ended rfl
  have hdelivers : Inflow.Delivers calm (arrived torn) :=
    .chunk rfl <| .chunk rfl <| .chunk rfl <| .chunk rfl <| .ended rfl
  exact ⟨by decide +kernel, faults_interspersed .verbatim {} fragments hoctets hreading hcalm hoctets
    hflowing hdelivers⟩

end ObjectFeed
