/-
  What becomes of a text when the limit on the size of objects is lowered.

  * `run_of_not_outgrown`, `objects_of_first_outgrown`: a text that does not outgrow a limit is read with
    any higher one as without, and what is completed before it does is completed with any higher one;
  * `lower_limit_cuts`: so a feed gives the same items as before, or the first values of these and then the
    failure that tells of the lower limit.
-/
import ObjectFeed.Proofs.Feeds.IllFormed
import ObjectFeed.Proofs.Feeds.Limits

namespace ObjectFeed

namespace Splitter

variable {o o' : Options} {low : Nat} {high : Option Nat} {text : List Char}

/-- The same options with this limit, or without one. -/
def Options.limitedTo (o : Options) (limit : Option Nat) : Options :=
  { o with sizeLimit := limit }

/-! ## Two limits -/

theorem Outgrows.of_le {limit : Nat} {start : Place} (h : Outgrows o limit start text)
    (hle : low ≤ limit) : Outgrows o low start text :=
  ⟨h.1, Nat.lt_of_le_of_lt hle h.2⟩

/-- A text that does not outgrow a limit is read with it, and with any higher one, as without. -/
theorem run_of_not_outgrown (hle : ∀ limit ∈ high, low ≤ limit)
    (hwithin : ∀ read, read <+: text → ¬ Outgrows o low .before read) :
    run (o.limitedTo high) .before text = run o.unlimited .before text := by
  cases high with
  | none => rfl
  | some limit =>
    have hlimit : (o.limitedTo (some limit)).sizeLimit = some limit := rfl
    have hstart : Place.before.object.utf8ByteSize ≤ limit := Nat.zero_le limit
    rcases run_limited hlimit hstart text with
      ⟨hsame, -⟩ | ⟨read, rest, rfl, houtgrows, -, -⟩
    · exact hsame
    · have hlower : Outgrows o low .before read := houtgrows.of_le (hle limit rfl)
      exact absurd hlower (hwithin read (List.prefix_append read rest))

/-- What is completed before a text outgrows a limit first is completed with any higher one. -/
theorem objects_of_first_outgrown (hle : ∀ limit ∈ high, low ≤ limit) {read : List Char}
    (hread : read <+: text)
    (hfirst : ∀ earlier, earlier <+: read → Outgrows o low .before earlier → earlier = read) :
    (run o.unlimited .before read).objects <+: (run (o.limitedTo high) .before text).objects := by
  cases high with
  | none => exact objects_mono o.unlimited .before hread
  | some limit =>
    have hlimit : (o.limitedTo (some limit)).sizeLimit = some limit := rfl
    have hstart : Place.before.object.utf8ByteSize ≤ limit := Nat.zero_le limit
    rcases run_limited hlimit hstart text with
      ⟨hsame, -⟩ | ⟨read', rest, htext, houtgrows, -, hrun⟩
    · rw [hsame]
      exact objects_mono o.unlimited .before hread
    · -- where the text outgrows the higher limit it has outgrown the lower one
      have hlower : Outgrows o low .before read' := houtgrows.of_le (hle limit rfl)
      have hread' : read' <+: text := htext ▸ List.prefix_append read' rest
      have horder : read <+: read' := by
        rcases List.prefix_or_prefix_of_prefix hread hread' with h | h
        · exact h
        · rw [hfirst read' h hlower]
      rw [hrun]
      exact objects_mono o.unlimited .before horder

end Splitter

/-! ## Feeds -/

open Splitter

/-- The same settings with this limit, or without one. -/
def Settings.limitedTo (settings : Settings) (limit : Option Nat) : Settings :=
  { settings with splitter := settings.splitter.limitedTo limit }

/-- The items of an array whose objects are taken as they are. -/
def itemsLimitedTo (settings : Settings) (limit : Option Nat) (fragments : List String) :
    List (Item String) :=
  itemsOf .verbatim (settings.limitedTo limit)
    { options := (settings.limitedTo limit).splitter } fragments

variable {settings : Settings} {low : Nat} {high : Option Nat} {fragments : List String}

theorem itemsLimitedTo_of_not_outgrown (hle : ∀ limit ∈ high, low ≤ limit)
    (hwithin : ∀ read, read <+: (String.join fragments).toList →
      ¬ Outgrows settings.splitter low .before read) :
    itemsLimitedTo settings (some low) fragments = itemsLimitedTo settings high fragments := by
  have hsame : ∀ read, read <+: fragments.flatMap String.toList →
      run (settings.splitter.limitedTo (some low)) .before read =
        run (settings.splitter.limitedTo high) .before read := by
    intro read hread
    rw [← String.toList_join] at hread
    have hwithin' : ∀ earlier, earlier <+: read → ¬ Outgrows settings.splitter low .before earlier :=
      fun earlier h => hwithin earlier (h.trans hread)
    rw [run_of_not_outgrown hle hwithin']
    refine run_of_not_outgrown (fun limit hlimit => ?_) hwithin'
    rw [Option.mem_some_iff] at hlimit
    exact Nat.le_of_eq hlimit
  have hfed := feedEach_congr hsame
  rw [itemsLimitedTo, itemsLimitedTo, itemsOf, itemsOf]
  simp only [Settings.limitedTo] at hfed ⊢
  rw [hfed]
  rfl

/-- Where a text outgrows the lower limit first, the items are the values before it, which are the first
    that there were, and the failure. -/
theorem itemsLimitedTo_of_outgrown (hle : ∀ limit ∈ high, low ≤ limit) {read rest : List Char}
    (htext : (String.join fragments).toList = read ++ rest)
    (hfirst : ∀ earlier, earlier <+: read → Outgrows settings.splitter low .before earlier →
      earlier = read)
    (hrun : run (settings.splitter.limitedTo (some low)) .before (String.join fragments).toList =
      { run settings.splitter.unlimited .before read with
        refusal := some (.tooLarge low), unread := rest }) :
    let values := (run settings.splitter.unlimited .before read).objects
    values.map .ok <+: itemsLimitedTo settings high fragments ∧
      itemsLimitedTo settings (some low) fragments = values.map .ok ++ [.error (.tooLarge low)] := by
  intro values
  have hread : read <+: (String.join fragments).toList := htext ▸ List.prefix_append read rest
  constructor
  · have hvalues := objects_of_first_outgrown hle hread hfirst
    rw [← objects_feedEach] at hvalues
    rw [itemsLimitedTo, itemsOf, filterMap_verbatim]
    exact (hvalues.map _).trans (List.prefix_append _ _)
  · have hfailure := (failure_eq_tooLarge_iff (settings.splitter.limitedTo (some low)) fragments).2
      (congrArg Run.refusal hrun)
    have hobjects := objects_feedEach (settings.splitter.limitedTo (some low)) fragments
    rw [hrun] at hobjects
    rw [itemsLimitedTo, itemsOf, filterMap_verbatim]
    simp only [Settings.limitedTo]
    rw [hobjects, hfailure]
    rfl

theorem drains_itemsLimitedTo {σ : Type} [Supply σ] {supply : σ}
    (hs : Supply.Brings supply fragments) (settings : Settings) (limit : Option Nat) :
    Drains PullFeed.ask (.new supply .verbatim (settings.limitedTo limit))
      (itemsLimitedTo settings limit fragments) :=
  (PullFeed.yields hs (.new .verbatim (settings.limitedTo limit))).drains PullFeed.ask_lasts

theorem itemsLimitedTo_of_malformed (hle : ∀ limit ∈ high, low ≤ limit) {read : List Char}
    (hread : read <+: (String.join fragments).toList)
    (hstray : (run settings.splitter.unlimited .before read).refusal = some .stray)
    (hwithin : ∀ earlier, earlier <+: read → ¬ Outgrows settings.splitter low .before earlier) :
    ∃ (values : List String) (quoted : String),
      itemsLimitedTo settings (some low) fragments =
          values.map .ok ++ [.error (.malformed quoted)] ∧
        itemsLimitedTo settings high fragments =
          values.map .ok ++ [.error (.malformed quoted)] := by
  -- behind what is malformed nothing is read, so nothing outgrows the limit there either
  have hnone : ∀ earlier, earlier <+: (String.join fragments).toList →
      ¬ Outgrows settings.splitter low .before earlier := by
    intro earlier hearlier houtgrows
    rcases List.prefix_or_prefix_of_prefix hearlier hread with h | h
    · exact hwithin earlier h houtgrows
    · have hrefused := (run_of_refused h (by rw [hstray]; exact nofun)).1
      rw [hstray, houtgrows.1] at hrefused
      cases hrefused
  have hsame := itemsLimitedTo_of_not_outgrown hle hnone
  have hall := run_of_not_outgrown hle hnone
  obtain ⟨hrefusal, -⟩ := run_of_refused hread (by rw [hstray]; exact nofun)
  obtain ⟨quoted, n, hfed, -⟩ := feedEach_eq_run
    ({ options := settings.splitter.limitedTo high } : Splitter) fragments rfl
  rw [← String.toList_join, hall, hrefusal, hstray] at hfed
  let values := (run settings.splitter.unlimited .before (String.join fragments).toList).objects
  have hitems : itemsLimitedTo settings high fragments =
      values.map .ok ++ [.error (.malformed quoted)] := by
    rw [itemsLimitedTo, itemsOf, filterMap_verbatim]
    simp only [Settings.limitedTo]
    rw [hfed]
    rfl
  exact ⟨values, quoted, hsame.trans hitems, hitems⟩

/-- **A lower limit cuts the items off, and changes none.**  Of any text in any fragments, a feed gives
    the same items as with the higher limit, or with none; or it gives the first values of these, then the
    failure that tells of the lower limit, and then its end.  The values are the objects that are complete
    where the text outgrows the limit first.  What is malformed before that is still reported. -/
theorem lower_limit_cuts {σ : Type} [Supply σ] {supply : σ} {fragments : List String}
    (hs : Supply.Brings supply fragments) (settings : Settings) {low : Nat} {high : Option Nat}
    (hle : ∀ limit ∈ high, low ≤ limit) :
    let text := (String.join fragments).toList
    let o := settings.splitter
    ∃ all items : List (Item String),
      Drains PullFeed.ask (.new supply .verbatim (settings.limitedTo high)) all ∧
      Drains PullFeed.ask (.new supply .verbatim (settings.limitedTo (some low))) items ∧
      ((items = all ∧ ∀ read, read <+: text → ¬ Outgrows o low .before read) ∨
        ∃ (read : List Char) (values : List String), read <+: text ∧ Outgrows o low .before read ∧
          (∀ earlier, earlier <+: read → Outgrows o low .before earlier → earlier = read) ∧
          values = (run o.unlimited .before read).objects ∧
          values.map .ok <+: all ∧ items = values.map .ok ++ [.error (.tooLarge low)]) ∧
      ∀ read, read <+: text → (run o.unlimited .before read).refusal = some .stray →
        (∀ earlier, earlier <+: read → ¬ Outgrows o low .before earlier) →
        ∃ (values : List String) (quoted : String),
          items = values.map .ok ++ [.error (.malformed quoted)] ∧
          all = values.map .ok ++ [.error (.malformed quoted)] := by
  intro text o
  refine ⟨itemsLimitedTo settings high fragments, itemsLimitedTo settings (some low) fragments,
    drains_itemsLimitedTo hs settings high, drains_itemsLimitedTo hs settings (some low), ?_, ?_⟩
  · have hlimit : (o.limitedTo (some low)).sizeLimit = some low := rfl
    have hstart : Place.before.object.utf8ByteSize ≤ low := Nat.zero_le low
    rcases run_limited hlimit hstart text with
      ⟨-, hwithin⟩ | ⟨read, rest, htext, houtgrows, hfirst, hrun⟩
    · exact .inl ⟨itemsLimitedTo_of_not_outgrown hle hwithin, hwithin⟩
    · obtain ⟨hvalues, hitems⟩ := itemsLimitedTo_of_outgrown hle htext hfirst hrun
      exact .inr ⟨read, _, htext ▸ List.prefix_append read rest, houtgrows, hfirst, rfl, hvalues,
        hitems⟩
  · exact fun read hread hstray hwithin => itemsLimitedTo_of_malformed hle hread hstray hwithin

/-- Two objects and a letter after the array.  The second object is too large for six octets. -/
theorem lower_limit_cuts_second :
    let fragments := ["[\x7b\"a\":1\x7d,\x7b\"b\":22", "\x7d]x"]
    let supply := Fragments.ofList fragments
    ∃ all items : List (Item String),
      Drains PullFeed.ask (.new supply .verbatim (Settings.limitedTo {} none)) all ∧
      Drains PullFeed.ask (.new supply .verbatim (Settings.limitedTo {} (some 6))) items ∧
      ∃ values : List String,
        values.map .ok <+: all ∧ items = values.map .ok ++ [.error (.tooLarge 6)] := by
  intro fragments supply
  have hle : ∀ limit ∈ (none : Option Nat), 6 ≤ limit := nofun
  obtain ⟨all, items, hall, hitems, hcut, -⟩ :=
    lower_limit_cuts (Fragments.brings_ofList fragments) {} hle
  refine ⟨all, items, hall, hitems, ?_⟩
  rcases hcut with ⟨-, hwithin⟩ | ⟨read, values, -, -, -, -, hvalues, hcut⟩
  · have houtgrows : Outgrows {} 6 .before "[\x7b\"a\":1\x7d,\x7b\"b\":22".toList := by decide
    exact absurd houtgrows (hwithin _ (by decide))
  · exact ⟨values, hvalues, hcut⟩

end ObjectFeed
