/-
  All feeds give the same items.

  * `itemsOfText` are the items that come of a text that is fed at once;
  * `Gives`: a feed yields these items and no others, but for the fragment that a failure quotes;
  * `feeds_agree`: fragments, a blocking reader, chunks and a polled reader that bring one text give
    the same items, those of the text fed at once.
-/
import ObjectFeed.Proofs.Feeds.Scripts
import ObjectFeed.Proofs.Splitter.Cuts

namespace ObjectFeed

variable {α : Type}

/-- An item without the fragment that its failure quotes. -/
def Item.unquoted (item : Item α) : Item α :=
  item.mapError Failure.unquoted

/-- The items that come of a text that is fed at once. -/
def itemsOfText (interpret : Interpretation α) (settings : Settings) (text : String) :
    List (Item α) :=
  itemsOf interpret settings { options := settings.splitter } [text]

/-- Asked until its end, a feed in this state gives one sequence of items: these, but for the
    fragment that a failure quotes. -/
def Gives {S : Type} (ask : S → Readiness (Option (Item α)) × S) (s : S) (items : List (Item α)) :
    Prop :=
  ∃ given, (∀ other, Yields ask s other ↔ other = given) ∧
    given.map Item.unquoted = items.map Item.unquoted

/-- How a text is cut into fragments shows only in the fragment that a failure quotes, whatever the items
    at the end are. -/
theorem itemsThrough_cut (interpret : Interpretation α) (settings : Settings)
    (ending : Splitter → List (Item α)) (splitter : Splitter) (fragments : List String) :
    (itemsThrough interpret settings ending splitter (fragments.map .ok)).map Item.unquoted =
      (itemsThrough interpret settings ending splitter [.ok (String.join fragments)]).map
        Item.unquoted := by
  have hjoin : [String.join fragments].flatMap String.toList =
      fragments.flatMap String.toList := by
    rw [List.flatMap_singleton, String.toList_join]
  have hone : [(.ok (String.join fragments) : Arrival)] = [String.join fragments].map .ok := rfl
  obtain ⟨quoted, n, hcut, -⟩ := splitter.feedEach_eq_run fragments rfl
  obtain ⟨quoted', n', hwhole, -⟩ := splitter.feedEach_eq_run [String.join fragments] rfl
  rw [hjoin] at hwhole
  rw [hone, itemsThrough_texts, itemsThrough_texts, hcut, hwhole]
  cases (Splitter.run splitter.options splitter.place (fragments.flatMap String.toList)).refusal with
  | none => rfl
  | some refusal =>
    have hitem : Item.unquoted (.error (refusal.toFailure quoted) : Item α) =
        Item.unquoted (.error (refusal.toFailure quoted')) := by
      cases refusal <;> rfl
    simp only [Option.map_some, List.map_append, List.map_cons, hitem]

theorem itemsOf_cut (interpret : Interpretation α) (settings : Settings) (splitter : Splitter)
    (fragments : List String) :
    (itemsOf interpret settings splitter fragments).map Item.unquoted =
      (itemsOf interpret settings splitter [String.join fragments]).map Item.unquoted := by
  rw [itemsOf_eq_itemsThrough, itemsOf_eq_itemsThrough, itemsThrough_cut]
  rfl

theorem gives_of_yields {S : Type} {ask : S → Readiness (Option (Item α)) × S} {s : S}
    {interpret : Interpretation α} {settings : Settings} {fragments : List String} {text : String}
    (hjoin : String.join fragments = text)
    (hs : Yields ask s ((Hopper.new interpret settings).coming fragments)) :
    Gives ask s (itemsOfText interpret settings text) := by
  refine ⟨_, fun other => ⟨fun h => h.unique hs, fun h => h ▸ hs⟩, ?_⟩
  have hcoming : (Hopper.new interpret settings).coming fragments =
      itemsOf interpret settings { options := settings.splitter } fragments := rfl
  rw [hcoming, itemsOf_cut, hjoin, itemsOfText]

/-- **All feeds give the same items.**  Whatever cuts a text into fragments, and whatever brings its
    octets, in reads and chunks of any size and however often it is not ready, a feed over it gives
    the items of the text fed at once, and then its end. -/
theorem feeds_agree {ρ σ π : Type} [OctetReader ρ] [Inflow σ] [PolledReader π]
    (interpret : Interpretation α) (settings : Settings) (readSize pollSize : Nat) (text : String)
    {fragments : List String} (hfragments : String.join fragments = text)
    {reader : ρ} (hreader : OctetReader.Brings (max readSize 1) reader (octetsOf text))
    {inflow : σ} (hinflow : Inflow.Brings inflow (octetsOf text))
    {polled : π} (hpolled : PolledReader.Brings (max pollSize 1) polled (octetsOf text)) :
    Gives PullFeed.ask (.new (Fragments.ofList fragments) interpret settings)
        (itemsOfText interpret settings text) ∧
      Gives PullFeed.ask (.ofReader reader interpret { settings with readSize })
        (itemsOfText interpret settings text) ∧
      Gives PollFeed.poll (.new inflow interpret settings)
        (itemsOfText interpret settings text) ∧
      Gives PollFeed.poll (.ofReader polled interpret { settings with readSize := pollSize })
        (itemsOfText interpret settings text) := by
  have hawaits := Utf8.Carry.awaits_octetsOf text
  refine ⟨?_, ?_, ?_, ?_⟩
  · exact gives_of_yields hfragments (PullFeed.yields (Fragments.brings_ofList fragments) _)
  · obtain ⟨parts, hparts, hbrings⟩ := ReaderSupply.brings hreader hawaits
    exact gives_of_yields hparts
      (PullFeed.yields hbrings (.new interpret { settings with readSize }))
  · obtain ⟨parts, hparts, hyields⟩ := PollFeed.yields hinflow hawaits
    exact gives_of_yields hparts (hyields (.new interpret settings))
  · obtain ⟨parts, hparts, hyields⟩ := PollFeed.yields (ReaderInflow.brings hpolled) hawaits
    exact gives_of_yields hparts (hyields (.new interpret { settings with readSize := pollSize }))

/-- A script that is late with the second octet of a letter. -/
def lateScript : Script where
  events := [.notReady, .chunk [0x5B, 0x7B, 0x22, 0xC3], .notReady,
    .chunk [0xA9, 0x22, 0x3A, 0x31, 0x7D, 0x5D, 0x78]]

/-- A letter after the array: its object comes first, and then the failure. -/
theorem feeds_agree_lateScript :
    let items : List (Item String) := [.ok "\x7b\"é\":1\x7d", .error (.malformed "x")]
    Gives PullFeed.ask (.new (Fragments.ofList ["[\x7b\"é", "", "\":1\x7d", "]x"]) .verbatim) items ∧
      Gives PullFeed.ask (.ofReader lateScript .verbatim { readSize := 0 }) items ∧
      Gives PollFeed.poll (.new lateScript .verbatim) items ∧
      Gives PollFeed.poll (.ofReader lateScript .verbatim { readSize := 3 }) items := by
  have hoctets : octetsOf "[\x7b\"é\":1\x7d]x" = Script.octets lateScript.events := by
    rw [Utf8.octetsOf_eq_flatMap]
    decide
  have hcalm : ∀ event ∈ lateScript.events, event.isCalm = true := by decide
  have hfaultless : ∀ event ∈ lateScript.events, ∀ fault, event ≠ .fault fault := by
    intro event hevent fault heq
    have := hcalm event hevent
    rw [heq] at this
    exact Bool.false_ne_true this
  have hreader := Script.brings_read (n := max 0 1) (by decide) hcalm 0
  have hinflow := Script.brings_inflow hfaultless 0
  have hpolled := Script.brings_pollRead (n := max 3 1) (by decide) hcalm 0
  rw [← hoctets] at hreader hinflow hpolled
  exact feeds_agree .verbatim {} 0 3 "[\x7b\"é\":1\x7d]x" (by decide) hreader hinflow hpolled

end ObjectFeed
