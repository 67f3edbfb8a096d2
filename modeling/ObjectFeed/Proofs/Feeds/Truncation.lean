/-
  What feeds give of an array that is cut off.

  * `truncation_exact`: a feed over a beginning of an array of objects gives the values of the elements
    that lie in it, and then, unless it ends quietly, the levels that are open.

  Where escapes are not honored this holds if no backslash takes a quote with it.
-/
import ObjectFeed.Proofs.Feeds.Agreement
import ObjectFeed.Proofs.Feeds.Scripts
import ObjectFeed.Proofs.Splitter.Beginnings

namespace ObjectFeed

open Json Splitter
open Text (isJsonBlank isBlank_of_isJsonBlank)

variable {α : Type}

theorem filterMap_itemOf?_of_accepts {interpret : Interpretation α} (settings : Settings)
    {sources : List (List Char)} {object : List Char → String} {decode : List Char → α}
    (h : ∀ e ∈ sources, interpret (object e) = .ok (decode e)) :
    (sources.map object).filterMap (itemOf? interpret settings) =
      sources.map fun e => .ok (decode e) := by
  rw [List.filterMap_map, ← List.filterMap_eq_map]
  refine List.filterMap_congr fun e he => ?_
  rw [Function.comp_apply, itemOf?, h e he]
  rfl

/-- **A feed over the beginning of an array gives the values of the elements that lie in it**, in order,
    then, unless it ends quietly, the levels that are open, and then nothing but its end.  What stands
    between the brackets of the array is cut off behind `read`, and `left` is the rest of it. -/
theorem truncation_exact {σ ρ : Type} [Supply σ] [Inflow ρ] {settings : Settings}
    (hlimit : settings.splitter.sizeLimit = none) {elements : List (List Char)}
    {text before read left : List Char} (htext : text = before ++ '[' :: read)
    (hbefore : IsGap isJsonBlank before) (hs : Separated isJsonBlank elements (read ++ left))
    (hobjects : ∀ e ∈ elements, IsObject isJsonBlank e)
    (hread : settings.splitter.ReadsEscapes text)
    {interpret : Interpretation α} {decode : List Char → α}
    (haccepts : ∀ e ∈ elements,
      interpret (String.ofList (strip true settings.splitter.dropped .plain e)) = .ok (decode e))
    {supply : σ} {fragments : List String} (hjoin : (String.join fragments).toList = text)
    (hsupply : Supply.Brings supply fragments)
    {inflow : ρ} (hinflow : Inflow.Brings inflow (octetsOf (String.ofList text))) :
    ∃ n, (∀ earlier element later, elements = earlier ++ element :: later →
        (LiesIn isJsonBlank earlier element read ↔ earlier.length < n)) ∧
      let items : List (Item α) := (elements.take n).map (fun e => .ok (decode e)) ++
        if settings.failOnTruncation then [.error (.truncated (unclosed true text))] else []
      Drains PullFeed.ask (.new supply interpret settings) items ∧
        Drains PollFeed.poll (.new inflow interpret settings) items := by
  obtain ⟨n, hlies, hfed⟩ := feedEach_of_beginning hlimit (fun _ => isBlank_of_isJsonBlank) htext
    hbefore hs hobjects hread
  refine ⟨n, hlies, ?_⟩
  intro items
  -- whatever the fragments, these are the items to come of a new hopper
  have hcoming : ∀ parts, (String.join parts).toList = text →
      (Hopper.new interpret settings).coming parts = items := by
    intro parts hparts
    obtain ⟨hfailure, hgiven, htruncation⟩ := hfed parts hparts
    have htaken : ∀ e ∈ elements.take n, IsObject isJsonBlank e :=
      fun e he => hobjects e (List.mem_of_mem_take he)
    have hvalues : (elements.take n |>.map settings.splitter.honoring.objectOf).filterMap
        (itemOf? interpret settings) = (elements.take n).map fun e => .ok (decode e) :=
      filterMap_itemOf?_of_accepts settings fun e he => haccepts e (List.mem_of_mem_take he)
    change itemsOf interpret settings { options := settings.splitter } parts = items
    rw [itemsOf, hfailure, hgiven, htruncation, Options.objectsOf_of_isObject _ htaken, hvalues]
    simp only [items]
    cases settings.failOnTruncation <;> rfl
  constructor
  · have hyields := PullFeed.yields hsupply (Hopper.new interpret settings)
    rw [hcoming fragments hjoin] at hyields
    exact hyields.drains PullFeed.ask_lasts
  · obtain ⟨parts, hparts, hyields⟩ :=
      PollFeed.yields hinflow (Utf8.Carry.awaits_octetsOf (String.ofList text))
    have hyields := hyields (Hopper.new interpret settings)
    rw [hcoming parts (by rw [hparts, String.toList_ofList])] at hyields
    exact hyields.drains PollFeed.poll_lasts

/-- An empty object and the sample, cut off behind the backslash of the sample. -/
def cutSample : List Char :=
  '[' :: '{' :: '}' :: ',' :: sample.take 13

/-- The same in chunks that are late. -/
def cutScript : Script where
  events := [.chunk [0x5B, 0x7B], .notReady, .chunk [0x7D, 0x2C, 0x7B, 0x22, 0x6B], .notReady,
    .chunk [0x22, 0x3A, 0x20, 0x5B, 0x31, 0x2C, 0x20, 0x22, 0x5D, 0x5C]]

theorem brings_cutScript : Inflow.Brings cutScript (octetsOf (String.ofList cutSample)) := by
  have hoctets : octetsOf (String.ofList cutSample) = Script.octets cutScript.events := by
    rw [Utf8.octetsOf_eq_flatMap]
    decide
  rw [hoctets]
  refine Script.brings_inflow (fun event hevent fault heq => ?_) 0
  subst heq
  revert hevent
  simp

/-- The empty object lies in the beginning.  The sample is cut off with three levels open. -/
theorem truncation_exact_cutSample :
    let items : List (Item String) := [.ok "\x7b\x7d", .error (.truncated 3)]
    Drains PullFeed.ask
        (.new (Fragments.ofList ["[\x7b\x7d,\x7b\"k\": [1", "", ", \"]\\"]) .verbatim) items ∧
      Drains PollFeed.poll (.new cutScript .verbatim) items := by
  let settings : Settings := {}
  have hobjects : ∀ e ∈ [['{', '}'], sample], IsObject isJsonBlank e := by
    intro e he
    exact (isArray_sample rfl).2 e (List.mem_reverse.1 he)
  have hs : Separated isJsonBlank [['{', '}'], sample]
      (('{' :: '}' :: ',' :: sample.take 13) ++ sample.drop 13) := separated_intercalate (by decide)
  obtain ⟨n, hlies, hpull, hpoll⟩ := truncation_exact (show settings.splitter.sizeLimit = none from rfl)
    (show cutSample = [] ++ '[' :: _ from rfl) (isGap_nil _) hs hobjects (.inl rfl)
    (show ∀ e ∈ [['{', '}'], sample], Interpretation.verbatim _ = .ok _ from fun _ _ => rfl)
    (by decide) (Fragments.brings_ofList ["[\x7b\x7d,\x7b\"k\": [1", "", ", \"]\\"])
    brings_cutScript
  have hone : n = 1 := by
    have hfirst := (hlies [] _ _ rfl).1 ⟨[], by decide, .single (isGap_nil _) _⟩
    have hsecond : ¬ 1 < n := fun hlt =>
      absurd ((hlies [['{', '}']] sample [] rfl).2 hlt).length_le (by decide)
    exact Nat.le_antisymm (Nat.not_lt.1 hsecond) hfirst
  subst hone
  exact ⟨hpull, hpoll⟩

/-- Where escapes are not honored, the quote behind a backslash ends its string, and a brace after it is
    taken for the end of the object: a part of an element is given, and the levels are not those that
    are open. -/
theorem truncation_not_exact :
    let settings : Settings := { splitter := { honorEscapes := false } }
    let element := '{' :: Member.text ⟨['k'], [], [], ['"', '\\', '"', '}', '"']⟩ ++ ['}']
    let read := element.take 9
    IsObject isJsonBlank element ∧ Separated isJsonBlank [element] (read ++ element.drop 9) ∧
      ¬ LiesIn isJsonBlank [] element read ∧ unclosed true ('[' :: read) = 2 ∧
      Drains PullFeed.ask
        (.new (Fragments.ofList [String.ofList ('[' :: read)]) .verbatim settings)
        [.ok (String.ofList read), .error (.truncated 1)] := by
  intro settings element read
  have hobject : IsObject isJsonBlank element :=
    isObject_of_string (.char (by decide) (by decide) (by decide) .nil)
      (.escape rfl (.char (by decide) (by decide) (by decide) .nil))
  refine ⟨hobject, separated_intercalate (by decide), ?_, by decide, ?_⟩
  · exact fun hlies => absurd hlies.length_le (by decide)
  · have hyields := PullFeed.yields (Fragments.brings_ofList [String.ofList ('[' :: read)])
      (Hopper.new .verbatim settings)
    have hcoming : (Hopper.new .verbatim settings).coming [String.ofList ('[' :: read)] =
        [.ok (String.ofList read), .error (.truncated 1)] := by decide
    rw [hcoming] at hyields
    exact hyields.drains PullFeed.ask_lasts

end ObjectFeed
