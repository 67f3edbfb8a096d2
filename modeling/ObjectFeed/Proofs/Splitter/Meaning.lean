/-
  A splitter that keeps brackets keeps the meaning of the objects.

  * `ReadsTokens` is a reading that goes by the tokens of a text alone; `readsTokens_json`: reading JSON of
    any shape is one, and stays one if the values are checked moreover (`ReadsTokens.checked`);
  * `meaning_of_array`: the objects of an array, whatever its fragments, have the tokens of their
    elements, and are read as they are by every such reading.
-/
import ObjectFeed.Interpretation
import ObjectFeed.Proofs.Json.Parsing
import ObjectFeed.Proofs.Splitter.Arrays

namespace ObjectFeed.Splitter

open Text (isBlank isJsonBlank isBlank_of_isJsonBlank)
open Json

theorem dropped_eq_isBlank {o : Options} (hkeep : o.keepBrackets = true) :
    o.dropped = isBlank := by
  funext c
  simp [Options.dropped, hkeep]

theorem parse?_eq_of_tokens? {s t : List Char}
    (h : tokens? isJsonBlank s = tokens? isJsonBlank t) : parse? s = parse? t := by
  rw [parse?, parse?, h]

/-- A reading that goes by the tokens of a text alone. -/
def ReadsTokens {β : Type} (reading : String → β) : Prop :=
  ∀ s t : String, tokens? isJsonBlank s.toList = tokens? isJsonBlank t.toList → reading s = reading t

/-- **A text is read as JSON by its tokens alone**, whatever is read from it. -/
theorem readsTokens_json {α : Type} (shape : Shape α) : ReadsTokens (Interpretation.json shape) := by
  intro s t h
  have hread : read? s.toList = read? t.toList := by
    rw [read?, read?, parse?_eq_of_tokens? h]
  simp only [Interpretation.json, Shape.ofText?, hread]

theorem ReadsTokens.checked {α : Type} {interpret : Interpretation α} (h : ReadsTokens interpret)
    (broken : α → List (String × List String)) : ReadsTokens (interpret.checked broken) := by
  intro s t hsame
  rw [Interpretation.checked, Interpretation.checked, h s t hsame]

/-- **The objects of an array mean what its elements mean.**  Escapes are honored, brackets are kept
    and there is no limit.  The array is read to its end however it is cut, and each object has the
    tokens of its element.  So both are parsed as the same value, unless a string has none, and every
    shape of values takes the same from both or rejects both, as does every reading that goes by the
    tokens alone. -/
theorem meaning_of_array {o : Options} (hlimit : o.sizeLimit = none)
    (hhonor : o.honorEscapes = true) (hkeep : o.keepBrackets = true)
    {elements : List (List Char)} {fragments : List String}
    (htext : IsArray isJsonBlank elements (String.join fragments).toList)
    (hobjects : ∀ e ∈ elements, IsObject isJsonBlank e) :
    let fed := ({ options := o } : Splitter).feedEach fragments
    fed.failure = none ∧ fed.splitter.isClosed = true ∧ fed.objects.length = elements.length ∧
      ∀ (i : Nat) (element : List Char), elements[i]? = some element →
        ∃ object tokens, fed.objects[i]? = some object ∧
          tokens? isJsonBlank object.toList = some tokens ∧
          tokens? isJsonBlank element = some tokens ∧
          parse? object.toList = parse? element ∧
          ((parse? element).isSome ↔ Unescapes tokens) ∧
          (∀ (α : Type) (shape : Shape α), Interpretation.json shape object =
            Interpretation.json shape (String.ofList element)) ∧
          ∀ (β : Type) (reading : String → β), ReadsTokens reading →
            reading object = reading (String.ofList element) := by
  intro fed
  have hgap : ∀ c, isJsonBlank c = true → isBlank c = true := fun _ => isBlank_of_isJsonBlank
  have hrun := run_of_isArray hlimit hhonor hgap htext hobjects
  have hfed : fed = { splitter := { options := o, place := .after }
                      objects := elements.map o.objectOf
                      fragments := fragments.length } :=
    feedEach_of_accepted (s := { options := o }) hrun
  rw [hfed]
  refine ⟨rfl, rfl, List.length_map _, fun i element hi => ?_⟩
  have hvalue : IsValue isJsonBlank element := (hobjects element (List.mem_of_getElem? hi)).1
  obtain ⟨tokens, hkeeps, -⟩ := leads_of_isValue hgap hvalue []
  have hobject : (o.objectOf element).toList = strip true isBlank .plain element := by
    rw [Options.objectOf, String.toList_ofList, hhonor, dropped_eq_isBlank hkeep]
  have htokens : tokens? isJsonBlank (o.objectOf element).toList = some tokens := by
    rw [hobject, hkeeps.stripped.tokens?]
  have hsame : tokens? isJsonBlank (o.objectOf element).toList = tokens? isJsonBlank element := by
    rw [htokens, hkeeps.lexes.tokens?]
  have hread : ∀ (β : Type) (reading : String → β), ReadsTokens reading →
      reading (o.objectOf element) = reading (String.ofList element) := by
    intro β reading hreading
    exact hreading _ _ (by rw [hsame, String.toList_ofList])
  refine ⟨o.objectOf element, tokens, ?_, htokens, hkeeps.lexes.tokens?, parse?_eq_of_tokens? hsame,
    parse?_isSome_iff hvalue hkeeps.lexes.tokens?, fun α shape => ?_, hread⟩
  · rw [List.getElem?_map, hi, Option.map_some]
  · exact hread _ _ (readsTokens_json shape)

/-- The object of the sample is parsed as its source text is, and that is parsed. -/
theorem meaning_of_array_sample :
    IsArray isJsonBlank [sample, ['{', '}']] (String.join sampleFragments).toList ∧
      (({ options := { keepBrackets := true } } : Splitter).feedEach sampleFragments).objects[0]? =
        some "\x7b\"k\":[1,\"]\\\"\x7d\"]\x7d" ∧
      parse? "\x7b\"k\":[1,\"]\\\"\x7d\"]\x7d".toList = parse? sample ∧ (parse? sample).isSome := by
  obtain ⟨harray, hobjects⟩ := @isArray_sample isJsonBlank rfl
  have htext : IsArray isJsonBlank [sample, ['{', '}']] (String.join sampleFragments).toList :=
    harray
  obtain ⟨-, -, -, hmeaning⟩ :=
    meaning_of_array (o := { keepBrackets := true }) rfl rfl rfl htext hobjects
  obtain ⟨object, tokens, hobject, -, -, hsame, -⟩ := hmeaning 0 sample rfl
  have hgiven :
      (({ options := { keepBrackets := true } } : Splitter).feedEach sampleFragments).objects[0]? =
        some "\x7b\"k\":[1,\"]\\\"\x7d\"]\x7d" := by decide
  obtain rfl : object = "\x7b\"k\":[1,\"]\\\"\x7d\"]\x7d" :=
    Option.some.inj (hobject.symm.trans hgiven)
  exact ⟨htext, hgiven, hsame, by decide⟩

end ObjectFeed.Splitter
