/-
  What a splitter makes of an array of any values.

  * `feedEach_of_elements`: the array is read to its end;
  * `objects_of_elements`: so no failure is reported, each element that is an object gives its text, in
    order, and no other element gives anything; an array of objects gives one text for each.

  Where escapes are not honored this holds if no backslash takes a quote with it.
-/
import ObjectFeed.Proofs.Splitter.Arrays
import ObjectFeed.Proofs.Splitter.Toggling

namespace ObjectFeed.Splitter

open Text (isBlank isJsonBlank isBlank_of_isJsonBlank)
open Json

variable {o : Options}

/-- An object whose only string value is this character behind a backslash. -/
def sampleEscape (e : Char) : List Char :=
  '{' :: Member.text ⟨['k'], [], [], ['"', '\\', e, '"']⟩ ++ ['}']

theorem isObject_sampleEscape {e : Char} (he : (escapedChar? e).isSome) :
    IsObject isJsonBlank (sampleEscape e) :=
  isObject_of_string (.char (by decide) (by decide) (by decide) .nil) (.escape he .nil)

theorem feedEach_of_elements (hlimit : o.sizeLimit = none) {elements : List (List Char)}
    {fragments : List String} (htext : IsArray isJsonBlank elements (String.join fragments).toList)
    (hread : o.ReadsEscapes (String.join fragments).toList) :
    ({ options := o } : Splitter).feedEach fragments =
      { splitter := { options := o, place := .after }
        objects := o.honoring.objectsOf elements
        fragments := fragments.length } := by
  have hlimit' : o.honoring.sizeLimit = none := hlimit
  have hhonoring : run o.honoring .before (String.join fragments).toList =
      { place := .after, objects := o.honoring.objectsOf elements } :=
    run_of_elements hlimit' rfl (fun _ => isBlank_of_isJsonBlank) htext
  obtain ⟨place, hplace, hrun⟩ := run_of_readsEscapes hlimit hread
  rw [hhonoring] at hplace hrun
  have hafter : place = .after := by
    cases place with
    | before => cases hplace
    | inside => cases hplace
    | after => rfl
  subst hafter
  exact feedEach_of_accepted (s := { options := o }) hrun

/-- **No object disappears.**  Of an array of any values in any fragments no failure is reported, and the
    texts are exactly those of the elements that are objects, in order: each without blanks and, unless
    brackets are kept, brackets outside strings.  If all elements are objects, there are as many texts as
    elements. -/
theorem objects_of_elements (hlimit : o.sizeLimit = none) {elements : List (List Char)}
    {fragments : List String} (htext : IsArray isJsonBlank elements (String.join fragments).toList)
    (hread : o.ReadsEscapes (String.join fragments).toList) :
    let fed := ({ options := o } : Splitter).feedEach fragments
    let queue := Backlog.empty.pushAll fed.objects
    fed.failure = none ∧ fed.splitter.truncation? = none ∧
      queue.toList = ((elements.filter fun e => e.head? = some '{').map fun e =>
        String.ofList (strip true o.dropped .plain e)) ∧
      ((∀ e ∈ elements, IsObject isJsonBlank e) → queue.size = elements.length) := by
  intro fed queue
  have hfed : fed = { splitter := { options := o, place := .after }
                      objects := o.honoring.objectsOf elements
                      fragments := fragments.length } := feedEach_of_elements hlimit htext hread
  have hqueue : queue.toList = o.honoring.objectsOf elements := by
    rw [Backlog.toList_pushAll, Backlog.toList_empty, List.nil_append, hfed]
  refine ⟨by rw [hfed], by rw [hfed]; rfl, hqueue, fun hobjects => ?_⟩
  rw [Backlog.size_eq_length, hqueue, Options.objectsOf_of_isObject _ hobjects, List.length_map]

/-- A number before an object with an escape in it, without escapes being honored. -/
theorem objects_of_elements_number :
    let fragments := ["[1,\x7b\"k\":\"", "\\n\"\x7d]"]
    let fed := ({ options := { honorEscapes := false } } : Splitter).feedEach fragments
    IsArray isJsonBlank [['1'], sampleEscape 'n'] (String.join fragments).toList ∧
      fed.failure = none ∧ fed.splitter.truncation? = none ∧
      (Backlog.empty.pushAll fed.objects).toList = ["\x7b\"k\":\"\\n\"\x7d"] := by
  intro fragments fed
  have hvalues : ∀ e ∈ [['1'], sampleEscape 'n'], IsValue isJsonBlank e := by
    intro e he
    rcases List.mem_cons.1 he with rfl | he
    · exact .scalar (isScalar_of_isDigit rfl)
    · rw [List.mem_singleton.1 he]
      exact (isObject_sampleEscape rfl).1
  have htext : IsArray isJsonBlank [['1'], sampleEscape 'n'] (String.join fragments).toList :=
    isArray_intercalate hvalues (by decide)
  have hread : Options.ReadsEscapes { honorEscapes := false } (String.join fragments).toList :=
    .inr (by decide)
  obtain ⟨hfailure, htruncation, hqueue, -⟩ := objects_of_elements rfl htext hread
  exact ⟨htext, hfailure, htruncation, hqueue⟩

/-- Where escapes are not honored, a quote behind a backslash ends its string, and the end of the object
    may be taken into the next.  An array of a number has no objects.  Neither is reported. -/
theorem not_object_of_each_element :
    let hidden := ["[\x7b\"k\":\"\\\"\"\x7d,\x7b\"k\":\"\\\"\"\x7d]"]
    let fed := ({ options := { honorEscapes := false } } : Splitter).feedEach hidden
    let number := ({} : Splitter).feedEach ["[1]"]
    (IsArray isJsonBlank [sampleEscape '"', sampleEscape '"'] (String.join hidden).toList ∧
      fed.failure = none ∧ fed.splitter.truncation? = none ∧
      (Backlog.empty.pushAll fed.objects).size = 1) ∧
    IsArray isJsonBlank [['1']] (String.join ["[1]"]).toList ∧
      number.failure = none ∧ number.splitter.truncation? = none ∧
      (Backlog.empty.pushAll number.objects).size = 0 := by
  intro hidden fed number
  have hhidden : IsArray isJsonBlank [sampleEscape '"', sampleEscape '"']
      (String.join hidden).toList := by
    refine isArray_intercalate (fun e he => ?_) (by decide)
    have hquote : e = sampleEscape '"' := by simpa using he
    rw [hquote]
    exact (isObject_sampleEscape rfl).1
  have hnumber : IsArray isJsonBlank [['1']] (String.join ["[1]"]).toList := by
    refine isArray_intercalate (fun e he => ?_) (by decide)
    rw [List.mem_singleton.1 he]
    exact .scalar (isScalar_of_isDigit rfl)
  exact ⟨⟨hhidden, by decide⟩, hnumber, by decide⟩

end ObjectFeed.Splitter
