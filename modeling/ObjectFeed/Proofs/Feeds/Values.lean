/-
  The values of a feed that reads JSON.

  * `values_itemsOf`: the values among the items of a feed are those of the objects that are accepted;
  * `isObject_of_accepted`: an object that is accepted is one of the grammar of JSON, and so is what it
    is kept of, unless something fuses there when the blanks go;
  * `values_of_accepted`: so no feed gives a value for what is not JSON, but where something fuses.
-/
import ObjectFeed.Proofs.Feeds.Agreement
import ObjectFeed.Proofs.Json.Fusing
import ObjectFeed.Proofs.Json.Strictness
import ObjectFeed.Proofs.Splitter.Meaning
import ObjectFeed.Proofs.Splitter.Spans
import ObjectFeed.Records

namespace ObjectFeed

open Json Splitter
open Text (isBlank isJsonBlank)

variable {α : Type}

/-! ## Values among items -/

theorem values_itemsOf (interpret : Interpretation α) (settings : Settings) (splitter : Splitter)
    (fragments : List String) :
    (itemsOf interpret settings splitter fragments).filterMap Except.toOption =
      (splitter.feedEach fragments).objects.filterMap fun object => (interpret object).toOption := by
  have hitem : ∀ object, (itemOf? interpret settings object).bind Except.toOption =
      (interpret object).toOption := by
    intro object
    rw [itemOf?]
    cases interpret object with
    | ok a => rfl
    | error rejection => cases settings.skipInvalid <;> rfl
  have hfailure : ∀ failure : Option Failure,
      ((failure.map .error).toList : List (Item α)).filterMap Except.toOption = [] := by
    intro failure
    cases failure <;> rfl
  rw [itemsOf, List.filterMap_append, List.filterMap_filterMap, hfailure, List.append_nil]
  simp only [hitem]

/-! ## Accepted objects -/

theorem exists_value_of_json {shape : Shape α} {text : String} {a : α}
    (h : Interpretation.json shape text = .ok a) : ∃ v, parse? text.toList = some v := by
  rw [Interpretation.json] at h
  cases hshape : shape.ofText? text with
  | none => rw [hshape] at h; cases h
  | some b =>
    obtain ⟨⟨b', nodes⟩, hbind, -⟩ := Option.map_eq_some_iff.1 hshape
    obtain ⟨v, hread, -⟩ := Option.bind_eq_some_iff.1 hbind
    exact ⟨v, Option.eq_some_of_filter_eq_some hread⟩

section

variable {o : Splitter.Options} {text : List Char} {i : Nat} {object : String} {span : Span}

theorem toList_object (hhonor : o.honorEscapes = true) (hkeep : o.keepBrackets = true)
    (hspan : span.Gives o text i object) (hopening : span.opening = '{') :
    object.toList = strip true isBlank .plain span.source := by
  rw [hspan.object_eq hopening, Options.objectOf, String.toList_ofList, hhonor,
    dropped_eq_isBlank hkeep]

/-- **What is accepted is strictly JSON**: the text of the object, and its span too unless something
    fuses there when the blanks go. -/
theorem isObject_of_accepted (hhonor : o.honorEscapes = true) (hkeep : o.keepBrackets = true)
    (hspan : span.Gives o text i object) (hopening : span.opening = '{') {shape : Shape α} {a : α}
    (h : Interpretation.json shape object = .ok a) :
    IsObject isJsonBlank object.toList ∧
      (¬ Fuses span.source → IsObject isJsonBlank span.source) := by
  obtain ⟨v, hv⟩ := exists_value_of_json h
  have hobject := toList_object hhonor hkeep hspan hopening
  have hsource : span.source = '{' :: span.inner ++ ['}'] := by rw [Span.source, hopening]
  have hclosed : Mode.plain.afterText true span.inner = .plain := by
    rw [← hhonor]
    exact hspan.inner.afterText fun _ _ => id
  have hkept : object.toList =
      '{' :: strip true isBlank .plain span.inner ++ ['}'] := by
    rw [hobject, hsource, List.cons_append, strip_plain_kept (by decide) (by decide), strip_append,
      hclosed]
    rfl
  refine ⟨?_, fun hfuses => ?_⟩
  · rw [hkept] at hv ⊢
    exact isObject_of_parse? hv
  · have hparse : parse? span.source = some v := by
      rw [← hv, hobject]
      exact (parse?_eq_of_tokens? (tokens?_strip hfuses)).symm
    rw [hsource] at hparse ⊢
    exact isObject_of_parse? hparse

end

/-- **No feed gives a value for what is not strictly JSON**, but where something fuses.  With escapes
    honored and brackets kept, the values that a feed gives are those of its objects that are
    accepted.  Every object comes from one span, and is the span without the blanks outside strings if
    that begins with a brace.  Then it is rejected if it is not strictly JSON, and also if the span is
    not, unless the span has a blank that JSON has not or two words that only blanks keep apart. -/
theorem values_of_accepted {σ π : Type} [Supply σ] [Inflow π] (shape : Shape α)
    (settings : Settings) (hhonor : settings.splitter.honorEscapes = true)
    (hkeep : settings.splitter.keepBrackets = true) {fragments : List String} {text : String}
    (hjoin : String.join fragments = text) {supply : σ} (hsupply : Supply.Brings supply fragments)
    {inflow : π} (hinflow : Inflow.Brings inflow (octetsOf text)) :
    let objects := (({ options := settings.splitter } : Splitter).feedEach fragments).objects
    let values := objects.filterMap fun object => (Interpretation.json shape object).toOption
    (∃ items, Yields PullFeed.ask (.new supply (.json shape) settings) items ∧
        items.filterMap Except.toOption = values) ∧
      (∃ items, Yields PollFeed.poll (.new inflow (.json shape) settings) items ∧
        items.filterMap Except.toOption = values) ∧
      ∀ (i : Nat) (object : String), objects[i]? = some object →
        (∃! span : Span, span.Gives settings.splitter text.toList i object) ∧
          ∀ span : Span, span.Gives settings.splitter text.toList i object → span.opening = '{' →
            object.toList = strip true isBlank .plain span.source ∧
              (¬ IsObject isJsonBlank object.toList →
                Interpretation.json shape object = .error .json) ∧
              (¬ IsObject isJsonBlank span.source → ¬ Fuses span.source →
                Interpretation.json shape object = .error .json) := by
  intro objects values
  have hrejected : ∀ object, (∀ a, Interpretation.json shape object ≠ .ok a) →
      Interpretation.json shape object = .error .json := by
    intro object hnone
    rw [Interpretation.json] at hnone ⊢
    cases hshape : shape.ofText? object with
    | none => rfl
    | some a => rw [hshape] at hnone; exact absurd rfl (hnone a)
  refine ⟨?_, ?_, ?_⟩
  · refine ⟨_, PullFeed.yields hsupply (.new (.json shape) settings), ?_⟩
    exact values_itemsOf _ settings { options := settings.splitter } fragments
  · obtain ⟨parts, hparts, hyields⟩ :=
      PollFeed.yields hinflow (Utf8.Carry.awaits_octetsOf text)
    refine ⟨_, hyields (.new (.json shape) settings), ?_⟩
    have hobjects : (({ options := settings.splitter } : Splitter).feedEach parts).objects =
        objects := by
      rw [objects_feedEach, hparts, ← hjoin, ← objects_feedEach]
    have hvalues := values_itemsOf (.json shape) settings { options := settings.splitter } parts
    rw [hobjects] at hvalues
    exact hvalues
  · intro i object hobject
    refine ⟨existsUnique_span (by rw [← hobject, ← hjoin, ← objects_feedEach]), ?_⟩
    intro span hspan hopening
    refine ⟨toList_object hhonor hkeep hspan hopening, fun hstrict => ?_, fun hstrict hfuses => ?_⟩
    · exact hrejected object fun a h =>
        hstrict (isObject_of_accepted hhonor hkeep hspan hopening h).1
    · exact hrejected object fun a h =>
        hstrict ((isObject_of_accepted hhonor hkeep hspan hopening h).2 hfuses)

/-- Of two objects, the second with a comma too much, the first is given. -/
theorem values_of_accepted_comma :
    ∃ items : List (Item Records.Echo),
      Yields PullFeed.ask (.new (Fragments.ofList ["[\x7b\"a\": 1\x7d", ",\x7b\"a\":2,\x7d]"])
          (.json Records.Echo.shape) { splitter := { keepBrackets := true } }) items ∧
        items.filterMap Except.toOption = [⟨1⟩] := by
  let script : Script := { events := [.chunk (octetsOf "[\x7b\"a\": 1\x7d,\x7b\"a\":2,\x7d]")] }
  have hinflow : Inflow.Brings script (octetsOf "[\x7b\"a\": 1\x7d,\x7b\"a\":2,\x7d]") := by
    have hchunk : Inflow.Brings script
        (octetsOf "[\x7b\"a\": 1\x7d,\x7b\"a\":2,\x7d]" ++ []) := .chunk rfl (.ended rfl)
    rw [List.append_nil] at hchunk
    exact hchunk
  obtain ⟨hpull, -, -⟩ := values_of_accepted Records.Echo.shape
    { splitter := { keepBrackets := true } } rfl rfl (by decide)
    (Fragments.brings_ofList ["[\x7b\"a\": 1\x7d", ",\x7b\"a\":2,\x7d]"]) hinflow
  obtain ⟨items, hitems, hvalues⟩ := hpull
  refine ⟨items, hitems, hvalues.trans ?_⟩
  decide +kernel

/-- Two numbers that only a space keeps apart are read as one. -/
theorem accepted_of_fusing :
    let span : Span := ⟨['['], '{', ['"', 'a', '"', ':', '1', ' ', '2'], [']']⟩
    (({ options := { keepBrackets := true } } : Splitter).feedEach
        ["[\x7b\"a\":1 2\x7d]"]).objects = ["\x7b\"a\":12\x7d"] ∧
      span.Gives { keepBrackets := true } "[\x7b\"a\":1 2\x7d]".toList 0 "\x7b\"a\":12\x7d" ∧
      ¬ IsValue isJsonBlank span.source ∧
      Yields PullFeed.ask (.new (Fragments.ofList ["[\x7b\"a\":1 2\x7d]"])
        (.json Records.Echo.shape) { splitter := { keepBrackets := true } }) [.ok ⟨12⟩] := by
  intro span
  refine ⟨by decide, ?_, ?_, ?_⟩
  · exact
      { text_eq := by decide
        reached := ⟨"", by decide⟩
        opening := .inl rfl
        inner := Nested.of_unpaired .plain (by simp [span, IsOpening, IsClosing])
        given := by decide }
  · intro hvalue
    have htokens : tokens? isJsonBlank span.source = some [.mark .openBrace, .quoted ['a'],
        .mark .colon, .word ['1'], .word ['2'], .mark .closeBrace] := by decide
    have hunescapes : Unescapes [.mark .openBrace, .quoted ['a'], .mark .colon, .word ['1'],
        .word ['2'], .mark .closeBrace] := by
      intro body hbody
      simp only [List.mem_cons, reduceCtorEq, Token.quoted.injEq, List.not_mem_nil, or_false,
        false_or] at hbody
      subst hbody
      decide
    have hsome := (parse?_isSome_iff hvalue htokens).2 hunescapes
    exact absurd hsome (by decide)
  · have hyields := PullFeed.yields (Fragments.brings_ofList ["[\x7b\"a\":1 2\x7d]"])
      (.new (.json Records.Echo.shape) { splitter := { keepBrackets := true } })
    have hitems : (Hopper.new (.json Records.Echo.shape)
        { splitter := { keepBrackets := true } }).coming ["[\x7b\"a\":1 2\x7d]"] =
          [.ok ⟨12⟩] := by decide +kernel
    rw [hitems] at hyields
    exact hyields

end ObjectFeed
