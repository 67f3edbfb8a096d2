/-
  Balanced objects.

  * `IsBalanced` is a text from a brace to the brace that closes it;
  * `balanced_of_ownPair`: the object of a span that begins with a brace is balanced, if in the span
    braces close braces and brackets close brackets;
  * `objects_balanced`: every object of a feed comes from one span, however the feed is cut into
    fragments, and is balanced then; `unbalanced_closedBracket`: a brace that closes a bracket completes
    an object that is not.
-/
import ObjectFeed.Proofs.Splitter.Cuts
import ObjectFeed.Proofs.Splitter.Spans

namespace ObjectFeed.Splitter

open Text (isBlank)
open Json

/-- A text that begins with a brace and ends with the brace that closes it: its braces outside strings
    pair up, and the first pairs with the last. -/
def IsBalanced (honor : Bool) (s : List Char) : Prop :=
  ∃ inner, s = '{' :: inner ++ ['}'] ∧ Nested BracePair honor .plain inner .plain

/-- **Where each kind closes its own, a span that begins with a brace gives a balanced object.** -/
theorem balanced_of_ownPair {o : Options} {text : List Char} {i : Nat} {object : String}
    {span : Span} (h : span.Gives o text i object) (hopening : span.opening = '{')
    (hown : Nested OwnPair o.honorEscapes .plain span.inner .plain) :
    IsBalanced o.honorEscapes object.toList := by
  have hclosed := hown.afterText fun _ _ => anyPair_of_ownPair
  have hbrace : o.dropped '{' = false := by simp [Options.dropped, isBlank]
  have hbrace' : o.dropped '}' = false := by simp [Options.dropped, isBlank]
  refine ⟨strip o.honorEscapes o.dropped .plain span.inner, ?_, ?_⟩
  · rw [h.object_eq hopening, Options.objectOf, String.toList_ofList, Span.source, hopening,
      List.cons_append, strip_plain_kept hbrace (by decide), strip_append, hclosed,
      strip_plain_kept hbrace' (by decide), strip_nil, List.cons_append]
  · exact hown.strip (by simp [Options.dropped, isBlank]) hbrace hbrace'

/-- **Every object comes from one span of the text**, whatever the options and the fragments, and ends
    with its last brace.  If the span begins with a brace, the object is what is kept of it, and is balanced
    if in between braces close braces and brackets close brackets. -/
theorem objects_balanced (o : Options) (fragments : List String) {i : Nat} {object : String}
    (h : (({ options := o } : Splitter).feedEach fragments).objects[i]? = some object) :
    (∃! span : Span, span.Gives o (String.join fragments).toList i object) ∧
      object.toList.getLast? = some '}' ∧
      ∀ span : Span, span.Gives o (String.join fragments).toList i object → span.opening = '{' →
        object = o.objectOf span.source ∧
          (Nested OwnPair o.honorEscapes .plain span.inner .plain →
            IsBalanced o.honorEscapes object.toList) := by
  rw [objects_feedEach] at h
  obtain ⟨span, hspan, hunique⟩ := existsUnique_span h
  refine ⟨⟨span, hspan, hunique⟩, hspan.ends, ?_⟩
  intro span hspan hopening
  exact ⟨hspan.object_eq hopening, balanced_of_ownPair hspan hopening⟩

/-- The second object of a text whose span has a string with a brace, an array and an object. -/
theorem objects_balanced_nested :
    (({} : Splitter).feedEach ["[\x7b\x7d,\x7b\"\x7d", "\":[\x7b\x7d]\x7d"]).objects[1]? =
        some "\x7b\"\x7d\":\x7b\x7d\x7d" ∧
      IsBalanced true "\x7b\"\x7d\":\x7b\x7d\x7d".toList := by
  have hgiven : (({} : Splitter).feedEach
      ["[\x7b\x7d,\x7b\"\x7d", "\":[\x7b\x7d]\x7d"]).objects[1]? =
        some "\x7b\"\x7d\":\x7b\x7d\x7d" := by decide
  -- the string is read over, whatever pairs there are, and the array and its object are pairs
  have hinner : ∀ pair : Char → Char → Prop, pair '[' ']' → pair '{' '}' → IsUnpaired pair '"' →
      IsUnpaired pair ':' →
      Nested pair true .plain ['"', '}', '"', ':', '[', '{', '}', ']'] .plain := by
    intro pair hbracket hbrace hquote hcolon
    have harray : Nested pair true .plain ['[', '{', '}', ']'] .plain :=
      .pair hbracket (.pair hbrace .nil .nil) .nil
    refine .char (fun _ => hquote) (.char nofun (.char nofun (.char (fun _ => hcolon) harray)))
  have hunpaired : ∀ c, c = '"' ∨ c = ':' → IsUnpaired OwnPair c := by
    rintro c (rfl | rfl) d <;> exact ⟨nofun, nofun⟩
  let span : Span := ⟨['[', '{', '}', ','], '{', ['"', '}', '"', ':', '[', '{', '}', ']'], []⟩
  have hspan : span.Gives {} (String.join ["[\x7b\x7d,\x7b\"\x7d", "\":[\x7b\x7d]\x7d"]).toList 1
      "\x7b\"\x7d\":\x7b\x7d\x7d" :=
    { text_eq := by decide
      reached := ⟨",", by decide⟩
      opening := .inl rfl
      inner := hinner AnyPair ⟨.inr rfl, .inr rfl⟩ ⟨.inl rfl, .inl rfl⟩
        (isUnpaired_anyPair (by decide) (by decide)) (isUnpaired_anyPair (by decide) (by decide))
      given := by decide }
  obtain ⟨-, -, hbalanced⟩ := objects_balanced {} _ hgiven
  refine ⟨hgiven, (hbalanced span hspan rfl).2 ?_⟩
  exact hinner OwnPair .bracket .brace (hunpaired _ (.inl rfl)) (hunpaired _ (.inr rfl))

/-- The brace that closes a bracket completes an object without an opening brace. -/
theorem unbalanced_closedBracket :
    (({} : Splitter).feedEach ["[[\x7d"]).objects = ["\x7d"] ∧ ¬ IsBalanced true "\x7d".toList := by
  refine ⟨by decide, ?_⟩
  rintro ⟨inner, hinner, -⟩
  have hhead : '}' = '{' := congrArg (·.headD ' ') hinner
  exact absurd hhead (by decide)

end ObjectFeed.Splitter
