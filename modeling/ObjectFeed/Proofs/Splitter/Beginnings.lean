/-
  What a splitter makes of the beginning of an array.

  * `run_to_element`: where an element of an array begins, the objects of the earlier ones are complete;
  * `objects_of_beginning`: so the objects of a beginning are those of the elements that lie in it with
    their closing braces;
  * `truncation?_of_beginning`: it leaves the array open, with the levels that it leaves open;
  * `feedEach_of_beginning`: hence so it is with every cutting of the beginning into fragments.
-/
import ObjectFeed.Proofs.Splitter.Elements

namespace ObjectFeed.Splitter

open Text (isBlank)
open Json

variable {o : Options}

section

variable (hlimit : o.sizeLimit = none) (hhonor : o.honorEscapes = true)
  {blank : Char → Bool} (hgap : ∀ c, blank c = true → isBlank c = true)
include hlimit hhonor hgap

/-- **Where an element begins, the objects of the earlier ones are complete**, and no other. -/
theorem run_to_element {elements earlier later : List (List Char)} {element s : List Char}
    (hs : Separated blank elements s) (hobjects : ∀ e ∈ elements, IsObject blank e)
    (hsplit : elements = earlier ++ element :: later) (stray : String) :
    ∃ read rest stray', s = read ++ element ++ rest ∧
      Separated blank (earlier ++ [element]) (read ++ element) ∧
      run o (.inside 1 .plain stray) read =
        { place := .inside 1 .plain stray', objects := o.objectsOf earlier } := by
  induction hs generalizing earlier stray with
  | none => cases earlier <;> cases hsplit
  | @last before piece after hbefore hafter =>
    cases earlier with
    | nil =>
      obtain ⟨rfl, -⟩ := List.cons.inj hsplit
      exact ⟨before, after, _, rfl, .single hbefore piece,
        (Passes.gap hlimit hgap hbefore).run_eq stray⟩
    | cons first earlier =>
      obtain ⟨-, hnil⟩ := List.cons.inj hsplit
      cases earlier <;> cases hnil
  | @more before piece after next pieces s hbefore hafter _ ih =>
    cases earlier with
    | nil =>
      obtain ⟨rfl, -⟩ := List.cons.inj hsplit
      exact ⟨before, after ++ ',' :: s, _, List.append_assoc _ _ _, .single hbefore piece,
        (Passes.gap hlimit hgap hbefore).run_eq stray⟩
    | cons first earlier =>
      obtain ⟨rfl, hpieces⟩ := List.cons.inj hsplit
      obtain ⟨stray', hpast⟩ := run_past_comma hlimit hhonor hgap hbefore
        (hobjects piece List.mem_cons_self).1 hafter stray
      obtain ⟨read, rest, stray'', rfl, hseparated, hread⟩ :=
        ih (fun e he => hobjects e (List.mem_cons_of_mem _ he)) hpieces stray'
      refine ⟨before ++ piece ++ after ++ ',' :: read, rest, stray'', ?_, ?_, ?_⟩
      · simp only [List.append_assoc, List.cons_append]
      · have hcons := Separated.cons hbefore hafter hseparated (by simp) piece
        rw [List.cons_append, List.append_assoc, List.cons_append]
        exact hcons
      · rw [hpast, hread, o.objectsOf_cons piece earlier]

/-- **The objects of a beginning are those of the elements that lie in it.** -/
theorem objects_of_beginning {elements : List (List Char)} {read left : List Char}
    (hs : Separated blank elements (read ++ left)) (hobjects : ∀ e ∈ elements, IsObject blank e)
    (stray : String) :
    ∃ n, (run o (.inside 1 .plain stray) read).objects = o.objectsOf (elements.take n) ∧
      ∀ earlier element later, elements = earlier ++ element :: later →
        (LiesIn blank earlier element read ↔ earlier.length < n) := by
  have hvalues : ∀ e ∈ elements, IsValue blank e := fun e he => (hobjects e he).1
  obtain ⟨stray', hwhole⟩ := run_of_separated hlimit hhonor hgap hs hvalues stray
  have hprefix : (run o (.inside 1 .plain stray) read).objects <+: elements.map o.objectOf := by
    have hmore := objects_mono o (.inside 1 .plain stray) (List.prefix_append read left)
    rwa [hwhole, o.objectsOf_of_isObject hobjects] at hmore
  refine ⟨(run o (.inside 1 .plain stray) read).objects.length, ?_, ?_⟩
  · rw [o.objectsOf_of_isObject fun e he => hobjects e (List.mem_of_mem_take he), List.map_take]
    exact List.prefix_iff_eq_take.1 hprefix
  · intro earlier element later hsplit
    have hearlier : ∀ e ∈ earlier ++ [element], IsObject blank e := by
      intro e he
      refine hobjects e (hsplit ▸ ?_)
      rw [← List.singleton_append, ← List.append_assoc]
      exact List.mem_append_left later he
    have hcount : ∀ es : List (List Char), (∀ e ∈ es, IsObject blank e) →
        (o.objectsOf es).length = es.length := fun es hes => by
      rw [o.objectsOf_of_isObject hes, List.length_map]
    constructor
    · rintro ⟨s, hlies, hseparated⟩
      obtain ⟨stray'', hread⟩ := run_of_separated hlimit hhonor hgap hseparated
        (fun e he => (hearlier e he).1) stray
      have hle := (objects_mono o (.inside 1 .plain stray) hlies).length_le
      rw [hread, hcount _ hearlier, List.length_append] at hle
      exact hle
    · intro hlt
      obtain ⟨before, rest, stray'', htext, hseparated, hbefore⟩ :=
        run_to_element hlimit hhonor hgap hs hobjects hsplit stray
      have helement : before ++ element <+: read ++ left := htext ▸ List.prefix_append _ rest
      refine ⟨before, ?_, hseparated⟩
      rcases List.prefix_or_prefix_of_prefix helement (List.prefix_append read left) with
        hlies | hshort
      · exact hlies
      · -- short of its closing brace the element gives no object
        obtain ⟨begun, object, rfl, hbegun, -⟩ := run_of_unclosed hlimit hhonor hgap
          (hearlier element (List.mem_append_right _ List.mem_cons_self)) stray''
        rw [← List.append_assoc] at hshort ⊢
        rcases List.prefix_concat_iff.1 hshort with heq | hshort
        · rw [heq]
        · exfalso
          have hle := (objects_mono o (.inside 1 .plain stray) hshort).length_le
          rw [run_append_objects hbefore, hbegun, List.append_nil,
            hcount _ fun e he => hearlier e (List.mem_append_left _ he)] at hle
          exact Nat.not_lt.2 hle hlt

/-- **A beginning leaves the array open**, with the levels that it leaves open. -/
theorem truncation?_of_beginning {elements : List (List Char)} {before read left : List Char}
    (hbefore : IsGap blank before) (hs : Separated blank elements (read ++ left))
    (hobjects : ∀ e ∈ elements, IsObject blank e) :
    (run o .before (before ++ '[' :: read)).refusal = none ∧
      ({ options := o, place := (run o .before (before ++ '[' :: read)).place } : Splitter).truncation?
        = some (.truncated (unclosed true (before ++ '[' :: read))) := by
  have hvalues : ∀ e ∈ elements, IsValue blank e := fun e he => (hobjects e he).1
  obtain ⟨stray, hwhole⟩ := run_of_separated hlimit hhonor hgap hs hvalues ""
  rw [← run_to_array hgap hbefore] at hwhole
  have hsplit : before ++ '[' :: (read ++ left) = before ++ '[' :: read ++ left := by
    rw [List.append_assoc, List.cons_append]
  have hrefusal : (run o .before (before ++ '[' :: read)).refusal = none := by
    rw [hsplit, run_append] at hwhole
    cases hread : (run o .before (before ++ '[' :: read)).refusal with
    | none => rfl
    | some refusal =>
      rw [hread] at hwhole
      cases congrArg Run.refusal hwhole
  refine ⟨hrefusal, ?_⟩
  have hnotGap : ¬ IsGap isBlank (before ++ '[' :: read) := by
    intro hblank
    have hbracket := hblank '[' (List.mem_append_right _ List.mem_cons_self)
    exact absurd hbracket (by decide)
  -- the whole text stays open to the end of its elements, and so does its beginning
  have hopen : StaysOpen o.honorEscapes (before ++ '[' :: read) := by
    have hstands := (stands_of_run hlimit (before ++ '[' :: (read ++ left))).1
    rw [hwhole, hsplit] at hstands
    cases hstands with
    | inside hopen => exact hopen.of_append hnotGap
  have hstands := (stands_of_run hlimit (before ++ '[' :: read)).1
  rw [hrefusal] at hstands
  rw [← hhonor]
  refine (hstands.truncation?_eq fun hunfinished => ?_).2
  rcases hunfinished with hblank | hcomplete
  · exact hnotGap hblank
  · exact hcomplete.not_staysOpen hopen

end

/-- **A beginning of an array of objects**, in any fragments, gives the objects of the elements that lie
    in it, and is reported as cut off at the levels that it leaves open. -/
theorem feedEach_of_beginning (hlimit : o.sizeLimit = none) {blank : Char → Bool}
    (hgap : ∀ c, blank c = true → isBlank c = true) {elements : List (List Char)}
    {text before read left : List Char} (htext : text = before ++ '[' :: read)
    (hbefore : IsGap blank before) (hs : Separated blank elements (read ++ left))
    (hobjects : ∀ e ∈ elements, IsObject blank e) (hread : o.ReadsEscapes text) :
    ∃ n, (∀ earlier element later, elements = earlier ++ element :: later →
        (LiesIn blank earlier element read ↔ earlier.length < n)) ∧
      ∀ fragments, (String.join fragments).toList = text →
        let fed := ({ options := o } : Splitter).feedEach fragments
        fed.failure = none ∧ fed.objects = o.honoring.objectsOf (elements.take n) ∧
          fed.splitter.truncation? = some (.truncated (unclosed true text)) := by
  have hlimit' : o.honoring.sizeLimit = none := hlimit
  obtain ⟨n, hgiven, hlies⟩ := objects_of_beginning hlimit' rfl hgap hs hobjects ""
  obtain ⟨hrefusal, htruncation⟩ := truncation?_of_beginning hlimit' rfl hgap hbefore hs hobjects
  rw [← run_to_array hgap hbefore] at hgiven
  rw [← htext] at hgiven hrefusal htruncation
  obtain ⟨place, hplace, hrun⟩ := run_of_readsEscapes hlimit hread
  refine ⟨n, hlies, fun fragments hjoin => ?_⟩
  obtain ⟨quoted, m, hfed, -⟩ := feedEach_eq_run ({ options := o } : Splitter) fragments rfl
  rw [← String.toList_join, hjoin, hrun] at hfed
  rw [hfed, hrefusal]
  exact ⟨rfl, hgiven, (truncation?_congr hplace).trans htruncation⟩

end ObjectFeed.Splitter
