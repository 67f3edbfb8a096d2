/-
  What a splitter makes of a well-formed array.

  * `run_of_isObject`: the text of an object is one object, whatever was read before its brace, and
    `run_of_isValue`: any other element comes to nothing;
  * `run_of_elements`: an array is read to its end, and its objects are those of its elements, in order.
    `run_of_isArray` is this for an array of objects;
  * `objects_of_array`: hence so it is with every cutting of the array into fragments.
-/
import ObjectFeed.Proofs.Splitter.Cuts
import ObjectFeed.Proofs.Splitter.Passing

namespace ObjectFeed.Splitter

open Text (isBlank)
open Json

variable {o : Options}

/-! ## Elements -/

/-- The objects that a splitter makes of the elements of an array: one of each that is an object. -/
def Options.objectsOf (o : Options) (elements : List (List Char)) : List String :=
  (elements.filter fun e => e.head? = some '{').map o.objectOf

theorem Options.objectsOf_cons (o : Options) (element : List Char) (elements : List (List Char)) :
    o.objectsOf (element :: elements) = o.objectsOf [element] ++ o.objectsOf elements := by
  rw [Options.objectsOf, ← List.singleton_append, List.filter_append, List.map_append]
  rfl

theorem Options.objectsOf_of_isObject (o : Options) {blank : Char → Bool}
    {elements : List (List Char)} (h : ∀ e ∈ elements, IsObject blank e) :
    o.objectsOf elements = elements.map o.objectOf := by
  rw [Options.objectsOf, List.filter_eq_self.2 fun e he => decide_eq_true (h e he).2]

section

variable {blank : Char → Bool} (hgap : ∀ c, blank c = true → isBlank c = true)
include hgap

theorem run_of_gap {place : Place} (hplace : place = .before ∨ place = .after) {gap : List Char}
    (h : IsGap blank gap) : run o place gap = { place } := by
  induction gap with
  | nil => rfl
  | cons c gap ih =>
    have hc : isBlank c = true := hgap c (h c List.mem_cons_self)
    have hstep : step o place c = (place, .quiet) := by
      rcases hplace with rfl | rfl <;> simp [step, hc]
    rw [run_cons_quiet hstep, ih fun d hd => h d (List.mem_cons_of_mem _ hd)]

theorem run_to_array {before : List Char} (hbefore : IsGap blank before) (rest : List Char) :
    run o .before (before ++ '[' :: rest) = run o (.inside 1 .plain "") rest := by
  have hopen : step o .before '[' = (.inside 1 .plain "", .quiet) := by
    simp [step, isBlank]
  rw [run_append_quiet (run_of_gap hgap (.inl rfl) hbefore), run_cons_quiet hopen]

end

section

variable (hlimit : o.sizeLimit = none) (hhonor : o.honorEscapes = true)
  {blank : Char → Bool} (hgap : ∀ c, blank c = true → isBlank c = true)
include hlimit hhonor hgap

/-- Without its closing brace the text of an object completes nothing.  Its opening brace discards what
    stood between the elements. -/
theorem run_of_unclosed {source : List Char} (h : IsObject blank source) (stray : String) :
    ∃ begun object, source = begun ++ ['}'] ∧
      run o (.inside 1 .plain stray) begun = { place := .inside 2 .plain object } ∧
      object.push '}' = o.objectOf source := by
  obtain ⟨members, inner, rfl, hsep, hkeyed, hvalues⟩ := h.exists_members
  have hinner : Passes o 2 inner := by
    refine .separated hlimit hgap hsep fun text htext => ?_
    obtain ⟨m, hm, rfl⟩ := List.mem_map.1 htext
    exact .member hlimit hgap hhonor (hkeyed m hm)
      (passes_of_isValue hlimit hgap hhonor (hvalues m hm) (by omega))
  have hopen : step o (.inside 1 .plain stray) '{' = (.inside 2 .plain "\x7b", .quiet) := by
    simp [step, Options.stepPlain, reach_eq hlimit]
  have hkept : o.objectOf ('{' :: inner ++ ['}']) = ("\x7b" ++ o.objectOf inner).push '}' := by
    have hbrace : o.objectOf ['{'] = "\x7b" := by
      simp [Options.objectOf, strip, Options.dropped, isBlank]
    rw [show '{' :: inner ++ ['}'] = ['{'] ++ (inner ++ ['}']) from rfl,
      objectOf_append rfl, objectOf_append hinner.closed, hbrace, ← String.append_assoc,
      append_objectOf_kept (by simp [Options.dropped, isBlank]) (by decide)]
  refine ⟨'{' :: inner, "\x7b" ++ o.objectOf inner, rfl, ?_, hkept.symm⟩
  rw [run_cons_quiet hopen, hinner.run_eq]

/-- **The text of an object is one object**, completed by the brace that brings back the depth of the
    array. -/
theorem run_of_isObject {source : List Char} (h : IsObject blank source) (stray : String) :
    run o (.inside 1 .plain stray) source =
      { place := .inside 1 .plain "", objects := [o.objectOf source] } := by
  obtain ⟨begun, object, hsource, hbegun, hobject⟩ := run_of_unclosed hlimit hhonor hgap h stray
  have hclose : run o (.inside 2 .plain object) ['}'] =
      { place := .inside 1 .plain "", objects := [object.push '}'] } := by
    simp [run, step, Options.stepPlain]
  rw [← hobject, hsource, run_append_quiet hbegun, hclose]

/-- **An element gives an object exactly if it is one.**  A scalar or a string is read at the depth of the
    array, and an array leads deeper and back. -/
theorem run_of_isValue {element : List Char} (h : IsValue blank element) (stray : String) :
    ∃ stray', run o (.inside 1 .plain stray) element =
      { place := .inside 1 .plain stray', objects := o.objectsOf [element] } := by
  have hquiet (hbrace : element.head? ≠ some '{') : o.objectsOf [element] = [] := by
    rw [Options.objectsOf, List.filter_cons_of_neg (by simp [hbrace])]
    rfl
  have hpasses (hbrace : element.head? ≠ some '{') (hread : Passes o 1 element) :
      ∃ stray', run o (.inside 1 .plain stray) element =
        { place := .inside 1 .plain stray', objects := o.objectsOf [element] } :=
    ⟨_, by rw [hread.run_eq stray, hquiet hbrace]⟩
  cases h with
  | scalar hs =>
    refine hpasses (fun hbrace => ?_)
      (.of_inert hlimit (fun c hc => isInert_of_isPlain (hs.isPlain c hc)) 1)
    exact absurd (hs.isPlain '{' (List.mem_of_mem_head? hbrace)) (by decide)
  | string hbody => exact hpasses (by simp) (.string hlimit hhonor hbody.loose 1)
  | @array items inner hsep hitems =>
    have hinner : Passes o 2 inner :=
      .separated hlimit hgap hsep fun item hitem =>
        passes_of_isValue hlimit hgap hhonor (hitems item hitem) (Nat.le_refl 2)
    have hopen : step o (.inside 1 .plain stray) '[' = (.inside 2 .plain stray, .quiet) := by
      simp [step, Options.stepPlain, reach_eq hlimit]
    have hclose (object : String) : run o (.inside 2 .plain object) [']'] =
        { place := .inside 1 .plain object } := by
      simp [run, step, Options.stepPlain, reach_eq hlimit]
    refine ⟨stray ++ o.objectOf inner, ?_⟩
    rw [hquiet (by simp), List.cons_append, run_cons_quiet hopen,
      run_append_quiet (hinner.run_eq _), hclose]
  | object hsep hkeyed hvalues =>
    have hobject : IsObject blank _ := ⟨.object hsep hkeyed hvalues, rfl⟩
    exact ⟨"", run_of_isObject hlimit hhonor hgap hobject stray⟩

/-- The blanks around an element are read at the depth of the array and come to nothing. -/
theorem run_of_piece {before piece after : List Char} (hbefore : IsGap blank before)
    (hvalue : IsValue blank piece) (hafter : IsGap blank after) (stray : String) :
    ∃ stray', run o (.inside 1 .plain stray) (before ++ piece ++ after) =
      { place := .inside 1 .plain stray', objects := o.objectsOf [piece] } := by
  obtain ⟨stray', hread⟩ := run_of_isValue hlimit hhonor hgap hvalue (stray ++ o.objectOf before)
  refine ⟨stray' ++ o.objectOf after, ?_⟩
  rw [List.append_assoc, run_append_quiet ((Passes.gap hlimit hgap hbefore).run_eq stray),
    run_append_objects hread, (Passes.gap hlimit hgap hafter).run_eq, List.append_nil]

theorem run_past_comma {before piece after : List Char} (hbefore : IsGap blank before)
    (hvalue : IsValue blank piece) (hafter : IsGap blank after) (stray : String) :
    ∃ stray', ∀ s, run o (.inside 1 .plain stray) (before ++ piece ++ after ++ ',' :: s) =
      { run o (.inside 1 .plain stray') s with
        objects := o.objectsOf [piece] ++ (run o (.inside 1 .plain stray') s).objects } := by
  obtain ⟨stray', hpiece⟩ := run_of_piece hlimit hhonor hgap hbefore hvalue hafter stray
  refine ⟨stray' ++ o.objectOf [','], fun s => ?_⟩
  have hcomma : run o (.inside 1 .plain stray') (',' :: s) =
      run o (.inside 1 .plain (stray' ++ o.objectOf [','])) s :=
    run_append_quiet ((Passes.inert hlimit (by decide) 1).run_eq stray') s
  rw [run_append_objects hpiece, hcomma]

theorem run_of_separated {elements : List (List Char)} {s : List Char}
    (hs : Separated blank elements s) (hvalues : ∀ e ∈ elements, IsValue blank e)
    (stray : String) :
    ∃ stray', run o (.inside 1 .plain stray) s =
      { place := .inside 1 .plain stray', objects := o.objectsOf elements } := by
  induction hs generalizing stray with
  | none hg => exact ⟨_, (Passes.gap hlimit hgap hg).run_eq stray⟩
  | last hbefore hafter =>
    exact run_of_piece hlimit hhonor hgap hbefore (hvalues _ List.mem_cons_self) hafter stray
  | @more before piece after next pieces s hbefore hafter _ ih =>
    obtain ⟨stray', hpast⟩ :=
      run_past_comma hlimit hhonor hgap hbefore (hvalues piece List.mem_cons_self) hafter stray
    obtain ⟨stray'', hrest⟩ := ih (fun e he => hvalues e (List.mem_cons_of_mem _ he)) stray'
    exact ⟨stray'', by rw [hpast, hrest, o.objectsOf_cons piece (next :: pieces)]⟩

/-- **An array is read to its end**, and gives the objects among its elements in order. -/
theorem run_of_elements {elements : List (List Char)} {text : List Char}
    (h : IsArray blank elements text) :
    run o .before text = { place := .after, objects := o.objectsOf elements } := by
  obtain ⟨before, inner, after, hbefore, hsep, hvalues, hafter, rfl⟩ := h
  have hclose (stray : String) : step o (.inside 1 .plain stray) ']' = (.after, .quiet) := by
    simp [step, Options.stepPlain]
  obtain ⟨stray, hinner⟩ := run_of_separated hlimit hhonor hgap hsep hvalues ""
  rw [List.append_assoc, List.cons_append, run_to_array hgap hbefore, run_append_objects hinner,
    run_cons_quiet (hclose stray), run_of_gap hgap (.inr rfl) hafter, List.append_nil]

theorem run_of_isArray {elements : List (List Char)} {text : List Char}
    (h : IsArray blank elements text) (hobjects : ∀ e ∈ elements, IsObject blank e) :
    run o .before text = { place := .after, objects := elements.map o.objectOf } := by
  rw [run_of_elements hlimit hhonor hgap h, o.objectsOf_of_isObject hobjects]

end

/-! ## Fragments -/

/-- **A well-formed array of objects gives the objects of its elements**, however it is cut into
    fragments: every fragment is fed without failure, the array is read to its end, and each element
    gives one object, in order: its text without blanks and, unless brackets are kept, brackets
    outside strings. -/
theorem objects_of_array (hlimit : o.sizeLimit = none) (hhonor : o.honorEscapes = true)
    {elements : List (List Char)} {fragments : List String}
    (htext : IsArray isBlank elements (String.join fragments).toList)
    (hobjects : ∀ e ∈ elements, IsObject isBlank e) :
    let fed := ({ options := o } : Splitter).feedEach fragments
    fed.failure = none ∧ fed.fragments = fragments.length ∧ fed.splitter.isClosed = true ∧
      fed.splitter.truncation? = none ∧ fed.splitter.place.depth = 0 ∧
      (Backlog.empty.pushAll fed.objects).toList =
        elements.map fun e => String.ofList (strip true o.dropped .plain e) := by
  intro fed
  have hrun := run_of_isArray hlimit hhonor (fun _ h => h) htext hobjects
  have hfed : fed = { splitter := { options := o, place := .after }
                      objects := elements.map o.objectOf
                      fragments := fragments.length } :=
    feedEach_of_accepted (s := { options := o }) hrun
  rw [hfed]
  refine ⟨rfl, rfl, rfl, rfl, rfl, ?_⟩
  rw [Backlog.toList_pushAll, Backlog.toList_empty, List.nil_append, ← hhonor]
  rfl

/-- The array of the sample in fragments, cut inside an escape and before a bracket. -/
def sampleFragments : List String :=
  [" [\x7b\"k\": [1, \"]\\", "", "\"\x7d\"]\x7d ,\x7b", "\x7d]"]

theorem objects_of_array_sample :
    IsArray isBlank [sample, ['{', '}']] (String.join sampleFragments).toList ∧
      (({} : Splitter).feedEach sampleFragments).objects =
        ["\x7b\"k\":1,\"]\\\"\x7d\"\x7d", "\x7b\x7d"] := by
  obtain ⟨harray, hobjects⟩ := @isArray_sample isBlank rfl
  have htext : IsArray isBlank [sample, ['{', '}']] (String.join sampleFragments).toList := harray
  obtain ⟨-, -, -, -, -, hfed⟩ := objects_of_array (o := {}) rfl rfl htext hobjects
  rw [Backlog.toList_pushAll, Backlog.toList_empty, List.nil_append] at hfed
  exact ⟨htext, hfed.trans (by decide)⟩

end ObjectFeed.Splitter
