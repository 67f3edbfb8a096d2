/-
  Where in a text the objects of a splitter come from.

  * `StaysInside` is a text that stays inside an element, and `Nested.staysInside`: a nested text does,
    and leads back to its depth;
  * `Within` says that inside an element what has been read since the depth of the array leaves as many
    levels open as the depth says.  `Within.step` keeps it, and `within_of_run`: it holds of every text
    that ends inside an element;
  * `Span` is a piece of a text from the character that opens an element to the brace that brings
    back the depth of the array, and `Span.Gives` says that an object comes from it;
  * `existsUnique_span`: every object comes from one span and no other.  It ends with the last brace of
    the span (`Span.Gives.ends`), and is what is kept of the span if that begins with a brace
    (`Span.Gives.object_eq`).
-/
import Mathlib.Data.List.Induction
import ObjectFeed.Proofs.Splitter.Cuts
import ObjectFeed.Proofs.Splitter.Steps

namespace ObjectFeed.Splitter

open Text (isBlank)
open Json

variable {o : Options}

/-! ## Nested texts -/

/-- A text that stays inside an element: read from this place on it completes no object, each of its
    characters leads inside an element, and, unless it is refused, the last leads to that place. -/
structure StaysInside (o : Options) (start : Place) (text : List Char) (finish : Place) : Prop where
  objects : (run o start text).objects = []
  place : (run o start text).refusal = none → (run o start text).place = finish
  deep : ∀ read, read <+: text → read ≠ [] → (run o start read).refusal = none →
    2 ≤ (run o start read).place.depth

section

variable {start next finish : Place} {s t : List Char}

theorem StaysInside.nil (place : Place) : StaysInside o place [] place where
  objects := rfl
  place _ := rfl
  deep _ hread hne := absurd (List.prefix_nil.1 hread) hne

theorem StaysInside.append (hs : StaysInside o start s next) (ht : StaysInside o next t finish) :
    StaysInside o start (s ++ t) finish where
  objects := by
    rw [run_append]
    cases hrefusal : (run o start s).refusal with
    | some refusal => exact hs.objects
    | none => simp only [hs.objects, hs.place hrefusal, ht.objects, List.append_nil]
  place := by
    rw [run_append]
    cases hrefusal : (run o start s).refusal with
    | some refusal =>
      intro hnone
      cases hnone
    | none =>
      rw [hs.place hrefusal]
      exact ht.place
  deep := by
    intro read hread hne hquiet
    rcases List.prefix_or_prefix_of_prefix hread (List.prefix_append s t) with hs' | ⟨more, rfl⟩
    · exact hs.deep read hs' hne hquiet
    · have hmore : more <+: t := (List.prefix_append_right_inj s).1 hread
      by_cases hnil : more = []
      · subst hnil
        rw [List.append_nil] at hne hquiet ⊢
        exact hs.deep s (List.prefix_refl s) hne hquiet
      · rw [run_append] at hquiet ⊢
        cases hrefusal : (run o start s).refusal with
        | some refusal =>
          rw [hrefusal] at hquiet
          cases hquiet
        | none =>
          rw [hrefusal, hs.place hrefusal] at hquiet
          rw [hs.place hrefusal]
          exact ht.deep more hmore hnil hquiet

theorem staysInside_char {n : Nat} {mode : Mode} {object : String} {c : Char}
    (h : step o start c = o.reach (n + 2) mode object) :
    StaysInside o start [c] (.inside (n + 2) mode object) := by
  have hplace : (run o start [c]).place = .inside (n + 2) mode object := by
    rw [run_char, h]
    rfl
  refine ⟨?_, fun _ => hplace, fun read hread hne _ => ?_⟩
  · rw [run_char]
    rcases houtcome : step o start c with ⟨place, _ | completed | refusal⟩
    · rfl
    · exact absurd (h.symm.trans houtcome) reach_ne_completed
    · rfl
  · rcases List.prefix_concat_iff.1 (show read <+: [] ++ [c] from hread) with rfl | hnil
    · rw [List.nil_append, hplace]
      exact Nat.le_add_left 2 n
    · exact absurd (List.prefix_nil.1 hnil) hne

/-- **A nested text inside an element leads back to its depth**, and stays inside until then. -/
theorem Nested.staysInside {mode mode' : Mode} (h : Nested AnyPair o.honorEscapes mode s mode')
    (n : Nat) (object : String) :
    StaysInside o (.inside (n + 2) mode object) s
      (.inside (n + 2) mode' (object ++ o.kept mode s)) := by
  induction h generalizing n object with
  | nil =>
    rw [kept_nil, String.append_empty]
    exact .nil _
  | @char mode mode' c rest hc _ ih =>
    have hkept : object ++ o.kept mode (c :: rest) =
        object ++ o.kept mode [c] ++ o.kept (mode.after o.honorEscapes c) rest := by
      rw [← List.singleton_append, kept_append, ← String.append_assoc]
      rfl
    rw [hkept]
    exact (staysInside_char (step_unmarked fun hm => (hc hm).not_mark)).append (ih n _)
  | @pair opening inner closing rest mode' hpair hinner _ ihinner ihrest =>
    obtain ⟨hopening, hclosing⟩ := hpair
    have hclosed : Mode.plain.afterText o.honorEscapes inner = .plain :=
      hinner.afterText fun _ _ => id
    have htext : opening :: inner ++ closing :: rest = [opening] ++ inner ++ [closing] ++ rest := by
      simp
    have hkept : object ++ o.kept .plain (opening :: inner ++ closing :: rest) =
        object ++ o.kept .plain [opening] ++ o.kept .plain inner ++ o.kept .plain [closing] ++
          o.kept .plain rest := by
      simp only [htext, kept_append, Mode.afterText_append, Mode.afterText_cons, Mode.afterText_nil,
        Mode.after_plain_of_ne hopening.ne_quote, Mode.after_plain_of_ne hclosing.ne_quote, hclosed,
        String.append_assoc]
    rw [hkept, htext]
    exact (((staysInside_char (step_of_opening hopening)).append (ihinner (n + 1) _)).append
      (staysInside_char (step_of_closing hclosing))).append (ihrest n _)

/-- So does one that is opened at the depth of the array. -/
theorem staysInside_opened {c : Char} {inner : List Char} {mode : Mode} (hc : IsOpening c)
    (hinner : Nested AnyPair o.honorEscapes .plain inner mode) (stray : String) :
    ∃ begun, StaysInside o (.inside 1 .plain stray) (c :: inner) (.inside 2 mode begun) ∧
      (c = '{' → begun = o.kept .plain (c :: inner)) := by
  obtain ⟨begun, hstep, hbegun⟩ := exists_step_opening (o := o) hc 1 stray
  refine ⟨_, (staysInside_char hstep).append (hinner.staysInside 0 begun), fun hbrace => ?_⟩
  have hkept := kept_append (o := o) .plain [c] inner
  rw [Mode.afterText_cons, Mode.after_plain_of_ne hc.ne_quote, Mode.afterText_nil] at hkept
  rw [hbegun hbrace rfl]
  exact hkept.symm

end

/-! ## Objects and their sources -/

/-- What is known of a text that ends inside an element, `n + 1` levels deeper than the array: what has
    been read since the depth of the array leaves these levels open. -/
def Within (o : Options) (text : List Char) (n : Nat) (mode : Mode) (objects : List String) : Prop :=
  ∃ (read since : List Char) (stray : String), text = read ++ since ∧
    run o .before read = { place := .inside 1 .plain stray, objects } ∧
    LeavesOpen o.honorEscapes (n + 1) since mode

theorem Within.step {text : List Char} {n m : Nat} {mode mode' : Mode} {object object' : String}
    {objects : List String} {c : Char} {outcome : Outcome} (h : Within o text m mode' objects)
    (hstep : DeepStep o m object' mode' c (.inside (n + 2) mode object) outcome) :
    outcome = .quiet ∧ Within o (text ++ [c]) n mode objects := by
  obtain ⟨read, since, stray, rfl, hreach, hopen⟩ := h
  cases hstep with
  | char hc => exact ⟨rfl, read, since ++ [c], stray, List.append_assoc .., hreach, hopen.append_char hc⟩
  | opening hc =>
    exact ⟨rfl, read, since ++ [c], stray, List.append_assoc .., hreach, hopen.append_opening hc⟩
  | closing hc =>
    exact ⟨rfl, read, since ++ [c], stray, List.append_assoc .., hreach, hopen.append_closing hc⟩

theorem exists_eq_inside {place : Place} (h : ¬ place.depth ≤ 1) :
    ∃ n mode object, place = .inside (n + 2) mode object := by
  cases place with
  | before => exact absurd (Nat.zero_le 1) h
  | after => exact absurd (Nat.zero_le 1) h
  | inside depth mode object =>
    have hdepth : ¬ depth ≤ 1 := h
    obtain ⟨n, rfl⟩ : ∃ n, depth = n + 2 := ⟨depth - 2, by omega⟩
    exact ⟨n, mode, object, rfl⟩

/-- **A text that ends inside an element** has opened it, and has read it since. -/
theorem within_of_run {text : List Char} {n : Nat} {mode : Mode} {object : String}
    {objects : List String}
    (h : run o .before text = { place := .inside (n + 2) mode object, objects }) :
    Within o text n mode objects := by
  induction text using List.reverseRecOn generalizing n mode object objects with
  | nil => cases h
  | append_singleton text c ih =>
    obtain ⟨prior, given, outcome, hrun, hstep, hread, rfl⟩ := run_append_char h
    by_cases hprior : prior.depth ≤ 1
    · obtain ⟨⟨stray, rfl⟩, hc, rfl, rfl, rfl⟩ := opened_of_step hprior hstep hread
      rw [Outcome.objects, List.append_nil]
      exact ⟨text, [c], stray, rfl, hrun, .first hc .nil⟩
    · obtain ⟨m, mode', object', rfl⟩ := exists_eq_inside hprior
      obtain ⟨rfl, hwithin⟩ := (ih hrun).step (deepStep hstep hread)
      rw [Outcome.objects, List.append_nil]
      exact hwithin

/-- A piece of a text, from the character that opens an element to the brace that brings back the
    depth of the array. -/
structure Span where
  /-- What stands before it. -/
  before : List Char
  /-- The brace or bracket it begins with. -/
  opening : Char
  /-- What stands between that and its last brace. -/
  inner : List Char
  /-- What stands after it. -/
  after : List Char

/-- The text of a span. -/
def Span.source (span : Span) : List Char :=
  span.opening :: span.inner ++ ['}']

/-- The object with this number comes from this span of a text: the span begins at the depth of the array,
    outside strings and after as many objects, and between its first character and its last brace every
    level that is opened is closed, and no other. -/
structure Span.Gives (o : Options) (text : List Char) (i : Nat) (object : String) (span : Span) :
    Prop where
  text_eq : text = span.before ++ span.source ++ span.after
  reached : ∃ stray, run o .before span.before =
    { place := .inside 1 .plain stray, objects := (run o .before text).objects.take i }
  opening : IsOpening span.opening
  inner : Nested AnyPair o.honorEscapes .plain span.inner .plain
  given : (run o .before text).objects[i]? = some object

section

variable {text : List Char} {i : Nat} {object : String} {span span' : Span}

theorem Span.Gives.lt_length (h : span.Gives o text i object) :
    i < (run o .before text).objects.length :=
  (List.getElem?_eq_some_iff.1 h.given).1

theorem Span.Gives.source_isPrefix (h : span.Gives o text i object) :
    span.before ++ span.source <+: text :=
  ⟨span.after, h.text_eq.symm⟩

/-! ### Every object comes from a span -/

theorem Span.Gives.append_char (h : span.Gives o text i object) (c : Char) :
    { span with after := span.after ++ [c] }.Gives o (text ++ [c]) i object := by
  obtain ⟨more, hmore⟩ := exists_objects_append o .before text [c]
  obtain ⟨stray, hreached⟩ := h.reached
  refine ⟨?_, ⟨stray, hreached.trans ?_⟩, h.opening, h.inner, ?_⟩
  · rw [h.text_eq, List.append_assoc]
    rfl
  · rw [hmore, List.take_append_of_le_length (Nat.le_of_lt h.lt_length)]
  · rw [hmore, List.getElem?_append_left h.lt_length, h.given]

/-- **Every object comes from a span of the text.** -/
theorem exists_span (h : (run o .before text).objects[i]? = some object) :
    ∃ span : Span, span.Gives o text i object := by
  induction text using List.reverseRecOn with
  | nil => cases h
  | append_singleton text c ih =>
    by_cases hi : i < (run o .before text).objects.length
    · have hgiven : (run o .before text).objects[i]? = some object := by
        obtain ⟨more, hmore⟩ := exists_objects_append o .before text [c]
        rwa [hmore, List.getElem?_append_left hi] at h
      obtain ⟨span, hspan⟩ := ih hgiven
      exact ⟨_, hspan.append_char c⟩
    · -- the object is the one that the last character completes
      have hlast := Nat.le_of_not_lt hi
      rcases objects_append_char o .before text c with
        hsame | ⟨prior, place, completed, hrun, hstep, hmore⟩
      · rw [hsame, List.getElem?_eq_none hlast] at h
        cases h
      · have hi : i = (run o .before text).objects.length := by
          have hlt := (List.getElem?_eq_some_iff.1 h).1
          rw [hmore, List.length_append, List.length_singleton] at hlt
          omega
        obtain ⟨object', rfl, rfl, rfl⟩ := eq_of_completed hstep
        obtain ⟨read, since, stray, htext, hreached, hopen⟩ := within_of_run hrun
        obtain ⟨opening, inner, rfl, hopening, hinner⟩ := hopen.exists_inner
        refine ⟨⟨read, opening, inner, []⟩, ?_, ⟨stray, ?_⟩, hopening, hinner, h⟩
        · simp [htext, Span.source]
        · rw [hreached, hmore, hi, List.take_left']
          rfl

/-! ### What a span tells of its object -/

/-- Up to its last brace a span is read inside the element that it opens. -/
theorem Span.Gives.run_body (h : span.Gives o text i object) :
    ∃ begun, run o .before (span.before ++ span.opening :: span.inner) =
        { place := .inside 2 .plain begun, objects := (run o .before text).objects.take i } ∧
      (span.opening = '{' → begun = o.kept .plain (span.opening :: span.inner)) := by
  obtain ⟨stray, hreached⟩ := h.reached
  obtain ⟨begun, hstays, hbegun⟩ := staysInside_opened h.opening h.inner stray
  have hrun := run_append_objects hreached (span.opening :: span.inner)
  rw [hstays.objects, List.append_nil] at hrun
  have hquiet : (run o (.inside 1 .plain stray) (span.opening :: span.inner)).refusal = none := by
    -- behind what is refused nothing is read, and the object would not be given
    by_contra hrefused
    have hstart : span.before ++ span.opening :: span.inner <+: text :=
      ⟨'}' :: span.after, by rw [h.text_eq]; simp [Span.source]⟩
    have hobjects := (run_of_refused hstart (by rw [hrun]; exact hrefused)).2
    rw [hrun] at hobjects
    have hlength := congrArg List.length hobjects
    have hi := h.lt_length
    rw [List.length_take] at hlength
    omega
  refine ⟨begun, ?_, hbegun⟩
  rw [hrun, run_eq_of_not_refused hquiet, hstays.place hquiet]

/-- With its last brace the object is completed. -/
theorem Span.Gives.run_source (h : span.Gives o text i object) :
    run o .before (span.before ++ span.source) =
        { place := .inside 1 .plain "", objects := (run o .before text).objects.take (i + 1) } ∧
      ∃ begun, object = begun.push '}' ∧
        (span.opening = '{' → begun = o.kept .plain (span.opening :: span.inner)) := by
  obtain ⟨begun, hbody, hbegun⟩ := h.run_body
  have hrun : run o .before (span.before ++ span.source) =
      { place := .inside 1 .plain ""
        objects := (run o .before text).objects.take i ++ [begun.push '}'] } := by
    rw [Span.source, ← List.append_assoc, run_append_objects hbody]
    rfl
  have htake : (run o .before text).objects.take (i + 1) =
      (run o .before text).objects.take i ++ [object] := by
    rw [List.take_add_one, h.given]
    rfl
  have hobject : object = begun.push '}' := by
    have hobjects := List.prefix_iff_eq_take.1 (objects_mono o .before h.source_isPrefix)
    rw [hrun, List.length_append, List.length_take, Nat.min_eq_left (Nat.le_of_lt h.lt_length),
      List.length_singleton, htake] at hobjects
    exact (List.cons.inj (List.append_cancel_left hobjects)).1.symm
  refine ⟨?_, begun, hobject, hbegun⟩
  rw [hrun, htake, hobject]

theorem Span.Gives.ends (h : span.Gives o text i object) : object.toList.getLast? = some '}' := by
  obtain ⟨-, begun, rfl, -⟩ := h.run_source
  rw [String.toList_push, List.getLast?_concat]

/-- **A span that begins with a brace goes into its object whole**, but for what is dropped. -/
theorem Span.Gives.object_eq (h : span.Gives o text i object) (hopening : span.opening = '{') :
    object = o.objectOf span.source := by
  obtain ⟨-, begun, rfl, hbegun⟩ := h.run_source
  have hclosed : Mode.plain.afterText o.honorEscapes (span.opening :: span.inner) = .plain := by
    rw [Mode.afterText_cons, Mode.after_plain_of_ne h.opening.ne_quote]
    exact h.inner.afterText fun _ _ => id
  have hkeeps : ¬ (Mode.plain = .plain ∧ o.dropped '}' = true) := by simp [Options.dropped, isBlank]
  rw [hbegun hopening, ← append_kept_of_keeps hkeeps]
  exact (by rw [Span.source, kept_append, hclosed] : o.kept .plain span.source = _).symm

/-! ### No object comes from two spans -/

/-- A beginning of the text with as many objects goes beyond the span. -/
theorem Span.Gives.source_isPrefix_of_lt (h : span.Gives o text i object) {read : List Char}
    (hread : read <+: text) (hmore : i < (run o .before read).objects.length) :
    span.before ++ span.source <+: read := by
  rcases List.prefix_or_prefix_of_prefix h.source_isPrefix hread with hstart | hstart
  · exact hstart
  · rw [Span.source, ← List.append_assoc] at hstart ⊢
    rcases List.prefix_concat_iff.1 hstart with rfl | hbody
    · exact List.prefix_refl _
    · obtain ⟨begun, hrun, -⟩ := h.run_body
      have hlength := (objects_mono o .before hbody).length_le
      rw [hrun, List.length_take] at hlength
      omega

/-- So two spans of one object end at the same brace. -/
theorem Span.Gives.end_eq (h : span.Gives o text i object) (h' : span'.Gives o text i object) :
    span.before ++ span.source = span'.before ++ span'.source := by
  have hstart : ∀ {one other : Span}, one.Gives o text i object → other.Gives o text i object →
      one.before ++ one.source <+: other.before ++ other.source := by
    intro one other hone hother
    refine hone.source_isPrefix_of_lt hother.source_isPrefix ?_
    have hi := hother.lt_length
    rw [hother.run_source.1, List.length_take]
    omega
  exact (hstart h h').eq_of_length_le (hstart h' h).length_le

/-- The one does not begin inside the other. -/
theorem Span.Gives.before_eq (h : span.Gives o text i object) (h' : span'.Gives o text i object)
    (hle : span.before <+: span'.before) : span'.before = span.before := by
  obtain ⟨between, hbetween⟩ := hle
  by_cases hnil : between = []
  · rw [← hbetween, hnil, List.append_nil]
  · exfalso
    have hinside : between <+: span.opening :: span.inner := by
      have hend := h.end_eq h'
      rw [← hbetween, List.append_assoc, List.append_cancel_left_eq, Span.source, Span.source,
        ← List.append_assoc] at hend
      exact ⟨span'.opening :: span'.inner, (List.append_cancel_right hend).symm⟩
    obtain ⟨stray, hreached⟩ := h.reached
    obtain ⟨begun, hstays, -⟩ := staysInside_opened h.opening h.inner stray
    obtain ⟨stray', hreached'⟩ := h'.reached
    rw [← hbetween, run_append_objects hreached] at hreached'
    have hrefusal := congrArg Run.refusal hreached'
    have hplace := congrArg Run.place hreached'
    have hdeep := hstays.deep between hinside hnil hrefusal
    rw [hplace] at hdeep
    exact absurd (show 2 ≤ 1 from hdeep) (by decide)

/-- **No object comes from two spans.** -/
theorem Span.Gives.unique (h : span.Gives o text i object) (h' : span'.Gives o text i object) :
    span = span' := by
  have hbefore : span.before = span'.before := by
    have hstart : span.before <+: text := (List.prefix_append _ _).trans h.source_isPrefix
    have hstart' : span'.before <+: text := (List.prefix_append _ _).trans h'.source_isPrefix
    rcases List.prefix_or_prefix_of_prefix hstart hstart' with hle | hle
    · exact (h.before_eq h' hle).symm
    · exact h'.before_eq h hle
  have hsource : span.source = span'.source := by
    have hend := h.end_eq h'
    rwa [hbefore, List.append_cancel_left_eq] at hend
  have hafter : span.after = span'.after := by
    have htext := h.text_eq.symm.trans h'.text_eq
    rwa [hbefore, hsource, List.append_cancel_left_eq] at htext
  obtain ⟨before, opening, inner, after⟩ := span
  obtain ⟨before', opening', inner', after'⟩ := span'
  obtain ⟨rfl, hinner⟩ := List.cons.inj hsource
  obtain rfl := List.append_cancel_right hinner
  obtain rfl : before = before' := hbefore
  obtain rfl : after = after' := hafter
  rfl

/-- **Every object comes from exactly one span of the text.** -/
theorem existsUnique_span (h : (run o .before text).objects[i]? = some object) :
    ∃! span : Span, span.Gives o text i object := by
  obtain ⟨span, hspan⟩ := exists_span h
  exact ⟨span, hspan, fun span' hspan' => hspan'.unique hspan⟩

end

end ObjectFeed.Splitter
