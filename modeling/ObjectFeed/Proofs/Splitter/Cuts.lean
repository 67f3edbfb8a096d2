/-
  Where a text is cut into fragments makes no difference to a splitter.

  * `run_eq_of_refused`: a run that is refused stops at one character, and what is unread is the text
    after it;
  * `feedEach_eq_run`: feeding fragments one after another, up to the first that fails, is one run
    over their joined text;
  * `feedEach_of_accepted`: so when that run is not refused, every fragment is fed;
  * `feedEach_congr`: options that read every beginning alike split the fragments alike, down to the
    fragment that a failure quotes;
  * `feedEach_cut`: and it is feeding the joined text at once, but for the fragment that a failure quotes.
-/
import ObjectFeed.Backlog
import ObjectFeed.Splitter

namespace ObjectFeed

/-- A failure without the fragment it quotes. -/
def Failure.unquoted : Failure → Failure
  | malformed _ => malformed ""
  | failure => failure

namespace Splitter

@[simp] theorem unquoted_toFailure (refusal : Refusal) (fragment : String) :
    (refusal.toFailure fragment).unquoted = refusal.toFailure "" := by
  cases refusal <;> rfl

/-- A refused character parts the text: what stands before it is read without refusal, and what
    stands after it is not read. -/
theorem run_eq_of_refused {o : Options} {place : Place} {text : List Char} {refusal : Refusal}
    (h : (run o place text).refusal = some refusal) :
    ∃ read c, text = read ++ c :: (run o place text).unread ∧ (run o place read).refusal = none ∧
      step o (run o place read).place c = ((run o place text).place, .refused refusal) := by
  induction text generalizing place with
  | nil => simp [run] at h
  | cons c rest ih =>
    rcases hs : step o place c with ⟨next, outcome⟩
    by_cases hrefused : outcome = .refused refusal
    · subst hrefused
      refine ⟨[], c, ?_, rfl, ?_⟩
      · simp only [run, hs, List.nil_append]
      · simp only [run, hs]
    · -- any other outcome leaves the rest to be read from the next place
      have hnext : (run o next rest).refusal = some refusal ∧
          (run o place (c :: rest)).place = (run o next rest).place ∧
          (run o place (c :: rest)).unread = (run o next rest).unread ∧
          ∀ read, (run o place (c :: read)).place = (run o next read).place ∧
            (run o place (c :: read)).refusal = (run o next read).refusal := by
        cases outcome <;> simp_all [run]
      obtain ⟨hrest, hplace, hunread, hread⟩ := hnext
      obtain ⟨read, c', htext, hquiet, hstep⟩ := ih hrest
      refine ⟨c :: read, c', ?_, ?_, ?_⟩
      · rw [hunread, List.cons_append, ← htext]
      · rw [(hread read).2, hquiet]
      · rw [(hread read).1, hplace, hstep]

/-- **Feeding fragments is one run over their joined text.**  Only the fragment that a failure
    quotes depends on the cuts; without a failure every fragment is fed. -/
theorem feedEach_eq_run (s : Splitter) (fragments : List String) {r : Run}
    (hr : run s.options s.place (fragments.flatMap String.toList) = r) :
    ∃ quoted n, s.feedEach fragments =
        { splitter := { s with place := r.place }
          objects := r.objects
          failure := r.refusal.map (Refusal.toFailure quoted)
          unread := r.unread
          fragments := n } ∧
      (r.refusal = none → n = fragments.length) := by
  induction fragments generalizing s r with
  | nil => subst hr; exact ⟨"", 0, rfl, fun _ => rfl⟩
  | cons fragment rest ih =>
    rw [List.flatMap_cons, run_append] at hr
    subst hr
    rcases hone : (run s.options s.place fragment.toList).refusal with _ | refusal
    · obtain ⟨quoted, n, hrest, hn⟩ :=
        ih { s with place := (run s.options s.place fragment.toList).place } rfl
      refine ⟨quoted, 1 + n, ?_, fun hnone => ?_⟩
      · simp only [feedEach, feed, hone, Option.map_none, hrest]
      · rw [hn hnone, List.length_cons, Nat.add_comm]
    · refine ⟨fragment, 1, ?_, fun hnone => ?_⟩
      · simp only [feedEach, feed, hone, Option.map_some]
      · cases hnone

theorem feedEach_concat {s : Splitter} {fragments : List String}
    (h : (s.feedEach fragments).failure = none) (text : String) :
    let fed := s.feedEach fragments
    let more := s.feedEach (fragments ++ [text])
    more.splitter = (fed.splitter.feed text).splitter ∧
      more.failure = (fed.splitter.feed text).failure ∧
      more.objects = fed.objects ++ (fed.splitter.feed text).objects ∧
      more.fragments = fed.fragments + 1 := by
  intro fed more
  induction fragments generalizing s with
  | nil =>
    simp only [fed, more, List.nil_append, feedEach]
    cases hfailure : (s.feed text).failure with
    | none => exact ⟨rfl, rfl, List.append_nil _, rfl⟩
    | some failure => exact ⟨rfl, rfl, rfl, rfl⟩
  | cons fragment fragments ih =>
    simp only [fed, more, List.cons_append, feedEach] at h ⊢
    cases hfailure : (s.feed fragment).failure with
    | some failure => simp [hfailure] at h
    | none =>
      rw [hfailure] at h
      obtain ⟨hsplitter, hmore, hobjects, hfragments⟩ := ih h
      simp only [hobjects, hfragments, List.append_assoc, Nat.add_assoc]
      exact ⟨hsplitter, hmore, trivial, trivial⟩

theorem exists_objects_append (o : Options) (start : Place) (s t : List Char) :
    ∃ more, (run o start (s ++ t)).objects = (run o start s).objects ++ more := by
  rw [run_append]
  cases (run o start s).refusal with
  | some refusal => exact ⟨[], (List.append_nil _).symm⟩
  | none => exact ⟨_, rfl⟩

theorem objects_mono (o : Options) (start : Place) {s t : List Char} (h : s <+: t) :
    (run o start s).objects <+: (run o start t).objects := by
  obtain ⟨rest, rfl⟩ := h
  obtain ⟨more, hmore⟩ := exists_objects_append o start s rest
  rw [hmore]
  exact List.prefix_append _ _

/-- Behind what is refused nothing is read, so no more is completed. -/
theorem run_of_refused {o : Options} {start : Place} {s t : List Char} (h : s <+: t)
    (hs : (run o start s).refusal ≠ none) :
    (run o start t).refusal = (run o start s).refusal ∧
      (run o start t).objects = (run o start s).objects := by
  obtain ⟨rest, rfl⟩ := h
  rw [run_append]
  cases hrefusal : (run o start s).refusal with
  | none => exact absurd hrefusal hs
  | some refusal => exact ⟨rfl, rfl⟩

/-- The objects of fragments are those of the joined text, as far as it is read. -/
theorem objects_feedEach (o : Options) (fragments : List String) :
    (({ options := o } : Splitter).feedEach fragments).objects =
      (run o .before (String.join fragments).toList).objects := by
  obtain ⟨quoted, n, heach, -⟩ :=
    feedEach_eq_run ({ options := o } : Splitter) fragments rfl
  rw [heach, String.toList_join]

theorem failure_feedEach (o : Options) (fragments : List String) :
    (({ options := o } : Splitter).feedEach fragments).failure = none ↔
      (run o .before (String.join fragments).toList).refusal = none := by
  obtain ⟨quoted, n, heach, -⟩ :=
    feedEach_eq_run ({ options := o } : Splitter) fragments rfl
  rw [heach, String.toList_join, Option.map_eq_none_iff]

theorem run_congr_of_append {o o' : Options} {place : Place} {read rest : List Char}
    (hread : run o place read = run o' place read) (hquiet : (run o' place read).refusal = none)
    (hall : run o place (read ++ rest) = run o' place (read ++ rest)) :
    run o (run o' place read).place rest = run o' (run o' place read).place rest := by
  rw [run_append, run_append o', hread, hquiet] at hall
  obtain ⟨hplace, hobjects, hrefusal, hunread⟩ := Run.mk.inj hall
  rw [List.append_cancel_left_eq] at hobjects
  rw [show run o (run o' place read).place rest = ⟨_, _, _, _⟩ from rfl, hplace, hobjects, hrefusal,
    hunread]

/-- Options that read each beginning of the fragments alike split them alike, and each failure quotes
    the same fragment. -/
theorem feedEach_congr {o o' : Options} {place : Place} {fragments : List String}
    (h : ∀ read, read <+: fragments.flatMap String.toList → run o place read = run o' place read) :
    let fed := ({ options := o', place } : Splitter).feedEach fragments
    ({ options := o, place } : Splitter).feedEach fragments =
      { fed with splitter := { options := o, place := fed.splitter.place } } := by
  induction fragments generalizing place with
  | nil => rfl
  | cons fragment rest ih =>
    have hone : run o place fragment.toList = run o' place fragment.toList :=
      h _ (List.flatMap_cons ▸ List.prefix_append _ _)
    cases hrefusal : (run o' place fragment.toList).refusal with
    | some refusal => simp only [feedEach, feed, hone, hrefusal, Option.map_some]
    | none =>
      have hrest : ∀ read, read <+: rest.flatMap String.toList →
          run o (run o' place fragment.toList).place read =
            run o' (run o' place fragment.toList).place read := by
        intro read hread
        refine run_congr_of_append hone hrefusal (h _ ?_)
        rw [List.flatMap_cons, List.prefix_append_right_inj]
        exact hread
      simp only [feedEach, feed, hone, hrefusal, Option.map_none, ih hrest]

theorem feedEach_of_accepted {s : Splitter} {fragments : List String} {place : Place}
    {objects : List String}
    (h : run s.options s.place (String.join fragments).toList = { place, objects }) :
    s.feedEach fragments =
      { splitter := { s with place }, objects, fragments := fragments.length } := by
  rw [String.toList_join] at h
  obtain ⟨quoted, n, heach, hn⟩ := feedEach_eq_run s fragments h
  rw [heach, hn rfl]
  rfl

/-- **Cutting a text into fragments changes nothing**, from any place on and with any objects
    waiting: the splitter reached, the objects that wait then, the character that is refused, if one
    is, and the reason are those of the text fed at once. -/
theorem feedEach_cut (s : Splitter) (waiting : Backlog String) (fragments : List String) :
    (s.feedEach fragments).splitter = (s.feed (String.join fragments)).splitter ∧
      (waiting.pushAll (s.feedEach fragments).objects).toList =
        (waiting.pushAll (s.feed (String.join fragments)).objects).toList ∧
      (s.feedEach fragments).unread = (s.feed (String.join fragments)).unread ∧
      (s.feedEach fragments).failure.map Failure.unquoted =
        (s.feed (String.join fragments)).failure.map Failure.unquoted := by
  obtain ⟨quoted, n, heach, -⟩ := feedEach_eq_run s fragments rfl
  have hjoin : (String.join fragments).toList = fragments.flatMap String.toList :=
    String.toList_join
  rw [heach, feed, hjoin]
  refine ⟨rfl, rfl, rfl, ?_⟩
  simp only [Option.map_map]
  congr 1
  funext refusal
  exact (unquoted_toFailure refusal _).trans (unquoted_toFailure refusal _).symm

end Splitter

end ObjectFeed
