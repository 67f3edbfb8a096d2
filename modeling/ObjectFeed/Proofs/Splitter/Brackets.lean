/-
  What keeping the brackets inside objects changes.

  * `unbracketed` is a text without its brackets outside strings, by the rule for strings that a
    splitter has;
  * `Place.IsReread` says that the text of the current object tells by itself whether it ends inside a
    string: read again from its start, it ends in the mode of the place.  `step_dropping` keeps it, and
    `run_dropping`: from such a place a text is read alike whether brackets are kept or dropped, but
    for the brackets outside strings in the texts of the objects;
  * `Splitter.feedAll` feeds fragments one after another, whatever becomes of each;
  * `brackets_alone_differ`: after every fragment the two splitters differ in these brackets only.
-/
import Mathlib.Data.List.Forall2
import ObjectFeed.Backlog
import ObjectFeed.Proofs.Splitter.Passing

namespace ObjectFeed.Splitter

open Text (isBlank)

/-! ## Texts without brackets -/

/-- The two brackets. -/
def isBracket (c : Char) : Bool :=
  c == '[' || c == ']'

/-- A text without its brackets outside strings. -/
def unbracketed (honor : Bool) (text : String) : String :=
  String.ofList (strip honor isBracket .plain text.toList)

variable {honor : Bool} {mode : Mode} {object : String} {c : Char}

theorem afterText_push (h : Mode.plain.afterText honor object.toList = mode) (c : Char) :
    Mode.plain.afterText honor (object.push c).toList = mode.after honor c := by
  rw [String.toList_push, Mode.afterText_append, h]
  rfl

theorem unbracketed_push (h : Mode.plain.afterText honor object.toList = mode) (c : Char) :
    unbracketed honor (object.push c) =
      if mode = .plain ∧ isBracket c = true then unbracketed honor object
      else (unbracketed honor object).push c := by
  rw [unbracketed, String.toList_push, strip_append, h, strip, strip_nil]
  split
  · rw [List.append_nil]
    rfl
  · rw [String.ofList_append, String.push_eq_append]
    rfl

theorem unbracketed_push_bracket (h : Mode.plain.afterText honor object.toList = .plain)
    (hc : isBracket c = true) : unbracketed honor (object.push c) = unbracketed honor object := by
  rw [unbracketed_push h, if_pos ⟨rfl, hc⟩]

theorem unbracketed_push_kept (h : Mode.plain.afterText honor object.toList = mode)
    (hc : mode = .plain → isBracket c = false) :
    unbracketed honor (object.push c) = (unbracketed honor object).push c := by
  rw [unbracketed_push h, if_neg fun hm => Bool.false_ne_true ((hc hm.1).symm.trans hm.2)]

/-! ## Places and runs -/

/-- The same place with an object without brackets outside strings. -/
def Place.unbracketed (honor : Bool) : Place → Place
  | before => before
  | inside depth mode object => inside depth mode (Splitter.unbracketed honor object)
  | after => after

/-- The same outcome with an object without brackets outside strings. -/
def Outcome.unbracketed (honor : Bool) : Outcome → Outcome
  | quiet => quiet
  | completed object => completed (Splitter.unbracketed honor object)
  | refused refusal => refused refusal

/-- The same run with objects without brackets outside strings. -/
def Run.unbracketed (honor : Bool) (r : Run) : Run :=
  { r with
    place := r.place.unbracketed honor
    objects := r.objects.map (Splitter.unbracketed honor) }

/-- Read again from its start, the text of the current object ends in the mode of the place. -/
def Place.IsReread (honor : Bool) : Place → Prop
  | inside _ mode object => Mode.plain.afterText honor object.toList = mode
  | before | after => True

/-- What comes of a character where brackets are dropped is what comes of it where they are kept, less
    the brackets outside strings, and the place reached there is reread. -/
structure DropsBrackets (honor : Bool) (kept dropped : Place × Outcome) : Prop where
  eq : dropped = (kept.1.unbracketed honor, kept.2.unbracketed honor)
  isReread : kept.1.IsReread honor

/-- The same options with brackets dropped. -/
def Options.dropping (o : Options) : Options :=
  { o with keepBrackets := false }

section

variable {o : Options} (hlimit : o.sizeLimit = none)
include hlimit

theorem reach_push_dropping (hobject : Mode.plain.afterText o.honorEscapes object.toList = mode)
    (hc : mode = .plain → isBracket c = false) (depth : Nat) {next : Mode}
    (hnext : mode.after o.honorEscapes c = next) :
    DropsBrackets o.honorEscapes (o.reach depth next (object.push c))
      (o.dropping.reach depth next ((unbracketed o.honorEscapes object).push c)) where
  eq := by
    have hlimit' : o.dropping.sizeLimit = none := hlimit
    rw [reach_eq hlimit, reach_eq hlimit', Place.unbracketed, unbracketed_push_kept hobject hc]
    rfl
  isReread := (afterText_push hobject c).trans hnext

theorem reach_dropping (hobject : Mode.plain.afterText o.honorEscapes object.toList = mode)
    (depth : Nat) : DropsBrackets o.honorEscapes (o.reach depth mode object)
      (o.dropping.reach depth mode (unbracketed o.honorEscapes object)) where
  eq := by
    have hlimit' : o.dropping.sizeLimit = none := hlimit
    rw [reach_eq hlimit, reach_eq hlimit']
    rfl
  isReread := hobject

theorem reach_bracket_dropping
    (hobject : Mode.plain.afterText o.honorEscapes object.toList = .plain)
    (hc : isBracket c = true) (depth : Nat) (keeps : Bool) :
    DropsBrackets o.honorEscapes (o.reach depth .plain (if keeps then object.push c else object))
      (o.dropping.reach depth .plain (unbracketed o.honorEscapes object)) := by
  cases keeps with
  | false => exact reach_dropping hlimit hobject depth
  | true =>
    have hquote : c ≠ '"' := by rintro rfl; cases hc
    have hpushed : Mode.plain.afterText o.honorEscapes (object.push c).toList = .plain :=
      (afterText_push hobject c).trans (Mode.after_plain_of_ne hquote)
    rw [if_pos rfl, ← unbracketed_push_bracket hobject hc]
    exact reach_dropping hlimit hpushed depth

theorem stepPlain_dropping (hobject : Mode.plain.afterText o.honorEscapes object.toList = .plain)
    (depth : Nat) (c : Char) :
    DropsBrackets o.honorEscapes (o.stepPlain depth object c)
      (o.dropping.stepPlain depth (unbracketed o.honorEscapes object) c) := by
  -- a character that is kept outside strings
  have hkept : ∀ (text : String) {d : Char},
      Mode.plain.afterText o.honorEscapes text.toList = .plain → isBracket d = false → d ≠ '"' →
      ∀ depth, DropsBrackets o.honorEscapes (o.reach depth .plain (text.push d))
        (o.dropping.reach depth .plain ((unbracketed o.honorEscapes text).push d)) :=
    fun _ _ htext hd hquote depth =>
      reach_push_dropping hlimit htext (fun _ => hd) depth (Mode.after_plain_of_ne hquote)
  by_cases hbegin : c = '{'
  · subst hbegin
    simp only [Options.stepPlain, if_true]
    by_cases hone : depth = 1
    · rw [if_pos hone, if_pos hone]
      exact hkept "" rfl rfl (by decide) _
    · rw [if_neg hone, if_neg hone]
      exact hkept object hobject rfl (by decide) _
  by_cases hquote : c = '"'
  · subst hquote
    exact reach_push_dropping hlimit hobject (fun _ => rfl) depth rfl
  by_cases hclose : c = '}'
  · subst hclose
    simp only [Options.stepPlain, hbegin, hquote, if_false, if_true]
    by_cases hone : depth < 2
    · rw [if_pos hone, if_pos hone]
      exact ⟨rfl, hobject⟩
    rw [if_neg hone, if_neg hone]
    by_cases htwo : depth = 2
    · rw [if_pos htwo, if_pos htwo, ← unbracketed_push_kept hobject fun _ => rfl]
      exact ⟨rfl, rfl⟩
    · rw [if_neg htwo, if_neg htwo]
      exact hkept object hobject rfl (by decide) _
  by_cases hopen : c = '['
  · subst hopen
    exact reach_bracket_dropping hlimit hobject rfl (depth + 1) _
  by_cases hend : c = ']'
  · subst hend
    simp only [Options.stepPlain, hbegin, hquote, hclose, hopen, if_false, if_true]
    by_cases hone : depth ≤ 1
    · rw [if_pos hone, if_pos hone]
      exact ⟨rfl, trivial⟩
    · rw [if_neg hone, if_neg hone]
      exact reach_bracket_dropping hlimit hobject rfl (depth - 1) _
  simp only [Options.stepPlain, hbegin, hquote, hclose, hopen, hend, if_false]
  by_cases hblank : isBlank c = true
  · rw [if_pos hblank, if_pos hblank]
    exact reach_dropping hlimit hobject depth
  · rw [if_neg hblank, if_neg hblank]
    exact hkept object hobject (by simp [isBracket, hopen, hend]) hquote depth

/-- **A character is read alike whether brackets are kept or dropped**, but for the brackets outside
    strings in the objects. -/
theorem step_dropping {place : Place} (hplace : place.IsReread o.honorEscapes) (c : Char) :
    DropsBrackets o.honorEscapes (step o place c)
      (step o.dropping (place.unbracketed o.honorEscapes) c) := by
  cases place with
  | before =>
    simp only [Place.unbracketed, step]
    split
    · exact ⟨rfl, trivial⟩
    · split
      · exact ⟨rfl, rfl⟩
      · exact ⟨rfl, trivial⟩
  | after =>
    simp only [Place.unbracketed, step]
    split <;> exact ⟨rfl, trivial⟩
  | inside depth mode object =>
    cases mode with
    | plain => exact stepPlain_dropping hlimit hplace depth c
    | quoted =>
      exact reach_push_dropping hlimit hplace (fun hplain => absurd hplain (by decide)) depth rfl
    | escaped =>
      exact reach_push_dropping hlimit hplace (fun hplain => absurd hplain (by decide)) depth rfl

/-- **A text is read alike whether brackets are kept or dropped**, but for the brackets outside strings
    in the objects. -/
theorem run_dropping {place : Place} (hplace : place.IsReread o.honorEscapes) (text : List Char) :
    run o.dropping (place.unbracketed o.honorEscapes) text =
        (run o place text).unbracketed o.honorEscapes ∧
      (run o place text).place.IsReread o.honorEscapes := by
  induction text generalizing place with
  | nil => exact ⟨rfl, hplace⟩
  | cons c text ih =>
    obtain ⟨hstep, hnext⟩ := step_dropping hlimit hplace c
    rw [run, run, hstep]
    rcases hs : step o place c with ⟨next, outcome⟩
    rw [hs] at hnext
    obtain ⟨hrest, hlast⟩ := ih hnext
    cases outcome with
    | quiet => exact ⟨hrest, hlast⟩
    | completed object =>
      simp only [Outcome.unbracketed, hrest]
      exact ⟨rfl, hlast⟩
    | refused refusal => exact ⟨rfl, hnext⟩

end

/-! ## Fragments -/

/-- Feed fragments one after another, whatever becomes of each, and give what came of each. -/
def feedAll (s : Splitter) : List String → List Fed
  | [] => []
  | fragment :: rest => s.feed fragment :: (s.feed fragment).splitter.feedAll rest

theorem options_of_mem_feedAll {s : Splitter} {fragments : List String} {fed : Fed}
    (hfed : fed ∈ s.feedAll fragments) : fed.splitter.options = s.options := by
  induction fragments generalizing s with
  | nil => cases hfed
  | cons fragment fragments ih =>
    rcases List.mem_cons.1 hfed with rfl | hfed
    · rfl
    · exact ih (s := (s.feed fragment).splitter) hfed

/-- The same splitter with brackets dropped, now and before. -/
def dropping (s : Splitter) : Splitter :=
  { options := s.options.dropping, place := s.place.unbracketed s.options.honorEscapes }

/-- What comes of fragments if brackets are dropped, now and before. -/
def Fed.dropping (fed : Fed) : Fed :=
  { fed with
    splitter := fed.splitter.dropping
    objects := fed.objects.map (unbracketed fed.splitter.options.honorEscapes) }

section

variable {s : Splitter} (hlimit : s.options.sizeLimit = none)
  (hplace : s.place.IsReread s.options.honorEscapes)
include hlimit hplace

theorem feed_dropping (fragment : String) :
    s.dropping.feed fragment = (s.feed fragment).dropping ∧
      (s.feed fragment).splitter.place.IsReread s.options.honorEscapes := by
  obtain ⟨hrun, hlast⟩ := run_dropping hlimit hplace fragment.toList
  refine ⟨?_, hlast⟩
  rw [feed, dropping, hrun]
  rfl

theorem feedAll_dropping (fragments : List String) :
    s.dropping.feedAll fragments = (s.feedAll fragments).map Fed.dropping := by
  induction fragments generalizing s with
  | nil => rfl
  | cons fragment fragments ih =>
    obtain ⟨hfeed, hnext⟩ := feed_dropping hlimit hplace fragment
    have hrest := ih (s := (s.feed fragment).splitter) hlimit hnext
    rw [feedAll, feedAll, List.map_cons, hfeed, ← hrest]
    rfl

end

/-- What came of a fragment where brackets are kept, and where they are dropped, is the same but for the
    brackets outside the strings of the objects. -/
structure DifferInBrackets (honor : Bool) (kept dropped : Fed) : Prop where
  depth : dropped.splitter.place.depth = kept.splitter.place.depth
  inString : dropped.splitter.place.inString = kept.splitter.place.inString
  isEscaped : dropped.splitter.place.isEscaped = kept.splitter.place.isEscaped
  isBefore : dropped.splitter.place = .before ↔ kept.splitter.place = .before
  isClosed : dropped.splitter.isClosed = kept.splitter.isClosed
  truncation : dropped.splitter.truncation? = kept.splitter.truncation?
  failure : dropped.failure = kept.failure
  unread : dropped.unread = kept.unread
  object : dropped.splitter.place.object = unbracketed honor kept.splitter.place.object
  objects : dropped.objects = kept.objects.map (unbracketed honor)

theorem differInBrackets_dropping (fed : Fed) :
    DifferInBrackets fed.splitter.options.honorEscapes fed fed.dropping := by
  obtain ⟨⟨options, place⟩, objects, failure, unread, fragments⟩ := fed
  cases place with
  | before => exact ⟨rfl, rfl, rfl, .rfl, rfl, rfl, rfl, rfl, rfl, rfl⟩
  | inside depth mode object => exact ⟨rfl, rfl, rfl, ⟨nofun, nofun⟩, rfl, rfl, rfl, rfl, rfl, rfl⟩
  | after => exact ⟨rfl, rfl, rfl, ⟨nofun, nofun⟩, rfl, rfl, rfl, rfl, rfl, rfl⟩

/-- **Keeping the brackets inside objects changes the brackets only.**  After every fragment, whatever
    the text and also behind what is refused, the two splitters stand at the same place with the same
    failure, and the objects of the one are those of the other less the brackets outside their strings. -/
theorem brackets_alone_differ (honor : Bool) (fragments : List String) :
    let kept := ({ options := { honorEscapes := honor, keepBrackets := true } } :
      Splitter).feedAll fragments
    let dropped := ({ options := { honorEscapes := honor, keepBrackets := false } } :
      Splitter).feedAll fragments
    let queue (feds : List Fed) : Backlog String := Backlog.empty.pushAll (feds.flatMap Fed.objects)
    List.Forall₂ (DifferInBrackets honor) kept dropped ∧
      (queue dropped).size = (queue kept).size ∧
      (queue dropped).toList = (queue kept).toList.map (unbracketed honor) := by
  intro kept dropped queue
  have hdropped : dropped = kept.map Fed.dropping :=
    feedAll_dropping (s := { options := { honorEscapes := honor, keepBrackets := true } }) rfl
      trivial fragments
  have hhonor : ∀ fed ∈ kept, fed.splitter.options.honorEscapes = honor := by
    intro fed hfed
    rw [options_of_mem_feedAll hfed]
  have hqueue : (queue dropped).toList = (queue kept).toList.map (unbracketed honor) := by
    have hobjects : ∀ fed ∈ kept, fed.dropping.objects = fed.objects.map (unbracketed honor) := by
      intro fed hfed
      rw [Fed.dropping, hhonor fed hfed]
    simp only [queue, Backlog.toList_pushAll, Backlog.toList_empty, List.nil_append, hdropped,
      List.flatMap_map, List.map_flatMap]
    exact List.flatMap_congr hobjects
  refine ⟨?_, ?_, hqueue⟩
  · rw [hdropped, List.forall₂_map_right_iff, List.forall₂_same]
    intro fed hfed
    have hdiffer := differInBrackets_dropping fed
    rwa [hhonor fed hfed] at hdiffer
  · rw [Backlog.size_eq_length, Backlog.size_eq_length, hqueue, List.length_map]

example : unbracketed true "\x7b\"[\\\"]\":[[1],2]\x7d" = "\x7b\"[\\\"]\":1,2\x7d" := by decide

end ObjectFeed.Splitter
