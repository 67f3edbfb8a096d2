/-
  What the limit on the size of objects does.

  * `step_limited`: with a limit a character is read as without one, unless what is read of the object
    is too large with it;
  * `Outgrows` says that this is so at the end of a text, and `run_limited`: with a limit a text is read
    as without one, up to where it outgrows the limit first;
  * `isWithin_of_run`: so what an object has before its closing brace is within the limit.  The closing
    brace itself is not counted, since the limit is looked at when the object has been taken away.
-/
import ObjectFeed.Proofs.Splitter.Language

namespace ObjectFeed.Splitter

variable {o : Options} {limit : Nat} {start : Place} {text : List Char}

/-! ## One character -/

/-- The same options without a limit. -/
def Options.unlimited (o : Options) : Options :=
  { o with sizeLimit := none }

/-- What comes of a character with a limit, if this comes of it without one. -/
def Outcome.limited (limit : Nat) (reached : Place) : Outcome → Outcome
  | quiet => if limit < reached.object.utf8ByteSize then refused (.tooLarge limit) else quiet
  | completed object => completed object
  | refused refusal => refused refusal

theorem reach_limited (hlimit : o.sizeLimit = some limit) (depth : Nat) (mode : Mode)
    (object : String) :
    o.reach depth mode object =
      ((o.unlimited.reach depth mode object).1,
        (o.unlimited.reach depth mode object).2.limited limit
          (o.unlimited.reach depth mode object).1) := by
  rw [Options.reach, hlimit]
  rfl

theorem stepPlain_limited (hlimit : o.sizeLimit = some limit) (depth : Nat) (object : String)
    (c : Char) :
    o.stepPlain depth object c =
      ((o.unlimited.stepPlain depth object c).1,
        (o.unlimited.stepPlain depth object c).2.limited limit
          (o.unlimited.stepPlain depth object c).1) := by
  have hkeep : o.unlimited.keepBrackets = o.keepBrackets := rfl
  simp only [Options.stepPlain, reach_limited hlimit, hkeep]
  repeat' split
  all_goals rfl

/-- **A limit refuses a character only if the object is too large with it.** -/
theorem step_limited (hlimit : o.sizeLimit = some limit) (place : Place) (c : Char) :
    step o place c = ((step o.unlimited place c).1,
      (step o.unlimited place c).2.limited limit (step o.unlimited place c).1) := by
  cases place with
  | before =>
    simp only [step]
    repeat' split
    all_goals rfl
  | inside depth mode object =>
    cases mode with
    | plain => exact stepPlain_limited hlimit depth object c
    | quoted => exact reach_limited hlimit _ _ _
    | escaped => exact reach_limited hlimit _ _ _
  | after =>
    simp only [step]
    split <;> rfl

theorem object_of_completed {c : Char} {completed : String}
    (h : (step o start c).2 = .completed completed) : (step o start c).1.object = "" := by
  rcases hs : step o start c with ⟨next, outcome⟩
  rw [hs] at h
  subst h
  obtain ⟨object, rfl, rfl, -⟩ := eq_of_completed hs
  have hnext : next = .inside 1 .plain "" := (congrArg Prod.fst hs).symm
  rw [hnext]
  rfl

/-! ## Whole texts -/

/-- A text can be read without a limit, and what is read of the object is larger than this one then. -/
def Outgrows (o : Options) (limit : Nat) (start : Place) (text : List Char) : Prop :=
  (run o.unlimited start text).refusal = none ∧
    limit < (run o.unlimited start text).place.object.utf8ByteSize

instance (o : Options) (limit : Nat) (start : Place) (text : List Char) :
    Decidable (Outgrows o limit start text) :=
  inferInstanceAs (Decidable (_ ∧ _))

/-- With a limit a character is read as without one, or the object outgrows the limit with it. -/
theorem run_char_limited (hlimit : o.sizeLimit = some limit) (place : Place) (c : Char) :
    (run o place [c] = run o.unlimited place [c] ∧ ¬ Outgrows o limit place [c]) ∨
      Outgrows o limit place [c] ∧
        run o place [c] = { run o.unlimited place [c] with refusal := some (.tooLarge limit) } := by
  rw [Outgrows, run_char o, run_char o.unlimited, step_limited hlimit]
  cases houtcome : (step o.unlimited place c).2 with
  | quiet =>
    by_cases hsize : limit < (step o.unlimited place c).1.object.utf8ByteSize
    · refine .inr ⟨⟨rfl, hsize⟩, ?_⟩
      simp only [Outcome.limited, if_pos hsize]
      rfl
    · refine .inl ⟨?_, fun houtgrows => hsize houtgrows.2⟩
      simp only [Outcome.limited, if_neg hsize]
  | completed object =>
    refine .inl ⟨rfl, fun houtgrows => ?_⟩
    have hsize := houtgrows.2
    rw [object_of_completed houtcome] at hsize
    exact Nat.not_lt_zero limit hsize
  | refused refusal =>
    refine .inl ⟨rfl, fun houtgrows => ?_⟩
    cases houtgrows.1

theorem outgrows_append_char (c : Char) :
    Outgrows o limit start (text ++ [c]) ↔ (run o.unlimited start text).refusal = none ∧
      Outgrows o limit (run o.unlimited start text).place [c] := by
  rw [Outgrows, run_append]
  cases (run o.unlimited start text).refusal with
  | none => exact ⟨fun h => ⟨rfl, h⟩, fun h => h.2⟩
  | some refusal => exact ⟨nofun, nofun⟩

/-- **A limit ends the reading of a text where it is outgrown first**, and changes nothing else. -/
theorem run_limited (hlimit : o.sizeLimit = some limit) (hstart : start.object.utf8ByteSize ≤ limit)
    (text : List Char) :
    (run o start text = run o.unlimited start text ∧
      ∀ read, read <+: text → ¬ Outgrows o limit start read) ∨
    ∃ read rest, text = read ++ rest ∧ Outgrows o limit start read ∧
      (∀ earlier, earlier <+: read → Outgrows o limit start earlier → earlier = read) ∧
      run o start text = { run o.unlimited start read with
        refusal := some (.tooLarge limit), unread := rest } := by
  induction text using List.reverseRecOn with
  | nil =>
    refine .inl ⟨rfl, fun read hread houtgrows => ?_⟩
    rw [List.prefix_nil.1 hread] at houtgrows
    exact absurd houtgrows.2 (Nat.not_lt.2 hstart)
  | append_singleton text c ih =>
    obtain ⟨hsame, hwithin⟩ | ⟨read, rest, rfl, houtgrows, hfirst, hrun⟩ := ih
    · have hshorter : ∀ read, read <+: text ++ [c] → Outgrows o limit start read →
          read = text ++ [c] := by
        intro read hread houtgrows
        rcases List.prefix_concat_iff.1 hread with rfl | hread
        · rfl
        · exact absurd houtgrows (hwithin read hread)
      cases hrefusal : (run o.unlimited start text).refusal with
      | some refusal =>
        refine .inl ⟨?_, fun read hread houtgrows => ?_⟩
        · rw [run_append, run_append o.unlimited, hsame, hrefusal]
        · rw [hshorter read hread houtgrows, outgrows_append_char, hrefusal] at houtgrows
          cases houtgrows.1
      | none =>
        rcases run_char_limited hlimit (run o.unlimited start text).place c with
          ⟨hchar, hsmall⟩ | ⟨hlarge, hchar⟩
        · refine .inl ⟨?_, fun read hread houtgrows => ?_⟩
          · rw [run_append, run_append o.unlimited, hsame, hrefusal, hchar]
          · rw [hshorter read hread houtgrows, outgrows_append_char] at houtgrows
            exact hsmall houtgrows.2
        · refine .inr ⟨text ++ [c], [], (List.append_nil _).symm,
            (outgrows_append_char c).2 ⟨hrefusal, hlarge⟩, hshorter, ?_⟩
          rw [run_append, run_append o.unlimited, hsame, hrefusal, hchar]
          have hunread := unread_of_not_refused hlarge.1
          simp only [hunread]
    · refine .inr ⟨read, rest ++ [c], List.append_assoc _ _ _, houtgrows, hfirst, ?_⟩
      rw [run_append, hrun]

/-! ### Completions -/

/-- No more is completed than without a limit, and no less if nothing is refused. -/
theorem objects_unlimited (o : Options) (text : List Char) :
    (run o .before text).objects <+: (run o.unlimited .before text).objects ∧
      ((run o .before text).refusal = none →
        (run o .before text).objects = (run o.unlimited .before text).objects) := by
  cases hlimit : o.sizeLimit with
  | none =>
    have hsame : o.unlimited = o := by rw [Options.unlimited, ← hlimit]
    rw [hsame]
    exact ⟨List.prefix_refl _, fun _ => rfl⟩
  | some limit =>
    have hstart : Place.before.object.utf8ByteSize ≤ limit := Nat.zero_le limit
    rcases run_limited hlimit hstart text with ⟨hsame, -⟩ | ⟨read, rest, rfl, -, -, hrun⟩
    · rw [hsame]
      exact ⟨List.prefix_refl _, fun _ => rfl⟩
    · rw [hrun]
      exact ⟨objects_mono o.unlimited .before (List.prefix_append read rest), nofun⟩

/-- **No more objects are completed than the text has closing braces for**, and as many if nothing is
    refused. -/
theorem length_objects_le_completions (o : Options) (text : List Char) :
    (run o .before text).objects.length ≤ completions o.honorEscapes text ∧
      ((run o .before text).refusal = none →
        (run o .before text).objects.length = completions o.honorEscapes text) := by
  have hall : (run o.unlimited .before text).objects.length = completions o.honorEscapes text :=
    (stands_of_run (o := o.unlimited) rfl text).2
  obtain ⟨hfirst, hsame⟩ := objects_unlimited o text
  rw [← hall]
  exact ⟨hfirst.length_le, fun haccepted => congrArg List.length (hsame haccepted)⟩

theorem completions_mono (honor : Bool) {s t : List Char} (h : s <+: t) :
    completions honor s ≤ completions honor t := by
  have hcount := fun text => (stands_of_run (o := { honorEscapes := honor }) rfl text).2
  rw [← hcount s, ← hcount t]
  exact (objects_mono _ .before h).length_le

/-! ### Sizes -/

theorem object_le_of_run (hlimit : o.sizeLimit = some limit)
    (hstart : start.object.utf8ByteSize ≤ limit) (hread : (run o start text).refusal = none) :
    (run o start text).place.object.utf8ByteSize ≤ limit := by
  rcases run_limited hlimit hstart text with ⟨hsame, hwithin⟩ | ⟨read, rest, -, -, -, hrun⟩
  · rw [hsame] at hread ⊢
    by_contra hsize
    exact hwithin text (List.prefix_refl text) ⟨hread, Nat.not_le.1 hsize⟩
  · rw [hrun] at hread
    cases hread

/-- An object is this content and its closing brace, and the content is within the limit. -/
def IsWithin (limit : Nat) (object : String) : Prop :=
  ∃ content : String, object = content.push '}' ∧ content.utf8ByteSize ≤ limit

theorem IsWithin.utf8ByteSize_le {object : String} (h : IsWithin limit object) :
    object.utf8ByteSize ≤ limit + 1 := by
  obtain ⟨content, rfl, hcontent⟩ := h
  rw [String.utf8ByteSize_push]
  exact Nat.add_le_add_right hcontent _

/-- **What an object has before its closing brace is within the limit.** -/
theorem isWithin_of_run (hlimit : o.sizeLimit = some limit)
    (hstart : start.object.utf8ByteSize ≤ limit) (text : List Char) :
    ∀ object ∈ (run o start text).objects, IsWithin limit object := by
  induction text using List.reverseRecOn with
  | nil => exact nofun
  | append_singleton text c ih =>
    rcases objects_append_char o start text c with hsame | ⟨prior, place, object, hprior, hstep, hmore⟩
    · rwa [hsame]
    · rw [hmore]
      intro object' hobject'
      rcases List.mem_append.1 hobject' with hearlier | hlast
      · exact ih object' hearlier
      · obtain ⟨content, rfl, -, hobject⟩ := eq_of_completed hstep
        have hcontent := object_le_of_run hlimit hstart (congrArg Run.refusal hprior)
        rw [hprior] at hcontent
        exact ⟨content, (List.mem_singleton.1 hlast).trans hobject, hcontent⟩

end ObjectFeed.Splitter
