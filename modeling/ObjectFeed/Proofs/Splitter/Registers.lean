/-
  The state of a splitter laid out in registers, also when it is fed on behind a failure.

  A place has a depth, a mode and an object inside the array only.  `Registers` have them at any time,
  each for itself and with a flag for every question about the mode, so that their type does not say
  which go together; and where a level is taken from them and none is open, reading leads nowhere.

  * `Registers.read?` reads one character on registers, `Registers.readText?` a text up to the first
    refused character, and `Registers.readEach?` fragments, whatever becomes of each;
  * `Place.IsSound` says what a place inside the array has open, and `Place.IsSound.step`: every
    character keeps it, refused or not;
  * `read?_registers`: in the registers of a sound place a character does what it does at the place, so
    no level is taken where none is open.  `readText?_registers` and `readEach?_registers` say so of texts
    and of fragments;
  * `depth_step_le_succ` and `place_of_stray` say what one character does to the depth, and what a stray
    one does to the place; `depth_afterAll_add_unread_le` and `object_afterAll_le` follow for fragments;
  * `registers_stay_sound`: the registers are sound after any fragments, whatever became of each.
-/
import ObjectFeed.Proofs.Splitter.Brackets
import ObjectFeed.Proofs.Splitter.Limits

namespace ObjectFeed.Splitter

open Text (isBlank)

/-! ## Registers -/

/-- How far the array has been read. -/
inductive Phase where
  /-- Not to its opening bracket. -/
  | before
  | inside
  /-- To its closing bracket. -/
  | after
  deriving DecidableEq, Repr

/-- What is remembered between two characters, each part for itself. -/
structure Registers where
  phase : Phase := .before
  /-- The number of open braces and brackets. -/
  depth : Nat := 0
  /-- Whether the next character stands inside a string. -/
  inString : Bool := false
  /-- Whether the next character is taken by a backslash. -/
  isEscaped : Bool := false
  /-- The text read of the current object. -/
  object : String := ""
  deriving DecidableEq, Repr

namespace Registers

/-- One level less, if one is open. -/
def lower? (r : Registers) : Option Registers :=
  match r.depth with
  | 0 => none
  | depth + 1 => some { r with depth }

/-- The object with one character more. -/
def push (r : Registers) (c : Char) : Registers :=
  { r with object := r.object.push c }

/-- These registers are reached, and the character is refused if the object is now too large. -/
def sized (o : Options) (r : Registers) : Registers × Outcome :=
  (r,
    match o.sizeLimit with
    | some limit => if limit < r.object.utf8ByteSize then .refused (.tooLarge limit) else .quiet
    | none => .quiet)

/-- Read a character of the array that stands inside a string. -/
def readQuoted (o : Options) (r : Registers) (c : Char) : Registers :=
  if r.isEscaped then { r.push c with isEscaped := false }
  else if c = '\\' && o.honorEscapes then { r.push c with isEscaped := true }
  else if c = '"' then { r.push c with inString := false }
  else r.push c

/-- Read a character of the array that stands outside strings. -/
def readPlain? (o : Options) (r : Registers) (c : Char) : Option (Registers × Outcome) :=
  if c = '{' then
    let fresh := if r.depth = 1 then { r with object := "" } else r
    some (sized o { fresh.push c with depth := r.depth + 1 })
  else if c = '"' then some (sized o { r.push c with inString := true })
  else if c = '}' then
    if r.depth < 2 then some (r, .refused .stray)
    else
      (r.push c).lower?.map fun lower =>
        if lower.depth = 1 then ({ lower with object := "" }, .completed lower.object)
        else sized o lower
  else if c = '[' then
    let kept := if o.keepBrackets && 2 ≤ r.depth then r.push c else r
    some (sized o { kept with depth := r.depth + 1 })
  else if c = ']' then
    r.lower?.map fun lower =>
      if lower.depth = 0 then sized o { lower with phase := .after, object := "" }
      else sized o (if o.keepBrackets && 2 ≤ lower.depth then lower.push c else lower)
  else if isBlank c then some (sized o r)
  else some (sized o (r.push c))

/-- Read one character.  It leads nowhere if it takes a level where none is open. -/
def read? (o : Options) (r : Registers) (c : Char) : Option (Registers × Outcome) :=
  match r.phase with
  | .before =>
    if isBlank c then some (r, .quiet)
    else if c = '[' then some ({ r with phase := .inside, depth := 1 }, .quiet)
    else some (r, .refused .stray)
  | .inside => if r.inString then some (sized o (r.readQuoted o c)) else r.readPlain? o c
  | .after => if isBlank c then some (r, .quiet) else some (r, .refused .stray)

/-- Read a text up to the first refused character. -/
def readText? (o : Options) (r : Registers) : List Char → Option Registers
  | [] => some r
  | c :: rest =>
    (r.read? o c).bind fun
      | (next, .refused _) => some next
      | (next, .quiet) | (next, .completed _) => next.readText? o rest

/-- Read fragments one after another, whatever becomes of each. -/
def readEach? (o : Options) (r : Registers) (fragments : List String) : Option Registers :=
  fragments.foldlM (fun r fragment => r.readText? o fragment.toList) r

/-- Registers that go together: inside the array its own level is open, outside it there is neither a
    level nor a string nor an object, and a backslash takes a character inside strings only, and only if
    escapes are honored. -/
structure IsSound (o : Options) (r : Registers) : Prop where
  pos_of_inside : r.phase = .inside → 1 ≤ r.depth
  eq_of_outside : r.phase ≠ .inside → r.depth = 0 ∧ r.inString = false ∧ r.object = ""
  inString_of_isEscaped : r.isEscaped = true → r.inString = true
  honors_of_isEscaped : r.isEscaped = true → o.honorEscapes = true

end Registers

/-- How far the array has been read at this place. -/
def Place.phase : Place → Phase
  | before => .before
  | inside .. => .inside
  | after => .after

/-- A place laid out in registers. -/
def Place.registers (place : Place) : Registers where
  phase := place.phase
  depth := place.depth
  inString := place.inString
  isEscaped := place.isEscaped
  object := place.object

/-! ## Sound places -/

/-- Inside the array its own level is open, and a backslash takes a character only if escapes are
    honored. -/
def Place.IsSound (o : Options) : Place → Prop
  | inside depth mode _ => 1 ≤ depth ∧ (mode = .escaped → o.honorEscapes = true)
  | before | after => True

variable {o : Options} {place : Place}

theorem Place.IsSound.registers (h : place.IsSound o) : place.registers.IsSound o := by
  cases place with
  | before => exact ⟨nofun, fun _ => ⟨rfl, rfl, rfl⟩, nofun, nofun⟩
  | after => exact ⟨nofun, fun _ => ⟨rfl, rfl, rfl⟩, nofun, nofun⟩
  | inside depth mode object =>
    obtain ⟨hdepth, hmode⟩ := h
    refine ⟨fun _ => hdepth, fun houtside => absurd rfl houtside, ?_, ?_⟩
    · intro hescaped
      rw [show mode = .escaped from eq_of_beq hescaped]
      rfl
    · exact fun hescaped => hmode (eq_of_beq hescaped)

/-- Outside strings a character keeps a level open, or closes the array. -/
theorem isSound_stepPlain {depth : Nat} (hdepth : 1 ≤ depth) (object : String) (c : Char) :
    (o.stepPlain depth object c).1.IsSound o := by
  simp only [Options.stepPlain]
  repeat' split
  all_goals simp only [Options.reach, Place.IsSound, and_true, reduceCtorEq, false_implies]
  all_goals omega

/-- **Every character keeps a place sound**, also one that is refused. -/
theorem Place.IsSound.step (h : place.IsSound o) (c : Char) : (step o place c).1.IsSound o := by
  cases place with
  | before =>
    simp only [Splitter.step]
    repeat' split
    · trivial
    · exact ⟨Nat.le_refl 1, fun hmode => absurd hmode (by decide)⟩
    · trivial
  | after =>
    simp only [Splitter.step]
    split <;> trivial
  | inside depth mode object =>
    cases mode with
    | plain => exact isSound_stepPlain h.1 object c
    | escaped => exact ⟨h.1, fun hmode => absurd hmode (by decide)⟩
    | quoted =>
      refine ⟨h.1, fun hmode => ?_⟩
      -- only a backslash that is honored leads there
      rw [Options.modeAfterQuoted] at hmode
      split at hmode
      · next hback => exact (Bool.and_eq_true_iff.1 hback).2
      · split at hmode <;> cases hmode

theorem Place.IsSound.run (h : place.IsSound o) (text : List Char) :
    (run o place text).place.IsSound o := by
  induction text generalizing place with
  | nil => exact h
  | cons c text ih =>
    have hnext := h.step c
    rw [Splitter.run]
    rcases hs : Splitter.step o place c with ⟨next, outcome⟩
    rw [hs] at hnext
    cases outcome with
    | quiet => exact ih hnext
    | completed object => exact ih hnext
    | refused refusal => exact hnext

/-! ## Reading on registers -/

theorem Registers.sized_of_empty {r : Registers} (h : r.object = "") : r.sized o = (r, .quiet) := by
  rw [Registers.sized, h]
  cases o.sizeLimit <;> rfl

/-- Inside a string the flags of the registers follow the mode. -/
theorem readQuoted_registers (depth : Nat) (object : String) (c : Char) :
    (Place.inside depth .quoted object).registers.readQuoted o c =
      (Place.inside depth (o.modeAfterQuoted c) (object.push c)).registers := by
  have hescaped : (Place.inside depth .quoted object).registers.isEscaped = false := rfl
  rw [Registers.readQuoted, hescaped, Options.modeAfterQuoted]
  by_cases hback : (c = '\\' && o.honorEscapes) = true
  · rw [if_pos hback, if_pos hback]
    rfl
  rw [if_neg hback, if_neg hback]
  by_cases hquote : c = '"'
  · rw [if_pos hquote, if_pos hquote]
    rfl
  · rw [if_neg hquote, if_neg hquote]
    rfl

/-- A closing bracket takes the level of the array, or one inside it. -/
theorem readPlain?_closingBracket (n : Nat) (object : String) :
    (Place.inside (n + 1) .plain object).registers.readPlain? o ']' =
      some ((o.stepPlain (n + 1) object ']').1.registers,
        (o.stepPlain (n + 1) object ']').2) := by
  cases n with
  | zero => exact congrArg some (Registers.sized_of_empty rfl)
  | succ n =>
    -- a place looks at the depth that the bracket meets, the registers at the one that it leaves
    have hkept : (o.keepBrackets && decide (3 ≤ n + 2)) = (o.keepBrackets && decide (2 ≤ n + 1)) :=
      congrArg _ (decide_eq_decide.2 (by omega))
    have hstep : o.stepPlain (n + 2) object ']' = o.reach (n + 1) .plain
        (if o.keepBrackets && decide (2 ≤ n + 1) then object.push ']' else object) := by
      rw [← hkept]
      rfl
    rw [hstep]
    change some (Registers.sized o
      (if (o.keepBrackets && decide (2 ≤ n + 1)) = true then _ else _)) = _
    cases o.keepBrackets && decide (2 ≤ n + 1) with
    | false => rfl
    | true => rfl

/-- Outside strings the registers of a place with a level open lead where the place leads. -/
theorem readPlain?_registers {depth : Nat} (hdepth : 1 ≤ depth) (object : String) (c : Char) :
    (Place.inside depth .plain object).registers.readPlain? o c =
      some ((o.stepPlain depth object c).1.registers, (o.stepPlain depth object c).2) := by
  obtain ⟨n, rfl⟩ : ∃ n, depth = n + 1 := ⟨depth - 1, by omega⟩
  by_cases hend : c = ']'
  · subst hend
    exact readPlain?_closingBracket n object
  rw [Registers.readPlain?, Options.stepPlain]
  by_cases hbegin : c = '{'
  · rw [if_pos hbegin, if_pos hbegin]
    cases n with
    | zero => rfl
    | succ n => rfl
  rw [if_neg hbegin, if_neg hbegin]
  by_cases hquote : c = '"'
  · rw [if_pos hquote, if_pos hquote]
    rfl
  rw [if_neg hquote, if_neg hquote]
  by_cases hclose : c = '}'
  · rw [if_pos hclose, if_pos hclose]
    -- it meets the array itself, an element of it, or a level inside an element
    rcases n with _ | _ | n
    · rfl
    · rfl
    · rfl
  rw [if_neg hclose, if_neg hclose]
  by_cases hopen : c = '['
  · rw [if_pos hopen, if_pos hopen,
      show (Place.inside (n + 1) .plain object).registers.depth = n + 1 from rfl]
    cases o.keepBrackets && decide (2 ≤ n + 1) with
    | false => rfl
    | true => rfl
  rw [if_neg hopen, if_neg hopen, if_neg hend, if_neg hend]
  by_cases hblank : isBlank c = true
  · rw [if_pos hblank, if_pos hblank]
    rfl
  · rw [if_neg hblank, if_neg hblank]
    rfl

/-- **In the registers of a sound place a character does what it does at the place.**  So it takes no
    level where none is open. -/
theorem read?_registers (h : place.IsSound o) (c : Char) :
    place.registers.read? o c = some ((step o place c).1.registers, (step o place c).2) := by
  cases place with
  | before =>
    rw [step]
    change (if isBlank c = true then _ else if c = '[' then _ else _) = _
    by_cases hblank : isBlank c = true
    · rw [if_pos hblank, if_pos hblank]
    rw [if_neg hblank, if_neg hblank]
    by_cases hbracket : c = '['
    · rw [if_pos hbracket, if_pos hbracket]
      rfl
    · rw [if_neg hbracket, if_neg hbracket]
  | after =>
    rw [step]
    change (if isBlank c = true then _ else _) = _
    by_cases hblank : isBlank c = true
    · rw [if_pos hblank, if_pos hblank]
    · rw [if_neg hblank, if_neg hblank]
  | inside depth mode object =>
    cases mode with
    | plain => exact readPlain?_registers h.1 object c
    | quoted =>
      exact congrArg (fun r => some (Registers.sized o r)) (readQuoted_registers depth object c)
    | escaped => rfl

theorem readText?_registers (h : place.IsSound o) (text : List Char) :
    place.registers.readText? o text = some (run o place text).place.registers := by
  induction text generalizing place with
  | nil => rfl
  | cons c text ih =>
    have hnext := h.step c
    rw [Registers.readText?, read?_registers h, run, Option.bind_some]
    rcases hs : step o place c with ⟨next, outcome⟩
    rw [hs] at hnext
    cases outcome with
    | quiet => exact ih hnext
    | completed object => exact ih hnext
    | refused refusal => rfl

/-! ## Levels and characters -/

theorem depth_step_le_succ (o : Options) (place : Place) (c : Char) :
    (step o place c).1.depth ≤ place.depth + 1 := by
  cases place with
  | before =>
    simp only [step]
    repeat' split
    · exact Nat.zero_le _
    · exact Nat.le_refl 1
    · exact Nat.zero_le _
  | after =>
    simp only [step]
    split <;> exact Nat.zero_le _
  | inside depth mode object =>
    by_cases hopening : mode = .plain ∧ IsOpening c
    · obtain ⟨rfl, rfl | rfl⟩ := hopening
      · exact Nat.le_refl (depth + 1)
      · exact Nat.le_refl (depth + 1)
    · exact (depth_step_le hopening).trans (Nat.le_succ depth)

theorem depth_run_add_unread_le (o : Options) (place : Place) (text : List Char) :
    (run o place text).place.depth + (run o place text).unread.length ≤
      place.depth + text.length := by
  induction text generalizing place with
  | nil => exact Nat.le_refl _
  | cons c text ih =>
    have hstep := depth_step_le_succ o place c
    rw [run, List.length_cons]
    rcases hs : step o place c with ⟨next, outcome⟩
    rw [hs] at hstep
    change next.depth ≤ place.depth + 1 at hstep
    have hrest := ih next
    cases outcome with
    | quiet => simp only; omega
    | completed object => simp only; omega
    | refused refusal => simp only; omega

/-! ## Stray characters and sizes -/

theorem reach_ne_stray (depth : Nat) (mode : Mode) (object : String) :
    (o.reach depth mode object).2 ≠ .refused .stray := by
  intro h
  rw [Options.reach] at h
  split at h
  · split at h <;> cases h
  · cases h

/-- Inside the array only a brace that has nothing to close is stray. -/
theorem eq_of_stray {depth : Nat} {object : String} {c : Char}
    (h : (o.stepPlain depth object c).2 = .refused .stray) : c = '}' ∧ depth < 2 := by
  simp only [Options.stepPlain] at h
  repeat' split at h
  all_goals first
    | exact absurd h (reach_ne_stray _ _ _)
    | exact ⟨‹_›, ‹_›⟩
    | cases h

theorem place_of_stray {c : Char} (h : (step o place c).2 = .refused .stray) :
    (step o place c).1 = place := by
  cases place with
  | before =>
    simp only [step] at h ⊢
    split
    · rfl
    · next hblank =>
      rw [if_neg hblank] at h
      split
      · next hbracket =>
        rw [if_pos hbracket] at h
        cases h
      · rfl
  | after =>
    simp only [step]
    split <;> rfl
  | inside depth mode object =>
    cases mode with
    | quoted => exact absurd h (reach_ne_stray _ _ _)
    | escaped => exact absurd h (reach_ne_stray _ _ _)
    | plain =>
      obtain ⟨rfl, hdepth⟩ := eq_of_stray h
      exact congrArg Prod.fst (if_pos hdepth)

theorem object_run_le {limit : Nat} (hlimit : o.sizeLimit = some limit)
    (hstart : place.object.utf8ByteSize ≤ limit) {text : List Char}
    (hsmall : ∀ n, (run o place text).refusal ≠ some (.tooLarge n)) :
    (run o place text).place.object.utf8ByteSize ≤ limit := by
  cases hrefusal : (run o place text).refusal with
  | none => exact object_le_of_run hlimit hstart hrefusal
  | some refusal =>
    obtain ⟨read, c, -, hread, hstep⟩ := run_eq_of_refused hrefusal
    cases refusal with
    | tooLarge n => exact absurd hrefusal (hsmall n)
    | stray =>
      have hplace := place_of_stray (congrArg Prod.snd hstep)
      rw [hstep] at hplace
      rw [show (run o place text).place = (run o place read).place from hplace]
      exact object_le_of_run hlimit hstart hread

/-! ## Fragments -/

/-- The splitter after fragments, whatever became of each. -/
def afterAll (s : Splitter) (fragments : List String) : Splitter :=
  fragments.foldl (fun s fragment => (s.feed fragment).splitter) s

@[simp] theorem afterAll_cons (s : Splitter) (fragment : String) (fragments : List String) :
    s.afterAll (fragment :: fragments) = (s.feed fragment).splitter.afterAll fragments :=
  rfl

variable {s : Splitter}

theorem isSound_afterAll (h : s.place.IsSound s.options) (fragments : List String) :
    (s.afterAll fragments).place.IsSound s.options := by
  induction fragments generalizing s with
  | nil => exact h
  | cons fragment fragments ih => exact ih (s := (s.feed fragment).splitter) (h.run fragment.toList)

theorem truncation?_ne_zero (h : s.place.IsSound o) : s.truncation? ≠ some (.truncated 0) := by
  rcases s with ⟨options, place⟩
  cases place with
  | before => exact nofun
  | after => exact nofun
  | inside depth mode object =>
    intro htruncated
    obtain rfl : depth = 0 := Failure.truncated.inj (Option.some.inj htruncated)
    exact absurd h.1 (by decide)

theorem readEach?_registers (h : s.place.IsSound s.options) (fragments : List String) :
    s.place.registers.readEach? s.options fragments =
      some (s.afterAll fragments).place.registers := by
  induction fragments generalizing s with
  | nil => rfl
  | cons fragment fragments ih =>
    have hnext := h.run fragment.toList
    rw [Registers.readEach?, List.foldlM_cons, readText?_registers h]
    exact ih (s := (s.feed fragment).splitter) hnext

theorem depth_afterAll_add_unread_le (s : Splitter) (fragments : List String) :
    (s.afterAll fragments).place.depth + ((s.feedAll fragments).flatMap Fed.unread).length ≤
      s.place.depth + (fragments.flatMap String.toList).length := by
  induction fragments generalizing s with
  | nil => exact Nat.le_refl _
  | cons fragment fragments ih =>
    have hone : (s.feed fragment).splitter.place.depth + (s.feed fragment).unread.length ≤
        s.place.depth + fragment.toList.length :=
      depth_run_add_unread_le s.options s.place fragment.toList
    have hrest := ih (s.feed fragment).splitter
    rw [afterAll_cons, feedAll, List.flatMap_cons, List.flatMap_cons, List.length_append,
      List.length_append]
    omega

theorem object_afterAll_le {limit : Nat} (hlimit : s.options.sizeLimit = some limit)
    (hstart : s.place.object.utf8ByteSize ≤ limit) {fragments : List String}
    (hsmall : ∀ fed ∈ s.feedAll fragments, ∀ n, fed.failure ≠ some (.tooLarge n)) :
    (s.afterAll fragments).place.object.utf8ByteSize ≤ limit := by
  induction fragments generalizing s with
  | nil => exact hstart
  | cons fragment fragments ih =>
    have hone : ∀ n, (run s.options s.place fragment.toList).refusal ≠ some (.tooLarge n) := by
      intro n hrefusal
      refine hsmall (s.feed fragment) List.mem_cons_self n ?_
      rw [feed, hrefusal]
      rfl
    refine ih (s := (s.feed fragment).splitter) hlimit (object_run_le hlimit hstart hone) ?_
    exact fun fed hfed => hsmall fed (List.mem_cons_of_mem _ hfed)

/-- **The state of a splitter stays sound, whatever it is fed and whatever became of that.**  After any
    fragments, refused ones among them, its registers are sound, and they are what reading on registers
    leads to, so no level was taken where none was open.  A fragment may end anywhere, so this is so
    after every character.  No more levels are open than characters were read, which are those of the
    fragments less the unread, and an input that ends here is not reported as unfinished with no level
    open.  Unless the limit was reported, what is read of the object is within it. -/
theorem registers_stay_sound (o : Options) (fragments : List String) :
    let start : Splitter := { options := o }
    let last := start.afterAll fragments
    let feds := start.feedAll fragments
    last.place.registers.IsSound o ∧
      ({} : Registers).readEach? o fragments = some last.place.registers ∧
      last.place.depth + (feds.flatMap Fed.unread).length ≤ (String.join fragments).length ∧
      last.truncation? ≠ some (.truncated 0) ∧
      ∀ limit, o.sizeLimit = some limit →
        (∀ fed ∈ feds, ∀ n, fed.failure ≠ some (.tooLarge n)) →
        last.place.object.utf8ByteSize ≤ limit := by
  intro start last feds
  have hstart : start.place.IsSound start.options := trivial
  have hlast : last.place.IsSound o := isSound_afterAll hstart fragments
  refine ⟨hlast.registers, readEach?_registers hstart fragments, ?_, ?_, ?_⟩
  · have hdepth := depth_afterAll_add_unread_le start fragments
    rwa [← String.toList_join, String.length_toList, show start.place.depth = 0 from rfl,
      Nat.zero_add] at hdepth
  · exact truncation?_ne_zero hlast
  · exact fun limit hlimit hsmall => object_afterAll_le hlimit (Nat.zero_le limit) hsmall

/-- Behind two refused fragments a bracket and a string with an escaped quote are read, and the object
    fills the limit. -/
theorem registers_stay_sound_fedOn :
    let start : Splitter := { options := { sizeLimit := some 6 } }
    let fragments := ["x", "[\x7d", "[\x7b\"\\", "\"\"\x7d"]
    let last := start.afterAll fragments
    (start.feedAll fragments).map Fed.failure =
        [some (.malformed "x"), some (.malformed "[\x7d"), none, none] ∧
      last.place.registers =
        { phase := .inside, depth := 2, object := "\x7b\"\\\"\"\x7d" } ∧
      last.place.registers.IsSound start.options ∧
      last.place.object.utf8ByteSize ≤ 6 := by
  intro start fragments last
  have hfailures : (start.feedAll fragments).map Fed.failure =
      [some (.malformed "x"), some (.malformed "[\x7d"), none, none] := by decide
  have hsmall : ∀ fed ∈ start.feedAll fragments, ∀ n, fed.failure ≠ some (.tooLarge n) := by
    intro fed hfed n hlarge
    have hmem := List.mem_map_of_mem (f := Fed.failure) hfed
    rw [hfailures, hlarge] at hmem
    simp at hmem
  obtain ⟨hsound, -, -, -, hsize⟩ := registers_stay_sound { sizeLimit := some 6 } fragments
  exact ⟨hfailures, by decide, hsound, hsize 6 rfl hsmall⟩

end ObjectFeed.Splitter
