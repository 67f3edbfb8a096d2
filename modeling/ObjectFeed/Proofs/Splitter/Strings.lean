/-
  Where a splitter finds the strings of an array.

  * `HasString` is the grammar: a text has a string between two parts of it if the first is characters
    other than quotes and whole strings, and the string is a quote, a body and a quote, or the text
    ends before the last;
  * `IsStretch` is a stretch of a text throughout which a splitter is inside a string.
    `IsStretch.hasString` and `HasString.isStretch`: these are the strings of the grammar;
  * `afterText_eq_escaped_iff`: a string waits for an escaped character if and only if the backslashes
    at its end are odd in number;
  * `StringsOf` says all that a splitter makes of the strings of a text, and `strings_recognized`: it
    makes that of every text, up to the first refused character or the end of the array.
-/
import Mathlib.Algebra.Ring.Parity
import ObjectFeed.Proofs.Splitter.Toggling

namespace ObjectFeed.Splitter

open Text (isBlank)
open Json

/-! ## String literals -/

/-- What stands between the quotes of a string: any characters but quotes.  With escapes honored, any
    characters but quotes and backslashes, and pairs of a backslash and any character. -/
inductive IsLiteralBody (honor : Bool) : List Char → Prop
  | nil : IsLiteralBody honor []
  | char {body c} : IsLiteralBody honor body → c ≠ '"' → (honor = true → c ≠ '\\') →
      IsLiteralBody honor (body ++ [c])
  | pair {body e} : honor = true → IsLiteralBody honor body →
      IsLiteralBody honor (body ++ ['\\', e])

/-- What stands behind the quote of a string that is not closed yet, and the mode that it ends in: its
    last backslash may wait for the character that it takes. -/
inductive IsBegun (honor : Bool) : Mode → List Char → Prop
  | quoted {body} : IsLiteralBody honor body → IsBegun honor .quoted body
  | escaped {body} : honor = true → IsLiteralBody honor body →
      IsBegun honor .escaped (body ++ ['\\'])

/-- Characters other than quotes, and whole strings. -/
inductive IsWhole (honor : Bool) : List Char → Prop
  | nil : IsWhole honor []
  | char {s c} : IsWhole honor s → c ≠ '"' → IsWhole honor (s ++ [c])
  | string {s body} : IsWhole honor s → IsLiteralBody honor body →
      IsWhole honor (s ++ '"' :: (body ++ ['"']))

/-- Read from left to right, a text has this string between these two parts of it.  At its end a string
    may be unfinished. -/
inductive HasString (honor : Bool) (before : List Char) : List Char → List Char → Prop
  | finished {body after} : IsWhole honor before → IsLiteralBody honor body →
      HasString honor before ('"' :: (body ++ ['"'])) after
  | unfinished {mode body} : IsWhole honor before → IsBegun honor mode body →
      HasString honor before ('"' :: body) []

section

variable {honor : Bool} {mode : Mode} {body read text : List Char} {c : Char}

theorem afterText_concat (mode : Mode) (s : List Char) (c : Char) :
    mode.afterText honor (s ++ [c]) = (mode.afterText honor s).after honor c := by
  rw [Mode.afterText_append]
  rfl

theorem IsLiteralBody.afterText (h : IsLiteralBody honor body) :
    Mode.quoted.afterText honor body = .quoted := by
  induction h with
  | nil => rfl
  | @char body c _ hquote hback ih =>
    rw [afterText_concat, ih]
    cases honor with
    | true => simp [Mode.after, hquote, hback rfl]
    | false => simp [Mode.after, hquote]
  | @pair body e hhonor _ ih =>
    rw [Mode.afterText_append, ih, hhonor]
    rfl

theorem IsBegun.afterText (h : IsBegun honor mode body) :
    Mode.quoted.afterText honor body = mode := by
  cases h with
  | quoted hbody => exact hbody.afterText
  | escaped hhonor hbody =>
    rw [afterText_concat, hbody.afterText, hhonor]
    rfl

theorem IsBegun.ne_plain (h : IsBegun honor mode body) : mode ≠ .plain := by
  cases h <;> exact nofun

theorem IsBegun.append_char (h : IsBegun honor mode body) (c : Char) :
    IsBegun honor (mode.after honor c) (body ++ [c]) ∨
      mode = .quoted ∧ c = '"' ∧ mode.after honor c = .plain := by
  cases h with
  | quoted hbody =>
    by_cases hquote : c = '"'
    · subst hquote
      exact .inr ⟨rfl, rfl, rfl⟩
    refine .inl ?_
    by_cases hback : c = '\\' ∧ honor = true
    · obtain ⟨rfl, rfl⟩ := hback
      exact .escaped rfl hbody
    · have hmode : Mode.quoted.after honor c = .quoted := by
        simp [Mode.after, hquote, hback]
      rw [hmode]
      exact .quoted (.char hbody hquote fun hhonor hc => hback ⟨hc, hhonor⟩)
  | @escaped body hhonor hbody =>
    refine .inl ?_
    rw [List.append_assoc]
    exact .quoted (.pair hhonor hbody)

theorem isBegun_of_ne_plain
    (h : ∀ read, read <+: body → Mode.quoted.afterText honor read ≠ .plain) :
    IsBegun honor (Mode.quoted.afterText honor body) body := by
  induction body using List.reverseRecOn with
  | nil => exact .quoted .nil
  | append_singleton body c ih =>
    have hbegun := ih fun read hread => h read (hread.trans (List.prefix_append _ _))
    have hplain := h _ (List.prefix_refl _)
    rw [afterText_concat] at hplain ⊢
    exact (hbegun.append_char c).resolve_right fun hend => hplain hend.2.2

theorem IsLiteralBody.ne_plain (h : IsLiteralBody honor body) (hread : read <+: body) :
    Mode.quoted.afterText honor read ≠ .plain := by
  induction h with
  | nil =>
    rw [List.prefix_nil.1 hread]
    exact nofun
  | char hbody hquote hback ih =>
    rcases List.prefix_concat_iff.1 hread with rfl | hread
    · rw [(IsLiteralBody.char hbody hquote hback).afterText]
      exact nofun
    · exact ih hread
  | @pair body e hhonor hbody ih =>
    rw [show body ++ ['\\', e] = body ++ ['\\'] ++ [e] by simp] at hread
    rcases List.prefix_concat_iff.1 hread with rfl | hread
    · rw [List.append_assoc, List.singleton_append, (IsLiteralBody.pair hhonor hbody).afterText]
      exact nofun
    · rcases List.prefix_concat_iff.1 hread with rfl | hread
      · rw [(IsBegun.escaped hhonor hbody).afterText]
        exact nofun
      · exact ih hread

theorem IsBegun.ne_plain_of_prefix (h : IsBegun honor mode body) (hread : read <+: body) :
    Mode.quoted.afterText honor read ≠ .plain := by
  cases h with
  | quoted hbody => exact hbody.ne_plain hread
  | escaped hhonor hbody =>
    rcases List.prefix_concat_iff.1 hread with rfl | hread
    · rw [(IsBegun.escaped hhonor hbody).afterText]
      exact nofun
    · exact hbody.ne_plain hread

theorem IsWhole.afterText (h : IsWhole honor text) : Mode.plain.afterText honor text = .plain := by
  induction h with
  | nil => rfl
  | char _ hc ih => rw [afterText_concat, ih, Mode.after_plain_of_ne hc]
  | string _ hbody ih =>
    have hopen : Mode.plain.after honor '"' = .quoted := rfl
    rw [Mode.afterText_append, ih, Mode.afterText_cons, hopen, afterText_concat, hbody.afterText]
    simp [Mode.after]

/-- **A text is whole, or ends inside a string** that has begun behind what is whole. -/
theorem isWhole_or_isBegun (honor : Bool) (text : List Char) :
    IsWhole honor text ∨ ∃ s body, text = s ++ '"' :: body ∧ IsWhole honor s ∧
      IsBegun honor (Mode.plain.afterText honor text) body := by
  induction text using List.reverseRecOn with
  | nil => exact .inl .nil
  | append_singleton text c ih =>
    rw [afterText_concat]
    rcases ih with hwhole | ⟨s, body, rfl, hwhole, hbegun⟩
    · rw [hwhole.afterText]
      by_cases hquote : c = '"'
      · subst hquote
        exact .inr ⟨text, [], rfl, hwhole, .quoted .nil⟩
      · exact .inl (.char hwhole hquote)
    · rw [List.append_assoc, List.cons_append]
      rcases hbegun.append_char c with hbegun' | ⟨hmode, rfl, -⟩
      · exact .inr ⟨s, body ++ [c], rfl, hwhole, hbegun'⟩
      · rw [hmode] at hbegun
        cases hbegun with
        | quoted hbody => exact .inl (.string hwhole hbody)

theorem isWhole_iff : IsWhole honor text ↔ Mode.plain.afterText honor text = .plain := by
  refine ⟨IsWhole.afterText, fun hplain => ?_⟩
  rcases isWhole_or_isBegun honor text with hwhole | ⟨s, body, -, -, hbegun⟩
  · exact hwhole
  · exact absurd hplain hbegun.ne_plain

/-! ### Stretches -/

/-- Between these two parts of a text is a stretch of it throughout which this holds: it does not hold
    before, and it holds from the first character of the stretch to its last, or to the end of the text. -/
structure IsStretch (inString : List Char → Prop) (before stretch after : List Char) : Prop where
  outside : ¬ inString before
  entered : ∃ c rest, stretch = c :: rest ∧ inString (before ++ [c])
  stays : ∀ read, read <+: stretch → read ≠ [] → read ≠ stretch → inString (before ++ read)
  ends : inString (before ++ stretch) → after = []

theorem IsStretch.congr {inString inString' : List Char → Prop} {before stretch after : List Char}
    (hs : IsStretch inString before stretch after)
    (h : ∀ read, read <+: before ++ stretch → (inString read ↔ inString' read)) :
    IsStretch inString' before stretch after where
  outside := fun hbefore => hs.outside ((h _ (List.prefix_append _ _)).2 hbefore)
  entered := by
    obtain ⟨c, rest, rfl, hentered⟩ := hs.entered
    refine ⟨c, rest, rfl, (h _ ?_).1 hentered⟩
    rw [List.prefix_append_right_inj]
    exact List.prefix_append [c] rest
  stays := fun read hread hne hne' =>
    (h _ ((List.prefix_append_right_inj _).2 hread)).1 (hs.stays read hread hne hne')
  ends := fun hstretch => hs.ends ((h _ (List.prefix_refl _)).2 hstretch)

section

variable {before stretch after rest : List Char}

theorem afterText_behind (hplain : Mode.plain.afterText honor before = .plain) (read : List Char) :
    Mode.plain.afterText honor (before ++ '"' :: read) = Mode.quoted.afterText honor read := by
  rw [Mode.afterText_append, hplain]
  rfl

/-- A stretch inside strings is a string that has begun and goes on to the end of the text, or ends with
    its quote. -/
theorem IsStretch.hasString
    (h : IsStretch (fun read => Mode.plain.afterText honor read ≠ .plain) before stretch after) :
    HasString honor before stretch after := by
  obtain ⟨houtside, ⟨c, rest, rfl, hentered⟩, hstays, hends⟩ := h
  have hplain : Mode.plain.afterText honor before = .plain := Classical.not_not.1 houtside
  have hwhole : IsWhole honor before := isWhole_iff.2 hplain
  obtain rfl : c = '"' := by
    by_contra hquote
    rw [afterText_concat, hplain, Mode.after_plain_of_ne hquote] at hentered
    exact hentered rfl
  have hinside : ∀ read, read <+: rest → read ≠ rest →
      Mode.quoted.afterText honor read ≠ .plain := by
    intro read hread hne
    rw [← afterText_behind hplain]
    exact hstays _ ((List.prefix_cons_inj _).2 hread) (List.cons_ne_nil _ _)
      fun heq => hne (List.cons.inj heq).2
  by_cases hopen : Mode.quoted.afterText honor rest = .plain
  · -- the last character ends the string that the others have begun
    rcases List.eq_nil_or_concat' rest with rfl | ⟨body, d, rfl⟩
    · cases hopen
    have hbegun : IsBegun honor (Mode.quoted.afterText honor body) body := by
      refine isBegun_of_ne_plain fun read hread => hinside read ?_ ?_
      · exact hread.trans (List.prefix_append _ _)
      · rintro rfl
        have hle := hread.length_le
        rw [List.length_append, List.length_singleton] at hle
        exact Nat.not_succ_le_self _ hle
    rw [afterText_concat] at hopen
    rcases hbegun.append_char d with hbegun' | ⟨hmode, rfl, -⟩
    · exact absurd hopen hbegun'.ne_plain
    · rw [hmode] at hbegun
      cases hbegun with
      | quoted hbody => exact .finished hwhole hbody
  · have hafter : after = [] := by
      refine hends ?_
      rwa [afterText_behind hplain]
    subst hafter
    refine .unfinished hwhole (isBegun_of_ne_plain fun read hread => ?_)
    by_cases heq : read = rest
    · rwa [heq]
    · exact hinside read hread heq

theorem HasString.isStretch (h : HasString honor before stretch after) :
    IsStretch (fun read => Mode.plain.afterText honor read ≠ .plain) before stretch after := by
  -- what follows the quote that opens the string, up to its last character, does not end it
  have hstretch : ∀ {rest : List Char}, IsWhole honor before →
      (∀ read, read <+: rest → read ≠ rest → Mode.quoted.afterText honor read ≠ .plain) →
      (Mode.quoted.afterText honor rest ≠ .plain → after = []) →
      IsStretch (fun read => Mode.plain.afterText honor read ≠ .plain) before ('"' :: rest) after := by
    intro rest hwhole hinside hends
    have hplain := hwhole.afterText
    refine ⟨fun h => h hplain, ⟨'"', rest, rfl, ?_⟩, ?_, ?_⟩
    · rw [afterText_behind hplain]
      exact nofun
    · intro read hread hne hne'
      obtain ⟨c, read, rfl⟩ := List.exists_cons_of_ne_nil hne
      obtain ⟨rfl, hread'⟩ := List.cons_prefix_cons.1 hread
      rw [afterText_behind hplain]
      exact hinside read hread' fun heq => hne' (congrArg _ heq)
    · rw [afterText_behind hplain]
      exact hends
  cases h with
  | finished hwhole hbody =>
    refine hstretch hwhole (fun read hread hne => ?_) (fun hopen => absurd ?_ hopen)
    · exact hbody.ne_plain ((List.prefix_concat_iff.1 hread).resolve_left hne)
    · rw [afterText_concat, hbody.afterText]
      simp [Mode.after]
  | unfinished hwhole hbegun =>
    exact hstretch hwhole (fun read hread _ => hbegun.ne_plain_of_prefix hread) fun _ => rfl

end

/-! ### Backslashes -/

/-- The number of backslashes that stand at the end of a text. -/
def backslashes (text : List Char) : Nat :=
  (text.reverse.takeWhile (· = '\\')).length

theorem backslashes_concat (text : List Char) (c : Char) :
    backslashes (text ++ [c]) = if c = '\\' then backslashes text + 1 else 0 := by
  rw [backslashes, List.reverse_append, List.reverse_singleton, List.singleton_append,
    List.takeWhile_cons]
  by_cases hback : c = '\\'
  · simp [hback, backslashes]
  · simp [hback]

/-- With escapes honored, a string that has begun waits for an escaped character if and only if the
    backslashes at its end are odd in number. -/
theorem afterText_eq_escaped_iff
    (h : ∀ read, read <+: body → Mode.quoted.afterText true read ≠ .plain) :
    Mode.quoted.afterText true body = .escaped ↔ Odd (backslashes body) := by
  induction body using List.reverseRecOn with
  | nil => simp [backslashes]
  | append_singleton body c ih =>
    have hbody := h body (List.prefix_append _ _)
    have hplain := h _ (List.prefix_refl _)
    have hiff := ih fun read hread => h read (hread.trans (List.prefix_append _ _))
    rw [afterText_concat] at hplain ⊢
    rw [backslashes_concat]
    cases hmode : Mode.quoted.afterText true body with
    | plain => exact absurd hmode hbody
    | quoted =>
      rw [hmode] at hiff hplain
      have heven : ¬ Odd (backslashes body) := fun hodd => nomatch hiff.2 hodd
      by_cases hback : c = '\\'
      · simp [Mode.after, hback, Nat.odd_add_one, heven]
      · by_cases hquote : c = '"'
        · simp [Mode.after, hquote] at hplain
        · simp [Mode.after, hback, hquote]
    | escaped =>
      rw [hmode] at hiff
      have hodd : Odd (backslashes body) := hiff.1 rfl
      by_cases hback : c = '\\'
      · simp [Mode.after, hback, Nat.odd_add_one, hodd]
      · simp [Mode.after, hback]

end

/-! ## Strings of an array -/

/-- What comes of a text, fed at once, where objects have no limit. -/
def readText (honor keep : Bool) (text : List Char) : Fed :=
  ({ options := { honorEscapes := honor, keepBrackets := keep } } : Splitter).feed
    (String.ofList text)

/-- Whether a text ends inside a string. -/
def endsInString (honor keep : Bool) (text : List Char) : Bool :=
  (readText honor keep text).splitter.place.inString

/-- What a splitter makes of the strings of a text. -/
structure StringsOf (honor keep : Bool) (start text : List Char) : Prop where
  /-- Cuts make no difference, up to anywhere in the text. -/
  cuts : ∀ fragments read, read <+: text → (String.join fragments).toList = start ++ read →
    let fed := ({ options := { honorEscapes := honor, keepBrackets := keep } } :
      Splitter).feedEach fragments
    fed.failure = none ∧ fed.splitter = (readText honor keep (start ++ read)).splitter ∧
      fed.objects = (readText honor keep (start ++ read)).objects
  /-- The stretches inside strings are the strings of the text, read from left to right. -/
  strings : ∀ before stretch after, before ++ stretch ++ after = text →
    (IsStretch (fun read => endsInString honor keep (start ++ read) = true) before stretch after ↔
      HasString honor before stretch after)
  /-- Outside strings a quote opens one, and no other character does anything to it. -/
  opens : ∀ read c, read ++ [c] <+: text → endsInString honor keep (start ++ read) = false →
    (endsInString honor keep (start ++ (read ++ [c])) = true ↔ c = '"')
  /-- Where escapes are honored, a quote ends a string unless the backslashes before it, behind the
      quote that opened the string, are odd in number. -/
  closes : honor = true → ∀ before body, before ++ '"' :: (body ++ ['"']) <+: text →
    endsInString honor keep (start ++ before) = false →
    (∀ read, read <+: body → endsInString honor keep (start ++ (before ++ '"' :: read)) = true) →
    (endsInString honor keep (start ++ (before ++ '"' :: (body ++ ['"']))) = false ↔
      Even (backslashes body))
  /-- Where escapes are not honored, a quote toggles. -/
  toggles : honor = false → ∀ read c, read ++ [c] <+: text →
    endsInString honor keep (start ++ (read ++ [c])) =
      (endsInString honor keep (start ++ read) ^^ c == '"')
  /-- The characters of a string, its quotes among them, are taken into the object verbatim and do
      nothing else. -/
  verbatim : ∀ read c, read ++ [c] <+: text →
    endsInString honor keep (start ++ read) = true ∨
      endsInString honor keep (start ++ (read ++ [c])) = true →
    let fed := readText honor keep (start ++ read)
    let more := readText honor keep (start ++ (read ++ [c]))
    more.splitter.place.depth = fed.splitter.place.depth ∧ more.objects = fed.objects ∧
      more.splitter.place.object = fed.splitter.place.object.push c

section

variable {honor keep : Bool} {start text read before body : List Char} {c : Char}

theorem readText_eq (honor keep : Bool) (text : List Char) :
    let r := run { honorEscapes := honor, keepBrackets := keep } .before text
    (readText honor keep text).splitter =
        { options := { honorEscapes := honor, keepBrackets := keep }, place := r.place } ∧
      (readText honor keep text).objects = r.objects ∧
      ((readText honor keep text).failure = none ↔ r.refusal = none) := by
  intro r
  have htoList : (String.ofList text).toList = text := String.toList_ofList
  simp only [readText, feed, htoList, Option.map_eq_none_iff, r, and_self]

/-- A text that is read to its end inside the array, behind what opens it. -/
def IsInside (honor keep : Bool) (start text : List Char) : Prop :=
  ∀ read, read <+: text → ∃ depth object objects,
    run { honorEscapes := honor, keepBrackets := keep } .before (start ++ read) =
      { place := .inside depth (Mode.plain.afterText honor read) object, objects }

theorem isInside_of_not_closed {gap : List Char} (hgap : IsGap isBlank gap)
    (hfailure : (readText honor keep (gap ++ ['['] ++ text)).failure = none)
    (hclosed : (readText honor keep (gap ++ ['['] ++ text)).splitter.isClosed = false) :
    IsInside honor keep (gap ++ ['[']) text := by
  rintro read ⟨rest, rfl⟩
  obtain ⟨hsplitter, -, hiff⟩ := readText_eq honor keep (gap ++ ['['] ++ (read ++ rest))
  rw [hsplitter, isClosed] at hclosed
  have hrefusal := hiff.1 hfailure
  have hnotgap (s : List Char) : ¬ IsGap isBlank (gap ++ ['['] ++ s) := fun h =>
    absurd (h '[' (by simp)) (by decide)
  -- the whole text stays open, so what is read of it does, and is not refused either
  have hopen : StaysOpen honor (gap ++ ['['] ++ (read ++ rest)) := by
    have hstands := (stands_of_run (o := { honorEscapes := honor, keepBrackets := keep }) rfl
      (gap ++ ['['] ++ (read ++ rest))).1
    rw [hrefusal] at hstands
    generalize (run _ _ _).place = place at hstands hclosed
    cases hstands with
    | before h => exact absurd h (hnotgap _)
    | inside h => exact h
    | after => cases hclosed
  have hquiet : (run { honorEscapes := honor, keepBrackets := keep } .before
      (gap ++ ['['] ++ read)).refusal = none := by
    by_contra hrefused
    have hprefix : gap ++ ['['] ++ read <+: gap ++ ['['] ++ (read ++ rest) := by
      rw [List.prefix_append_right_inj]
      exact List.prefix_append _ _
    rw [(run_of_refused hprefix hrefused).1] at hrefusal
    exact hrefused hrefusal
  have hstands := (stands_of_run (o := { honorEscapes := honor, keepBrackets := keep }) rfl
    (gap ++ ['['] ++ read)).1
  rw [hquiet] at hstands
  rw [run_eq_of_not_refused hquiet]
  generalize (run _ _ _).objects = objects, (run _ _ _).place = place at hstands ⊢
  cases hstands with
  | before h => exact absurd h (hnotgap _)
  | inside _ hmode _ =>
    rw [Mode.afterText_append, Mode.afterText_append, afterText_gap hgap] at hmode
    rw [← hmode]
    exact ⟨_, _, _, rfl⟩
  | after h =>
    rw [← List.append_assoc] at hopen
    exact absurd hopen h.not_staysOpen_append

section

variable (h : IsInside honor keep start text)
include h

theorem IsInside.endsInString_eq (hread : read <+: text) :
    endsInString honor keep (start ++ read) = (Mode.plain.afterText honor read != .plain) := by
  obtain ⟨depth, object, objects, hrun⟩ := h read hread
  rw [endsInString, (readText_eq honor keep (start ++ read)).1, hrun]
  rfl

theorem IsInside.endsInString_iff (hread : read <+: text) :
    endsInString honor keep (start ++ read) = true ↔
      Mode.plain.afterText honor read ≠ .plain := by
  rw [h.endsInString_eq hread, bne_iff_ne]

theorem IsInside.not_endsInString_iff (hread : read <+: text) :
    endsInString honor keep (start ++ read) = false ↔
      Mode.plain.afterText honor read = .plain := by
  rw [← Bool.not_eq_true, h.endsInString_iff hread, Classical.not_not]

theorem IsInside.verbatim (hread : read ++ [c] <+: text)
    (hstring : Mode.plain.afterText honor read ≠ .plain ∨
      Mode.plain.afterText honor (read ++ [c]) ≠ .plain) :
    ∃ depth mode mode' object objects,
      run { honorEscapes := honor, keepBrackets := keep } .before (start ++ read) =
        { place := .inside depth mode object, objects } ∧
      run { honorEscapes := honor, keepBrackets := keep } .before (start ++ (read ++ [c])) =
        { place := .inside depth mode' (object.push c), objects } := by
  obtain ⟨depth, object, objects, hrun⟩ := h read ((List.prefix_append _ _).trans hread)
  have hmore := run_append_objects hrun [c]
  rw [List.append_assoc, run_char] at hmore
  rw [afterText_concat] at hstring
  have hstep : ∃ mode', step { honorEscapes := honor, keepBrackets := keep }
      (.inside depth (Mode.plain.afterText honor read) object) c =
        (.inside depth mode' (object.push c), .quiet) := by
    cases hmode : Mode.plain.afterText honor read with
    | plain =>
      obtain rfl : c = '"' := by
        by_contra hquote
        rw [hmode, Mode.after_plain_of_ne hquote, or_self] at hstring
        exact hstring rfl
      exact ⟨.quoted, rfl⟩
    | quoted => exact ⟨_, rfl⟩
    | escaped => exact ⟨.quoted, rfl⟩
  obtain ⟨mode', hstep⟩ := hstep
  simp only [hstep, Outcome.objects, Outcome.refusal?, List.append_nil] at hmore
  exact ⟨depth, _, mode', object, objects, hrun, hmore⟩

/-- Where escapes are honored, backslashes decide whether a quote ends a string. -/
theorem IsInside.closes (hhonor : honor = true)
    (hread : before ++ '"' :: (body ++ ['"']) <+: text)
    (hbefore : endsInString honor keep (start ++ before) = false)
    (hbody : ∀ read, read <+: body →
      endsInString honor keep (start ++ (before ++ '"' :: read)) = true) :
    endsInString honor keep (start ++ (before ++ '"' :: (body ++ ['"']))) = false ↔
      Even (backslashes body) := by
  subst hhonor
  have hplain : Mode.plain.afterText true before = .plain :=
    (h.not_endsInString_iff ((List.prefix_append _ _).trans hread)).1 hbefore
  have hinside : ∀ read, read <+: body → Mode.quoted.afterText true read ≠ .plain := by
    intro read hprefix
    have hprior : before ++ '"' :: read <+: text := by
      refine List.IsPrefix.trans ?_ hread
      rw [List.prefix_append_right_inj, List.prefix_cons_inj]
      exact hprefix.trans (List.prefix_append _ _)
    rw [← afterText_behind hplain]
    exact (h.endsInString_iff hprior).1 (hbody read hprefix)
  rw [h.not_endsInString_iff hread, afterText_behind hplain, afterText_concat,
    ← Nat.not_odd_iff_even, ← afterText_eq_escaped_iff hinside]
  cases hmode : Mode.quoted.afterText true body with
  | plain => exact absurd hmode (hinside body (List.prefix_refl _))
  | quoted => simp [Mode.after]
  | escaped => simp [Mode.after]

end

end

/-! ### Escapes that are not honored -/

theorem afterText_false_ne_escaped (text : List Char) :
    Mode.plain.afterText false text ≠ .escaped := by
  induction text using List.reverseRecOn with
  | nil => decide
  | append_singleton text c ih =>
    rw [afterText_concat]
    cases hmode : Mode.plain.afterText false text with
    | escaped => exact absurd hmode ih
    | plain => rw [Mode.after]; split <;> decide
    | quoted =>
      simp only [Mode.after, Bool.and_false, Bool.false_eq_true, if_false]
      split <;> decide

theorem toggles_of_not_honored (text : List Char) (c : Char) :
    (Mode.plain.afterText false (text ++ [c]) != .plain) =
      ((Mode.plain.afterText false text != .plain) ^^ c == '"') := by
  rw [afterText_concat]
  by_cases hquote : c = '"'
  · subst hquote
    cases hmode : Mode.plain.afterText false text with
    | escaped => exact absurd hmode (afterText_false_ne_escaped text)
    | plain => rfl
    | quoted => rfl
  · rw [beq_false_of_ne hquote, Bool.xor_false]
    cases hmode : Mode.plain.afterText false text with
    | escaped => exact absurd hmode (afterText_false_ne_escaped text)
    | plain => rw [Mode.after_plain_of_ne hquote]
    | quoted => simp [Mode.after, hquote]

section

variable {o : Options}

/-- A character is read alike whether escapes are honored or not, unless it is a backslash inside a
    string, and no character is taken by it. -/
theorem step_eq_honoring {place : Place} {c : Char} (hescaped : place.isEscaped = false)
    (hback : place.inString = true → c ≠ '\\') :
    step o place c = step o.honoring place c ∧ (step o place c).1.isEscaped = false := by
  cases place with
  | before =>
    refine ⟨rfl, ?_⟩
    simp only [step]
    split
    · rfl
    · split <;> rfl
  | after =>
    refine ⟨rfl, ?_⟩
    simp only [step]
    split <;> rfl
  | inside depth mode object =>
    cases mode with
    | escaped => cases hescaped
    | quoted =>
      have hmode : o.modeAfterQuoted c = o.honoring.modeAfterQuoted c ∧
          o.modeAfterQuoted c ≠ .escaped := by
        simp only [Options.modeAfterQuoted, hback rfl, decide_false, Bool.false_and,
          Bool.false_eq_true, if_false]
        refine ⟨trivial, ?_⟩
        split <;> decide
      refine ⟨?_, beq_eq_false_iff_ne.2 hmode.2⟩
      rw [step, step, hmode.1]
      rfl
    | plain =>
      refine ⟨rfl, ?_⟩
      simp only [step, Options.stepPlain]
      repeat' split
      all_goals rfl

theorem run_eq_of_honoring {o' : Options} (hsame : o.honoring = o'.honoring) {text : List Char}
    (h : ∀ read, read ++ ['\\'] <+: text → (run o .before read).place.inString = false) :
    run o' .before text = run o .before text ∧ (run o .before text).place.isEscaped = false := by
  induction text using List.reverseRecOn with
  | nil => exact ⟨rfl, rfl⟩
  | append_singleton text c ih =>
    obtain ⟨hrun, hescaped⟩ := ih fun read hread => h read (hread.trans (List.prefix_append _ _))
    rw [run_append, run_append o, hrun]
    cases hrefusal : (run o .before text).refusal with
    | some refusal => exact ⟨rfl, hescaped⟩
    | none =>
      have hback : (run o .before text).place.inString = true → c ≠ '\\' := by
        rintro hin rfl
        exact Bool.false_ne_true ((h text (List.prefix_refl _)).symm.trans hin)
      obtain ⟨hstep, hnext⟩ := @step_eq_honoring o _ _ hescaped hback
      have hstep' := (@step_eq_honoring o' _ _ hescaped hback).1
      rw [run_char, run_char, hstep', ← hsame, ← hstep]
      exact ⟨rfl, hnext⟩

end

/-! ### All texts -/

theorem IsInside.stringsOf {honor keep : Bool} {start text : List Char}
    (h : IsInside honor keep start text) : StringsOf honor keep start text where
  cuts := by
    intro fragments read hread hjoin fed
    obtain ⟨depth, object, objects, hrun⟩ := h read hread
    obtain ⟨hsplitter, hobjects, -⟩ := readText_eq honor keep (start ++ read)
    have hfed : fed = _ := feedEach_of_accepted (by rw [hjoin]; exact hrun)
    rw [hsplitter, hobjects, hrun, hfed]
    exact ⟨rfl, rfl, rfl⟩
  strings := by
    rintro before stretch after rfl
    have hiff : ∀ read, read <+: before ++ stretch →
        (endsInString honor keep (start ++ read) = true ↔
          Mode.plain.afterText honor read ≠ .plain) :=
      fun read hread => h.endsInString_iff (hread.trans (List.prefix_append _ _))
    exact ⟨fun hs => (hs.congr hiff).hasString,
      fun hs => hs.isStretch.congr fun read hread => (hiff read hread).symm⟩
  opens := by
    intro read c hread hout
    have hplain := (h.not_endsInString_iff ((List.prefix_append _ _).trans hread)).1 hout
    rw [h.endsInString_iff hread, afterText_concat, hplain]
    by_cases hquote : c = '"'
    · simp [Mode.after, hquote]
    · simp [Mode.after, hquote]
  closes := fun hhonor _ _ => h.closes hhonor
  toggles := by
    rintro rfl read c hread
    rw [h.endsInString_eq hread, h.endsInString_eq ((List.prefix_append _ _).trans hread)]
    exact toggles_of_not_honored read c
  verbatim := by
    intro read c hread hstring
    rw [h.endsInString_iff hread, h.endsInString_iff ((List.prefix_append _ _).trans hread)]
      at hstring
    obtain ⟨depth, mode, mode', object, objects, hrun, hrun'⟩ := h.verbatim hread hstring
    obtain ⟨hsplitter, hobjects, -⟩ := readText_eq honor keep (start ++ read)
    obtain ⟨hsplitter', hobjects', -⟩ := readText_eq honor keep (start ++ (read ++ [c]))
    simp only [hsplitter, hobjects, hsplitter', hobjects', hrun, hrun']
    exact ⟨rfl, trivial, rfl⟩

/-- **The strings of an array are recognized exactly**, whatever the fragments, as far as its text is
    read and up to the bracket that closes it.  Where no backslash stands inside a string, it makes no
    difference whether escapes are honored. -/
theorem strings_recognized (keep : Bool) :
    (∀ honor gap text, IsGap isBlank gap →
      (readText honor keep (gap ++ ['['] ++ text)).failure = none →
      (readText honor keep (gap ++ ['['] ++ text)).splitter.isClosed = false →
      StringsOf honor keep (gap ++ ['[']) text) ∧
    ∀ fragments,
      (∃ honor, ∀ read, read ++ ['\\'] <+: (String.join fragments).toList →
        endsInString honor keep read = false) →
      let fed := ({ options := { honorEscapes := true, keepBrackets := keep } } :
        Splitter).feedEach fragments
      ({ options := { honorEscapes := false, keepBrackets := keep } } :
          Splitter).feedEach fragments =
        { fed with splitter :=
          { options := { honorEscapes := false, keepBrackets := keep }
            place := fed.splitter.place } } := by
  refine ⟨fun honor gap text hgap hfailure hclosed =>
    (isInside_of_not_closed hgap hfailure hclosed).stringsOf, ?_⟩
  rintro fragments ⟨honor, hback⟩
  refine feedEach_congr fun read hread => ?_
  rw [← String.toList_join] at hread
  -- both are read as with the options that the condition is about
  have hback' : ∀ s, s ++ ['\\'] <+: read →
      (run { honorEscapes := honor, keepBrackets := keep } .before s).place.inString = false := by
    intro s hs
    have hout := hback s (hs.trans hread)
    rwa [endsInString, (readText_eq honor keep s).1] at hout
  have hsame (honor' : Bool) :
      ({ honorEscapes := honor, keepBrackets := keep } : Options).honoring =
        ({ honorEscapes := honor', keepBrackets := keep } : Options).honoring := rfl
  rw [(run_eq_of_honoring (hsame true) hback').1, (run_eq_of_honoring (hsame false) hback').1]

/-- In `{"\\":"\"}` the quote behind two backslashes ends its string, and the quote behind one
    does not. -/
theorem strings_recognized_backslashes :
    StringsOf true false [' ', '['] "\x7b\"\\\\\":\"\\\"\x7d".toList ∧
      ({ options := { honorEscapes := false } } : Splitter).feedEach ["[\\\x7b\"", "a\"\x7d]"] =
        { splitter := { options := { honorEscapes := false }, place := .after }
          objects := ["\x7b\"a\"\x7d"]
          fragments := 2 } := by
  have hback : ∀ read, read ++ ['\\'] <+: (String.join ["[\\\x7b\"", "a\"\x7d]"]).toList →
      endsInString true false read = false := by
    have hinits : ∀ read ∈ (String.join ["[\\\x7b\"", "a\"\x7d]"]).toList.inits,
        read ++ ['\\'] <+: (String.join ["[\\\x7b\"", "a\"\x7d]"]).toList →
          endsInString true false read = false := by decide
    exact fun read hread =>
      hinits read ((List.mem_inits _ _).2 ((List.prefix_append _ _).trans hread)) hread
  have hgap : IsGap isBlank [' '] := by
    intro c hc
    rw [List.mem_singleton.1 hc]
    rfl
  refine ⟨(strings_recognized false).1 true [' '] _ hgap (by decide) (by decide), ?_⟩
  exact (strings_recognized false).2 ["[\\\x7b\"", "a\"\x7d]"] ⟨true, hback⟩

end ObjectFeed.Splitter
