/-
  What a splitter makes of the text of a value inside an object.

  * `Passes` says how a piece of an object is read: to its end, with depth and mode as they were, and
    into the object without what is dropped;
  * `Passes.append`, `Passes.string`, `Passes.enclosed` and `Passes.separated` compose such pieces;
  * `passes_of_isValue`: the text of every value passes, at any depth.

  There is no limit on the size of objects here, and escapes are honored.
-/
import ObjectFeed.Proofs.Splitter.Literals

namespace ObjectFeed.Splitter

open Text (isBlank)
open Json

/-- The object that a splitter makes of its source text. -/
def Options.objectOf (o : Options) (source : List Char) : String :=
  String.ofList (strip o.honorEscapes o.dropped .plain source)

/-- A text that is read inside an object at this depth: it begins and ends outside strings, brings
    back the depth, and goes into the object without what is dropped. -/
structure Passes (o : Options) (depth : Nat) (text : List Char) : Prop where
  closed : Mode.plain.afterText o.honorEscapes text = .plain
  run_eq : ∀ object, run o (.inside depth .plain object) text =
    { place := .inside depth .plain (object ++ o.objectOf text) }

/-- The characters that are no quote, brace or bracket. -/
def IsInert (c : Char) : Prop :=
  c ≠ '{' ∧ c ≠ '"' ∧ c ≠ '}' ∧ c ≠ '[' ∧ c ≠ ']'

instance (c : Char) : Decidable (IsInert c) :=
  inferInstanceAs (Decidable (_ ∧ _))

theorem isInert_of_isPlain {c : Char} (h : IsPlain c) : IsInert c := by
  obtain ⟨hmark, hquote, -⟩ := h
  refine ⟨?_, hquote, ?_, ?_, ?_⟩ <;> (rintro rfl; revert hmark; decide)

theorem isInert_of_isBlank {c : Char} (h : isBlank c = true) : IsInert c := by
  refine ⟨?_, ?_, ?_, ?_, ?_⟩ <;> (rintro rfl; revert h; decide)

/-! ## Reading on -/

section

variable {o : Options}

theorem run_append_quiet {place next : Place} {text : List Char}
    (h : run o place text = { place := next }) (rest : List Char) :
    run o place (text ++ rest) = run o next rest := by
  rw [run_append, h]
  simp

theorem run_append_objects {place next : Place} {text : List Char} {objects : List String}
    (h : run o place text = { place := next, objects }) (rest : List Char) :
    run o place (text ++ rest) =
      { run o next rest with objects := objects ++ (run o next rest).objects } := by
  rw [run_append, h]

theorem run_cons_quiet {place next : Place} {c : Char} (h : step o place c = (next, .quiet))
    (rest : List Char) : run o place (c :: rest) = run o next rest := by
  simp only [run, h]

theorem objectOf_append {s : List Char} (hs : Mode.plain.afterText o.honorEscapes s = .plain)
    (t : List Char) : o.objectOf (s ++ t) = o.objectOf s ++ o.objectOf t := by
  simp only [Options.objectOf, strip_append, hs, String.ofList_append]

theorem append_objectOf_kept {c : Char} (hd : o.dropped c = false) (hc : c ≠ '"')
    (object : String) : object ++ o.objectOf [c] = object.push c := by
  simp only [Options.objectOf, strip_plain_kept hd hc, strip_nil, String.ofList_cons,
    String.ofList_nil, String.append_empty, String.push_eq_append]

theorem append_objectOf_dropped {c : Char} (hd : o.dropped c = true) (hc : c ≠ '"')
    (object : String) : object ++ o.objectOf [c] = object := by
  simp only [Options.objectOf, strip_plain_dropped hd hc, strip_nil, String.ofList_nil,
    String.append_empty]

theorem Passes.nil (depth : Nat) : Passes o depth [] where
  closed := rfl
  run_eq object := by simp [run, Options.objectOf]

theorem Passes.append {depth : Nat} {s t : List Char} (hs : Passes o depth s)
    (ht : Passes o depth t) : Passes o depth (s ++ t) where
  closed := by rw [Mode.afterText_append, hs.closed, ht.closed]
  run_eq object := by
    rw [run_append_quiet (hs.run_eq object), ht.run_eq, objectOf_append hs.closed,
      String.append_assoc]

end

/-! ## Values inside an object -/

section

variable {o : Options} (hlimit : o.sizeLimit = none)
include hlimit

theorem reach_eq (depth : Nat) (mode : Mode) (object : String) :
    o.reach depth mode object = (.inside depth mode object, .quiet) := by
  simp only [Options.reach, hlimit]

theorem Passes.inert {c : Char} (hc : IsInert c) (depth : Nat) : Passes o depth [c] where
  closed := by simp [Mode.after, hc.2.1]
  run_eq object := by
    obtain ⟨h1, h2, h3, h4, h5⟩ := hc
    have hdropped : o.dropped c = isBlank c := by simp [Options.dropped, h4, h5]
    by_cases hb : isBlank c = true
    · rw [append_objectOf_dropped (hdropped.trans hb) h2]
      simp [run, step, Options.stepPlain, reach_eq hlimit, h1, h2, h3, h4, h5, hb]
    · rw [append_objectOf_kept (hdropped.trans (by simpa using hb)) h2]
      simp [run, step, Options.stepPlain, reach_eq hlimit, h1, h2, h3, h4, h5, hb]

theorem Passes.of_inert {s : List Char} (hs : ∀ c ∈ s, IsInert c) (depth : Nat) :
    Passes o depth s := by
  induction s with
  | nil => exact Passes.nil depth
  | cons c s ih =>
    have hrest : Passes o depth s := ih fun c' hc' => hs c' (List.mem_cons_of_mem _ hc')
    exact (Passes.inert hlimit (hs c List.mem_cons_self) depth).append hrest

/-! ### Strings -/

theorem run_quoted_cons (c : Char) (depth : Nat) (object : String) (rest : List Char) :
    run o (.inside depth .quoted object) (c :: rest) =
      run o (.inside depth (o.modeAfterQuoted c) (object.push c)) rest := by
  simp only [run, step, reach_eq hlimit]

theorem run_escaped_cons (c : Char) (depth : Nat) (object : String) (rest : List Char) :
    run o (.inside depth .escaped object) (c :: rest) =
      run o (.inside depth .quoted (object.push c)) rest := by
  simp only [run, step, reach_eq hlimit]

variable (hhonor : o.honorEscapes = true)
include hhonor

theorem run_looseBody {body : List Char} (h : IsLooseBody body) (depth : Nat) (object : String)
    (rest : List Char) :
    run o (.inside depth .quoted object) (body ++ '"' :: rest) =
      run o (.inside depth .plain ((object ++ String.ofList body).push '"')) rest := by
  induction h generalizing object with
  | nil =>
    rw [List.nil_append, run_quoted_cons hlimit]
    simp [Options.modeAfterQuoted]
  | @char c body hquote hback _ ih =>
    have hmode : o.modeAfterQuoted c = .quoted := by simp [Options.modeAfterQuoted, hquote, hback]
    rw [List.cons_append, run_quoted_cons hlimit, hmode, ih]
    simp only [String.ofList_cons, String.push_eq_append, String.append_assoc]
  | @pair e body _ ih =>
    have hmode : o.modeAfterQuoted '\\' = .escaped := by simp [Options.modeAfterQuoted, hhonor]
    rw [List.cons_append, List.cons_append, run_quoted_cons hlimit, hmode, run_escaped_cons hlimit,
      ih]
    simp only [String.ofList_cons, String.push_eq_append, String.append_assoc]

theorem Passes.string {body : List Char} (h : IsLooseBody body) (depth : Nat) :
    Passes o depth ('"' :: body ++ ['"']) where
  closed := by rw [hhonor, afterText_string h]
  run_eq object := by
    have hquote : step o (.inside depth .plain object) '"' =
        (.inside depth .quoted (object.push '"'), .quiet) := by
      simp [step, Options.stepPlain, reach_eq hlimit]
    have hkept : o.objectOf ('"' :: body ++ ['"']) = String.ofList ('"' :: body ++ ['"']) := by
      rw [Options.objectOf, hhonor, strip_string h (by simp [Options.dropped, isBlank])]
    rw [hkept, List.cons_append, run_cons_quiet hquote, run_looseBody hlimit hhonor h]
    simp only [run, String.ofList_cons, String.ofList_append, String.ofList_nil,
      String.push_eq_append, String.append_assoc, String.append_empty]

end

/-! ### Composed texts -/

section

variable {o : Options} {depth : Nat}

/-- A text in braces or brackets passes when it passes one deeper. -/
theorem Passes.enclosed {opening closing : Char} (hopening : opening ≠ '"')
    (hopen : ∀ object, step o (.inside depth .plain object) opening =
      (.inside (depth + 1) .plain (object ++ o.objectOf [opening]), .quiet))
    (hclosing : closing ≠ '"')
    (hclose : ∀ object, step o (.inside (depth + 1) .plain object) closing =
      (.inside depth .plain (object ++ o.objectOf [closing]), .quiet))
    {s : List Char} (hs : Passes o (depth + 1) s) :
    Passes o depth (opening :: s ++ [closing]) where
  closed := by
    rw [List.cons_append, Mode.afterText_cons, Mode.after_plain_of_ne hopening,
      Mode.afterText_append, hs.closed, Mode.afterText_cons, Mode.after_plain_of_ne hclosing,
      Mode.afterText_nil]
  run_eq object := by
    have hkept : o.objectOf ([opening] ++ (s ++ [closing])) =
        o.objectOf [opening] ++ (o.objectOf s ++ o.objectOf [closing]) := by
      rw [objectOf_append (by simp [Mode.after, hopening]), objectOf_append hs.closed]
    rw [List.cons_append, run_cons_quiet (hopen object), run_append_quiet (hs.run_eq _),
      run_cons_quiet (hclose _), run]
    rw [List.singleton_append] at hkept
    simp only [hkept, String.append_assoc]

variable (hlimit : o.sizeLimit = none)
include hlimit

theorem Passes.braces (hdepth : 2 ≤ depth) {s : List Char} (hs : Passes o (depth + 1) s) :
    Passes o depth ('{' :: s ++ ['}']) := by
  refine .enclosed (by decide) (fun object => ?_) (by decide) (fun object => ?_) hs
  · rw [append_objectOf_kept (by simp [Options.dropped, isBlank]) (by decide)]
    simp [step, Options.stepPlain, reach_eq hlimit, show depth ≠ 1 by omega]
  · rw [append_objectOf_kept (by simp [Options.dropped, isBlank]) (by decide)]
    simp [step, Options.stepPlain, reach_eq hlimit, show depth ≠ 1 by omega,
      show ¬ depth + 1 < 2 by omega]

theorem Passes.brackets (hdepth : 2 ≤ depth) {s : List Char} (hs : Passes o (depth + 1) s) :
    Passes o depth ('[' :: s ++ [']']) := by
  refine .enclosed (by decide) (fun object => ?_) (by decide) (fun object => ?_) hs
  · cases hkeep : o.keepBrackets with
    | true =>
      rw [append_objectOf_kept (by simp [Options.dropped, isBlank, hkeep]) (by decide)]
      simp [step, Options.stepPlain, reach_eq hlimit, hkeep, hdepth]
    | false =>
      rw [append_objectOf_dropped (by simp [Options.dropped, hkeep]) (by decide)]
      simp [step, Options.stepPlain, reach_eq hlimit, hkeep]
  · cases hkeep : o.keepBrackets with
    | true =>
      rw [append_objectOf_kept (by simp [Options.dropped, isBlank, hkeep]) (by decide)]
      simp [step, Options.stepPlain, reach_eq hlimit, hkeep, hdepth, show depth ≠ 0 by omega]
    | false =>
      rw [append_objectOf_dropped (by simp [Options.dropped, hkeep]) (by decide)]
      simp [step, Options.stepPlain, reach_eq hlimit, hkeep, show depth ≠ 0 by omega]

variable {blank : Char → Bool} (hgap : ∀ c, blank c = true → isBlank c = true)
include hgap

theorem Passes.gap {s : List Char} (hs : IsGap blank s) : Passes o depth s :=
  .of_inert hlimit (fun c hc => isInert_of_isBlank (hgap c (hs c hc))) depth

theorem Passes.separated {pieces : List (List Char)} {s : List Char}
    (hs : Separated blank pieces s) (hpieces : ∀ p ∈ pieces, Passes o depth p) :
    Passes o depth s := by
  induction hs with
  | none hblank => exact .gap hlimit hgap hblank
  | last hbefore hafter =>
    exact ((Passes.gap hlimit hgap hbefore).append (hpieces _ List.mem_cons_self)).append
      (.gap hlimit hgap hafter)
  | @more before piece after next pieces s hbefore hafter _ ih =>
    have hrest : Passes o depth s := ih fun p hp => hpieces p (List.mem_cons_of_mem _ hp)
    have hcomma : Passes o depth (',' :: s) := (Passes.inert hlimit (by decide) depth).append hrest
    exact (((Passes.gap hlimit hgap hbefore).append (hpieces _ List.mem_cons_self)).append
      (.gap hlimit hgap hafter)).append hcomma

variable (hhonor : o.honorEscapes = true)
include hhonor

theorem Passes.member {m : Member} (hm : m.IsKeyed blank) (hvalue : Passes o depth m.value) :
    Passes o depth m.text := by
  obtain ⟨hkey, hbefore, hafter⟩ := hm
  have hcolon : Passes o depth (':' :: m.after ++ m.value) :=
    ((Passes.inert hlimit (by decide) depth).append (.gap hlimit hgap hafter)).append hvalue
  have htext : m.text = ('"' :: m.key ++ ['"']) ++ m.before ++ (':' :: m.after ++ m.value) := by
    simp [Member.text]
  rw [htext]
  exact ((Passes.string hlimit hhonor hkey.loose depth).append (.gap hlimit hgap hbefore)).append
    hcolon

/-- **The text of every value passes inside an object.** -/
theorem passes_of_isValue {s : List Char} (h : IsValue blank s) (hdepth : 2 ≤ depth) :
    Passes o depth s := by
  induction h generalizing depth with
  | scalar hs => exact .of_inert hlimit (fun c hc => isInert_of_isPlain (hs.isPlain c hc)) depth
  | string hbody => exact .string hlimit hhonor hbody.loose depth
  | array hsep _ ih =>
    exact .brackets hlimit hdepth
      (.separated hlimit hgap hsep fun item hitem => ih item hitem (by omega))
  | object hsep hkeyed _ ih =>
    refine .braces hlimit hdepth (.separated hlimit hgap hsep fun text htext => ?_)
    obtain ⟨m, hm, rfl⟩ := List.mem_map.1 htext
    exact .member hlimit hgap hhonor (hkeyed m hm) (ih m hm (by omega))

end

end ObjectFeed.Splitter
