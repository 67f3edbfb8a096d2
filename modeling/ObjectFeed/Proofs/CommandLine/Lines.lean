/-
  The lines that the command writes for an array of objects.

  * `IsQuoted` is a text whose strings are those of JSON and are closed; `isQuoted_of_isValue`: the text of
    a value is one, so no newline is left of it (`newline_not_mem_strip`);
  * `lineOf` is the line of an element.  `tokens?_lineOf_iff`, `parse?_lineOf_iff`: it has the tokens of
    the element and means what that means exactly if no array is in the element;
  * `lines_of_array`: the command writes one line for each element, however its reads cut the array.
-/
import ObjectFeed.Proofs.CommandLine.Runs
import ObjectFeed.Proofs.Feeds.IllFormed
import ObjectFeed.Proofs.Json.Brackets
import ObjectFeed.Proofs.Splitter.Meaning

namespace ObjectFeed

open Text (isBlank isJsonBlank isBlank_of_isJsonBlank)
open Splitter (Mode strip outside strip_looseBody strip_plain_dropped strip_plain_kept)

namespace Json

/-! ## Strings in values -/

/-- A text whose strings are those of JSON and are closed. -/
inductive IsQuoted : List Char → Prop
  | nil : IsQuoted []
  | char {c s} : c ≠ '"' → IsQuoted s → IsQuoted (c :: s)
  | string {body s} : IsBody body → IsQuoted s → IsQuoted ('"' :: body ++ '"' :: s)

theorem IsQuoted.append {s t : List Char} (hs : IsQuoted s) (ht : IsQuoted t) :
    IsQuoted (s ++ t) := by
  induction hs with
  | nil => exact ht
  | char hc _ ih => exact .char hc ih
  | string hbody _ ih =>
    rw [List.append_assoc, List.cons_append]
    exact .string hbody ih

theorem IsQuoted.of_ne {s : List Char} (h : ∀ c ∈ s, c ≠ '"') : IsQuoted s := by
  induction s with
  | nil => exact .nil
  | cons c s ih =>
    exact .char (h c List.mem_cons_self) (ih fun d hd => h d (List.mem_cons_of_mem _ hd))

section

variable {blank : Char → Bool} (hgap : ∀ c, blank c = true → isBlank c = true)
include hgap

theorem IsQuoted.gap {gap : List Char} (h : IsGap blank gap) : IsQuoted gap :=
  .of_ne fun c hc => (not_mark_of_isBlank (hgap c (h c hc))).2

theorem IsQuoted.separated {pieces : List (List Char)} {s : List Char}
    (hs : Separated blank pieces s) (hpieces : ∀ p ∈ pieces, IsQuoted p) : IsQuoted s := by
  induction hs with
  | none h => exact .gap hgap h
  | last hbefore hafter =>
    exact ((IsQuoted.gap hgap hbefore).append (hpieces _ List.mem_cons_self)).append (.gap hgap hafter)
  | more hbefore hafter _ ih =>
    have hpiece := ((IsQuoted.gap hgap hbefore).append (hpieces _ List.mem_cons_self)).append
      (.gap hgap hafter)
    exact hpiece.append (.char (by decide) (ih fun p hp => hpieces p (List.mem_cons_of_mem _ hp)))

/-- **The strings in the text of a value are those of JSON.** -/
theorem isQuoted_of_isValue {s : List Char} (h : IsValue blank s) : IsQuoted s := by
  induction h with
  | scalar hs => exact .of_ne fun c hc => (hs.isPlain c hc).2.1
  | string hbody => exact .string hbody .nil
  | array hsep _ ih =>
    exact ((IsQuoted.separated hgap hsep ih).append (.char (by decide) .nil)).char (by decide)
  | @object members s hsep hkeyed _ ih =>
    have hmembers : ∀ text ∈ members.map Member.text, IsQuoted text := by
      intro text htext
      obtain ⟨m, hm, rfl⟩ := List.mem_map.1 htext
      obtain ⟨hkey, hbefore, hafter⟩ := hkeyed m hm
      have hvalue := (IsQuoted.gap hgap hafter).append (ih m hm)
      have hrest := (IsQuoted.gap hgap hbefore).append (.char (by decide : ':' ≠ '"') hvalue)
      simpa [Member.text] using IsQuoted.string hkey hrest
    exact ((IsQuoted.separated hgap hsep hmembers).append (.char (by decide) .nil)).char (by decide)

end

/-- A newline is written as an escape in strings. -/
theorem IsBody.newline_not_mem {body : List Char} (h : IsBody body) : '\n' ∉ body := by
  have hhex : ∀ {c : Char}, (hexDigit? c).isSome → '\n' ≠ c := by
    rintro c hc rfl
    revert hc
    decide
  induction h with
  | nil => exact List.not_mem_nil
  | char hspace _ _ _ ih =>
    refine List.not_mem_cons_of_ne_of_not_mem ?_ ih
    rintro rfl
    exact absurd hspace (by decide)
  | escape he _ ih =>
    refine List.not_mem_cons_of_ne_of_not_mem (by decide)
      (List.not_mem_cons_of_ne_of_not_mem ?_ ih)
    rintro rfl
    exact absurd he (by decide)
  | code hcode _ ih =>
    obtain ⟨ha, hb, hc, hd⟩ := hexDigits_of_codeUnit? hcode
    simp only [List.mem_cons, not_or]
    exact ⟨by decide, by decide, hhex ha, hhex hb, hhex hc, hhex hd, ih⟩

theorem IsQuoted.newline_not_mem_strip {s : List Char} (h : IsQuoted s) {drop : Char → Bool}
    (hnewline : drop '\n' = true) (hquote : drop '"' = false) :
    '\n' ∉ strip true drop .plain s := by
  induction h with
  | nil => exact List.not_mem_nil
  | @char c s hc _ ih =>
    cases hd : drop c with
    | true => rwa [strip_plain_dropped hd hc]
    | false =>
      rw [strip_plain_kept hd hc]
      refine List.not_mem_cons_of_ne_of_not_mem ?_ ih
      rintro rfl
      rw [hnewline] at hd
      cases hd
  | @string body s hbody _ ih =>
    have hstrip : strip true drop .plain ('"' :: body ++ '"' :: s) =
        '"' :: (body ++ '"' :: strip true drop .plain s) := by
      rw [List.cons_append, strip, if_neg (by simp [hquote])]
      exact congrArg _ (strip_looseBody hbody.loose s)
    rw [hstrip]
    simp only [List.mem_cons, List.mem_append, not_or]
    exact ⟨by decide, hbody.newline_not_mem, by decide, ih⟩

end Json

namespace CommandLine

open Json

/-! ## Lines -/

/-- The line that is written for an element. -/
def lineOf (element : List Char) : List Char :=
  strip true ({} : Splitter.Options).dropped .plain element

theorem newline_not_mem_lineOf {element : List Char} (h : IsValue isJsonBlank element) :
    '\n' ∉ lineOf element :=
  (isQuoted_of_isValue (fun _ => isBlank_of_isJsonBlank) h).newline_not_mem_strip rfl rfl

/-- Whether a bracket stands outside the strings of an element. -/
def HasBracket (element : List Char) : Prop :=
  ∃ c ∈ outside true .plain element, c = '[' ∨ c = ']'

theorem not_hasBracket_lineOf (element : List Char) : ¬ HasBracket (lineOf element) := by
  rintro ⟨c, hc, hbracket⟩
  have hdrop := outside_strip rfl hc
  rcases hbracket with rfl | rfl <;> cases hdrop

/-- **A line has the tokens of its element exactly if no bracket stands outside the strings of the
    element.** -/
theorem tokens?_lineOf_iff {element : List Char} (h : IsValue isJsonBlank element) :
    tokens? isJsonBlank (lineOf element) = tokens? isJsonBlank element ↔ ¬ HasBracket element := by
  have hgap : ∀ c, isJsonBlank c = true → isBlank c = true := fun _ => isBlank_of_isJsonBlank
  obtain ⟨tokens, hkeeps, -⟩ := leads_of_isValue hgap h []
  have htokens : tokens? isJsonBlank element = some tokens := hkeeps.lexes.tokens?
  constructor
  · rintro hsame ⟨c, hc, hbracket⟩
    have hline : tokens? isJsonBlank (lineOf element) = some tokens := hsame.trans htokens
    -- the bracket is a token, so it stands outside the strings of the line too
    refine not_hasBracket_lineOf element ⟨c, ?_, hbracket⟩
    rcases hbracket with rfl | rfl
    · exact (mark_mem_tokens?_iff hline .openBracket).1
        ((mark_mem_tokens?_iff htokens .openBracket).2 hc)
    · exact (mark_mem_tokens?_iff hline .closeBracket).1
        ((mark_mem_tokens?_iff htokens .closeBracket).2 hc)
  · intro hnone
    have hline : lineOf element = strip true isBlank .plain element := by
      refine strip_congr fun c hc => ?_
      have hneither := not_or.1 fun hbracket => hnone ⟨c, hc, hbracket⟩
      simp [Splitter.Options.dropped, hneither]
    rw [hline, hkeeps.stripped.tokens?, htokens]

/-- **A line means what its element means exactly if no array is in the element.** -/
theorem parse?_lineOf_iff {element : List Char} (h : IsValue isJsonBlank element) {v : Value}
    (hv : parse? element = some v) :
    parse? (lineOf element) = some v ↔ v.hasArray = false := by
  rw [← Bool.not_eq_true]
  constructor
  · exact fun hline harray => not_hasBracket_lineOf element ((hasArray_parse? hline).1 harray)
  · intro hnone
    have hsame := (tokens?_lineOf_iff h).2 fun hbracket => hnone ((hasArray_parse? hv).2 hbracket)
    rw [Splitter.parse?_eq_of_tokens? hsame, hv]

/-- **The command writes one line for each element**, in order, whatever the size of its reads, and
    whatever they bring of it each.  It leaves no error, and no newline is inside a line.  A line has the
    tokens of its element exactly if no bracket stands outside the strings there, and means what the
    element means exactly if no array is in it: the brackets of an array are left out. -/
theorem lines_of_array {args : List String} {readSize : Nat} (hargs : readSize? args = .ok readSize)
    {text : String} {elements : List (List Char)} (htext : IsArray isJsonBlank elements text.toList)
    (hobjects : ∀ e ∈ elements, IsObject isJsonBlank e) :
    run args (octetsOf text) =
        { code := 0
          output := String.join (elements.map fun e => String.ofList (lineOf e) ++ "\n")
          error := "" } ∧
      (∀ reads : List Octets, reads.flatten = octetsOf text → [] ∉ reads →
        runReads readSize reads = run args (octetsOf text)) ∧
      ∀ element ∈ elements, '\n' ∉ lineOf element ∧
        (tokens? isJsonBlank (lineOf element) = tokens? isJsonBlank element ↔
          ¬ HasBracket element) ∧
        ∀ v, parse? element = some v →
          (parse? (lineOf element) = some v ↔ v.hasArray = false) := by
  have hruns : ∀ reads : List Octets, reads.flatten = octetsOf text → [] ∉ reads →
      runReads readSize reads =
        { code := 0
          output := String.join (elements.map fun e => String.ofList (lineOf e) ++ "\n")
          error := "" } := by
    intro reads hflatten hnil
    obtain ⟨fragments, rfl, hrun⟩ := runReads_octetsOf readSize hnil hflatten
    have hread : Splitter.run {} .before (String.join fragments).toList =
        { place := .after, objects := elements.map ({} : Splitter.Options).objectOf } :=
      Splitter.run_of_isArray rfl rfl (fun _ => isBlank_of_isJsonBlank) htext hobjects
    have hfed : ({} : Splitter).feedEach fragments =
        { splitter := { options := {}, place := .after }
          objects := elements.map ({} : Splitter.Options).objectOf
          fragments := fragments.length } := Splitter.feedEach_of_accepted hread
    have hitems : itemsOf .verbatim {} {} fragments =
        (elements.map ({} : Splitter.Options).objectOf).map .ok := by
      rw [itemsOf, filterMap_verbatim, hfed]
      exact List.append_nil _
    rw [hrun, hitems, outcomeOf_map_ok, String.empty_append, List.map_map]
    rfl
  obtain ⟨full, hflatten, hnil, -, hrun⟩ := run_eq_runReads hargs (octetsOf text)
  rw [hrun, hruns full hflatten hnil]
  refine ⟨rfl, hruns, fun element helement => ?_⟩
  have hvalue := (hobjects element helement).1
  exact ⟨newline_not_mem_lineOf hvalue, tokens?_lineOf_iff hvalue,
    fun v hv => parse?_lineOf_iff hvalue hv⟩

/-- An object with an array in it, and an empty one: the line of the first means something else. -/
theorem lines_of_array_sample :
    let text := String.ofList ([' ', '['] ++ sample ++ [' ', ',', '{', '}', ']'])
    IsArray isJsonBlank [sample, ['{', '}']] text.toList ∧
      run ["1"] (octetsOf text) =
        { code := 0, output := "\x7b\"k\":1,\"]\\\"\x7d\"\x7d\n\x7b\x7d\n", error := "" } ∧
      ∃ v, parse? sample = some v ∧ parse? (lineOf sample) ≠ some v := by
  intro text
  obtain ⟨harray, hobjects⟩ := @isArray_sample isJsonBlank rfl
  have htext : IsArray isJsonBlank [sample, ['{', '}']] text.toList := by
    rw [String.toList_ofList]
    exact harray
  have hargs : readSize? ["1"] = .ok 1 := by decide
  obtain ⟨hrun, -, hlines⟩ := lines_of_array hargs htext hobjects
  refine ⟨htext, hrun.trans (by decide +kernel), ?_⟩
  obtain ⟨v, hv⟩ := Option.isSome_iff_exists.1 (show (parse? sample).isSome by decide)
  obtain ⟨-, -, hmeaning⟩ := hlines sample List.mem_cons_self
  refine ⟨v, hv, fun hsame => ?_⟩
  have hnone := (hmeaning v hv).1 hsame
  have harray : v.hasArray = true := (hasArray_parse? hv).2 ⟨'[', by decide, .inl rfl⟩
  rw [hnone] at harray
  cases harray

end CommandLine

end ObjectFeed
