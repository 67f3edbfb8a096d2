/-
  The grammar of JSON texts (RFC 8259), by characters.

  `isBlank` says which characters may stand between the parts of a text: the grammar of JSON has
  `Text.isJsonBlank`, a feed also takes the other two of `Text.isBlank`.

  * `IsNumber`, `IsScalar` and `IsBody` are the numbers, the numbers and literals, and what may
    stand between the quotes of a string;
  * `Separated` are the pieces of an array or object with the commas and blanks around them;
  * `IsValue` is the text of a value, without blanks around it; `IsObject` is one of an object;
  * `IsArray` is the text of an array with blanks around it, told by the texts of its elements.
-/
import ObjectFeed.Json.Quoted
import ObjectFeed.Json.Token

namespace ObjectFeed.Json

/-! ## Scalars -/

/-- Digits, at least one. -/
def IsDigits (s : List Char) : Prop :=
  s ≠ [] ∧ ∀ c ∈ s, c.isDigit = true

/-- The digits before the point: a zero leads only when it stands alone. -/
def IsWhole (s : List Char) : Prop :=
  IsDigits s ∧ (s.head? = some '0' → s = ['0'])

/-- The fraction of a number, if it has one. -/
def IsFraction (s : List Char) : Prop :=
  s = [] ∨ ∃ digits, IsDigits digits ∧ s = '.' :: digits

/-- The exponent of a number, if it has one. -/
def IsExponent (s : List Char) : Prop :=
  s = [] ∨ ∃ e sign digits, (e = 'e' ∨ e = 'E') ∧ (sign = [] ∨ sign = ['+'] ∨ sign = ['-']) ∧
    IsDigits digits ∧ s = e :: (sign ++ digits)

/-- A number. -/
def IsNumber (s : List Char) : Prop :=
  ∃ sign whole fraction power, (sign = [] ∨ sign = ['-']) ∧ IsWhole whole ∧ IsFraction fraction ∧
    IsExponent power ∧ s = sign ++ whole ++ fraction ++ power

/-- A literal or a number. -/
def IsScalar (s : List Char) : Prop :=
  s = ['n', 'u', 'l', 'l'] ∨ s = ['t', 'r', 'u', 'e'] ∨ s = ['f', 'a', 'l', 's', 'e'] ∨ IsNumber s

/-- What stands between the quotes of a string. -/
inductive IsBody : List Char → Prop
  | nil : IsBody []
  | char {c rest} : ' ' ≤ c → c ≠ '"' → c ≠ '\\' → IsBody rest → IsBody (c :: rest)
  | escape {e rest} : (escapedChar? e).isSome → IsBody rest → IsBody ('\\' :: e :: rest)
  | code {a b c d rest} : (codeUnit? a b c d).isSome → IsBody rest →
      IsBody ('\\' :: 'u' :: a :: b :: c :: d :: rest)

/-- The same as far as the end of the string goes: a quote stands only after a backslash, and every
    backslash takes a character with it. -/
inductive IsLooseBody : List Char → Prop
  | nil : IsLooseBody []
  | char {c rest} : c ≠ '"' → c ≠ '\\' → IsLooseBody rest → IsLooseBody (c :: rest)
  | pair {e rest} : IsLooseBody rest → IsLooseBody ('\\' :: e :: rest)

/-! ## Values -/

/-- A run of blanks. -/
def IsGap (isBlank : Char → Bool) (s : List Char) : Prop :=
  ∀ c ∈ s, isBlank c = true

instance (isBlank : Char → Bool) (s : List Char) : Decidable (IsGap isBlank s) :=
  inferInstanceAs (Decidable (∀ c ∈ s, _))

theorem isGap_nil (isBlank : Char → Bool) : IsGap isBlank [] :=
  fun _ hc => by cases hc

/-- Pieces with a comma between each two and blanks around each; blanks alone if there are none. -/
inductive Separated (isBlank : Char → Bool) : List (List Char) → List Char → Prop
  | none {gap} : IsGap isBlank gap → Separated isBlank [] gap
  | last {before piece after} : IsGap isBlank before → IsGap isBlank after →
      Separated isBlank [piece] (before ++ piece ++ after)
  | more {before piece after next pieces s} : IsGap isBlank before → IsGap isBlank after →
      Separated isBlank (next :: pieces) s →
      Separated isBlank (piece :: next :: pieces) (before ++ piece ++ after ++ ',' :: s)

theorem Separated.gap_of_nil {isBlank : Char → Bool} {s : List Char}
    (h : Separated isBlank [] s) : IsGap isBlank s := by
  cases h with
  | none hgap => exact hgap

theorem Separated.single {isBlank : Char → Bool} {before : List Char} (h : IsGap isBlank before)
    (piece : List Char) : Separated isBlank [piece] (before ++ piece) := by
  have hlast := @Separated.last isBlank before piece [] h (isGap_nil isBlank)
  rwa [List.append_nil] at hlast

theorem Separated.cons {isBlank : Char → Bool} {before after : List Char}
    {pieces : List (List Char)} {s : List Char} (hbefore : IsGap isBlank before)
    (hafter : IsGap isBlank after) (hs : Separated isBlank pieces s) (hne : pieces ≠ [])
    (piece : List Char) :
    Separated isBlank (piece :: pieces) (before ++ piece ++ after ++ ',' :: s) := by
  obtain ⟨next, pieces, rfl⟩ := List.exists_cons_of_ne_nil hne
  exact .more hbefore hafter hs

/-- The element that comes after these lies in a beginning of the elements, its last character
    included. -/
def LiesIn (isBlank : Char → Bool) (earlier : List (List Char)) (element read : List Char) : Prop :=
  ∃ s, s ++ element <+: read ∧ Separated isBlank (earlier ++ [element]) (s ++ element)

theorem LiesIn.length_le {isBlank : Char → Bool} {earlier : List (List Char)}
    {element read : List Char} (h : LiesIn isBlank earlier element read) :
    element.length ≤ read.length := by
  obtain ⟨s, hlies, -⟩ := h
  exact Nat.le_trans (by rw [List.length_append]; omega) hlies.length_le

/-- A member of an object: the body of its key, the blanks before and after its colon, and the text
    of its value. -/
structure Member where
  key : List Char
  before : List Char
  after : List Char
  value : List Char

/-- The text of a member. -/
def Member.text (m : Member) : List Char :=
  '"' :: m.key ++ '"' :: m.before ++ ':' :: m.after ++ m.value

/-- The parts of a member other than its value are as they should be. -/
def Member.IsKeyed (isBlank : Char → Bool) (m : Member) : Prop :=
  IsBody m.key ∧ IsGap isBlank m.before ∧ IsGap isBlank m.after

/-- The text of a value, without blanks around it. -/
inductive IsValue (isBlank : Char → Bool) : List Char → Prop
  | scalar {s} : IsScalar s → IsValue isBlank s
  | string {body} : IsBody body → IsValue isBlank ('"' :: body ++ ['"'])
  | array {items s} : Separated isBlank items s → (∀ item ∈ items, IsValue isBlank item) →
      IsValue isBlank ('[' :: s ++ [']'])
  | object {members : List Member} {s} : Separated isBlank (members.map Member.text) s →
      (∀ m ∈ members, m.IsKeyed isBlank) → (∀ m ∈ members, IsValue isBlank m.value) →
      IsValue isBlank ('{' :: s ++ ['}'])

/-- The text of an object, without blanks around it. -/
def IsObject (isBlank : Char → Bool) (s : List Char) : Prop :=
  IsValue isBlank s ∧ s.head? = some '{'

/-- The text of an array whose elements have these texts, with blanks around it. -/
def IsArray (isBlank : Char → Bool) (elements : List (List Char)) (text : List Char) : Prop :=
  ∃ before inner after, IsGap isBlank before ∧ Separated isBlank elements inner ∧
    (∀ e ∈ elements, IsValue isBlank e) ∧ IsGap isBlank after ∧
    text = before ++ '[' :: inner ++ ']' :: after

theorem separated_intercalate {isBlank : Char → Bool} {pieces : List (List Char)} {s : List Char}
    (hs : s = [','].intercalate pieces) : Separated isBlank pieces s := by
  have hnone := isGap_nil isBlank
  induction pieces generalizing s with
  | nil => exact hs ▸ .none hnone
  | cons piece pieces ih =>
    cases pieces with
    | nil =>
      rw [List.intercalate, List.intersperse_singleton, List.flatten_singleton] at hs
      exact hs ▸ .single hnone piece
    | cons next pieces =>
      have hmore := Separated.cons hnone hnone (ih rfl) (List.cons_ne_nil next pieces) piece
      rw [List.nil_append, List.append_nil] at hmore
      exact hs ▸ hmore

theorem isArray_intercalate {isBlank : Char → Bool} {elements : List (List Char)} {text : List Char}
    (h : ∀ e ∈ elements, IsValue isBlank e)
    (htext : text = '[' :: [','].intercalate elements ++ [']']) : IsArray isBlank elements text :=
  ⟨[], _, [], isGap_nil isBlank, separated_intercalate rfl, h, isGap_nil isBlank, htext⟩

/-! ## The characters of scalars -/

/-- The characters of scalars: no mark, no quote and no blank. -/
def IsPlain (c : Char) : Prop :=
  Mark.ofChar? c = none ∧ c ≠ '"' ∧ Text.isBlank c = false

instance (c : Char) : Decidable (IsPlain c) :=
  inferInstanceAs (Decidable (_ ∧ _ ∧ _))

theorem not_mark_of_isBlank {c : Char} (h : Text.isBlank c = true) :
    Mark.ofChar? c = none ∧ c ≠ '"' := by
  simp only [Text.isBlank, Bool.or_eq_true, decide_eq_true_eq] at h
  rcases h with ((((rfl | rfl) | rfl) | rfl) | rfl) | rfl <;> decide

theorem isPlain_of_isDigit {c : Char} (h : c.isDigit = true) : IsPlain c := by
  have hne : ∀ d : Char, d.isDigit = false → c ≠ d := by
    rintro d hd rfl
    exact absurd h (by simp [hd])
  refine ⟨?_, hne _ rfl, ?_⟩
  · simp [Mark.ofChar?, hne '{' rfl, hne '}' rfl, hne '[' rfl, hne ']' rfl, hne ':' rfl,
      hne ',' rfl]
  · simp [Text.isBlank, hne ' ' rfl, hne '\t' rfl, hne '\n' rfl, hne '\r' rfl, hne '\x0b' rfl,
      hne '\x0c' rfl]

theorem IsDigits.isPlain {s : List Char} (h : IsDigits s) : ∀ c ∈ s, IsPlain c :=
  fun c hc => isPlain_of_isDigit (h.2 c hc)

theorem IsFraction.isPlain {s : List Char} (h : IsFraction s) : ∀ c ∈ s, IsPlain c := by
  rcases h with rfl | ⟨digits, hdigits, rfl⟩
  · intro c hc
    cases hc
  · intro c hc
    rcases List.mem_cons.1 hc with rfl | hc
    · decide
    · exact hdigits.isPlain c hc

theorem IsExponent.isPlain {s : List Char} (h : IsExponent s) : ∀ c ∈ s, IsPlain c := by
  rcases h with rfl | ⟨e, sign, digits, he, hsign, hdigits, rfl⟩
  · intro c hc
    cases hc
  · intro c hc
    rcases List.mem_cons.1 hc with rfl | hc
    · rcases he with rfl | rfl <;> decide
    · rcases List.mem_append.1 hc with hc | hc
      · rcases hsign with rfl | rfl | rfl <;> simp at hc <;> subst hc <;> decide
      · exact hdigits.isPlain c hc

theorem IsNumber.isPlain {s : List Char} (h : IsNumber s) : ∀ c ∈ s, IsPlain c := by
  obtain ⟨sign, whole, fraction, power, hsign, hwhole, hfraction, hpower, rfl⟩ := h
  intro c hc
  simp only [List.mem_append] at hc
  rcases hc with ((hc | hc) | hc) | hc
  · rcases hsign with rfl | rfl <;> simp at hc
    subst hc; decide
  · exact hwhole.1.isPlain c hc
  · exact hfraction.isPlain c hc
  · exact hpower.isPlain c hc

theorem IsScalar.isPlain {s : List Char} (h : IsScalar s) : ∀ c ∈ s, IsPlain c := by
  have hword : ∀ {s : List Char}, s.all (decide <| IsPlain ·) = true → ∀ c ∈ s, IsPlain c :=
    fun hall c hc => of_decide_eq_true (List.all_eq_true.1 hall c hc)
  rcases h with rfl | rfl | rfl | h
  · exact hword (by decide)
  · exact hword (by decide)
  · exact hword (by decide)
  · exact h.isPlain

theorem IsScalar.ne_nil {s : List Char} (h : IsScalar s) : s ≠ [] := by
  rcases h with rfl | rfl | rfl | ⟨sign, whole, fraction, power, -, hwhole, -, -, rfl⟩
  · simp
  · simp
  · simp
  · simp [hwhole.1.1]

theorem isScalar_of_isDigit {c : Char} (h : c.isDigit = true) : IsScalar [c] := by
  have hdigits : IsDigits [c] :=
    ⟨List.cons_ne_nil _ _, fun d hd => by rw [List.mem_singleton.1 hd, h]⟩
  have hwhole : IsWhole [c] := ⟨hdigits, fun hzero => by rw [Option.some.inj hzero]⟩
  exact .inr (.inr (.inr ⟨[], [c], [], [], .inl rfl, hwhole, .inl rfl, .inl rfl, rfl⟩))

/-! ## The characters of strings -/

theorem ne_of_hexDigit? {c : Char} (h : (hexDigit? c).isSome) : c ≠ '"' ∧ c ≠ '\\' := by
  constructor <;> (rintro rfl; revert h; decide)

theorem hexDigits_of_codeUnit? {a b c d : Char} (h : (codeUnit? a b c d).isSome) :
    (hexDigit? a).isSome ∧ (hexDigit? b).isSome ∧ (hexDigit? c).isSome ∧ (hexDigit? d).isSome := by
  obtain ⟨n, hn⟩ := Option.isSome_iff_exists.1 h
  simp only [codeUnit?, bind, Option.bind_eq_some_iff] at hn
  obtain ⟨a', ha, b', hb, c', hc, d', hd, -⟩ := hn
  simp [ha, hb, hc, hd]

theorem IsBody.loose {s : List Char} (h : IsBody s) : IsLooseBody s := by
  induction h with
  | nil => exact .nil
  | char _ hquote hback _ ih => exact .char hquote hback ih
  | escape _ _ ih => exact .pair ih
  | code hcode _ ih =>
    obtain ⟨ha, hb, hc, hd⟩ := hexDigits_of_codeUnit? hcode
    have hd' := IsLooseBody.char (ne_of_hexDigit? hd).1 (ne_of_hexDigit? hd).2 ih
    have hc' := IsLooseBody.char (ne_of_hexDigit? hc).1 (ne_of_hexDigit? hc).2 hd'
    have hb' := IsLooseBody.char (ne_of_hexDigit? hb).1 (ne_of_hexDigit? hb).2 hc'
    exact .pair (.char (ne_of_hexDigit? ha).1 (ne_of_hexDigit? ha).2 hb')

/-! ## Objects -/

theorem IsObject.exists_members {isBlank : Char → Bool} {s : List Char} (h : IsObject isBlank s) :
    ∃ (members : List Member) (inner : List Char), s = '{' :: inner ++ ['}'] ∧
      Separated isBlank (members.map Member.text) inner ∧
      (∀ m ∈ members, m.IsKeyed isBlank) ∧ ∀ m ∈ members, IsValue isBlank m.value := by
  obtain ⟨hvalue, hhead⟩ := h
  cases hvalue with
  | scalar hs =>
    have hmem : '{' ∈ s := List.mem_of_mem_head? (by rw [hhead]; rfl)
    exact absurd (hs.isPlain _ hmem) (by decide)
  | string => simp at hhead
  | array => simp at hhead
  | object hsep hkeyed hvalues => exact ⟨_, _, rfl, hsep, hkeyed, hvalues⟩

theorem isObject_of_string {isBlank : Char → Bool} {key body : List Char} (hkey : IsBody key)
    (hbody : IsBody body) :
    IsObject isBlank ('{' :: Member.text ⟨key, [], [], '"' :: body ++ ['"']⟩ ++ ['}']) := by
  have hnone := isGap_nil isBlank
  have hmember : Separated isBlank (List.map Member.text [⟨key, [], [], '"' :: body ++ ['"']⟩])
      ([] ++ Member.text ⟨key, [], [], '"' :: body ++ ['"']⟩ ++ []) := .last hnone hnone
  rw [List.nil_append, List.append_nil] at hmember
  refine ⟨.object hmember (fun m hm => ?_) (fun m hm => ?_), rfl⟩
  · rw [List.mem_singleton.1 hm]
    exact ⟨hkey, hnone, hnone⟩
  · rw [List.mem_singleton.1 hm]
    exact .string hbody

/-- An object with an array, and with a string that has the marks of both and a quote. -/
def sample : List Char :=
  ['{', '"', 'k', '"', ':', ' ', '[', '1', ',', ' ', '"', ']', '\\', '"', '}', '"', ']', '}']

theorem isObject_sample {isBlank : Char → Bool} (h : isBlank ' ' = true) :
    IsObject isBlank sample := by
  have hgap : IsGap isBlank [' '] := fun c hc => by rw [List.mem_singleton.1 hc, h]
  have hnone := isGap_nil isBlank
  have hone : IsScalar ['1'] := isScalar_of_isDigit rfl
  have hbody : IsBody [']', '\\', '"', '}'] :=
    .char (by decide) (by decide) (by decide) (.escape (by decide)
      (.char (by decide) (by decide) (by decide) .nil))
  have hitems : Separated isBlank [['1'], ['"', ']', '\\', '"', '}', '"']]
      ['1', ',', ' ', '"', ']', '\\', '"', '}', '"'] :=
    @Separated.more isBlank [] ['1'] [] _ _ _ hnone hnone (@Separated.last isBlank [' '] _ [] hgap hnone)
  have harray : IsValue isBlank ['[', '1', ',', ' ', '"', ']', '\\', '"', '}', '"', ']'] := by
    refine .array hitems fun item hitem => ?_
    rcases List.mem_cons.1 hitem with rfl | hitem
    · exact .scalar hone
    · rw [List.mem_singleton.1 hitem]
      exact .string hbody
  have hmember : Separated isBlank (List.map Member.text
      [⟨['k'], [], [' '], ['[', '1', ',', ' ', '"', ']', '\\', '"', '}', '"', ']']⟩])
      ['"', 'k', '"', ':', ' ', '[', '1', ',', ' ', '"', ']', '\\', '"', '}', '"', ']'] :=
    @Separated.last isBlank [] _ [] hnone hnone
  refine ⟨.object hmember (fun m hm => ?_) (fun m hm => ?_), rfl⟩
  · rw [List.mem_singleton.1 hm]
    exact ⟨.char (by decide) (by decide) (by decide) .nil, hnone, hgap⟩
  · rw [List.mem_singleton.1 hm]
    exact harray

theorem isArray_sample {isBlank : Char → Bool} (h : isBlank ' ' = true) :
    IsArray isBlank [sample, ['{', '}']] ([' ', '['] ++ sample ++ [' ', ',', '{', '}', ']']) ∧
      ∀ e ∈ [sample, ['{', '}']], IsObject isBlank e := by
  have hgap : IsGap isBlank [' '] := fun c hc => by rw [List.mem_singleton.1 hc, h]
  have hnone := isGap_nil isBlank
  have hempty : IsObject isBlank ['{', '}'] :=
    ⟨@IsValue.object isBlank [] [] (.none hnone) (fun m hm => by cases hm)
      (fun m hm => by cases hm), rfl⟩
  have hobjects : ∀ e ∈ [sample, ['{', '}']], IsObject isBlank e := by
    intro e he
    rcases List.mem_cons.1 he with rfl | he
    · exact isObject_sample h
    · rw [List.mem_singleton.1 he]
      exact hempty
  have hinner : Separated isBlank [sample, ['{', '}']] (sample ++ [' ', ',', '{', '}']) :=
    @Separated.more isBlank [] sample [' '] _ _ _ hnone hgap
      (@Separated.last isBlank [] _ [] hnone hnone)
  exact ⟨⟨[' '], _, [], hgap, hinner, fun e he => (hobjects e he).1, hnone, rfl⟩, hobjects⟩

end ObjectFeed.Json
