/-
  What is parsed is of the grammar.

  * `Listed` are pieces with a comma after each, and `Opened` says that a text opens these containers,
    one in the other, and has read some pieces of each;
  * `Reached` says that a text leads to a reading, and `Reached.step`: with the lexeme of a token it
    leads to what the token makes of the reading;
  * `isValue_of_parse?`: so a text that is parsed is the text of a value with blanks around it.
-/
import ObjectFeed.Proofs.Json.Numbers
import ObjectFeed.Proofs.Json.Spelling

namespace ObjectFeed.Json

open Text (isJsonBlank)

variable {blank : Char → Bool}

/-! ## Open containers -/

/-- Pieces with blanks around each and a comma after it. -/
inductive Listed (blank : Char → Bool) : List (List Char) → List Char → Prop
  | nil : Listed blank [] []
  | snoc {pieces s before piece after} : Listed blank pieces s → IsGap blank before →
      IsGap blank after → Listed blank (pieces ++ [piece]) (s ++ before ++ piece ++ after ++ [','])

/-- With more pieces behind them, they are pieces with a comma between each two. -/
theorem Listed.append {pieces rest : List (List Char)} {s t : List Char}
    (hs : Listed blank pieces s) (ht : Separated blank rest t) (hrest : rest ≠ []) :
    Separated blank (pieces ++ rest) (s ++ t) := by
  induction hs generalizing rest t with
  | nil => exact ht
  | @snoc pieces s before piece after _ hbefore hafter ih =>
    obtain ⟨next, more, rfl⟩ := List.exists_cons_of_ne_nil hrest
    have hfirst : Separated blank (piece :: next :: more) (before ++ piece ++ after ++ ',' :: t) :=
      .more hbefore hafter ht
    simpa using ih hfirst (List.cons_ne_nil _ _)

theorem Listed.close {pieces : List (List Char)} {s before piece after : List Char}
    (hs : Listed blank pieces s) (hbefore : IsGap blank before) (hafter : IsGap blank after) :
    Separated blank (pieces ++ [piece]) (s ++ (before ++ piece ++ after)) :=
  hs.append (.last hbefore hafter) (List.cons_ne_nil _ _)

/-- The items of an array that have been read. -/
structure ItemsRead (blank : Char → Bool) (items : List (List Char)) (s : List Char) : Prop where
  listed : Listed blank items s
  isValue : ∀ item ∈ items, IsValue blank item

/-- The members of an object that have been read. -/
structure MembersRead (blank : Char → Bool) (members : List Member) (s : List Char) : Prop where
  listed : Listed blank (members.map Member.text) s
  isKeyed : ∀ m ∈ members, m.IsKeyed blank
  isValue : ∀ m ∈ members, IsValue blank m.value

theorem ItemsRead.nil : ItemsRead blank [] [] where
  listed := .nil
  isValue := nofun

theorem MembersRead.nil : MembersRead blank [] [] where
  listed := .nil
  isKeyed := nofun
  isValue := nofun

section

variable {items : List (List Char)} {members : List Member} {s before item after : List Char}
  {m : Member}

theorem ItemsRead.snoc (hs : ItemsRead blank items s) (hbefore : IsGap blank before)
    (hitem : IsValue blank item) (hafter : IsGap blank after) :
    ItemsRead blank (items ++ [item]) (s ++ before ++ item ++ after ++ [',']) where
  listed := hs.listed.snoc hbefore hafter
  isValue := List.forall_mem_append.2 ⟨hs.isValue, List.forall_mem_singleton.2 hitem⟩

theorem ItemsRead.array (hs : ItemsRead blank items s) (hbefore : IsGap blank before)
    (hitem : IsValue blank item) (hafter : IsGap blank after) :
    IsValue blank ('[' :: (s ++ (before ++ item ++ after)) ++ [']']) :=
  .array (hs.listed.close hbefore hafter) (List.forall_mem_append.2 ⟨hs.isValue, List.forall_mem_singleton.2 hitem⟩)

theorem MembersRead.snoc (hs : MembersRead blank members s) (hbefore : IsGap blank before)
    (hkeyed : m.IsKeyed blank) (hvalue : IsValue blank m.value) (hafter : IsGap blank after) :
    MembersRead blank (members ++ [m]) (s ++ before ++ m.text ++ after ++ [',']) where
  listed := by
    rw [List.map_append]
    exact hs.listed.snoc hbefore hafter
  isKeyed := List.forall_mem_append.2 ⟨hs.isKeyed, List.forall_mem_singleton.2 hkeyed⟩
  isValue := List.forall_mem_append.2 ⟨hs.isValue, List.forall_mem_singleton.2 hvalue⟩

theorem MembersRead.object (hs : MembersRead blank members s) (hbefore : IsGap blank before)
    (hkeyed : m.IsKeyed blank) (hvalue : IsValue blank m.value) (hafter : IsGap blank after) :
    IsValue blank ('{' :: (s ++ (before ++ m.text ++ after)) ++ ['}']) := by
  have hlisted : Separated blank ((members ++ [m]).map Member.text)
      (s ++ (before ++ m.text ++ after)) := by
    rw [List.map_append]
    exact hs.listed.close hbefore hafter
  exact .object hlisted (List.forall_mem_append.2 ⟨hs.isKeyed, List.forall_mem_singleton.2 hkeyed⟩)
    (List.forall_mem_append.2 ⟨hs.isValue, List.forall_mem_singleton.2 hvalue⟩)

end

/-- A text that opens the containers of a stack, the outermost last, up to where a value of the
    innermost may stand. -/
inductive Opened (blank : Char → Bool) : List Frame → List Char → Prop
  | nil : Opened blank [] []
  | array {stack s gap r items inner} : Opened blank stack s → IsGap blank gap →
      ItemsRead blank items inner → Opened blank (.array r :: stack) (s ++ gap ++ '[' :: inner)
  | object {stack s gap r k members inner before key colon} : Opened blank stack s →
      IsGap blank gap → MembersRead blank members inner → IsGap blank before → IsBody key →
      IsGap blank colon → Opened blank (.object r k :: stack)
        (s ++ gap ++ '{' :: inner ++ before ++ '"' :: key ++ '"' :: colon ++ [':'])

/-- A text that leads to a reading, without the blanks that may follow. -/
inductive Reached (blank : Char → Bool) : Reading → List Char → Prop
  | value {stack s} : Opened blank stack s → Reached blank (.value stack) s
  | firstItem {stack s gap} : Opened blank stack s → IsGap blank gap →
      Reached blank (.firstItem stack) (s ++ gap ++ ['['])
  | firstKey {stack s gap} : Opened blank stack s → IsGap blank gap →
      Reached blank (.firstKey stack) (s ++ gap ++ ['{'])
  | key {stack s gap r members inner} : Opened blank stack s → IsGap blank gap →
      MembersRead blank members inner → Reached blank (.key r stack) (s ++ gap ++ '{' :: inner)
  | colon {stack s gap r k members inner before key} : Opened blank stack s →
      IsGap blank gap → MembersRead blank members inner → IsGap blank before → IsBody key →
      Reached blank (.colon r k stack)
        (s ++ gap ++ '{' :: inner ++ before ++ '"' :: key ++ ['"'])
  | after {stack s gap v value} : Opened blank stack s → IsGap blank gap → IsValue blank value →
      Reached blank (.after v stack) (s ++ gap ++ value)

/-! ## One token -/

section

variable {stack : List Frame} {s opening gap inner : List Char} {t : Token} {r r' : Reading}
  {members : List Member} {read : List (String × Value)}

/-- Where a value may stand, a token is a scalar, a string, or opens a container. -/
theorem Opened.step (hs : Opened blank stack s) (hgap : IsGap blank gap) (ht : t.IsLoose)
    (h : Reading.stepValue stack t = some r) : Reached blank r (s ++ gap ++ t.lexeme) := by
  cases t with
  | mark m =>
    cases m with
    | openBrace =>
      obtain rfl := Option.some.inj h
      exact .firstKey hs hgap
    | openBracket =>
      obtain rfl := Option.some.inj h
      exact .firstItem hs hgap
    | closeBrace => cases h
    | closeBracket => cases h
    | colon => cases h
    | comma => cases h
  | quoted body =>
    obtain ⟨text, htext, rfl⟩ := Option.map_eq_some_iff.1 h
    exact .after hs hgap (.string (isBody_of_unescape? ht htext))
  | word spelling =>
    obtain ⟨v, hv, rfl⟩ := Option.map_eq_some_iff.1 h
    exact .after hs hgap (.scalar (isScalar_of_ofWord? hv))

theorem Opened.step_firstItem (hs : Opened blank stack s) (hopen : IsGap blank opening)
    (hgap : IsGap blank gap) (ht : t.IsLoose) (h : (Reading.firstItem stack).step t = some r) :
    Reached blank r (s ++ opening ++ ['['] ++ gap ++ t.lexeme) := by
  simp only [Reading.step] at h
  split at h
  · next hclose =>
    subst hclose
    obtain rfl := Option.some.inj h
    have hvalue : IsValue blank ('[' :: gap ++ [']']) := .array (.none hgap) nofun
    have hafter := Reached.after (v := .array []) hs hopen hvalue
    simpa [Token.lexeme, Mark.toChar] using hafter
  · exact (Opened.array (r := []) hs hopen .nil).step hgap ht h

theorem Opened.step_quoted {body : List Char} (hs : Opened blank stack s)
    (hopen : IsGap blank opening) (hmembers : MembersRead blank members inner)
    (hgap : IsGap blank gap) (ht : (Token.quoted body).IsLoose)
    (h : (unescape? body).map (Reading.colon read · stack) = some r) :
    Reached blank r (s ++ opening ++ '{' :: inner ++ gap ++ (Token.quoted body).lexeme) := by
  obtain ⟨k, hk, rfl⟩ := Option.map_eq_some_iff.1 h
  have hcolon := Reached.colon (r := read) (k := k) hs hopen hmembers hgap (isBody_of_unescape? ht hk)
  simpa [Token.lexeme] using hcolon

theorem Opened.step_firstKey (hs : Opened blank stack s) (hopen : IsGap blank opening)
    (hgap : IsGap blank gap) (ht : t.IsLoose) (h : (Reading.firstKey stack).step t = some r) :
    Reached blank r (s ++ opening ++ ['{'] ++ gap ++ t.lexeme) := by
  cases t with
  | mark m =>
    cases m with
    | closeBrace =>
      obtain rfl := Option.some.inj h
      have hnone : Separated blank (List.map Member.text []) gap := .none hgap
      have hvalue : IsValue blank ('{' :: gap ++ ['}']) := .object hnone nofun nofun
      have hafter := Reached.after (v := .object []) hs hopen hvalue
      simpa [Token.lexeme, Mark.toChar] using hafter
    | _ => cases h
  | quoted body => exact hs.step_quoted hopen .nil hgap ht h
  | word w => cases h

theorem Opened.step_key (hs : Opened blank stack s) (hopen : IsGap blank opening)
    (hmembers : MembersRead blank members inner) (hgap : IsGap blank gap) (ht : t.IsLoose)
    (h : (Reading.key read stack).step t = some r) :
    Reached blank r (s ++ opening ++ '{' :: inner ++ gap ++ t.lexeme) := by
  cases t with
  | mark m => cases m <;> cases h
  | quoted body => exact hs.step_quoted hopen hmembers hgap ht h
  | word w => cases h

theorem Opened.step_colon {k : String} {before key : List Char} (hs : Opened blank stack s)
    (hopen : IsGap blank opening) (hmembers : MembersRead blank members inner)
    (hbefore : IsGap blank before) (hkey : IsBody key) (hgap : IsGap blank gap)
    (h : (Reading.colon read k stack).step t = some r) :
    Reached blank r
      (s ++ opening ++ '{' :: inner ++ before ++ '"' :: key ++ ['"'] ++ gap ++ t.lexeme) := by
  cases t with
  | mark m =>
    cases m with
    | colon =>
      obtain rfl := Option.some.inj h
      have hvalue := Reached.value
        (.object (r := read) (k := k) hs hopen hmembers hbefore hkey hgap)
      simpa [Token.lexeme, Mark.toChar] using hvalue
    | _ => cases h
  | quoted body => cases h
  | word w => cases h

/-- Behind a value stands a comma or what closes its container, and nothing behind the outermost. -/
theorem Opened.step_after {v : Value} {before value : List Char} (hs : Opened blank stack s)
    (hbefore : IsGap blank before) (hvalue : IsValue blank value) (hgap : IsGap blank gap)
    (h : (Reading.after v stack).step t = some r) :
    Reached blank r (s ++ before ++ value ++ gap ++ t.lexeme) := by
  cases hs with
  | nil => cases t <;> cases h
  | @array stack s opening read items inner hs hopen hitems =>
    cases t with
    | mark m =>
      cases m with
      | comma =>
        obtain rfl := Option.some.inj h
        have hnext := Reached.value
          (.array (r := v :: read) hs hopen (hitems.snoc hbefore hvalue hgap))
        simpa [Token.lexeme, Mark.toChar] using hnext
      | closeBracket =>
        obtain rfl := Option.some.inj h
        have hafter := Reached.after (v := .array (v :: read).reverse) hs hopen
          (hitems.array hbefore hvalue hgap)
        simpa [Token.lexeme, Mark.toChar] using hafter
      | _ => cases h
    | quoted body => cases h
    | word w => cases h
  | @object stack s opening read k members inner before' key colon hs hopen hmembers hbefore' hkey
      hcolon =>
    have hkeyed : Member.IsKeyed blank ⟨key, colon, before, value⟩ := ⟨hkey, hcolon, hbefore⟩
    cases t with
    | mark m =>
      cases m with
      | comma =>
        obtain rfl := Option.some.inj h
        have hnext := Reached.key (r := (k, v) :: read) hs hopen
          (hmembers.snoc hbefore' hkeyed hvalue hgap)
        simpa [Token.lexeme, Mark.toChar, Member.text] using hnext
      | closeBrace =>
        obtain rfl := Option.some.inj h
        have hafter := Reached.after (v := .object ((k, v) :: read).reverse) hs hopen
          (hmembers.object hbefore' hkeyed hvalue hgap)
        simpa [Token.lexeme, Mark.toChar, Member.text] using hafter
      | _ => cases h
    | quoted body => cases h
    | word w => cases h

/-- **The lexeme of a token leads to what the token makes of a reading.** -/
theorem Reached.step (hr : Reached blank r s) (hgap : IsGap blank gap) (ht : t.IsLoose)
    (h : r.step t = some r') : Reached blank r' (s ++ gap ++ t.lexeme) := by
  cases hr with
  | value hs => exact hs.step hgap ht h
  | firstItem hs hopen => exact hs.step_firstItem hopen hgap ht h
  | firstKey hs hopen => exact hs.step_firstKey hopen hgap ht h
  | key hs hopen hmembers => exact hs.step_key hopen hmembers hgap ht h
  | colon hs hopen hmembers hbefore hkey =>
    exact hs.step_colon hopen hmembers hbefore hkey hgap h
  | after hs hbefore hvalue => exact hs.step_after hbefore hvalue hgap h

end

/-! ## Whole texts -/

theorem Reached.of_spells {tokens : List Token} {s : List Char} (hs : Spells blank tokens s)
    {r : Reading} (h : tokens.reverse.foldlM Reading.step (.value []) = some r) :
    ∃ core gap, s = core ++ gap ∧ IsGap blank gap ∧ Reached blank r core := by
  induction hs generalizing r with
  | nil =>
    obtain rfl := Option.some.inj h
    exact ⟨[], [], rfl, isGap_nil blank, .value .nil⟩
  | blank _ hc ih =>
    obtain ⟨core, gap, rfl, hgap, hr⟩ := ih h
    refine ⟨core, gap ++ [_], List.append_assoc .., ?_, hr⟩
    exact List.forall_mem_append.2 ⟨hgap, List.forall_mem_singleton.2 hc⟩
  | token _ ht ih =>
    rw [List.reverse_cons, List.foldlM_append] at h
    obtain ⟨prior, hprior, hlast⟩ := Option.bind_eq_some_iff.1 h
    obtain ⟨core, gap, rfl, hgap, hr⟩ := ih hprior
    obtain ⟨next, hstep, hnext⟩ := Option.bind_eq_some_iff.1 hlast
    obtain rfl := Option.some.inj hnext
    exact ⟨_, [], (List.append_nil _).symm, isGap_nil blank, hr.step hgap ht hstep⟩

/-- **A text that is parsed is of the grammar**: it is the text of a value with blanks around it. -/
theorem isValue_of_parse? {s : List Char} {v : Value} (h : parse? s = some v) :
    ∃ before value after, s = before ++ value ++ after ∧ IsGap isJsonBlank before ∧
      IsGap isJsonBlank after ∧ IsValue isJsonBlank value := by
  obtain ⟨tokens, htokens, hvalue⟩ := Option.bind_eq_some_iff.1 h
  obtain ⟨r, hfold, hfinish⟩ := Option.bind_eq_some_iff.1 hvalue
  have hspells := spells_of_tokens? htokens
  rw [← List.reverse_reverse tokens] at hfold
  obtain ⟨core, gap, rfl, hgap, hr⟩ := Reached.of_spells hspells hfold
  cases hr with
  | after hs hbefore hv =>
    cases hs with
    | nil => exact ⟨_, _, gap, by rw [List.nil_append], hbefore, hgap, hv⟩
    | array => cases hfinish
    | object => cases hfinish
  | value => cases hfinish
  | firstItem => cases hfinish
  | firstKey => cases hfinish
  | key => cases hfinish
  | colon => cases hfinish

/-- **A text that is parsed and stands between braces is the text of an object.** -/
theorem isObject_of_parse? {inner : List Char} {v : Value}
    (h : parse? ('{' :: inner ++ ['}']) = some v) : IsObject isJsonBlank ('{' :: inner ++ ['}']) := by
  obtain ⟨before, value, after, htext, hbefore, hafter, hvalue⟩ := isValue_of_parse? h
  have hnone : before = [] := by
    cases before with
    | nil => rfl
    | cons c rest =>
      obtain ⟨rfl, -⟩ := List.cons.inj htext
      exact absurd (hbefore _ List.mem_cons_self) (by decide)
  have hlast : after = [] := by
    cases after using List.reverseRecOn with
    | nil => rfl
    | append_singleton rest c =>
      rw [← List.append_assoc] at htext
      obtain ⟨-, hc⟩ := List.append_inj' htext rfl
      obtain rfl := (List.cons.inj hc).1
      exact absurd (hafter _ (List.mem_append_right _ List.mem_cons_self)) (by decide)
  subst hnone hlast
  rw [List.nil_append, List.append_nil] at htext
  rw [htext]
  exact ⟨hvalue, by rw [← htext]; rfl⟩

end ObjectFeed.Json
