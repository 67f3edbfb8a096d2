/-
  The parser takes what the grammar derives.

  * `Takes` says that tokens lead every reading of one kind to one of another, and `Leads` that the
    tokens of a text do, which the text keeps without its blanks;
  * `leads_of_isValue`: the text of a value leads from where a value may stand to after it;
  * `parse?_isSome_iff`: so the text of a value is parsed exactly when every string in it has a
    value, which a surrogate by itself has not.
-/
import ObjectFeed.Proofs.Json.Layout
import ObjectFeed.Proofs.Json.Numbers

namespace ObjectFeed.Json

open Text (isBlank isJsonBlank isBlank_of_isJsonBlank)

/-! ## Readings -/

/-- Tokens that lead every reading of the one kind to a reading of the other. -/
def Takes (S T : Reading → Prop) (tokens : List Token) : Prop :=
  ∀ r, S r → ∃ r', tokens.foldlM Reading.step r = some r' ∧ T r'

theorem Takes.append {S T U : Reading → Prop} {left right : List Token} (hl : Takes S T left)
    (hr : Takes T U right) : Takes S U (left ++ right) := by
  intro r hS
  obtain ⟨r', hleft, hT⟩ := hl r hS
  obtain ⟨r'', hright, hU⟩ := hr r' hT
  refine ⟨r'', ?_, hU⟩
  rw [List.foldlM_append, hleft]
  exact hright

theorem Takes.one {S T : Reading → Prop} {t : Token}
    (h : ∀ r, S r → ∃ r', r.step t = some r' ∧ T r') : Takes S T [t] := by
  intro r hS
  obtain ⟨r', hstep, hT⟩ := h r hS
  exact ⟨r', by rw [List.foldlM_cons, hstep]; rfl, hT⟩

/-- Every string among the tokens has a value. -/
def Unescapes (tokens : List Token) : Prop :=
  ∀ body, .quoted body ∈ tokens → (unescape? body).isSome

theorem Unescapes.append {left right : List Token} :
    Unescapes (left ++ right) ↔ Unescapes left ∧ Unescapes right := by
  constructor
  · intro h
    exact ⟨fun body hb => h body (List.mem_append_left _ hb),
      fun body hb => h body (List.mem_append_right _ hb)⟩
  · rintro ⟨hl, hr⟩ body hb
    exact (List.mem_append.1 hb).elim (hl body) (hr body)

/-- A text whose tokens lead readings of the one kind to the other, if its strings have values. -/
def Leads (blank : Char → Bool) (S T : Reading → Prop) (s : List Char) : Prop :=
  ∃ tokens, Keeps blank s tokens ∧ (Unescapes tokens → Takes S T tokens)

variable {blank : Char → Bool} {S T U V : Reading → Prop}

theorem Leads.nil : Leads blank S S [] :=
  ⟨[], .nil, fun _ r hS => ⟨r, rfl, hS⟩⟩

theorem Leads.mark {s t : List Char} (hs : Leads blank S T s) {m : Mark}
    (hm : Takes T U [.mark m]) (ht : Leads blank U V t) :
    Leads blank S V (s ++ m.toChar :: t) := by
  obtain ⟨left, hleft, hl⟩ := hs
  obtain ⟨right, hright, hr⟩ := ht
  refine ⟨_, hleft.mark m hright, fun hunescapes => ?_⟩
  obtain ⟨hl', hr'⟩ := Unescapes.append.1 hunescapes
  exact (hl hl').append (hm.append (hr fun body hb => hr' body (List.mem_cons_of_mem _ hb)))

theorem Leads.string {body : List Char} (h : IsLooseBody body)
    (htake : ∀ k, unescape? body = some k → Takes S T [.quoted body]) :
    Leads blank S T ('"' :: body ++ ['"']) := by
  refine ⟨_, .string h, fun hunescapes => ?_⟩
  obtain ⟨k, hk⟩ := Option.isSome_iff_exists.1 (hunescapes body List.mem_cons_self)
  exact htake k hk

theorem Leads.mono {s : List Char} (hs : Leads blank S T s)
    (h : ∀ tokens, Takes S T tokens → Takes U V tokens) : Leads blank U V s := by
  obtain ⟨tokens, hkeeps, hlead⟩ := hs
  exact ⟨tokens, hkeeps, fun hunescapes => h tokens (hlead hunescapes)⟩

/-- The tokens of a text do not depend on the readings they lead on. -/
theorem Leads.exists {ι : Type} [Nonempty ι] {S T : ι → Reading → Prop} {s : List Char}
    (h : ∀ i, Leads blank (S i) (T i) s) :
    Leads blank (fun r => ∃ i, S i r) (fun r => ∃ i, T i r) s := by
  obtain ⟨tokens, hkeeps, -⟩ := h (Classical.choice inferInstance)
  refine ⟨tokens, hkeeps, fun hunescapes r hS => ?_⟩
  obtain ⟨i, hi⟩ := hS
  obtain ⟨tokens', hkeeps', hlead⟩ := h i
  have hsame : some tokens = some tokens' := by
    rw [← hkeeps.lexes.tokens?, ← hkeeps'.lexes.tokens?]
  obtain rfl := Option.some.inj hsame
  obtain ⟨r', hfold, hT⟩ := hlead hunescapes r hi
  exact ⟨r', hfold, i, hT⟩

theorem Takes.firstItem {stack : List Frame} {tokens : List Token}
    (h : Takes (fun r => ∃ items, r = .value (.array items :: stack)) T tokens)
    (hT : ¬ T (.value (.array [] :: stack))) :
    Takes (· = .firstItem stack) T tokens := by
  rintro r rfl
  obtain ⟨r', hfold, hr'⟩ := h _ ⟨[], rfl⟩
  refine ⟨r', ?_, hr'⟩
  cases tokens with
  | nil =>
    cases hfold
    exact absurd hr' hT
  | cons t rest =>
    by_cases ht : t = .mark .closeBracket
    · subst ht
      cases hfold
    · rw [List.foldlM_cons] at hfold ⊢
      simpa only [Reading.step, ht, if_false] using hfold

theorem Takes.firstKey {stack : List Frame} {tokens : List Token}
    (h : Takes (fun r => ∃ members, r = .key members stack) T tokens) (hT : ¬ T (.key [] stack)) :
    Takes (· = .firstKey stack) T tokens := by
  rintro r rfl
  obtain ⟨r', hfold, hr'⟩ := h _ ⟨[], rfl⟩
  refine ⟨r', ?_, hr'⟩
  cases tokens with
  | nil =>
    cases hfold
    exact absurd hr' hT
  | cons t rest =>
    rw [List.foldlM_cons] at hfold ⊢
    cases t with
    | mark m => cases hfold
    | quoted body => exact hfold
    | word w => cases hfold

section

variable (hgap : ∀ c, blank c = true → isBlank c = true)
include hgap

theorem Leads.surround {before s after : List Char} (hbefore : IsGap blank before)
    (hs : Leads blank S T s) (hafter : IsGap blank after) :
    Leads blank S T (before ++ s ++ after) := by
  obtain ⟨tokens, hkeeps, hlead⟩ := hs
  exact ⟨tokens, hkeeps.surround hgap hbefore hafter, hlead⟩

theorem Leads.gap {gap : List Char} (hg : IsGap blank gap) : Leads blank S S gap := by
  have hempty := Leads.surround (S := S) hgap hg .nil (isGap_nil blank)
  rw [List.append_nil, List.append_nil] at hempty
  exact hempty

theorem Leads.separated {pieces : List (List Char)} {s : List Char}
    (hs : Separated blank pieces s) (hne : pieces ≠ [])
    (hpieces : ∀ p ∈ pieces, Leads blank S T p) (hcomma : Takes T S [.mark .comma]) :
    Leads blank S T s := by
  induction hs with
  | none => exact absurd rfl hne
  | last hbefore hafter =>
    exact .surround hgap hbefore (hpieces _ List.mem_cons_self) hafter
  | more hbefore hafter _ ih =>
    have hrest := ih (List.cons_ne_nil _ _) fun p hp => hpieces p (List.mem_cons_of_mem _ hp)
    exact (Leads.surround hgap hbefore (hpieces _ List.mem_cons_self) hafter).mark hcomma hrest

theorem Leads.member {m : Member} (hm : m.IsKeyed blank) {stack : List Frame}
    (hvalue : ∀ frame, Leads blank (· = .value (frame :: stack))
      (fun r => ∃ v, r = .after v (frame :: stack)) m.value) :
    Leads blank (fun r => ∃ members, r = .key members stack)
      (fun r => ∃ v members key, r = .after v (.object members key :: stack)) m.text := by
  obtain ⟨hkey, hbefore, hafter⟩ := hm
  have hleft : Leads blank (fun r => ∃ members, r = .key members stack)
      (fun r => ∃ members key, r = .colon members key stack) ('"' :: m.key ++ ['"']) := by
    refine .string hkey.loose fun k hk => .one ?_
    rintro r ⟨members, rfl⟩
    exact ⟨.colon members k stack, by simp [Reading.step, hk], members, k, rfl⟩
  have hcolon : Takes (fun r => ∃ members key, r = .colon members key stack)
      (fun r => ∃ p : List (String × Value) × String, r = .value (.object p.1 p.2 :: stack))
      [.mark .colon] := by
    refine .one ?_
    rintro r ⟨members, key, rfl⟩
    exact ⟨_, rfl, (members, key), rfl⟩
  have hright : Leads blank
      (fun r => ∃ p : List (String × Value) × String, r = .value (.object p.1 p.2 :: stack))
      (fun r => ∃ v members key, r = .after v (.object members key :: stack)) m.value := by
    refine (Leads.exists fun p : List (String × Value) × String =>
      hvalue (.object p.1 p.2)).mono fun tokens htakes r hr => ?_
    obtain ⟨r', hfold, p, v, rfl⟩ := htakes r hr
    exact ⟨_, hfold, v, p.1, p.2, rfl⟩
  have htext : m.text = [] ++ ('"' :: m.key ++ ['"']) ++ m.before ++
      Mark.colon.toChar :: (m.after ++ m.value ++ []) := by
    simp [Member.text, Mark.toChar]
  rw [htext]
  exact (Leads.surround hgap (isGap_nil blank) hleft hbefore).mark hcolon
    (.surround hgap hafter hright (isGap_nil blank))

theorem Leads.items {items : List (List Char)} {s : List Char} (hsep : Separated blank items s)
    {stack : List Frame} (hitem : ∀ item ∈ items, ∀ frame, Leads blank (· = .value (frame :: stack))
      (fun r => ∃ v, r = .after v (frame :: stack)) item) :
    Leads blank (· = .firstItem stack) (fun r => ∃ v, r = .after v stack)
      (s ++ Mark.closeBracket.toChar :: []) := by
  by_cases hitems : items = []
  · subst hitems
    have hclose : Takes (· = .firstItem stack) (fun r => ∃ v, r = .after v stack)
        [.mark .closeBracket] := by
      refine .one ?_
      rintro r rfl
      exact ⟨_, rfl, _, rfl⟩
    exact (Leads.gap hgap hsep.gap_of_nil).mark hclose .nil
  · have hclose : Takes (fun r => ∃ items v, r = .after v (.array items :: stack))
        (fun r => ∃ v, r = .after v stack) [.mark .closeBracket] := by
      refine .one ?_
      rintro r ⟨items, v, rfl⟩
      exact ⟨_, rfl, _, rfl⟩
    have hcomma : Takes (fun r => ∃ items v, r = .after v (.array items :: stack))
        (fun r => ∃ items, r = .value (.array items :: stack)) [.mark .comma] := by
      refine .one ?_
      rintro r ⟨items, v, rfl⟩
      exact ⟨_, rfl, _, rfl⟩
    have hall := Leads.separated hgap hsep hitems
      (fun item h => .exists fun items => hitem item h (.array items)) hcomma
    have hfirst : Leads blank (· = .firstItem stack)
        (fun r => ∃ items v, r = .after v (.array items :: stack)) s := by
      refine hall.mono fun tokens htakes => htakes.firstItem ?_
      rintro ⟨items, v, h⟩
      cases h
    exact hfirst.mark hclose .nil

theorem Leads.members {members : List Member} {s : List Char}
    (hsep : Separated blank (members.map Member.text) s) (hkeyed : ∀ m ∈ members, m.IsKeyed blank)
    {stack : List Frame}
    (hvalue : ∀ m ∈ members, ∀ frame, Leads blank (· = .value (frame :: stack))
      (fun r => ∃ v, r = .after v (frame :: stack)) m.value) :
    Leads blank (· = .firstKey stack) (fun r => ∃ v, r = .after v stack)
      (s ++ Mark.closeBrace.toChar :: []) := by
  by_cases hmembers : members = []
  · subst hmembers
    have hclose : Takes (· = .firstKey stack) (fun r => ∃ v, r = .after v stack)
        [.mark .closeBrace] := by
      refine .one ?_
      rintro r rfl
      exact ⟨_, rfl, _, rfl⟩
    exact (Leads.gap hgap hsep.gap_of_nil).mark hclose .nil
  · have hclose : Takes (fun r => ∃ v members key, r = .after v (.object members key :: stack))
        (fun r => ∃ v, r = .after v stack) [.mark .closeBrace] := by
      refine .one ?_
      rintro r ⟨v, members, key, rfl⟩
      exact ⟨_, rfl, _, rfl⟩
    have hcomma : Takes (fun r => ∃ v members key, r = .after v (.object members key :: stack))
        (fun r => ∃ members, r = .key members stack) [.mark .comma] := by
      refine .one ?_
      rintro r ⟨v, members, key, rfl⟩
      exact ⟨_, rfl, _, rfl⟩
    have hmember : ∀ text ∈ members.map Member.text,
        Leads blank (fun r => ∃ members, r = .key members stack)
          (fun r => ∃ v members key, r = .after v (.object members key :: stack)) text := by
      intro text htext
      obtain ⟨m, hm, rfl⟩ := List.mem_map.1 htext
      exact .member hgap (hkeyed m hm) (hvalue m hm)
    have htexts : members.map Member.text ≠ [] := fun h => hmembers (List.map_eq_nil_iff.1 h)
    have hall := Leads.separated hgap hsep htexts hmember hcomma
    have hfirst : Leads blank (· = .firstKey stack)
        (fun r => ∃ v members key, r = .after v (.object members key :: stack)) s := by
      refine hall.mono fun tokens htakes => htakes.firstKey ?_
      rintro ⟨v, members, key, h⟩
      cases h
    exact hfirst.mark hclose .nil

/-- **The tokens of a value are read as a value**, in whatever containers it stands, with the blanks
    outside its strings and without them. -/
theorem leads_of_isValue {s : List Char} (h : IsValue blank s) (stack : List Frame) :
    Leads blank (· = .value stack) (fun r => ∃ v, r = .after v stack) s := by
  induction h generalizing stack with
  | scalar hs =>
    refine ⟨_, .word hgap hs.ne_nil hs.isPlain, fun _ => .one ?_⟩
    rintro r rfl
    obtain ⟨v, hv⟩ := Option.isSome_iff_exists.1 (isSome_ofWord? hs)
    exact ⟨.after v stack, by simp [Reading.step, Reading.stepValue, hv], v, rfl⟩
  | string hbody =>
    refine .string hbody.loose fun k hk => .one ?_
    rintro r rfl
    exact ⟨.after (.string k) stack, by simp [Reading.step, Reading.stepValue, hk], _, rfl⟩
  | array hsep _ ih =>
    have hopen : Takes (· = .value stack) (· = .firstItem stack) [.mark .openBracket] := by
      refine .one ?_
      rintro r rfl
      exact ⟨_, rfl, rfl⟩
    exact Leads.nil.mark hopen
      (.items hgap hsep fun item hitem frame => ih item hitem (frame :: stack))
  | object hsep hkeyed _ ih =>
    have hopen : Takes (· = .value stack) (· = .firstKey stack) [.mark .openBrace] := by
      refine .one ?_
      rintro r rfl
      exact ⟨_, rfl, rfl⟩
    exact Leads.nil.mark hopen
      (.members hgap hsep hkeyed fun m hm frame => ih m hm (frame :: stack))

end

/-! ## Values -/

theorem isSome_unescape?_of_step {r r' : Reading} {body : List Char}
    (h : r.step (.quoted body) = some r') : (unescape? body).isSome := by
  cases hbody : unescape? body with
  | some k => rfl
  | none =>
    exfalso
    unfold Reading.step at h
    split at h <;> simp_all [Reading.stepValue]

theorem unescapes_of_foldlM {tokens : List Token} {r r' : Reading}
    (h : tokens.foldlM Reading.step r = some r') : Unescapes tokens := by
  induction tokens generalizing r with
  | nil =>
    intro body hbody
    cases hbody
  | cons t tokens ih =>
    rw [List.foldlM_cons] at h
    obtain ⟨next, hstep, hrest⟩ := Option.bind_eq_some_iff.1 h
    intro body hbody
    rcases List.mem_cons.1 hbody with rfl | hbody
    · exact isSome_unescape?_of_step hstep
    · exact ih hrest body hbody

/-- **The text of a value is parsed exactly when every string in it has a value.** -/
theorem parse?_isSome_iff {s : List Char} (h : IsValue isJsonBlank s) {tokens : List Token}
    (htokens : tokens? isJsonBlank s = some tokens) : (parse? s).isSome ↔ Unescapes tokens := by
  rw [parse?, htokens, Option.bind_some]
  constructor
  · intro hsome
    obtain ⟨v, hv⟩ := Option.isSome_iff_exists.1 hsome
    obtain ⟨r, hfold, -⟩ := Option.bind_eq_some_iff.1 hv
    exact unescapes_of_foldlM hfold
  · intro hunescapes
    obtain ⟨tokens', hkeeps, hlead⟩ :=
      leads_of_isValue (fun _ => isBlank_of_isJsonBlank) h []
    have hsame := hkeeps.lexes.tokens?
    rw [htokens] at hsame
    obtain rfl := Option.some.inj hsame
    obtain ⟨r, hfold, v, rfl⟩ := hlead hunescapes _ rfl
    rw [Value.ofTokens?, hfold]
    rfl

end ObjectFeed.Json
