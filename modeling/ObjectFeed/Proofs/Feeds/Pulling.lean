/-
  What feeds that pull give.

  * `Supply.Answers` are the fragments and faults that a supply gives until it ends, and
    `OctetReader.Answers` the chunks and faults that a reader does.  `OctetReader.Reads` are the chunks
    of a reader that does not fail;
  * `PullFeed.yields_arrivals`: a feed yields the items that are ahead of its hopper, if this is what
    its supply answers;
  * `PullFeed.ask_lasts`: a feed that gave its end gives it again;
  * `ReaderSupply.answers_received`: over a reader, that is what arrives of what it brings;
  * `Supply.Brings`, `OctetReader.Brings`, `PullFeed.yields` and `ReaderSupply.brings` are these for
    fragments without faults and octets that are text.
-/
import ObjectFeed.Proofs.Feeds.Runs
import ObjectFeed.Proofs.Utf8.Decoding
import ObjectFeed.PullFeed

namespace ObjectFeed

/-! ## Supplies -/

/-- The fragment that an answer brings, if it brings one. -/
def Pulled.fragment? : Pulled → Option String
  | .fragment text => some text
  | _ => none

/-- A supply gives these fragments and faults, and then its end. -/
inductive Supply.Answers {σ : Type} [Supply σ] : σ → List Arrival → Prop where
  | ended {s s' : σ} : pull s = (.ended, s') → Answers s []
  | fragment {s s' : σ} {text : String} {arrivals : List Arrival} :
      pull s = (.fragment text, s') → Answers s' arrivals → Answers s (.ok text :: arrivals)
  | failed {s s' : σ} {fault : Fault} {arrivals : List Arrival} :
      pull s = (.failed fault, s') → Answers s' arrivals → Answers s (.error fault :: arrivals)

/-- A supply brings these fragments and then its end. -/
inductive Supply.Brings {σ : Type} [Supply σ] : σ → List String → Prop where
  | ended {s s' : σ} : pull s = (.ended, s') → Brings s []
  | fragment {s s' : σ} {text : String} {texts : List String} :
      pull s = (.fragment text, s') → Brings s' texts → Brings s (text :: texts)

section

variable {σ : Type} [Supply σ] {s s' : σ} {arrivals : List Arrival} {texts : List String}

theorem Supply.Answers.congr (h : pull s = pull s') (hs : Answers s' arrivals) :
    Answers s arrivals := by
  cases hs with
  | ended hpull => exact .ended (h.trans hpull)
  | fragment hpull hrest => exact .fragment (h.trans hpull) hrest
  | failed hpull hrest => exact .failed (h.trans hpull) hrest

theorem Supply.brings_iff_answers : Brings s texts ↔ Answers s (texts.map .ok) := by
  constructor
  · intro hs
    induction hs with
    | ended hpull => exact .ended hpull
    | fragment hpull _ ih => exact .fragment hpull ih
  · intro hs
    induction texts generalizing s with
    | nil =>
      cases hs with
      | ended hpull => exact .ended hpull
    | cons text texts ih =>
      cases hs with
      | fragment hpull hrest => exact .fragment hpull (ih hrest)

end

theorem Fragments.answers (list : List Arrival) : Supply.Answers (⟨list⟩ : Fragments) list := by
  induction list with
  | nil => exact .ended rfl
  | cons arrival list ih =>
    cases arrival with
    | error fault => exact .failed rfl ih
    | ok text => exact .fragment rfl ih

theorem Fragments.brings_ofList (fragments : List String) :
    Supply.Brings (ofList fragments) fragments := by
  induction fragments with
  | nil => exact .ended rfl
  | cons fragment fragments ih => exact .fragment rfl ih

namespace PullFeed

variable {σ α : Type} [Supply σ] {supply supply' : σ} {h h' : Hopper α}

/-- A feed that pulls is always ready. -/
def ask (f : PullFeed σ α) : Readiness (Option (Item α)) × PullFeed σ α :=
  (.ready f.next.1, f.next.2)

theorem ask_of_dispensed {item : Item α} (hd : h.dispense = (some item, h')) :
    ask { supply, hopper := h } = (.ready (some item), { supply, hopper := h' }) := by
  rw [ask, next, hd]

theorem ask_of_over (hd : h.dispense = (none, h')) (hlive : h'.isLive = false) :
    ask { supply, hopper := h } = (.ready none, { supply, hopper := h' }) := by
  rw [ask, next, hd]
  simp only [hlive, Bool.not_false, if_true]

theorem next_of_drained (hd : h.dispense = (none, h')) (hlive : h'.isLive = true) :
    next { supply, hopper := h } =
      match Supply.pull supply with
      | (.fragment text, supply) =>
        if (h'.pour text).isLive then next { supply, hopper := h'.pour text }
        else next { supply := Supply.close supply, hopper := h'.pour text }
      | (.ended, supply) =>
        (h'.endInput.1.map .error, { supply := Supply.close supply, hopper := h'.endInput.2 })
      | (.failed fault, supply) => (some (.error (.transport fault)), { supply, hopper := h' }) := by
  rw [next, hd]
  simp only [hlive, Bool.not_true, Bool.false_eq_true, if_false]
  -- the termination proof reads the answer of the supply, so it is only split here
  split <;> rename_i hpull <;> simp only [hpull]

theorem ask_of_ended (hd : h.dispense = (none, h')) (hlive : h'.isLive = true)
    (hpull : Supply.pull supply = (.ended, supply')) :
    ask { supply, hopper := h } =
      (.ready (h'.endInput.1.map .error),
        { supply := Supply.close supply', hopper := h'.endInput.2 }) := by
  rw [ask, next_of_drained hd hlive, hpull]

/-- The feed goes on with the fragment, and lets go of the supply if it cannot be split. -/
theorem ask_of_fragment {text : String} (hd : h.dispense = (none, h')) (hlive : h'.isLive = true)
    (hpull : Supply.pull supply = (.fragment text, supply')) :
    ask { supply, hopper := h } =
      ask { supply := if (h'.pour text).isLive then supply' else Supply.close supply'
            hopper := h'.pour text } := by
  rw [ask, next_of_drained hd hlive, hpull]
  cases hpoured : (h'.pour text).isLive with
  | true => simp only [hpoured, if_true, ask]
  | false => simp only [hpoured, Bool.false_eq_true, if_false, ask]

theorem ask_of_failed {fault : Fault} (hd : h.dispense = (none, h')) (hlive : h'.isLive = true)
    (hpull : Supply.pull supply = (.failed fault, supply')) :
    ask { supply, hopper := h } =
      (.ready (some (.error (.transport fault))), { supply := supply', hopper := h' }) := by
  rw [ask, next_of_drained hd hlive, hpull]

theorem handsOut (supply : σ) : HandsOut ask fun h : Hopper α => { supply, hopper := h } where
  dispensed := ask_of_dispensed
  spent := ask_of_over

/-- **A feed that pulls yields what is ahead of its hopper**, if this is what its supply answers. -/
theorem yields_arrivals {arrivals : List Arrival} (hs : Supply.Answers supply arrivals)
    (h : Hopper α) :
    Yields ask { supply, hopper := h } (h.ahead h.settings.ending arrivals) := by
  induction hs generalizing h with
  | @ended supply supply' hpull =>
    refine (handsOut _).yields_of_drained h ?_
    intro h₀ h' hd hframe hlive hqueued
    obtain ⟨hitem, hover, hempty⟩ := Hopper.endInput_eq hqueued
    rw [Hopper.ahead_of_drained _ _ hlive hqueued, itemsThrough, ← hframe.settings, ← hitem]
    exact .last (ask_of_ended hd hlive hpull) ((handsOut _).yields_nil hover hempty)
  | @fragment supply supply' text arrivals hpull _ ih =>
    refine (handsOut _).yields_of_drained h ?_
    intro h₀ h' hd hframe hlive hqueued
    have hask := ask_of_fragment hd hlive hpull
    have hrest := ih (h'.pour text)
    rw [Hopper.pour_settings, hframe.settings] at hrest
    rw [Hopper.ahead_pour _ _ hlive hqueued]
    cases hpoured : (h'.pour text).isLive with
    | true =>
      rw [hpoured, if_pos rfl] at hask
      exact .congr hask hrest
    | false => exact .congr hask ((handsOut _).yields_of_not_live hpoured _ arrivals)
  | @failed supply supply' fault arrivals hpull _ ih =>
    refine (handsOut _).yields_of_drained h ?_
    intro h₀ h' hd hframe hlive hqueued
    have hrest := ih h'
    rw [hframe.settings] at hrest
    rw [Hopper.ahead_fault _ _ hlive hqueued]
    exact .item (ask_of_failed hd hlive hpull) hrest

theorem yields {fragments : List String} (hs : Supply.Brings supply fragments) (h : Hopper α) :
    Yields ask { supply, hopper := h } (h.coming fragments) := by
  rw [Hopper.coming_eq_ahead]
  exact yields_arrivals (Supply.brings_iff_answers.1 hs) h

/-! ### The end -/

/-- The feed takes no more fragments, and nothing is queued. -/
def IsDone (f : PullFeed σ α) : Prop :=
  f.hopper.isLive = false ∧ f.hopper.queued = []

theorem isDone_of_next (f : PullFeed σ α) (hnext : f.next.1 = none) : f.next.2.IsDone := by
  revert hnext
  fun_induction next f with
  | case1 f item h' hd => exact nofun
  | case2 f h' hd hlive =>
    exact fun _ => ⟨by simpa using hlive, (Hopper.queued_of_dispense_none hd).2⟩
  | case3 f h' hd hlive text supply hpull poured hpoured ih => exact ih
  | case4 f h' hd hlive text supply hpull poured hpoured ih => exact ih
  | case5 f h' hd hlive supply hpull failure ended hend =>
    intro _
    obtain ⟨-, hover, hqueued⟩ := Hopper.endInput_eq (Hopper.queued_of_dispense_none hd).2
    rw [hend] at hover hqueued
    exact ⟨hover, hqueued⟩
  | case6 f h' hd hlive fault supply hpull => exact nofun

theorem IsDone.next {f : PullFeed σ α} (hf : f.IsDone) : f.next.1 = none := by
  obtain ⟨hlive, hqueued⟩ := hf
  obtain ⟨h', hd, hframe⟩ := Hopper.dispense_of_queued_nil hqueued
  have hask : ask f = (.ready none, { f with hopper := h' }) :=
    ask_of_over hd (hframe.isLive.trans hlive)
  exact Readiness.ready.inj (congrArg Prod.fst hask)

/-- **A feed that gave its end gives it again.** -/
theorem ask_lasts (f : PullFeed σ α) (hask : f.ask.1 = .ready none) :
    f.ask.2.ask.1 = .ready none :=
  congrArg Readiness.ready (isDone_of_next f (Readiness.ready.inj hask)).next

end PullFeed

/-! ## Readers -/

/-- Asked for at most `n` octets at a time, a reader brings these chunks, which have some octets each,
    and then its end.  It may be interrupted. -/
inductive OctetReader.Reads {ρ : Type} [OctetReader ρ] (n : Nat) : ρ → List Octets → Prop where
  | ended {r r' : ρ} : read n r = (.octets [], r') → Reads n r []
  | octets {r r' : ρ} {chunk : Octets} {chunks : List Octets} :
      read n r = (.octets chunk, r') → chunk ≠ [] → Reads n r' chunks →
      Reads n r (chunk :: chunks)
  | interrupted {r r' : ρ} {fault : Fault} {chunks : List Octets} :
      read n r = (.failed fault, r') → fault.kind = .interrupted → Reads n r' chunks →
      Reads n r chunks

/-- Asked for at most `n` octets at a time, a reader brings these octets, any number of them at a
    time, and then its end.  It may be interrupted. -/
inductive OctetReader.Brings {ρ : Type} [OctetReader ρ] (n : Nat) : ρ → Octets → Prop where
  | ended {r r' : ρ} : read n r = (.octets [], r') → Brings n r []
  | octets {r r' : ρ} {octets coming : Octets} :
      read n r = (.octets octets, r') → octets ≠ [] → Brings n r' coming →
      Brings n r (octets ++ coming)
  | interrupted {r r' : ρ} {fault : Fault} {coming : Octets} :
      read n r = (.failed fault, r') → fault.kind = .interrupted → Brings n r' coming →
      Brings n r coming

/-- Asked for at most `n` octets at a time, a reader brings these chunks, which have some octets each,
    fails in between as told, and then comes to its end.  That it was interrupted is not told. -/
inductive OctetReader.Answers {ρ : Type} [OctetReader ρ] (n : Nat) : ρ → List Delivery → Prop where
  | ended {r r' : ρ} : read n r = (.octets [], r') → Answers n r []
  | octets {r r' : ρ} {chunk : Octets} {deliveries : List Delivery} :
      read n r = (.octets chunk, r') → chunk ≠ [] → Answers n r' deliveries →
      Answers n r (.ok chunk :: deliveries)
  | failed {r r' : ρ} {fault : Fault} {deliveries : List Delivery} :
      read n r = (.failed fault, r') → fault.kind ≠ .interrupted → Answers n r' deliveries →
      Answers n r (.error fault :: deliveries)
  | interrupted {r r' : ρ} {fault : Fault} {deliveries : List Delivery} :
      read n r = (.failed fault, r') → fault.kind = .interrupted → Answers n r' deliveries →
      Answers n r deliveries

namespace OctetReader

variable {ρ : Type} [OctetReader ρ] {n : { n : Nat // 0 < n }} {r r' : ρ}

theorem Reads.answers {m : Nat} {chunks : List Octets} (hr : Reads m r chunks) :
    Answers m r (chunks.map .ok) := by
  induction hr with
  | ended hread => exact .ended hread
  | octets hread hne _ ih => exact .octets hread hne ih
  | interrupted hread hkind _ ih => exact .interrupted hread hkind ih

theorem Brings.congr {m : Nat} {coming : Octets} (h : read m r = read m r')
    (hr : Brings m r' coming) : Brings m r coming := by
  cases hr with
  | ended hread => exact .ended (h.trans hread)
  | octets hread hne hrest => exact .octets (h.trans hread) hne hrest
  | interrupted hread hkind hrest => exact .interrupted (h.trans hread) hkind hrest

theorem exists_reads {m : Nat} {coming : Octets} (hr : Brings m r coming) :
    ∃ chunks, Reads m r chunks ∧ chunks.flatten = coming := by
  induction hr with
  | ended hread => exact ⟨[], .ended hread, rfl⟩
  | octets hread hne _ ih =>
    obtain ⟨chunks, hchunks, rfl⟩ := ih
    exact ⟨_, .octets hread hne hchunks, rfl⟩
  | interrupted hread hkind _ ih =>
    obtain ⟨chunks, hchunks, rfl⟩ := ih
    exact ⟨chunks, .interrupted hread hkind hchunks, rfl⟩

theorem Answers.ne_interrupted {m : Nat} {deliveries : List Delivery} (hr : Answers m r deliveries) :
    ∀ fault ∈ faults deliveries, fault.kind ≠ .interrupted := by
  induction hr with
  | ended => exact nofun
  | octets _ _ _ ih => exact ih
  | failed _ hkind _ ih =>
    intro fault hfault
    rcases List.mem_cons.1 hfault with rfl | hfault
    · exact hkind
    · exact ih fault hfault
  | interrupted _ _ _ ih => exact ih

theorem readThrough_of_octets {octets : Octets} (h : read n.val r = (.octets octets, r')) :
    readThrough n r = (.octets octets, r') := by
  rw [readThrough]
  split <;> rename_i hread <;> rw [h] at hread <;> cases hread
  rfl

theorem readThrough_of_failed {fault : Fault} (h : read n.val r = (.failed fault, r'))
    (hkind : fault.kind ≠ .interrupted) : readThrough n r = (.failed fault, r') := by
  rw [readThrough]
  split <;> rename_i hread <;> rw [h] at hread <;> cases hread
  rw [dif_neg hkind]

theorem readThrough_of_interrupted {fault : Fault} (h : read n.val r = (.failed fault, r'))
    (hkind : fault.kind = .interrupted) : readThrough n r = readThrough n r' := by
  rw [readThrough]
  split <;> rename_i hread <;> rw [h] at hread <;> cases hread
  rw [dif_pos hkind]

end OctetReader

namespace ReaderSupply

variable {ρ : Type} [OctetReader ρ] {reader reader' : ρ} {readSize : Nat} {carry : Utf8.Carry}

theorem pull_of_released : pull { reader, readSize, carry, released := true } =
    (.ended, { reader, readSize, carry, released := true }) := rfl

/-- The end of the input is a fault inside a code point, and the reader is released. -/
theorem pull_of_ended (carry : Utf8.Carry)
    (hread : OctetReader.read (max readSize 1) reader = (.octets [], reader')) :
    pull { reader, readSize, carry } =
      (match carry.unfinished? with
        | none => .ended
        | some fault => .failed fault,
        { reader := reader', readSize, carry := .empty, released := true }) := by
  have hthrough := OctetReader.readThrough_of_octets (n := asked { reader, readSize }) hread
  simp only [pull, Bool.false_eq_true, if_false, asked] at hthrough ⊢
  rw [hthrough]
  simp only [carry.flush_eq]
  cases carry.unfinished? <;> rfl

theorem pull_of_octets {chunk : Octets} {answer : Arrival} {next : Utf8.Carry}
    (hread : OctetReader.read (max readSize 1) reader = (.octets chunk, reader'))
    (hne : chunk ≠ []) (hpush : carry.push chunk = (answer, next)) :
    pull { reader, readSize, carry } =
      (match answer with
        | .ok text => .fragment text
        | .error fault => .failed fault,
        { reader := reader', readSize, carry := next }) := by
  have hthrough := OctetReader.readThrough_of_octets (n := asked { reader, readSize }) hread
  obtain ⟨b, more, rfl⟩ := List.exists_cons_of_ne_nil hne
  simp only [pull, Bool.false_eq_true, if_false, asked] at hthrough ⊢
  rw [hthrough]
  cases answer <;> simp only [hpush]

theorem pull_of_interrupted (carry : Utf8.Carry) {fault : Fault}
    (hread : OctetReader.read (max readSize 1) reader = (.failed fault, reader'))
    (hkind : fault.kind = .interrupted) :
    pull { reader, readSize, carry } = pull { reader := reader', readSize, carry } := by
  have hthrough :=
    OctetReader.readThrough_of_interrupted (n := asked { reader, readSize }) hread hkind
  simp only [pull, Bool.false_eq_true, if_false, asked] at hthrough ⊢
  rw [hthrough]

theorem pull_of_failed (carry : Utf8.Carry) {fault : Fault}
    (hread : OctetReader.read (max readSize 1) reader = (.failed fault, reader'))
    (hkind : fault.kind ≠ .interrupted) :
    pull { reader, readSize, carry } = (.failed fault, { reader := reader', readSize, carry }) := by
  have hthrough := OctetReader.readThrough_of_failed (n := asked { reader, readSize }) hread hkind
  simp only [pull, Bool.false_eq_true, if_false, asked] at hthrough ⊢
  rw [hthrough]

/-- **The answers of a supply over a reader are what arrives of what it brings**, and a fault if the
    last of its chunks ends inside a code point. -/
theorem answers_received (carry : Utf8.Carry) {deliveries : List Delivery}
    (hr : OctetReader.Answers (max readSize 1) reader deliveries) :
    Supply.Answers { reader, readSize, carry : ReaderSupply ρ }
      (carry.received deliveries ++
        ((carry.afterChunks (arrived deliveries)).unfinished?.map .error).toList) := by
  induction hr generalizing carry with
  | ended hread =>
    have hpull := pull_of_ended carry hread
    rw [Utf8.Carry.received, List.nil_append, arrived_nil, Utf8.Carry.afterChunks, List.foldl_nil]
    cases hunfinished : carry.unfinished? with
    | none =>
      rw [hunfinished] at hpull
      exact .ended hpull
    | some fault =>
      rw [hunfinished] at hpull
      exact .failed hpull (.ended pull_of_released)
  | @octets r r' chunk deliveries hread hne _ ih =>
    rw [Utf8.Carry.received, arrived_ok, Utf8.Carry.afterChunks_cons, List.cons_append]
    rcases hpush : carry.push chunk with ⟨fault | text, next⟩
    · exact .failed (pull_of_octets hread hne hpush) (ih _)
    · exact .fragment (pull_of_octets hread hne hpush) (ih _)
  | failed hread hkind _ ih =>
    rw [Utf8.Carry.received, arrived_error, List.cons_append]
    exact .failed (pull_of_failed carry hread hkind) (ih carry)
  | interrupted hread hkind _ ih => exact (ih carry).congr (pull_of_interrupted carry hread hkind)

/-- The answers of a supply over a reader that does not fail are what arrives of its chunks, and a fault
    if the last of them ends inside a code point. -/
theorem answers (carry : Utf8.Carry) {chunks : List Octets}
    (hr : OctetReader.Reads (max readSize 1) reader chunks) :
    Supply.Answers { reader, readSize, carry : ReaderSupply ρ }
      (carry.arrivals chunks ++ ((carry.afterChunks chunks).unfinished?.map .error).toList) := by
  have hanswers := answers_received carry hr.answers
  rw [Utf8.Carry.received_map_ok, arrived_map_ok] at hanswers
  exact hanswers

/-- The fragments out of a reader are the text whose octets it brings, cut where its reads end but
    never inside a code point. -/
theorem brings {octets : Octets} {text : String}
    (hr : OctetReader.Brings (max readSize 1) reader octets) (hc : carry.Awaits octets text) :
    ∃ fragments, String.join fragments = text ∧
      Supply.Brings { reader, readSize, carry : ReaderSupply ρ } fragments := by
  obtain ⟨chunks, hreads, rfl⟩ := OctetReader.exists_reads hr
  obtain ⟨fragments, hjoin, harrivals, hend⟩ := hc.exists_arrivals
  refine ⟨fragments, hjoin, Supply.brings_iff_answers.2 ?_⟩
  have hanswers := answers carry hreads
  rw [harrivals, hend, Option.map_none, Option.toList_none, List.append_nil] at hanswers
  exact hanswers

end ReaderSupply

end ObjectFeed
