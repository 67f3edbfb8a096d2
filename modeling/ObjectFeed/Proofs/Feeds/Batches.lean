/-
  Batches are runs of single calls.

  * `Handle` is what a caller has of a feed: the next item, the next batch, and whether the feed is over;
  * `Reply.Takes` says which single answers a reply stands for;
  * `Gathers` is how a batch comes of single answers, up to the end or the first failure, and
    `Handle.IsGathering` says of a handle that its batches come so, as long as something holds of its feed
    that being asked keeps;
  * `Handle.Runs` is what a caller may rely on, and `batches_are_runs`: it holds of every feed that pulls,
    and of every feed that is polled and whose inflow is always ready.
-/
import ObjectFeed.Proofs.Feeds.Closing
import ObjectFeed.Proofs.Feeds.Releasing

namespace ObjectFeed

open Relation (ReflTransGen)

variable {σ S α : Type}

/-! ## Calls -/

/-- What a caller asks a feed for. -/
inductive Call where
  | next
  | batch
  deriving DecidableEq, Repr

/-- What a feed replies. -/
inductive Reply (α : Type) where
  | next (answer : Readiness (Option (Item α)))
  | batch (answer : Readiness (Except Failure (List α)))

/-- What a caller has of a feed. -/
structure Handle (S α : Type) where
  next : S → Readiness (Option (Item α)) × S
  batch : S → Readiness (Except Failure (List α)) × S
  isOver : S → Bool

namespace Handle

/-- The reply to a call. -/
def call (feed : Handle S α) : Call → S → Reply α × S
  | .next, s => (.next (feed.next s).1, (feed.next s).2)
  | .batch, s => (.batch (feed.batch s).1, (feed.batch s).2)

/-- The replies to calls, the first of them first. -/
def calls (feed : Handle S α) : List Call → S → List (Reply α) × S
  | [], s => ([], s)
  | call :: rest, s =>
    ((feed.call call s).1 :: (feed.calls rest (feed.call call s).2).1,
      (feed.calls rest (feed.call call s).2).2)

end Handle

/-- These single answers are taken by a reply, where a full batch has `n` values. -/
inductive Reply.Takes (n : Nat) : Reply α → List (Option (Item α)) → Prop
  | next {answer : Option (Item α)} : Takes n (.next (.ready answer)) [answer]
  | full {values : List α} : values.length = n →
      Takes n (.batch (.ready (.ok values))) (values.map fun a => some (.ok a))
  /-- The end comes before the batch is full. -/
  | short {values : List α} : values.length < n →
      Takes n (.batch (.ready (.ok values))) ((values.map fun a => some (.ok a)) ++ [none])
  /-- A failure comes before the batch is full, and the values before it are lost. -/
  | failed {values : List α} {failure : Failure} : values.length < n →
      Takes n (.batch (.ready (.error failure)))
        ((values.map fun a => some (.ok a)) ++ [some (.error failure)])

/-- What a caller may rely on in this state of a feed, where a full batch has `n` values. -/
structure Handle.Runs (feed : Handle S α) (n : Nat) (s : S) : Prop where
  /-- Any calls take single answers one after another, and leave the feed as these would. -/
  calls : ∀ calls, ∃ taken, List.Forall₂ (Reply.Takes n) (feed.calls calls s).1 taken ∧
    asked feed.next taken.flatten.length s =
      (taken.flatten.map .ready, (feed.calls calls s).2)
  /-- After a short batch, which any calls may precede, the feed is over. -/
  short : ∀ calls values, (feed.batch (feed.calls calls s).2).1 = .ready (.ok values) →
    values.length < n → feed.isOver (feed.batch (feed.calls calls s).2).2 = true
  /-- Where no item is a failure, the batches up to the first short one are all values. -/
  values : 0 < n → ∀ values, Yields feed.next s (values.map .ok) →
    ∃ full last, (asked feed.batch (full.length + 1) s).1 =
        (full ++ [last]).map (fun batch => .ready (.ok batch)) ∧
      (∀ batch ∈ full, batch.length = n) ∧ last.length < n ∧ (full ++ [last]).flatten = values

/-! ## How a batch is gathered -/

/-- Asked until it has given `n` values, its end or a failure, a feed gives this, and is left so. -/
inductive Gathers (next : S → Readiness (Option (Item α)) × S) :
    Nat → S → Except Failure (List α) → S → Prop
  | full {s} : Gathers next 0 s (.ok []) s
  | ended {n s s'} : next s = (.ready none, s') → Gathers next (n + 1) s (.ok []) s'
  | failed {n s s' failure} : next s = (.ready (some (.error failure)), s') →
      Gathers next (n + 1) s (.error failure) s'
  | value {n s s' s'' a result} : next s = (.ready (some (.ok a)), s') →
      Gathers next n s' result s'' → Gathers next (n + 1) s (result.map (a :: ·)) s''

namespace Gathers

variable {next : S → Readiness (Option (Item α)) × S} {n : Nat} {s s' : S}
  {result : Except Failure (List α)}

/-- **A batch takes single answers one after another.** -/
theorem takes (h : Gathers next n s result s') :
    ∃ taken, Reply.Takes n (.batch (.ready result)) taken ∧
      asked next taken.length s = (taken.map .ready, s') := by
  induction h with
  | full => exact ⟨[], .full rfl, rfl⟩
  | ended hnext =>
    refine ⟨[none], .short (Nat.succ_pos _), ?_⟩
    simp only [List.length_singleton, asked, hnext, List.map_cons, List.map_nil]
  | @failed n s s' failure hnext =>
    have hnone : ([] : List α).length < n + 1 := Nat.succ_pos n
    refine ⟨[some (.error failure)], .failed hnone, ?_⟩
    simp only [List.length_singleton, asked, hnext, List.map_cons, List.map_nil]
  | @value n s s' s'' a result hnext _ ih =>
    obtain ⟨taken, htakes, hasked⟩ := ih
    refine ⟨some (.ok a) :: taken, ?_, ?_⟩
    · cases htakes with
      | full hlength => exact .full (congrArg Nat.succ hlength)
      | short hlength => exact .short (Nat.succ_lt_succ hlength)
      | @failed values failure hlength =>
        have hlength' : (a :: values).length < n + 1 := Nat.succ_lt_succ hlength
        exact .failed hlength'
    · simp only [List.length_cons, asked, hnext, hasked, List.map_cons]

/-- A short batch has asked for the end. -/
theorem exists_end (h : Gathers next n s result s') {values : List α} (hvalues : result = .ok values)
    (hshort : values.length < n) {P : S → Prop} (hs : P s)
    (hnext : ∀ {s answer s'}, P s → next s = (answer, s') → P s') :
    ∃ s₀, P s₀ ∧ next s₀ = (.ready none, s') := by
  induction h generalizing values with
  | full => exact absurd hshort (Nat.not_lt_zero _)
  | ended hask => exact ⟨_, hs, hask⟩
  | failed => cases hvalues
  | @value n s s' s'' a result hask _ ih =>
    cases result with
    | error failure => cases hvalues
    | ok values' =>
      obtain rfl : a :: values' = values := Except.ok.inj hvalues
      exact ih rfl (Nat.lt_of_succ_lt_succ hshort) (hnext hs hask)

theorem keeps (h : Gathers next n s result s') {P : S → Prop} (hs : P s)
    (hnext : ∀ {s answer s'}, P s → next s = (answer, s') → P s') : P s' := by
  induction h with
  | full => exact hs
  | ended hask => exact hnext hs hask
  | failed hask => exact hnext hs hask
  | value hask _ ih => exact ih (hnext hs hask)

theorem of_yields (h : Gathers next n s result s') {values : List α}
    (hyields : Yields next s (values.map .ok)) :
    (∃ taken rest, values = taken ++ rest ∧ result = .ok taken ∧ taken.length = n ∧
        Yields next s' (rest.map .ok)) ∨
      result = .ok values ∧ values.length < n := by
  induction h generalizing values with
  | full => exact .inl ⟨[], values, rfl, rfl, rfl, hyields⟩
  | ended hask =>
    obtain hnil : values.map .ok = ([] : List (Item α)) := hyields.unique (.ended hask)
    rw [List.map_eq_nil_iff.1 hnil]
    exact .inr ⟨rfl, Nat.succ_pos _⟩
  | failed hask =>
    obtain ⟨rest, hvalues, -⟩ := hyields.exists_rest hask
    obtain ⟨a, more, -, ha, -⟩ := List.map_eq_cons_iff.1 hvalues
    cases ha
  | @value n s s' s'' a result hask _ ih =>
    obtain ⟨rest, hvalues, hrest⟩ := hyields.exists_rest hask
    obtain ⟨a, values, rfl, ha, rfl⟩ := List.map_eq_cons_iff.1 hvalues
    cases ha
    rcases ih hrest with ⟨taken, rest, rfl, rfl, hlength, hleft⟩ | ⟨rfl, hshort⟩
    · exact .inl ⟨a :: taken, rest, rfl, rfl, congrArg _ hlength, hleft⟩
    · exact .inr ⟨rfl, Nat.succ_lt_succ hshort⟩

end Gathers

/-! ## Handles that gather their batches -/

/-- As long as this holds of its feed, which being asked keeps, a feed is ready, is over once it gave its
    end, and gathers its batches. -/
structure Handle.IsGathering (feed : Handle S α) (n : Nat) (P : S → Prop) : Prop where
  next : ∀ {s answer s'}, P s → feed.next s = (answer, s') → P s'
  ready : ∀ {s}, P s → ∃ answer, (feed.next s).1 = .ready answer
  isOver : ∀ {s s'}, P s → feed.next s = (.ready none, s') → feed.isOver s' = true
  batch : ∀ {s}, P s → ∃ result, (feed.batch s).1 = .ready result ∧
    Gathers feed.next n s result (feed.batch s).2

namespace Handle.IsGathering

variable {feed : Handle S α} {n : Nat} {P : S → Prop} {s : S}

theorem takes (h : feed.IsGathering n P) (hs : P s) (call : Call) :
    P (feed.call call s).2 ∧ ∃ taken, (feed.call call s).1.Takes n taken ∧
      asked feed.next taken.length s = (taken.map .ready, (feed.call call s).2) := by
  cases call with
  | next =>
    obtain ⟨answer, hanswer⟩ := h.ready hs
    refine ⟨h.next hs rfl, [answer], ?_, ?_⟩
    · rw [Handle.call, hanswer]
      exact .next
    · simp only [List.length_singleton, asked, hanswer, List.map_cons, List.map_nil, Handle.call]
  | batch =>
    obtain ⟨result, hresult, hgathers⟩ := h.batch hs
    rw [Handle.call, hresult]
    exact ⟨hgathers.keeps hs h.next, hgathers.takes⟩

/-- **Calls take single answers one after another.** -/
theorem calls (h : feed.IsGathering n P) (hs : P s) (calls : List Call) :
    P (feed.calls calls s).2 ∧
      ∃ taken, List.Forall₂ (Reply.Takes n) (feed.calls calls s).1 taken ∧
        asked feed.next taken.flatten.length s =
          (taken.flatten.map .ready, (feed.calls calls s).2) := by
  induction calls generalizing s with
  | nil => exact ⟨hs, [], .nil, rfl⟩
  | cons call rest ih =>
    obtain ⟨hnext, taken, htakes, hasked⟩ := h.takes hs call
    obtain ⟨hlast, more, hmore, hasked'⟩ := ih hnext
    refine ⟨hlast, taken :: more, .cons htakes hmore, ?_⟩
    simp only [List.flatten_cons, List.length_append, asked_add, hasked, hasked', List.map_append,
      Handle.calls]

theorem values (h : feed.IsGathering n P) (hn : 0 < n) (hs : P s) {values : List α}
    (hyields : Yields feed.next s (values.map .ok)) :
    ∃ full last, (asked feed.batch (full.length + 1) s).1 =
        (full ++ [last]).map (fun batch => .ready (.ok batch)) ∧
      (∀ batch ∈ full, batch.length = n) ∧ last.length < n ∧
      (full ++ [last]).flatten = values := by
  -- a full batch takes at least one value, so it is their number that falls
  induction hk : values.length using Nat.strongRecOn generalizing s values with
  | _ k ih =>
    subst hk
    obtain ⟨result, hresult, hgathers⟩ := h.batch hs
    rcases hgathers.of_yields hyields with ⟨taken, rest, rfl, rfl, hlength, hrest⟩ | ⟨rfl, hshort⟩
    · have hlt : rest.length < (taken ++ rest).length := by
        rw [List.length_append]
        omega
      obtain ⟨full, last, hasked, hfull, hlast, hflatten⟩ :=
        ih _ hlt (hgathers.keeps hs h.next) hrest rfl
      refine ⟨taken :: full, last, ?_, ?_, hlast, ?_⟩
      · rw [List.length_cons, asked, hresult, hasked]
        rfl
      · rintro batch (_ | ⟨_, hbatch⟩)
        · exact hlength
        · exact hfull batch hbatch
      · rw [List.cons_append, List.flatten_cons, hflatten]
    · refine ⟨[], values, ?_, List.forall_mem_nil _, hshort, List.append_nil values⟩
      rw [List.length_nil, asked, hresult]
      rfl

theorem runs (h : feed.IsGathering n P) (hs : P s) : feed.Runs n s where
  calls calls := (h.calls hs calls).2
  short := by
    intro calls values hok hshort
    obtain ⟨result, hresult, hgathers⟩ := h.batch (h.calls hs calls).1
    have hvalues : result = .ok values := Readiness.ready.inj (hresult.symm.trans hok)
    obtain ⟨s₀, hs₀, hend⟩ :=
      hgathers.exists_end hvalues hshort (h.calls hs calls).1 h.next
    exact h.isOver hs₀ hend
  values hn _ hyields := h.values hn hs hyields

end Handle.IsGathering

/-! ## Feeds that pull -/

namespace Hopper

theorem Move.settings {h h' : Hopper α} (hmove : h.Move h') : h'.settings = h.settings := by
  cases hmove with
  | pour text => exact h.pour_settings text
  | dispense => exact h.dispense_frame.settings
  | endInput =>
    rw [Hopper.endInput]
    split
    · rfl
    · split <;> rfl
  | abandon => rfl

theorem Moves.settings {h h' : Hopper α} (hmoves : h.Moves h') : h'.settings = h.settings :=
  hmoves.induction (P := fun h' => h'.settings = h.settings)
    (fun hh hmove => hmove.settings.trans hh) rfl

end Hopper

namespace PullFeed

variable [Supply σ]

/-- What a caller has of a feed that pulls. -/
def handle : Handle (PullFeed σ α) α where
  next := ask
  batch f := (.ready f.batch.1, f.batch.2)
  isOver := isOver

theorem gathers_batchOf (n : Nat) (f : PullFeed σ α) :
    Gathers ask n f (batchOf n f).1 (batchOf n f).2 := by
  induction n generalizing f with
  | zero => exact .full
  | succ n ih =>
    rw [batchOf]
    rcases hnext : f.next with ⟨_ | failure | a, f'⟩
    · exact .ended (by rw [ask, hnext])
    · exact .failed (by rw [ask, hnext])
    · exact .value (by rw [ask, hnext]) (ih f')

theorem isGathering (n : Nat) :
    (handle : Handle (PullFeed σ α) α).IsGathering n
      (fun f => f.hopper.settings.batchSize = n) where
  next := by
    rintro f _ _ rfl hnext
    obtain ⟨-, rfl⟩ := Prod.mk.inj hnext
    rw [(next_moves f).settings]
  ready := fun {f} _ => ⟨f.next.1, rfl⟩
  isOver := by
    intro f f' _ hend
    obtain ⟨hnext, rfl⟩ := Prod.mk.inj hend
    obtain ⟨f₀, -, hlast⟩ := next_goesThrough f
    rw [Readiness.ready.inj hnext] at hlast
    exact hlast.isOver_of_end
  batch := by
    rintro f rfl
    exact ⟨_, rfl, gathers_batchOf _ f⟩

end PullFeed

/-! ## Feeds that are polled -/

/-- However often it is polled, an inflow is ready. -/
def Inflow.IsPrompt [Inflow σ] (s : σ) : Prop :=
  ∀ k, (Inflow.poll ((fun s => (Inflow.poll s).2)^[k] s)).1 ≠ .notReady

theorem Script.isPrompt {events : List Event} (h : ∀ event ∈ events, event ≠ .notReady)
    (asked : Nat) : Inflow.IsPrompt ({ events, asked } : Script) := by
  intro k
  induction k generalizing events asked with
  | zero =>
    cases events with
    | nil => exact nofun
    | cons event rest =>
      cases event with
      | notReady => exact absurd rfl (h _ List.mem_cons_self)
      | chunk => exact nofun
      | fault => exact nofun
  | succ k ih =>
    rw [Function.iterate_succ_apply]
    cases events with
    | nil =>
      have hnil : ∀ event ∈ ([] : List Event), event ≠ .notReady := nofun
      exact ih hnil _
    | cons event rest =>
      have hrest : ∀ event ∈ rest, event ≠ .notReady :=
        fun event hevent => h event (List.mem_cons_of_mem _ hevent)
      cases event <;> exact ih hrest _

theorem Inflow.IsPrompt.poll [Inflow σ] {s s' : σ} {answer : Polled} (h : Inflow.IsPrompt s)
    (hpoll : Inflow.poll s = (answer, s')) : answer ≠ .notReady ∧ Inflow.IsPrompt s' := by
  obtain ⟨rfl, rfl⟩ := Prod.mk.inj hpoll
  exact ⟨h 0, fun k => h (k + 1)⟩

namespace PollFeed

variable [Inflow σ] {f f' : PollFeed σ α}

/-- What a caller has of a feed that is polled, who gives up when `patience` polls were not ready. -/
def handle (patience : Nat) : Handle (PollFeed σ α) α where
  next := poll
  batch := batchWithin patience
  isOver := isOver

theorem IsOrderly.poll (hf : f.IsOrderly) : f.poll.2.IsOrderly :=
  poll_goesThrough.keeps IsOrderly.turn hf

theorem IsOrderly.reaches (hf : f.IsOrderly) (hreaches : f.Reaches f') : f'.IsOrderly := by
  induction hreaches with
  | refl => exact hf
  | tail _ huse ih =>
    cases huse with
    | poll => exact ih.poll
    | cancel => exact .cancel _
    | inflow => exact ⟨ih.hopper, ih.released⟩

theorem Turn.isPrompt {answer : Option (Readiness (Option (Item α)))} (hturn : f.Turn answer f')
    (hf : Inflow.IsPrompt f.inflow) : answer ≠ some .notReady ∧ Inflow.IsPrompt f'.inflow := by
  cases hturn with
  | given => exact ⟨nofun, hf⟩
  | spent => exact ⟨nofun, hf⟩
  | notReady _ hpoll => exact absurd rfl (hf.poll hpoll).1
  | failed _ hpoll => exact ⟨nofun, (hf.poll hpoll).2⟩
  | ended _ hpoll =>
    rw [(endInflow_spec _).2]
    exact ⟨nofun, (hf.poll hpoll).2⟩
  | illFormed _ hpoll => exact ⟨nofun, (hf.poll hpoll).2⟩
  | chunk _ hpoll => exact ⟨nofun, (hf.poll hpoll).2⟩

theorem poll_of_isPrompt (hf : Inflow.IsPrompt f.inflow) :
    (∃ answer, f.poll.1 = .ready answer) ∧ Inflow.IsPrompt f.poll.2.inflow := by
  obtain ⟨f₀, hf₀, hlast⟩ := poll_goesThrough.exists_last
    (P := fun f : PollFeed σ α => Inflow.IsPrompt f.inflow) (fun hs hturn => (hturn.isPrompt hs).2) hf
  obtain ⟨hready, hprompt⟩ := hlast.isPrompt hf₀
  refine ⟨?_, hprompt⟩
  cases hanswer : f.poll.1 with
  | notReady => rw [hanswer] at hready; exact absurd rfl hready
  | ready answer => exact ⟨answer, rfl⟩

theorem nextWithin_of_ready {answer : Option (Item α)} (patience : Nat)
    (hpoll : f.poll = (.ready answer, f')) :
    nextWithin (patience + 1) f = (.ready answer, patience + 1, f') := by
  rw [nextWithin, hpoll]

theorem gathers_batchOf (n patience : Nat) (hf : Inflow.IsPrompt f.inflow) :
    ∃ result, (batchOf n (patience + 1) f).1 = .ready result ∧
      Gathers poll n f result (batchOf n (patience + 1) f).2 := by
  induction n generalizing f with
  | zero => exact ⟨.ok [], rfl, .full⟩
  | succ n ih =>
    obtain ⟨⟨answer, hanswer⟩, hprompt⟩ := poll_of_isPrompt hf
    have hpoll : f.poll = (.ready answer, f.poll.2) := Prod.ext hanswer rfl
    rw [batchOf, nextWithin_of_ready patience hpoll]
    rcases answer with _ | failure | a
    · exact ⟨_, rfl, .ended hpoll⟩
    · exact ⟨_, rfl, .failed hpoll⟩
    · obtain ⟨result, hresult, hgathers⟩ := ih hprompt
      rcases hrest : batchOf n (patience + 1) f.poll.2 with ⟨answer, f'⟩
      rw [hrest] at hresult hgathers
      obtain rfl : answer = .ready result := hresult
      simp only [hrest]
      exact ⟨_, rfl, .value hpoll hgathers⟩

theorem isGathering (n patience : Nat) :
    (handle (patience + 1) : Handle (PollFeed σ α) α).IsGathering n (fun f =>
      f.IsOrderly ∧ f.hopper.settings.batchSize = n ∧ Inflow.IsPrompt f.inflow) where
  next := by
    rintro f _ _ ⟨horderly, rfl, hprompt⟩ hnext
    obtain ⟨-, rfl⟩ := Prod.mk.inj hnext
    refine ⟨horderly.poll, ?_, (poll_of_isPrompt hprompt).2⟩
    rw [(poll_moves f).settings]
  ready := fun hf => (poll_of_isPrompt hf.2.2).1
  isOver := by
    rintro f f' ⟨horderly, -, -⟩ hend
    obtain ⟨hpoll, rfl⟩ := Prod.mk.inj hend
    obtain ⟨f₀, hf₀, hlast⟩ := poll_goesThrough.exists_last IsOrderly.turn horderly
    rw [hpoll] at hlast
    exact hlast.isOver_of_end hf₀
  batch := by
    rintro f ⟨-, rfl, hprompt⟩
    exact gathers_batchOf _ patience hprompt

end PollFeed

/-! ## All feeds -/

/-- **Batches are runs of single calls**: for a feed that pulls, in any state, and for a feed that is
    polled, in any state that it reaches, if its inflow is always ready.  Whatever calls come before and
    after it, a batch takes the next values, up to its size, the end or the first failure. -/
theorem batches_are_runs {ρ : Type} [Supply σ] [Inflow ρ] :
    (∀ f : PullFeed σ α, PullFeed.handle.Runs f.hopper.settings.batchSize f) ∧
      ∀ (inflow : ρ) (interpret : Interpretation α) (settings : Settings) (f : PollFeed ρ α)
        (patience : Nat), (PollFeed.new inflow interpret settings).Reaches f →
        Inflow.IsPrompt f.inflow →
        (PollFeed.handle (patience + 1)).Runs f.hopper.settings.batchSize f := by
  refine ⟨fun f => (PullFeed.isGathering _).runs rfl, ?_⟩
  intro inflow interpret settings f patience hreaches hprompt
  have horderly : f.IsOrderly := (PollFeed.isOrderly_new _ _ _).reaches hreaches
  exact (PollFeed.isGathering _ patience).runs ⟨horderly, rfl, hprompt⟩

/-- A fault takes the place of the first of three batches of two, with a value before it.  A single call
    comes next, then a batch that is full, and then an empty one. -/
theorem batches_are_runs_interrupted :
    let reset := Fault.reported .other "reset"
    let inflow : Script := { events := [.chunk [0x5B, 0x7B, 0x7D, 0x2C, 0x7B], .fault reset,
      .chunk [0x7D, 0x2C, 0x7B, 0x7D, 0x2C, 0x7B, 0x7D, 0x5D]] }
    let feed : PollFeed Script String := .new inflow .verbatim { batchSize := 2 }
    let pulled : PullFeed Fragments String :=
      .new (.ofList ["[\x7b\x7d]"]) .verbatim { batchSize := 2 }
    let failed := (feed.batchWithin 1).2
    let full := failed.poll.2.batchWithin 1
    (feed.batchWithin 1).1 = .ready (.error (.transport reset)) ∧
      failed.poll.1 = .ready (some (.ok "\x7b\x7d")) ∧
      full.1 = .ready (.ok ["\x7b\x7d", "\x7b\x7d"]) ∧ (full.2.batchWithin 1).1 = .ready (.ok []) ∧
      (PollFeed.handle 1).Runs 2 feed ∧ PullFeed.handle.Runs 2 pulled := by
  intro reset inflow feed pulled failed full
  have hprompt : Inflow.IsPrompt inflow := Script.isPrompt (by decide) 0
  obtain ⟨hpull, hpoll⟩ := batches_are_runs (σ := Fragments) (α := String) (ρ := Script)
  exact ⟨by decide +kernel, by decide +kernel, by decide +kernel, by decide +kernel,
    hpoll inflow .verbatim { batchSize := 2 } feed 0 .refl hprompt, hpull pulled⟩

end ObjectFeed
