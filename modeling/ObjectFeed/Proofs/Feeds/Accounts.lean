/-
  What becomes of the objects, and what is counted of it.

  * `Hopper.Ledger` says what a hopper was fed, which objects it handed out and which it gave up, and that
    its tally counts them.  What hoppers do keeps it: `Ledger.pour`, `Ledger.dispense`, `Ledger.endInput`,
    `Ledger.abandon`;
  * `PullFeed.Balanced` and `PollFeed.Balanced`: a feed has a ledger of what came from its supply or
    inflow.  `Balanced.turn`: a turn keeps it;
  * `Accounted` says this of a feed at its calls, and `objects_conserved`: it holds after any calls.
-/
import ObjectFeed.Proofs.Feeds.Closing
import ObjectFeed.Proofs.Feeds.Releasing
import ObjectFeed.Proofs.Splitter.Cuts

namespace ObjectFeed

variable {σ α : Type}

/-! ## Ledgers -/

namespace Hopper

theorem endInput_tally (h : Hopper α) :
    h.endInput.2.interpret = h.interpret ∧ h.endInput.2.tally = h.tally := by
  rw [endInput]
  cases h.splitter.truncation? with
  | none => exact ⟨rfl, rfl⟩
  | some failure => cases h.settings.failOnTruncation <;> exact ⟨rfl, rfl⟩

/-- A hopper was fed these fragments, handed these objects out and gave up those that were discarded; the
    others wait.  The tally counts them. -/
structure Ledger (interpret : Interpretation α) (splitter : Splitter)
    (fed handed discarded : List String) (h : Hopper α) : Prop where
  interpretation : h.interpret = interpret
  /-- No fragment came after one that cannot be split. -/
  reached : (splitter.feedEach fed).fragments = fed.length
  fragments : h.tally.fragments = fed.length
  /-- Every object that was completed was handed out, waits, or was given up. -/
  queued : (splitter.feedEach fed).objects = handed ++ h.backlog.toList ++ discarded
  objects : h.tally.objects = handed.countP fun text => (interpret text).isOk
  /-- Objects that were rejected count whether they were reported or passed over. -/
  rejections : h.tally.rejections = handed.countP fun text => !(interpret text).isOk
  waiting : h.tally.waiting = h.waiting
  /-- While the hopper is live, every fragment was split, and no object was given up. -/
  live : h.isLive = true → (splitter.feedEach fed).failure = none ∧
    (splitter.feedEach fed).splitter = h.splitter ∧ discarded = []

namespace Ledger

variable {interpret : Interpretation α} {splitter : Splitter} {fed handed discarded : List String}
  {h h' : Hopper α}

theorem new (interpret : Interpretation α) (settings : Settings) :
    (Hopper.new interpret settings).Ledger interpret { options := settings.splitter } [] [] [] where
  interpretation := rfl
  reached := rfl
  fragments := rfl
  queued := rfl
  objects := rfl
  rejections := rfl
  waiting := rfl
  live _ := ⟨rfl, rfl, rfl⟩

/-- **The balance**: the objects completed are those that were values, those that were rejected, those that
    wait and those that were given up. -/
theorem balance (hl : h.Ledger interpret splitter fed handed discarded) :
    (splitter.feedEach fed).objects.length =
      h.tally.objects + h.tally.rejections + h.waiting + discarded.length := by
  have hhanded : handed.length = h.tally.objects + h.tally.rejections := by
    rw [hl.objects, hl.rejections,
      List.length_eq_countP_add_countP fun text => (interpret text).isOk]
    simp
  rw [hl.queued, List.length_append, List.length_append, hhanded, Hopper.waiting,
    Backlog.size_eq_length]

theorem handOut (hl : h.Ledger h.interpret splitter fed handed discarded) {text : String}
    {rest : Backlog String} (hpop : h.backlog.pop? = some (text, rest)) :
    ({ h with
        backlog := rest
        tally := { h.tally with
          waiting := rest.size
          objects := h.tally.objects + (h.interpret text).isOk.toNat
          rejections := h.tally.rejections + (!(h.interpret text).isOk).toNat } } : Hopper α).Ledger
      h.interpret splitter fed (handed ++ [text]) discarded where
  interpretation := rfl
  reached := hl.reached
  fragments := hl.fragments
  queued := by
    rw [hl.queued, Backlog.toList_of_pop? hpop]
    simp
  objects := by
    rw [List.countP_append, ← hl.objects, List.countP_singleton]
    cases (h.interpret text).isOk <;> rfl
  rejections := by
    rw [List.countP_append, ← hl.rejections, List.countP_singleton]
    cases (h.interpret text).isOk <;> rfl
  waiting := rfl
  live := hl.live

/-- **Handing out keeps the ledger.**  Objects that are passed over are handed out too. -/
theorem dispense (handed : List String) (hl : h.Ledger interpret splitter fed handed discarded) :
    ∃ more, h.dispense.2.Ledger interpret splitter fed (handed ++ more) discarded := by
  obtain rfl := hl.interpretation
  fun_induction Hopper.dispense h generalizing handed with
  | case1 h text rest hpop tally a hinterpret =>
    have hnext := hl.handOut hpop
    rw [hinterpret] at hnext
    exact ⟨[text], hnext⟩
  | case2 h text rest hpop tally rejection hinterpret h' hskip ih =>
    have hnext := hl.handOut hpop
    rw [hinterpret] at hnext
    obtain ⟨more, hmore⟩ := ih _ hnext
    rw [List.append_assoc] at hmore
    exact ⟨text :: more, hmore⟩
  | case3 h text rest hpop tally rejection hinterpret h' hskip =>
    have hnext := hl.handOut hpop
    rw [hinterpret] at hnext
    exact ⟨[text], hnext⟩
  | case4 h hpop =>
    refine ⟨[], ?_⟩
    rw [List.append_nil]
    exact ⟨rfl, hl.reached, hl.fragments, hl.queued, hl.objects, hl.rejections, hl.waiting, hl.live⟩

theorem dispensed {item : Option (Item α)} (hl : h.Ledger interpret splitter fed handed discarded)
    (hd : h.dispense = (item, h')) :
    ∃ more, h'.Ledger interpret splitter fed (handed ++ more) discarded := by
  have hnext := dispense handed hl
  rwa [hd] at hnext

/-- **Taking a fragment in keeps the ledger**, also if it cannot be split. -/
theorem pour (hl : h.Ledger interpret splitter fed handed discarded) (hlive : h.isLive = true)
    (text : String) :
    (h.pour text).Ledger interpret splitter (fed ++ [text]) handed discarded := by
  obtain ⟨hnone, hsplitter, rfl⟩ := hl.live hlive
  obtain ⟨hnext, hfailure, hobjects, hfragments⟩ := Splitter.feedEach_concat hnone text
  rw [hsplitter] at hnext hfailure hobjects
  have hqueued := hl.queued
  rw [List.append_nil] at hqueued
  refine
    { interpretation := (pour_interpret h text).trans hl.interpretation
      reached := by rw [hfragments, hl.reached, List.length_append, List.length_singleton]
      fragments := by
        rw [pour_tally, hl.fragments, List.length_append, List.length_singleton]
      queued := by
        rw [hobjects, hqueued, toList_backlog_pour, List.append_nil, List.append_assoc]
      objects := by rw [pour_tally, hl.objects]
      rejections := by rw [pour_tally, hl.rejections]
      waiting := by rw [pour_tally]
      live := ?_ }
  intro hpoured
  rw [isLive_pour hlive, Option.isNone_iff_eq_none] at hpoured
  exact ⟨hfailure.trans hpoured, hnext.trans (pour_splitter h text).symm, rfl⟩

theorem endInput (hl : h.Ledger interpret splitter fed handed discarded) :
    h.endInput.2.Ledger interpret splitter fed handed discarded := by
  obtain ⟨-, hover, hbacklog, -⟩ := h.endInput_spec
  obtain ⟨hinterpret, htally⟩ := h.endInput_tally
  exact
    { interpretation := hinterpret.trans hl.interpretation
      reached := hl.reached
      fragments := by rw [htally, hl.fragments]
      queued := by rw [hbacklog, hl.queued]
      objects := by rw [htally, hl.objects]
      rejections := by rw [htally, hl.rejections]
      waiting := by rw [htally, hl.waiting, Hopper.waiting, Hopper.waiting, hbacklog]
      live := fun hlive => by rw [hover] at hlive; cases hlive }

/-- **Giving up turns what waits into what is discarded**, and keeps all else. -/
theorem abandon (hl : h.Ledger interpret splitter fed handed discarded) :
    h.abandon.Ledger interpret splitter fed handed (h.backlog.toList ++ discarded) where
  interpretation := hl.interpretation
  reached := hl.reached
  fragments := hl.fragments
  queued := by
    rw [hl.queued, List.append_assoc, Hopper.abandon, Backlog.toList_empty, List.append_nil]
  objects := hl.objects
  rejections := hl.rejections
  waiting := rfl
  live hlive := by rw [h.abandon_isLive] at hlive; cases hlive

end Ledger

/-! ### Values -/

theorem objects_dispense (h : Hopper α) :
    h.dispense.2.tally.objects = h.tally.objects + (h.dispense.1.any Except.isOk).toNat := by
  fun_induction dispense h with
  | case1 h text rest hpop tally a hinterpret => rfl
  | case2 h text rest hpop tally rejection hinterpret h' hskip ih => exact ih
  | case3 h text rest hpop tally rejection hinterpret h' hskip => rfl
  | case4 h hpop => cases h.withheld <;> rfl

theorem objects_of_dispense {h h' : Hopper α} {item : Option (Item α)}
    (hd : h.dispense = (item, h')) :
    h'.tally.objects = h.tally.objects + (item.any Except.isOk).toNat := by
  have hobjects := h.objects_dispense
  rwa [hd] at hobjects

end Hopper

/-- What an action changes only if it is this one, actions without this one do not change. -/
theorem exists_foldl {S A D : Type} {act : S → A → S} {P : D → S → Prop} {only : A}
    (hact : ∀ {d s}, P d s → ∀ action, ∃ d', P d' (act s action) ∧ (action ≠ only → d' = d))
    {d : D} {s : S} (hs : P d s) (actions : List A) :
    ∃ d', P d' (actions.foldl act s) ∧ (only ∉ actions → d' = d) := by
  induction actions generalizing s d with
  | nil => exact ⟨d, hs, fun _ => rfl⟩
  | cons action actions ih =>
    obtain ⟨next, hnext, hsame⟩ := hact hs action
    obtain ⟨last, hlast, hrest⟩ := ih hnext
    refine ⟨last, hlast, fun hnever => ?_⟩
    rw [List.mem_cons, not_or] at hnever
    exact (hrest hnever.2).trans (hsame (Ne.symm hnever.1))

/-! ## Feeds that pull -/

/-- A supply and the fragments that it has given, oldest first. -/
structure Recorded (σ : Type) where
  supply : σ
  fragments : List String := []

instance [Supply σ] : Supply (Recorded σ) where
  pull s :=
    let (answer, supply) := Supply.pull s.supply
    (answer, { supply, fragments := s.fragments ++ answer.fragment?.toList })
  close s := { s with supply := Supply.close s.supply }
  remaining s := Supply.remaining s.supply
  remaining_pull_lt {s s' text} h := by
    simp only [Prod.mk.injEq] at h
    rw [← h.2]
    exact Supply.remaining_pull_lt (Prod.ext h.1 rfl)
  remaining_close_le s := Supply.remaining_close_le s.supply

theorem Recorded.fragments_of_pull [Supply σ] {s s' : Recorded σ} {answer : Pulled}
    (hpull : Supply.pull s = (answer, s')) :
    s'.fragments = s.fragments ++ answer.fragment?.toList := by
  obtain ⟨rfl, rfl⟩ := Prod.mk.inj hpull
  rfl

namespace PullFeed

section

variable [Supply σ]

/-- **A call counts a value if and only if it gives one.** -/
theorem objects_next (f : PullFeed σ α) :
    f.next.2.hopper.tally.objects =
      f.hopper.tally.objects + (f.next.1.any Except.isOk).toNat := by
  fun_induction next f with
  | case1 f item h' hd => exact Hopper.objects_of_dispense hd
  | case2 f h' hd hlive => exact Hopper.objects_of_dispense hd
  | case3 f h' hd hlive text supply hpull poured hpoured ih =>
    rw [ih, Hopper.pour_tally, Hopper.objects_of_dispense hd]
    rfl
  | case4 f h' hd hlive text supply hpull poured hpoured ih =>
    rw [ih, Hopper.pour_tally, Hopper.objects_of_dispense hd]
    rfl
  | case5 f h' hd hlive supply hpull failure ended hend =>
    have htally := h'.endInput_tally.2
    rw [hend] at htally
    rw [htally, Hopper.objects_of_dispense hd]
    cases failure <;> rfl
  | case6 f h' hd hlive fault supply hpull =>
    exact (Hopper.objects_of_dispense hd :)

end

variable [Supply σ]

/-- What a caller does to a feed at a time.  The supply may change in between, so that also a supply is meant
    that answers anything at any time, and for ever. -/
inductive Action (σ : Type) where
  | next
  | batch
  | cancel
  | supply (s : σ)

/-- What a feed comes to by one action. -/
def act (f : PullFeed (Recorded σ) α) : Action σ → PullFeed (Recorded σ) α
  | .next => f.next.2
  | .batch => f.batch.2
  | .cancel => f.cancel
  | .supply s => { f with supply := { f.supply with supply := s } }

/-- What a feed comes to by actions, the first of them first. -/
def after (f : PullFeed (Recorded σ) α) (actions : List (Action σ)) : PullFeed (Recorded σ) α :=
  actions.foldl act f

variable {f f' : PullFeed (Recorded σ) α} {interpret : Interpretation α} {splitter : Splitter}
  {discarded : List String}

/-- The fragments that the supply has given were fed, and these objects given up. -/
def Balanced (interpret : Interpretation α) (splitter : Splitter) (discarded : List String)
    (f : PullFeed (Recorded σ) α) : Prop :=
  ∃ handed, f.hopper.Ledger interpret splitter f.supply.fragments handed discarded

theorem Balanced.turn {answer : Option (Option (Item α))}
    (hf : f.Balanced interpret splitter discarded) (hturn : f.Turn answer f') :
    f'.Balanced interpret splitter discarded := by
  obtain ⟨handed, hl⟩ := hf
  cases hturn with
  | given hd =>
    obtain ⟨more, hmore⟩ := hl.dispensed hd
    exact ⟨_, hmore⟩
  | spent hd =>
    obtain ⟨more, hmore⟩ := hl.dispensed hd
    exact ⟨_, hmore⟩
  | @fragment h text supply hd hlive hpull =>
    obtain ⟨more, hmore⟩ := hl.dispensed hd
    have hpoured := hmore.pour hlive text
    have hfed : supply.fragments = f.supply.fragments ++ [text] := Recorded.fragments_of_pull hpull
    rw [← hfed] at hpoured
    refine ⟨handed ++ more, ?_⟩
    -- closing the supply changes nothing of what it has given
    cases (h.pour text).isLive <;> exact hpoured
  | @ended h supply hd hlive hpull =>
    obtain ⟨more, hmore⟩ := hl.dispensed hd
    have hfed : supply.fragments = f.supply.fragments :=
      (Recorded.fragments_of_pull hpull).trans (List.append_nil _)
    rw [← hfed] at hmore
    exact ⟨_, hmore.endInput⟩
  | @failed h fault supply hd hlive hpull =>
    obtain ⟨more, hmore⟩ := hl.dispensed hd
    have hfed : supply.fragments = f.supply.fragments :=
      (Recorded.fragments_of_pull hpull).trans (List.append_nil _)
    rw [← hfed] at hmore
    exact ⟨_, hmore⟩

theorem Balanced.act (hf : f.Balanced interpret splitter discarded) (action : Action σ) :
    ∃ discarded', (f.act action).Balanced interpret splitter discarded' ∧
      (action ≠ .cancel → discarded' = discarded) := by
  have hnext : ∀ {f : PullFeed (Recorded σ) α}, f.Balanced interpret splitter discarded →
      f.next.2.Balanced interpret splitter discarded :=
    next_goesThrough.keeps fun hf hturn => hf.turn hturn
  cases action with
  | next => exact ⟨discarded, hnext hf, fun _ => rfl⟩
  | batch => exact ⟨discarded, batchOf_induction hnext _ hf, fun _ => rfl⟩
  | cancel =>
    obtain ⟨handed, hl⟩ := hf
    exact ⟨_, ⟨handed, hl.abandon⟩, fun hne => absurd rfl hne⟩
  | supply s => exact ⟨discarded, hf, fun _ => rfl⟩

/-- **What was given up was given up by cancelling.** -/
theorem Balanced.after (hf : f.Balanced interpret splitter discarded) (actions : List (Action σ)) :
    ∃ discarded', (f.after actions).Balanced interpret splitter discarded' ∧
      (.cancel ∉ actions → discarded' = discarded) :=
  exists_foldl (fun hf action => hf.act action) hf actions

end PullFeed

/-! ## Feeds that are polled -/

/-- The texts of the chunks that it has given, but for those that are not text. -/
def Watched.texts (s : Watched σ) : List String :=
  arrived (Utf8.Carry.empty.arrivals s.chunks)

namespace Watched

variable [Inflow σ] {s s' : Watched σ}

theorem chunks_of_poll_none {answer : Polled} (hpoll : Inflow.poll s = (answer, s'))
    (hchunk : answer.chunk? = none) : s'.chunks = s.chunks := by
  rw [chunks_of_poll hpoll, hchunk, Option.toList_none, List.append_nil]

theorem texts_of_chunk {octets : Octets} {arrival : Arrival} {carry : Utf8.Carry}
    (hpoll : Inflow.poll s = (.chunk octets, s'))
    (hpush : (Utf8.Carry.empty.afterChunks s.chunks).push octets = (arrival, carry)) :
    s'.texts = s.texts ++ arrived [arrival] ∧ Utf8.Carry.empty.afterChunks s'.chunks = carry := by
  have hchunks : s'.chunks = s.chunks ++ [octets] := chunks_of_poll hpoll
  obtain ⟨harrivals, hafter⟩ := Utf8.Carry.arrivals_concat .empty s.chunks octets
  rw [hpush] at harrivals hafter
  rw [texts, hchunks, harrivals, arrived_append]
  exact ⟨rfl, hafter⟩

end Watched

namespace PollFeed

section

variable [Inflow σ]

/-- **A call counts a value if and only if it gives one.** -/
theorem objects_poll (f : PollFeed σ α) :
    f.poll.2.hopper.tally.objects =
      f.hopper.tally.objects + (f.poll.1.item?.any Except.isOk).toNat := by
  fun_induction poll f with
  | case1 f item h' hd => exact Hopper.objects_of_dispense hd
  | case2 f h' hd hover => exact Hopper.objects_of_dispense hd
  | case3 f h' hd hlive inflow hpoll =>
    exact (Hopper.objects_of_dispense hd :)
  | case4 f h' hd hlive report inflow hpoll =>
    exact (Hopper.objects_of_dispense hd :)
  | case5 f h' hd hlive inflow hpoll item f' hend =>
    obtain ⟨hitem, hfeed⟩ := endInflow_spec { f with inflow, hopper := h' }
    rw [hend] at hitem hfeed
    simp only at hitem hfeed
    -- the end gives a failure or nothing
    have hvalue : item.any Except.isOk = false := by
      rw [hitem]
      cases f.carry.unfinished? with
      | some fault => rfl
      | none => cases h'.endInput.1 <;> rfl
    rw [hfeed, h'.endInput_tally.2, Hopper.objects_of_dispense hd, Readiness.item?, hvalue]
    rfl
  | case6 f h' hd hlive octets inflow hpoll fault carry hpush =>
    exact (Hopper.objects_of_dispense hd :)
  | case7 f h' hd hlive octets inflow hpoll text carry hpush poured ih =>
    rw [ih, Hopper.pour_tally, Hopper.objects_of_dispense hd]
    rfl

end

variable [Inflow σ]

/-- What a caller does to a feed at a time.  The inflow may change in between, as a channel does when
    something is sent. -/
inductive Action (σ : Type) where
  | poll
  /-- A batch, which is given up when `patience` polls were not ready. -/
  | batch (patience : Nat)
  | cancel
  | inflow (s : σ)

/-- What a feed comes to by one action. -/
def act (f : PollFeed (Watched σ) α) : Action σ → PollFeed (Watched σ) α
  | .poll => f.poll.2
  | .batch patience => (f.batchWithin patience).2
  | .cancel => f.cancel
  | .inflow s => { f with inflow := { f.inflow with inflow := s } }

/-- What a feed comes to by actions, the first of them first. -/
def after (f : PollFeed (Watched σ) α) (actions : List (Action σ)) : PollFeed (Watched σ) α :=
  actions.foldl act f

variable {f f' : PollFeed (Watched σ) α} {interpret : Interpretation α} {splitter : Splitter}
  {discarded : List String}

/-- The texts that the inflow has given were fed, and these objects given up.  A live feed holds what the
    chunks leave unfinished. -/
structure Balanced (interpret : Interpretation α) (splitter : Splitter) (discarded : List String)
    (f : PollFeed (Watched σ) α) : Prop where
  ledger : ∃ handed, f.hopper.Ledger interpret splitter f.inflow.texts handed discarded
  carry : f.hopper.isLive = true → f.carry = Utf8.Carry.empty.afterChunks f.inflow.chunks

theorem Balanced.turn {answer : Option (Readiness (Option (Item α)))}
    (hf : f.Balanced interpret splitter discarded) (hturn : f.Turn answer f') :
    f'.Balanced interpret splitter discarded := by
  obtain ⟨⟨handed, hl⟩, hcarry⟩ := hf
  -- an answer without a chunk leaves the texts, and what is held, as they were
  have hquiet : ∀ {h : Hopper α} {item : Option (Item α)} {inflow : Watched σ} {released : Bool},
      f.hopper.dispense = (item, h) → inflow.chunks = f.inflow.chunks →
      ({ f with inflow, hopper := h, released } : PollFeed (Watched σ) α).Balanced
        interpret splitter discarded := by
    intro h item inflow released hd hchunks
    obtain ⟨more, hmore⟩ := hl.dispensed hd
    refine ⟨⟨handed ++ more, ?_⟩, fun hlive => ?_⟩
    · rw [Watched.texts, hchunks]
      exact hmore
    · rw [hchunks]
      exact hcarry ((Hopper.isLive_of_dispense hd).symm.trans hlive)
  cases hturn with
  | given hd => exact hquiet hd rfl
  | spent hd => exact hquiet hd rfl
  | notReady hwants hpoll =>
    exact hquiet hwants.drained (Watched.chunks_of_poll_none hpoll rfl)
  | failed hwants hpoll => exact hquiet hwants.drained (Watched.chunks_of_poll_none hpoll rfl)
  | @ended h inflow hwants hpoll =>
    obtain ⟨more, hmore⟩ := hl.dispensed hwants.drained
    rw [(endInflow_spec _).2]
    refine ⟨⟨handed ++ more, ?_⟩, fun hlive => ?_⟩
    · rw [Watched.texts, Watched.chunks_of_poll_none hpoll rfl]
      exact hmore.endInput
    · rw [h.endInput_spec.2.1] at hlive
      cases hlive
  | @illFormed h octets inflow fault carry hwants hpoll hpush =>
    obtain ⟨more, hmore⟩ := hl.dispensed hwants.drained
    rw [hcarry ((Hopper.isLive_of_dispense hwants.drained).symm.trans hwants.live)] at hpush
    obtain ⟨htexts, hafter⟩ := Watched.texts_of_chunk hpoll hpush
    refine ⟨⟨handed ++ more, ?_⟩, fun _ => hafter.symm⟩
    rw [htexts, arrived_error, arrived_nil, List.append_nil]
    exact hmore
  | @chunk h octets inflow text carry hwants hpoll hpush =>
    obtain ⟨more, hmore⟩ := hl.dispensed hwants.drained
    rw [hcarry ((Hopper.isLive_of_dispense hwants.drained).symm.trans hwants.live)] at hpush
    obtain ⟨htexts, hafter⟩ := Watched.texts_of_chunk hpoll hpush
    refine ⟨⟨handed ++ more, ?_⟩, fun _ => hafter.symm⟩
    rw [htexts, arrived_ok, arrived_nil]
    exact hmore.pour hwants.live text

theorem Balanced.act (hf : f.Balanced interpret splitter discarded) (action : Action σ) :
    ∃ discarded', (f.act action).Balanced interpret splitter discarded' ∧
      (action ≠ .cancel → discarded' = discarded) := by
  have hpoll : ∀ {f : PollFeed (Watched σ) α}, f.Balanced interpret splitter discarded →
      f.poll.2.Balanced interpret splitter discarded :=
    poll_goesThrough.keeps fun hf hturn => hf.turn hturn
  cases action with
  | poll => exact ⟨discarded, hpoll hf, fun _ => rfl⟩
  | batch patience => exact ⟨discarded, batchOf_induction hpoll _ patience hf, fun _ => rfl⟩
  | cancel =>
    obtain ⟨⟨handed, hl⟩, -⟩ := hf
    refine ⟨_, ⟨⟨handed, hl.abandon⟩, fun hlive => ?_⟩, fun hne => absurd rfl hne⟩
    exact absurd (f.hopper.abandon_isLive.symm.trans hlive) Bool.false_ne_true
  | inflow s => exact ⟨discarded, ⟨hf.ledger, hf.carry⟩, fun _ => rfl⟩

/-- **What was given up was given up by cancelling.** -/
theorem Balanced.after (hf : f.Balanced interpret splitter discarded) (actions : List (Action σ)) :
    ∃ discarded', (f.after actions).Balanced interpret splitter discarded' ∧
      (.cancel ∉ actions → discarded' = discarded) :=
  exists_foldl (fun hf action => hf.act action) hf actions

end PollFeed

/-! ## Accounts -/

/-- What a feed has counted in this state, and what to cancel it then changes: `fed` are the fragments
    that came to its splitter, and `cancelled` says whether it was cancelled before. -/
structure Accounted {S : Type} (interpret : Interpretation α) (splitter : Splitter)
    (ask : S → Readiness (Option (Item α)) × S) (cancel : S → S) (hopper : S → Hopper α)
    (fed : S → List String) (cancelled : Prop) (s : S) : Prop where
  /-- Every object is accounted for.  To cancel gives up those that wait, and changes nothing else. -/
  ledger : ∃ handed discarded,
    (hopper s).Ledger interpret splitter (fed s) handed discarded ∧
      (¬ cancelled → discarded = []) ∧
      (hopper (cancel s)).Ledger interpret splitter (fed (cancel s)) handed
        ((hopper s).backlog.toList ++ discarded)
  /-- Unless it was cancelled, the objects completed are those that were values, those that were rejected, and
      those that wait. -/
  balance : ¬ cancelled → (splitter.feedEach (fed s)).objects.length =
    (hopper s).tally.objects + (hopper s).tally.rejections + (hopper s).waiting
  /-- To cancel is counted as nothing, and then nothing waits. -/
  cancels : (hopper (cancel s)).tally = { (hopper s).tally with waiting := 0 }
  /-- A call counts a value if and only if it gives one. -/
  values : (hopper (ask s).2).tally.objects =
    (hopper s).tally.objects + ((ask s).1.item?.any Except.isOk).toNat

theorem accounted_of_ledger {S : Type} {interpret : Interpretation α} {splitter : Splitter}
    {ask : S → Readiness (Option (Item α)) × S} {cancel : S → S} {hopper : S → Hopper α}
    {fed : S → List String} {cancelled : Prop} {s : S} {handed discarded : List String}
    (hl : (hopper s).Ledger interpret splitter (fed s) handed discarded)
    (hdiscarded : ¬ cancelled → discarded = [])
    (hcancel : hopper (cancel s) = (hopper s).abandon) (hfed : fed (cancel s) = fed s)
    (hvalues : (hopper (ask s).2).tally.objects =
      (hopper s).tally.objects + ((ask s).1.item?.any Except.isOk).toNat) :
    Accounted interpret splitter ask cancel hopper fed cancelled s where
  ledger := by
    refine ⟨handed, discarded, hl, hdiscarded, ?_⟩
    rw [hcancel, hfed]
    exact hl.abandon
  balance hnever := by
    rw [hl.balance, hdiscarded hnever, List.length_nil, Nat.add_zero]
  cancels := by rw [hcancel, Hopper.abandon]
  values := hvalues

/-- **Objects are conserved, and counted right.**  Whatever a supply or an inflow brings, and whatever calls a
    feed gets, its tally counts the fragments fed, the objects that were values, those that were rejected,
    and those that wait; these are all objects that were completed, but for those that cancelling gave up. -/
theorem objects_conserved {ρ : Type} [Supply σ] [Inflow ρ] (interpret : Interpretation α)
    (settings : Settings) (supply : σ) (inflow : ρ) :
    let splitter : Splitter := { options := settings.splitter }
    (∀ actions : List (PullFeed.Action σ),
      Accounted interpret splitter PullFeed.ask PullFeed.cancel PullFeed.hopper
        (fun feed => feed.supply.fragments) (.cancel ∈ actions)
        ((PullFeed.new ({ supply } : Recorded σ) interpret settings).after actions)) ∧
      ∀ actions : List (PollFeed.Action ρ),
        Accounted interpret splitter PollFeed.poll PollFeed.cancel PollFeed.hopper
          (fun feed => feed.inflow.texts) (.cancel ∈ actions)
          ((PollFeed.new ({ inflow } : Watched ρ) interpret settings).after actions) := by
  intro splitter
  constructor
  · intro actions
    have hnew : (PullFeed.new ({ supply } : Recorded σ) interpret settings).Balanced
        interpret splitter [] := ⟨[], .new interpret settings⟩
    obtain ⟨discarded, ⟨handed, hl⟩, hdiscarded⟩ := hnew.after actions
    exact accounted_of_ledger hl hdiscarded rfl rfl (PullFeed.objects_next _)
  · intro actions
    have hnew : (PollFeed.new ({ inflow } : Watched ρ) interpret settings).Balanced
        interpret splitter [] := ⟨⟨[], .new interpret settings⟩, fun _ => rfl⟩
    obtain ⟨discarded, ⟨⟨handed, hl⟩, -⟩, hdiscarded⟩ := hnew.after actions
    exact accounted_of_ledger hl hdiscarded rfl rfl (PollFeed.objects_poll _)

/-- An object that is passed over, a value, and an object that still waits when the feed is cancelled. -/
example :
    let refuseEmpty : Interpretation String := fun text =>
      if text = "\x7b\x7d" then .error .json else .ok text
    let supply : Recorded Fragments := { supply := .ofList ["[\x7b\x7d,\x7b\"a\":1\x7d,\x7b\x7d", "]"] }
    let feed : PullFeed (Recorded Fragments) String := .new supply refuseEmpty { skipInvalid := true }
    (feed.after [.next]).hopper.tally = { fragments := 1, objects := 1, rejections := 1, waiting := 1 } ∧
      (feed.after [.next, .cancel, .next]).hopper.tally =
        { fragments := 1, objects := 1, rejections := 1, waiting := 0 } := by
  decide +kernel

end ObjectFeed
