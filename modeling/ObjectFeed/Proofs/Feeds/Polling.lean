/-
  What feeds that are polled give.

  * `Inflow.Answers` are the chunks and faults that an inflow gives until it ends, however often it is
    not ready.  `Inflow.Delivers` and `PolledReader.Reads` are the chunks of an inflow and of a reader
    that do not fail;
  * `PollFeed.yields_received`: a feed yields the items that are ahead of its hopper, if what arrives
    is what comes of what its inflow brings;
  * `PollFeed.poll_lasts`: a feed that gave its end gives it again;
  * `ReaderInflow.delivers`: an inflow over a reader delivers what the reader reads;
  * `Inflow.Brings`, `PolledReader.Brings`, `PollFeed.yields` and `ReaderInflow.brings` are these for
    octets that are text.
-/
import ObjectFeed.Proofs.Feeds.Runs
import ObjectFeed.Proofs.Utf8.Decoding

namespace ObjectFeed

/-! ## Inflows -/

/-- An inflow delivers these chunks and then its end. -/
inductive Inflow.Delivers {σ : Type} [Inflow σ] : σ → List Octets → Prop where
  | ended {s s' : σ} : poll s = (.ended, s') → Delivers s []
  | chunk {s s' : σ} {chunk : Octets} {chunks : List Octets} :
      poll s = (.chunk chunk, s') → Delivers s' chunks → Delivers s (chunk :: chunks)
  | notReady {s s' : σ} {chunks : List Octets} :
      poll s = (.notReady, s') → Delivers s' chunks → Delivers s chunks

/-- An inflow brings these octets, in chunks of any size, and then its end. -/
inductive Inflow.Brings {σ : Type} [Inflow σ] : σ → Octets → Prop where
  | ended {s s' : σ} : poll s = (.ended, s') → Brings s []
  | chunk {s s' : σ} {octets coming : Octets} :
      poll s = (.chunk octets, s') → Brings s' coming → Brings s (octets ++ coming)
  | notReady {s s' : σ} {coming : Octets} :
      poll s = (.notReady, s') → Brings s' coming → Brings s coming

theorem Inflow.brings_iff_delivers {σ : Type} [Inflow σ] {s : σ} {coming : Octets} :
    Brings s coming ↔ ∃ chunks, Delivers s chunks ∧ chunks.flatten = coming := by
  constructor
  · intro hs
    induction hs with
    | ended hpoll => exact ⟨[], .ended hpoll, rfl⟩
    | chunk hpoll _ ih =>
      obtain ⟨chunks, hchunks, rfl⟩ := ih
      exact ⟨_, .chunk hpoll hchunks, rfl⟩
    | notReady hpoll _ ih =>
      obtain ⟨chunks, hchunks, rfl⟩ := ih
      exact ⟨chunks, .notReady hpoll hchunks, rfl⟩
  · rintro ⟨chunks, hs, rfl⟩
    induction hs with
    | ended hpoll => exact .ended hpoll
    | chunk hpoll _ ih => exact .chunk hpoll ih
    | notReady hpoll _ ih => exact .notReady hpoll ih

/-- An inflow gives these chunks and faults, and then its end. -/
inductive Inflow.Answers {σ : Type} [Inflow σ] : σ → List Delivery → Prop where
  | ended {s s' : σ} : poll s = (.ended, s') → Answers s []
  | chunk {s s' : σ} {chunk : Octets} {deliveries : List Delivery} :
      poll s = (.chunk chunk, s') → Answers s' deliveries → Answers s (.ok chunk :: deliveries)
  | failed {s s' : σ} {report : String} {deliveries : List Delivery} :
      poll s = (.failed report, s') → Answers s' deliveries →
      Answers s (.error (.reported .other report) :: deliveries)
  | notReady {s s' : σ} {deliveries : List Delivery} :
      poll s = (.notReady, s') → Answers s' deliveries → Answers s deliveries

theorem Inflow.Delivers.answers {σ : Type} [Inflow σ] {s : σ} {chunks : List Octets}
    (hs : Delivers s chunks) : Answers s (chunks.map .ok) := by
  induction hs with
  | ended hpoll => exact .ended hpoll
  | chunk hpoll _ ih => exact .chunk hpoll ih
  | notReady hpoll _ ih => exact .notReady hpoll ih

/-- The items at the end of an inflow: an unfinished code point is reported rather than an open
    array. -/
def Utf8.Carry.ending {α : Type} (carry : Carry) (settings : Settings) (splitter : Splitter) :
    List (Item α) :=
  match carry.unfinished? with
  | none => settings.ending splitter
  | some fault => [.error (.transport fault)]

theorem Utf8.Carry.ending_of_finished {α : Type} {carry : Carry} (h : carry.unfinished? = none)
    (settings : Settings) :
    carry.ending settings = (settings.ending : Splitter → List (Item α)) := by
  funext splitter
  rw [ending, h]

namespace PollFeed

variable {σ α : Type} [Inflow σ] {inflow inflow' : σ} {h h' : Hopper α} {carry : Utf8.Carry}
  {released : Bool}

theorem poll_of_dispensed {item : Item α} (hd : h.dispense = (some item, h')) :
    poll { inflow, hopper := h, carry, released } =
      (.ready (some item), { inflow, hopper := h', carry, released }) := by
  rw [poll, hd]

theorem poll_of_spent (hd : h.dispense = (none, h')) (hover : (!h'.isLive || released) = true) :
    poll { inflow, hopper := h, carry, released } =
      (.ready none, { inflow, hopper := h', carry, released }) := by
  rw [poll, hd]
  simp only [hover, if_true]

theorem poll_of_over (hd : h.dispense = (none, h')) (hlive : h'.isLive = false) :
    poll { inflow, hopper := h, carry, released } =
      (.ready none, { inflow, hopper := h', carry, released }) :=
  poll_of_spent hd (by rw [hlive]; rfl)

theorem poll_of_drained (hd : h.dispense = (none, h')) (hlive : h'.isLive = true) :
    poll { inflow, hopper := h, carry } =
      match Inflow.poll inflow with
      | (.notReady, inflow) => (.notReady, { inflow, hopper := h', carry })
      | (.failed report, inflow) =>
        (.ready (some (.error (.transport (.reported .other report)))),
          { inflow, hopper := h', carry })
      | (.ended, inflow) =>
        (.ready (endInflow { inflow, hopper := h', carry }).1,
          (endInflow { inflow, hopper := h', carry }).2)
      | (.chunk octets, inflow) =>
        match carry.push octets with
        | (.error fault, carry) =>
          (.ready (some (.error (.transport fault))), { inflow, hopper := h', carry })
        | (.ok text, carry) =>
          poll { inflow, hopper := h'.pour text, carry, released := !(h'.pour text).isLive } := by
  rw [poll, hd]
  simp only [hlive, Bool.not_true, Bool.or_false, Bool.false_eq_true, if_false]
  -- the termination proof reads the answer of the inflow, so it is only split here
  split
  · next hpoll => rw [hpoll]
  · next hpoll => rw [hpoll]
  · next hpoll => rw [hpoll]
  · next octets _ hpoll =>
    rcases hpush : carry.push octets with ⟨_ | text, next⟩ <;> simp only [hpoll, hpush]

theorem poll_of_notReady (hd : h.dispense = (none, h')) (hlive : h'.isLive = true)
    (hpoll : Inflow.poll inflow = (.notReady, inflow')) :
    poll { inflow, hopper := h, carry } =
      (.notReady, { inflow := inflow', hopper := h', carry }) := by
  rw [poll_of_drained hd hlive, hpoll]

/-- What the inflow reports is a fault, and what is held stays held. -/
theorem poll_of_failed {report : String} (hd : h.dispense = (none, h')) (hlive : h'.isLive = true)
    (hpoll : Inflow.poll inflow = (.failed report, inflow')) :
    poll { inflow, hopper := h, carry } =
      (.ready (some (.error (.transport (.reported .other report)))),
        { inflow := inflow', hopper := h', carry }) := by
  rw [poll_of_drained hd hlive, hpoll]

theorem poll_of_endInflow (hd : h.dispense = (none, h')) (hlive : h'.isLive = true)
    (hpoll : Inflow.poll inflow = (.ended, inflow')) :
    poll { inflow, hopper := h, carry } =
      (.ready (endInflow { inflow := inflow', hopper := h', carry }).1,
        (endInflow { inflow := inflow', hopper := h', carry }).2) := by
  rw [poll_of_drained hd hlive, hpoll]

theorem poll_of_ended (carry : Utf8.Carry) (hd : h.dispense = (none, h')) (hlive : h'.isLive = true)
    (hqueued : h'.queued = []) (hpoll : Inflow.poll inflow = (.ended, inflow')) :
    ∃ item : Option (Item α), item.toList = carry.ending h'.settings h'.splitter ∧
      poll { inflow, hopper := h, carry } =
        (.ready item, { inflow := inflow', hopper := h'.endInput.2, carry := .empty
                        released := true }) := by
  obtain ⟨hitem, -, -⟩ := Hopper.endInput_eq hqueued
  rw [poll_of_endInflow hd hlive hpoll, Utf8.Carry.ending]
  simp only [endInflow, carry.flush_eq]
  cases carry.unfinished? with
  | none => exact ⟨_, hitem, rfl⟩
  | some fault => exact ⟨_, rfl, rfl⟩

/-- The feed goes on with the text that is now complete, and lets go of the inflow if it cannot be
    split. -/
theorem poll_of_chunk {octets : Octets} {text : String} {next : Utf8.Carry}
    (hd : h.dispense = (none, h')) (hlive : h'.isLive = true)
    (hpoll : Inflow.poll inflow = (.chunk octets, inflow'))
    (hpush : carry.push octets = (.ok text, next)) :
    poll { inflow, hopper := h, carry } =
      poll { inflow := inflow', hopper := h'.pour text, carry := next
             released := !(h'.pour text).isLive } := by
  rw [poll_of_drained hd hlive, hpoll]
  simp only [hpush]

theorem poll_of_illFormed {octets : Octets} {fault : Fault} {next : Utf8.Carry}
    (hd : h.dispense = (none, h')) (hlive : h'.isLive = true)
    (hpoll : Inflow.poll inflow = (.chunk octets, inflow'))
    (hpush : carry.push octets = (.error fault, next)) :
    poll { inflow, hopper := h, carry } =
      (.ready (some (.error (.transport fault))),
        { inflow := inflow', hopper := h', carry := next }) := by
  rw [poll_of_drained hd hlive, hpoll]
  simp only [hpush]

theorem handsOut (inflow : σ) (carry : Utf8.Carry) (released : Bool) :
    HandsOut poll fun h : Hopper α => { inflow, hopper := h, carry, released } where
  dispensed := poll_of_dispensed
  spent := poll_of_over

/-- **A feed that is polled yields what is ahead of its hopper**, if what arrives is what comes of what
    its inflow brings. -/
theorem yields_received {deliveries : List Delivery} (hs : Inflow.Answers inflow deliveries)
    (carry : Utf8.Carry) (h : Hopper α) :
    Yields poll { inflow, hopper := h, carry }
      (h.ahead ((carry.afterChunks (arrived deliveries)).ending h.settings)
        (carry.received deliveries)) := by
  induction hs generalizing carry h with
  | @ended inflow inflow' hpoll =>
    refine (handsOut _ _ _).yields_of_drained h ?_
    intro h₀ h' hd hframe hlive hqueued
    obtain ⟨item, hitem, hask⟩ := poll_of_ended carry hd hlive hqueued hpoll
    obtain ⟨-, hover, hempty⟩ := Hopper.endInput_eq hqueued
    rw [Hopper.ahead_of_drained _ _ hlive hqueued, Utf8.Carry.received, itemsThrough, arrived_nil,
      Utf8.Carry.afterChunks, List.foldl_nil, ← hframe.settings, ← hitem]
    exact .last hask ((handsOut _ _ _).yields_nil hover hempty)
  | @chunk inflow inflow' octets deliveries hpoll _ ih =>
    refine (handsOut _ _ _).yields_of_drained h ?_
    intro h₀ h' hd hframe hlive hqueued
    rw [Utf8.Carry.received, arrived_ok, Utf8.Carry.afterChunks_cons]
    rcases hpush : carry.push octets with ⟨fault | text, next⟩
    · have hrest := ih next h'
      rw [hframe.settings] at hrest
      rw [Hopper.ahead_fault _ _ hlive hqueued]
      exact .item (poll_of_illFormed hd hlive hpoll hpush) hrest
    · have hask := poll_of_chunk hd hlive hpoll hpush
      have hrest := ih next (h'.pour text)
      rw [Hopper.pour_settings, hframe.settings] at hrest
      rw [Hopper.ahead_pour _ _ hlive hqueued]
      cases hpoured : (h'.pour text).isLive with
      | true =>
        rw [hpoured] at hask
        exact .congr hask hrest
      | false => exact .congr hask ((handsOut _ _ _).yields_of_not_live hpoured _ _)
  | @failed inflow inflow' report deliveries hpoll _ ih =>
    refine (handsOut _ _ _).yields_of_drained h ?_
    intro h₀ h' hd hframe hlive hqueued
    have hrest := ih carry h'
    rw [hframe.settings] at hrest
    rw [Utf8.Carry.received, arrived_error, Hopper.ahead_fault _ _ hlive hqueued]
    exact .item (poll_of_failed hd hlive hpoll) hrest
  | @notReady inflow inflow' deliveries hpoll _ ih =>
    refine (handsOut _ _ _).yields_of_drained h ?_
    intro h₀ h' hd hframe hlive hqueued
    have hrest := ih carry h'
    rw [hframe.settings] at hrest
    exact .notReady (poll_of_notReady hd hlive hpoll) hrest

theorem yields_arrivals {chunks : List Octets} (hs : Inflow.Delivers inflow chunks)
    (carry : Utf8.Carry) (h : Hopper α) :
    Yields poll { inflow, hopper := h, carry }
      (h.ahead ((carry.afterChunks chunks).ending h.settings) (carry.arrivals chunks)) := by
  have hyields := yields_received hs.answers carry h
  rw [Utf8.Carry.received_map_ok, arrived_map_ok] at hyields
  exact hyields

/-- A feed that is polled yields what is to come of its hopper, fed the text that its inflow brings.
    How the text is cut into fragments depends on the chunks. -/
theorem yields {octets : Octets} (hs : Inflow.Brings inflow octets) {text : String}
    (hc : carry.Awaits octets text) :
    ∃ fragments, String.join fragments = text ∧
      ∀ h : Hopper α, Yields poll { inflow, hopper := h, carry } (h.coming fragments) := by
  obtain ⟨chunks, hdelivers, rfl⟩ := Inflow.brings_iff_delivers.1 hs
  obtain ⟨fragments, hjoin, harrivals, hend⟩ := hc.exists_arrivals
  refine ⟨fragments, hjoin, fun h => ?_⟩
  have hyields := yields_arrivals hdelivers carry h
  rw [harrivals, Utf8.Carry.ending_of_finished hend, ← Hopper.coming_eq_ahead] at hyields
  exact hyields

/-! ### The end -/

/-- The feed takes no more chunks, and nothing is queued. -/
def IsDone (f : PollFeed σ α) : Prop :=
  (!f.hopper.isLive || f.released) = true ∧ f.hopper.queued = []

theorem isDone_of_poll (f : PollFeed σ α) (hpoll : f.poll.1 = .ready none) : f.poll.2.IsDone := by
  revert hpoll
  fun_induction poll f with
  | case1 f item h' hd => exact nofun
  | case2 f h' hd hover => exact fun _ => ⟨hover, (Hopper.queued_of_dispense_none hd).2⟩
  | case3 f h' hd hlive inflow hpoll => exact nofun
  | case4 f h' hd hlive report inflow hpoll => exact nofun
  | case5 f h' hd hlive inflow hpoll item f' hend =>
    intro _
    obtain ⟨-, -, hqueued⟩ := Hopper.endInput_eq (Hopper.queued_of_dispense_none hd).2
    have hopper : h'.endInput.2 = f'.hopper := congrArg (fun ended => ended.2.hopper) hend
    have hreleased : true = f'.released := congrArg (fun ended => ended.2.released) hend
    rw [hopper] at hqueued
    exact ⟨by rw [← hreleased, Bool.or_true], hqueued⟩
  | case6 f h' hd hlive octets inflow hpoll fault carry hpush => exact nofun
  | case7 f h' hd hlive octets inflow hpoll text carry hpush poured ih => exact ih

theorem IsDone.poll {f : PollFeed σ α} (hf : f.IsDone) : f.poll.1 = .ready none := by
  obtain ⟨hover, hqueued⟩ := hf
  obtain ⟨h', hd, hframe⟩ := Hopper.dispense_of_queued_nil hqueued
  rw [← hframe.isLive] at hover
  rw [PollFeed.poll, hd]
  simp only [hover, if_true]

/-- **A feed that gave its end gives it again.** -/
theorem poll_lasts (f : PollFeed σ α) (hpoll : f.poll.1 = .ready none) :
    f.poll.2.poll.1 = .ready none :=
  (isDone_of_poll f hpoll).poll

end PollFeed

/-! ## Readers -/

/-- Polled for at most `n` octets at a time, a reader brings these chunks, which have some octets each,
    and then its end. -/
inductive PolledReader.Reads {ρ : Type} [PolledReader ρ] (n : Nat) : ρ → List Octets → Prop where
  | ended {r r' : ρ} : pollRead n r = (.octets [], r') → Reads n r []
  | octets {r r' : ρ} {chunk : Octets} {chunks : List Octets} :
      pollRead n r = (.octets chunk, r') → chunk ≠ [] → Reads n r' chunks →
      Reads n r (chunk :: chunks)
  | notReady {r r' : ρ} {chunks : List Octets} :
      pollRead n r = (.notReady, r') → Reads n r' chunks → Reads n r chunks

/-- Polled for at most `n` octets at a time, a reader brings these octets, any number of them at a
    time, and then its end. -/
inductive PolledReader.Brings {ρ : Type} [PolledReader ρ] (n : Nat) : ρ → Octets → Prop where
  | ended {r r' : ρ} : pollRead n r = (.octets [], r') → Brings n r []
  | octets {r r' : ρ} {octets coming : Octets} :
      pollRead n r = (.octets octets, r') → octets ≠ [] → Brings n r' coming →
      Brings n r (octets ++ coming)
  | notReady {r r' : ρ} {coming : Octets} :
      pollRead n r = (.notReady, r') → Brings n r' coming → Brings n r coming

theorem PolledReader.exists_reads {ρ : Type} [PolledReader ρ] {n : Nat} {r : ρ} {coming : Octets}
    (hr : Brings n r coming) : ∃ chunks, Reads n r chunks ∧ chunks.flatten = coming := by
  induction hr with
  | ended hread => exact ⟨[], .ended hread, rfl⟩
  | octets hread hne _ ih =>
    obtain ⟨chunks, hchunks, rfl⟩ := ih
    exact ⟨_, .octets hread hne hchunks, rfl⟩
  | notReady hread _ ih =>
    obtain ⟨chunks, hchunks, rfl⟩ := ih
    exact ⟨chunks, .notReady hread hchunks, rfl⟩

namespace ReaderInflow

variable {ρ : Type} [PolledReader ρ] {reader : ρ} {readSize : Nat}

theorem delivers {chunks : List Octets}
    (hr : PolledReader.Reads (max readSize 1) reader chunks) :
    Inflow.Delivers ({ reader, readSize } : ReaderInflow ρ) chunks := by
  induction hr with
  | @ended r r' hread =>
    have hpoll : poll { reader := r, readSize } = (.ended, { reader := r', readSize }) := by
      simp only [poll, Bool.false_eq_true, if_false, hread]
    exact .ended hpoll
  | @octets r r' chunk chunks hread hne _ ih =>
    have hpoll : poll { reader := r, readSize } = (.chunk chunk, { reader := r', readSize }) := by
      obtain ⟨b, more, rfl⟩ := List.exists_cons_of_ne_nil hne
      simp only [poll, Bool.false_eq_true, if_false, hread]
    exact .chunk hpoll ih
  | @notReady r r' chunks hread _ ih =>
    have hpoll : poll { reader := r, readSize } = (.notReady, { reader := r', readSize }) := by
      simp only [poll, Bool.false_eq_true, if_false, hread]
    exact .notReady hpoll ih

theorem brings {octets : Octets} (hr : PolledReader.Brings (max readSize 1) reader octets) :
    Inflow.Brings ({ reader, readSize } : ReaderInflow ρ) octets := by
  obtain ⟨chunks, hreads, hflatten⟩ := PolledReader.exists_reads hr
  exact Inflow.brings_iff_delivers.2 ⟨chunks, delivers hreads, hflatten⟩

end ReaderInflow

end ObjectFeed
