/-
  What a run of the command writes.

  * `outcomeOf` is what a run leaves that comes upon certain items: the values one a line, up to the first
    failure;
  * `Session.GoesOn` says what holds of a run between two actions, and `Session.toDo` bounds the actions
    that are to come: each value that is written, each octet that is read and the end of the input take
    something from it;
  * `Session.Writes` says that a run writes the values ahead of it.  There is one lemma for each thing that a
    run does next, and `Session.writes` puts them together;
  * `runReads_eq_outcomeOf`: so a run leaves what comes of its reads, and `runReads_octetsOf`: where these
    bring a text, what comes of the text;
  * `run_eq_runReads`: the command is such a run, its reads cut its input as they may.
-/
import ObjectFeed.CommandLine
import ObjectFeed.Proofs.Feeds.Channels
import ObjectFeed.Proofs.Utf8.WellFormed

namespace ObjectFeed.CommandLine

/-! ## What chunks bring -/

/-- Each character completes one object at most, and one that is refused completes none. -/
theorem length_objects_le (o : Splitter.Options) (place : Splitter.Place) (text : List Char) :
    (Splitter.run o place text).objects.length +
      (Splitter.run o place text).refusal.toList.length ≤ text.length := by
  fun_induction Splitter.run o place text with
  | case1 => exact Nat.le_refl 0
  | case2 place c rest next hstep ih =>
    rw [List.length_cons]
    omega
  | case3 place c rest next object hstep r ih =>
    rw [List.length_cons, List.length_cons, Nat.add_right_comm]
    exact Nat.add_le_add_right ih 1
  | case4 place c rest next refusal hstep => simp

theorem length_le_octets (text : String) : text.toList.length ≤ (octetsOf text).length := by
  rw [Utf8.octetsOf_eq_flatMap]
  induction text.toList with
  | nil => exact Nat.le_refl 0
  | cons c cs ih =>
    have hpos : 0 < (String.utf8EncodeChar c).length := by
      rw [String.length_utf8EncodeChar]
      exact Char.utf8Size_pos c
    rw [List.flatMap_cons, List.length_append, List.length_cons]
    omega

/-- A chunk brings no more items than there are octets of it and of what is held. -/
theorem length_queued_pour {α : Type} {h : Hopper α} (hqueued : h.queued = [])
    {carry next : Utf8.Carry} {octets : Octets} {text : String}
    (hpush : carry.push octets = (.ok text, next)) :
    (h.pour text).queued.length + next.held.length ≤ carry.held.length + octets.length := by
  have hitems : (h.pour text).queued.length ≤ text.toList.length := by
    have hvalues := List.length_filterMap_le (itemOf? h.interpret h.settings)
      (h.splitter.feed text).objects
    have hfailure : (((h.splitter.feed text).failure.map .error).toList : List (Item α)).length =
        (Splitter.run h.splitter.options h.splitter.place text.toList).refusal.toList.length := by
      rw [Splitter.feed]
      cases (Splitter.run h.splitter.options h.splitter.place text.toList).refusal <;> rfl
    rw [Hopper.queued_pour hqueued, List.length_append, hfailure]
    exact Nat.le_trans (Nat.add_le_add_right hvalues _) (length_objects_le _ _ text.toList)
  have hread : (octetsOf text).length + next.held.length = carry.held.length + octets.length := by
    rw [Utf8.Carry.push] at hpush
    cases hdecode : Utf8.decode (carry.held ++ octets) with
    | illFormed index length => rw [hdecode] at hpush; cases hpush
    | upTo read held =>
      rw [hdecode] at hpush
      cases hpush
      rw [← List.length_append, Utf8.octets_of_decode hdecode, List.length_append]
  have hchars := length_le_octets text
  omega

/-! ## Runs -/

/-- What a run leaves that has written a text and comes upon these items: it writes the values one a
    line, up to the first failure. -/
def outcomeOf (output : String) : List (Item String) → Outcome
  | [] => { code := 0, output, error := "" }
  | .ok text :: items => outcomeOf (output ++ (text ++ "\n")) items
  | .error failure :: _ => { code := 1, output, error := errorLine (failureReport failure) }

namespace Session

/-- The items ahead of a run that is to read this. -/
def ahead (s : Session) (reads : List Octets) : List (Item String) :=
  let coming := s.feed.inflow.waiting.toList ++ reads
  s.feed.hopper.ahead ((s.feed.carry.afterChunks coming).ending s.feed.hopper.settings)
    (s.feed.carry.arrivals coming)

/-- A bound on the actions of a run before its last. -/
def toDo (s : Session) (reads : List Octets) : Nat :=
  s.feed.hopper.queued.length + s.feed.carry.held.length +
    s.feed.inflow.waiting.toList.flatten.length + 2 * reads.flatten.length +
    if s.feed.inflow.senderOpen then 1 else 0

/-- A run that can go on with these reads. -/
structure GoesOn (s : Session) (reads : List Octets) : Prop where
  capacity_pos : 0 < s.feed.inflow.capacity
  released : s.feed.hopper.isLive = true → s.feed.released = false
  /-- A read that brings nothing is the end of the input. -/
  nil_not_mem : [] ∉ reads
  /-- The sender is closed at the end of the input only. -/
  closed : s.feed.inflow.senderOpen = false → reads = []

theorem goesOn_start (readSize : Nat) {reads : List Octets} (hreads : [] ∉ reads) :
    (start readSize).GoesOn reads where
  capacity_pos := Nat.one_pos
  released _ := rfl
  nil_not_mem := hreads
  closed := nofun

end Session

theorem runFrom_congr {f f' : PollFeed (Channel Octets) String} (hpoll : f.poll = f'.poll)
    (output : String) (fuel size : Nat) (reads : List Octets) :
    runFrom output fuel ⟨f, size⟩ reads = runFrom output fuel ⟨f', size⟩ reads := by
  cases fuel with
  | zero => rfl
  | succ fuel => rw [runFrom, runFrom, Session.next, Session.next, hpoll]

/-- With this fuel, a run that is to read this writes the values ahead of it. -/
def Session.Writes (s : Session) (fuel : Nat) (reads : List Octets) : Prop :=
  ∀ output, runFrom output fuel s reads = outcomeOf output (s.ahead reads)

theorem ahead_of_dispense {h h' : Hopper String} {item : Option (Item String)}
    (hd : h.dispense = (item, h')) :
    h.Frame h' ∧ ∀ ending arrivals,
      h.ahead ending arrivals = item.toList ++ h'.ahead ending arrivals := by
  have hframe := h.dispense_frame
  rw [hd] at hframe
  exact ⟨hframe, fun ending arrivals =>
    hframe.ahead ending arrivals item.toList (Hopper.queued_of_dispense hd)⟩

theorem isError_of_mem_ending {carry : Utf8.Carry} {settings : Settings} {splitter : Splitter}
    {item : Item String} (h : item ∈ carry.ending settings splitter) :
    ∃ failure, item = .error failure := by
  rw [Utf8.Carry.ending] at h
  cases hunfinished : carry.unfinished? with
  | some fault =>
    rw [hunfinished] at h
    exact ⟨_, List.mem_singleton.1 h⟩
  | none =>
    rw [hunfinished] at h
    obtain ⟨failure, -, rfl⟩ := Option.map_eq_some_iff.1 (Option.mem_toList.1 h)
    exact ⟨failure, rfl⟩

namespace Session.Writes

variable {inflow inflow' : Channel Octets} {h h' : Hopper String} {carry next : Utf8.Carry}
  {released : Bool} {size fuel : Nat} {octets : Octets} {reads : List Octets}

theorem value {text : String} (hd : h.dispense = (some (.ok text), h'))
    (hrest : Writes ⟨{ inflow, hopper := h', carry, released }, size⟩ fuel reads) :
    Writes ⟨{ inflow, hopper := h, carry, released }, size⟩ (fuel + 1) reads := by
  obtain ⟨hframe, hahead⟩ := ahead_of_dispense hd
  intro output
  rw [runFrom, Session.next, PollFeed.poll_of_dispensed hd, ahead, hahead, ← hframe.settings]
  exact hrest _

theorem failure {failure : Failure} (hd : h.dispense = (some (.error failure), h')) :
    Writes ⟨{ inflow, hopper := h, carry, released }, size⟩ (fuel + 1) reads := by
  obtain ⟨-, hahead⟩ := ahead_of_dispense hd
  intro output
  rw [runFrom, Session.next, PollFeed.poll_of_dispensed hd, ahead, hahead]
  rfl

theorem finished (hd : h.dispense = (none, h')) (hlive : h'.isLive = false) :
    Writes ⟨{ inflow, hopper := h, carry, released }, size⟩ (fuel + 1) reads := by
  obtain ⟨-, hahead⟩ := ahead_of_dispense hd
  intro output
  rw [runFrom, Session.next, PollFeed.poll_of_over hd hlive, ahead, hahead,
    Hopper.ahead_of_not_live _ _ hlive, (Hopper.queued_of_dispense_none hd).2]
  rfl

/-- A run first writes what is queued, and reads where nothing is. -/
theorem of_queue
    (hvalue : ∀ {text h'}, h.dispense = (some (.ok text), h') →
      Writes ⟨{ inflow, hopper := h', carry, released }, size⟩ fuel reads)
    (hdrained : ∀ {h'}, h.dispense = (none, h') → h'.isLive = true →
      Writes ⟨{ inflow, hopper := h, carry, released }, size⟩ (fuel + 1) reads) :
    Writes ⟨{ inflow, hopper := h, carry, released }, size⟩ (fuel + 1) reads := by
  rcases hd : h.dispense with ⟨_ | failure | text, h'⟩
  · cases hlive : h'.isLive with
    | false => exact finished hd hlive
    | true => exact hdrained hd hlive
  · exact Writes.failure hd
  · exact value hd (hvalue hd)

section

variable (hd : h.dispense = (none, h')) (hlive : h'.isLive = true)
include hd hlive

/-- A chunk that goes on with text is poured, and the run goes on from there. -/
theorem pour {text : String} {rest : Backlog Octets}
    (hwaiting : inflow.waiting.toList = octets :: rest.toList)
    (hpoll : Inflow.poll inflow = (.chunk octets, { inflow with waiting := rest }))
    (hpush : carry.push octets = (.ok text, next))
    (hrest : Writes ⟨{ inflow := { inflow with waiting := rest }, hopper := h'.pour text
                       carry := next, released := !(h'.pour text).isLive }, size⟩ fuel reads) :
    Writes ⟨{ inflow, hopper := h, carry }, size⟩ fuel reads := by
  obtain ⟨hframe, hahead⟩ := ahead_of_dispense hd
  have hqueued := (Hopper.queued_of_dispense_none hd).2
  intro output
  have hcoming : (inflow.waiting.toList ++ reads) = octets :: (rest.toList ++ reads) := by
    rw [hwaiting, List.cons_append]
  rw [runFrom_congr (PollFeed.poll_of_chunk hd hlive hpoll hpush), hrest, ahead, ahead]
  simp only [hcoming, Utf8.Carry.arrivals, Utf8.Carry.afterChunks_cons, hpush, hahead,
    Hopper.ahead_pour _ _ hlive hqueued, Hopper.pour_settings, hframe.settings]
  rfl

theorem illFormed {fault : Fault} {rest : Backlog Octets}
    (hwaiting : inflow.waiting.toList = octets :: rest.toList)
    (hpoll : Inflow.poll inflow = (.chunk octets, { inflow with waiting := rest }))
    (hpush : carry.push octets = (.error fault, next)) :
    Writes ⟨{ inflow, hopper := h, carry }, size⟩ (fuel + 1) reads := by
  obtain ⟨-, hahead⟩ := ahead_of_dispense hd
  have hqueued := (Hopper.queued_of_dispense_none hd).2
  intro output
  rw [runFrom, Session.next, PollFeed.poll_of_illFormed hd hlive hpoll hpush, ahead]
  simp only [hwaiting, List.cons_append, Utf8.Carry.arrivals, hpush, hahead,
    Hopper.ahead_fault _ _ hlive hqueued]
  rfl

theorem read (hempty : inflow.waiting.toList = [])
    (hpoll : Inflow.poll inflow = (.notReady, inflow)) (hsender : inflow.senderOpen = true)
    (hcapacity : 0 < inflow.capacity) (hne : octets ≠ [])
    (hrest : Writes ⟨{ inflow := { inflow with waiting := inflow.waiting.push octets }
                       hopper := h', carry }, size⟩ fuel reads) :
    Writes ⟨{ inflow, hopper := h, carry }, size⟩ (fuel + 1) (octets :: reads) := by
  obtain ⟨hframe, hahead⟩ := ahead_of_dispense hd
  intro output
  have hsend : inflow.send true octets =
      (.sent, { inflow with waiting := inflow.waiting.push octets }) := by
    have hroom : ¬ inflow.capacity ≤ inflow.waiting.size := by
      rw [Backlog.size_eq_length, hempty]
      exact Nat.not_le.2 hcapacity
    rw [Channel.send, hsender, if_neg (by decide), if_neg (by decide), if_neg hroom]
  have hgive : Session.give ⟨{ inflow, hopper := h', carry }, size⟩ octets =
      ⟨{ inflow := { inflow with waiting := inflow.waiting.push octets }
         hopper := h', carry }, size⟩ := by
    rw [Session.give, if_neg (by rwa [List.isEmpty_iff]), PollFeed.send]
    simp only [Bool.not_false, hsend]
  rw [runFrom, Session.next, PollFeed.poll_of_notReady hd hlive hpoll]
  simp only [List.headD_cons, List.tail_cons, hgive, hrest output, ahead, hahead,
    Backlog.toList_push, hempty, hframe.settings]
  rfl

theorem close (hpoll : Inflow.poll inflow = (.notReady, inflow))
    (hrest : Writes ⟨{ inflow := inflow.closeSender, hopper := h', carry }, size⟩ fuel []) :
    Writes ⟨{ inflow, hopper := h, carry }, size⟩ (fuel + 1) [] := by
  obtain ⟨hframe, hahead⟩ := ahead_of_dispense hd
  intro output
  rw [runFrom, Session.next, PollFeed.poll_of_notReady hd hlive hpoll]
  simp only [List.headD_nil, List.tail_nil]
  rw [show Session.give ⟨{ inflow, hopper := h', carry }, size⟩ [] =
    ⟨{ inflow := inflow.closeSender, hopper := h', carry }, size⟩ from rfl, hrest, ahead, ahead,
    hahead, ← hframe.settings]
  rfl

theorem ended (hempty : inflow.waiting.toList = [])
    (hpoll : Inflow.poll inflow = (.ended, inflow)) :
    Writes ⟨{ inflow, hopper := h, carry }, size⟩ (fuel + 1) [] := by
  obtain ⟨hframe, hahead⟩ := ahead_of_dispense hd
  have hqueued := (Hopper.queued_of_dispense_none hd).2
  obtain ⟨item, hitem, hask⟩ := PollFeed.poll_of_ended carry hd hlive hqueued hpoll
  have hending : Session.ahead ⟨{ inflow, hopper := h, carry }, size⟩ [] = item.toList := by
    rw [ahead]
    simp only [hempty, List.append_nil, Utf8.Carry.arrivals, hahead]
    rw [Hopper.ahead_of_drained _ _ hlive hqueued, hitem, hframe.settings]
    rfl
  intro output
  rw [runFrom, Session.next, hask, hending]
  cases item with
  | none => rfl
  | some item =>
    have hmem : item ∈ carry.ending h'.settings h'.splitter := by
      rw [← hitem]
      exact List.mem_singleton_self item
    obtain ⟨failure, rfl⟩ := isError_of_mem_ending hmem
    rfl

end

end Session.Writes

namespace Session.GoesOn

variable {inflow : Channel Octets} {h h' : Hopper String} {carry next : Utf8.Carry} {released : Bool}
  {size : Nat} {octets : Octets} {reads : List Octets}
  (hs : GoesOn ⟨{ inflow, hopper := h, carry, released }, size⟩ reads)
include hs

theorem value {item : Item String} (hd : h.dispense = (some item, h')) :
    let s' : Session := ⟨{ inflow, hopper := h', carry, released }, size⟩
    s'.GoesOn reads ∧
      s'.toDo reads < toDo ⟨{ inflow, hopper := h, carry, released }, size⟩ reads := by
  obtain ⟨hframe, -⟩ := ahead_of_dispense hd
  refine ⟨⟨hs.capacity_pos, ?_, hs.nil_not_mem, hs.closed⟩, ?_⟩
  · exact fun hlive => hs.released (hframe.isLive.symm.trans hlive)
  · have hqueued := congrArg List.length (Hopper.queued_of_dispense hd)
    simp only [Option.toList_some, List.length_append, List.length_singleton] at hqueued
    simp only [toDo]
    omega

theorem pour {text : String} {rest : Backlog Octets} (hqueued : h'.queued = [])
    (hwaiting : inflow.waiting.toList = octets :: rest.toList)
    (hpush : carry.push octets = (.ok text, next)) :
    let s' : Session :=
      ⟨{ inflow := { inflow with waiting := rest }, hopper := h'.pour text
         carry := next, released := !(h'.pour text).isLive }, size⟩
    s'.GoesOn reads ∧
      s'.toDo reads ≤ toDo ⟨{ inflow, hopper := h, carry, released }, size⟩ reads := by
  refine ⟨⟨hs.capacity_pos, fun hlive => by simp [hlive], hs.nil_not_mem, hs.closed⟩, ?_⟩
  have hpoured := length_queued_pour hqueued hpush
  simp only [toDo, hwaiting, List.flatten_cons, List.length_append]
  omega

/-- When octets are read, less is to be done: they were counted twice. -/
theorem read {more : List Octets} (hreads : reads = octets :: more) (hqueued : h'.queued = [])
    (hempty : inflow.waiting.toList = []) (hsender : inflow.senderOpen = true) :
    let s' : Session :=
      ⟨{ inflow := { inflow with waiting := inflow.waiting.push octets }
         hopper := h', carry }, size⟩
    octets ≠ [] ∧ s'.GoesOn more ∧
      s'.toDo more < toDo ⟨{ inflow, hopper := h, carry, released }, size⟩ reads := by
  subst hreads
  obtain ⟨hne, hmore⟩ := not_or.1 (mt List.mem_cons.2 hs.nil_not_mem)
  refine ⟨Ne.symm hne, ⟨hs.capacity_pos, fun _ => rfl, hmore, fun hclosed => ?_⟩, ?_⟩
  · exact absurd (hsender.symm.trans hclosed) (by decide)
  · have hpos := List.length_pos_iff.2 (Ne.symm hne)
    simp only [toDo, hqueued, Backlog.toList_push, hempty, List.nil_append, List.flatten_nil,
      List.length_nil, List.flatten_cons, List.length_append]
    omega

theorem close (hqueued : h'.queued = []) (hsender : inflow.senderOpen = true) :
    let s' : Session := ⟨{ inflow := inflow.closeSender, hopper := h', carry }, size⟩
    s'.GoesOn [] ∧
      s'.toDo [] < toDo ⟨{ inflow, hopper := h, carry, released }, size⟩ reads := by
  refine ⟨⟨hs.capacity_pos, fun _ => rfl, List.not_mem_nil, fun _ => rfl⟩, ?_⟩
  simp only [toDo, hqueued, hsender, Channel.closeSender, List.length_nil, List.flatten_nil,
    Bool.false_eq_true, if_false, if_true]
  omega

end Session.GoesOn

/-- **With enough fuel a run writes the values ahead of it.** -/
theorem Session.writes {s : Session} {fuel : Nat} {reads : List Octets} (hs : s.GoesOn reads)
    (hfuel : s.toDo reads < fuel) : s.Writes fuel reads := by
  induction fuel generalizing s reads with
  | zero => exact absurd hfuel (Nat.not_lt_zero _)
  | succ fuel ih =>
    obtain ⟨⟨inflow, h, carry, released⟩, size⟩ := s
    -- a chunk that waits is poured without an action, so the number of these goes down then
    induction hn : inflow.waiting.toList.length using Nat.strongRecOn
      generalizing inflow h carry released with
    | ind n ihn =>
      refine Writes.of_queue (fun {text h'} hd => ?_) (fun {h'} hd hlive => ?_)
      · obtain ⟨hgoes, hless⟩ := hs.value hd
        exact ih hgoes (by omega)
      · obtain ⟨hframe, -⟩ := ahead_of_dispense hd
        have hqueued := (Hopper.queued_of_dispense_none hd).2
        obtain rfl : released = false := hs.released (hframe.isLive.symm.trans hlive)
        rcases inflow.poll_cases with ⟨octets, rest, hwaiting, hpoll⟩ | ⟨hempty, hpoll⟩
        · rcases hpush : carry.push octets with ⟨fault | text, next⟩
          · exact .illFormed hd hlive hwaiting hpoll hpush
          · obtain ⟨hgoes, hless⟩ := hs.pour hqueued hwaiting hpush
            have hrest : rest.toList.length < n := by
              rw [← hn, hwaiting]
              exact Nat.lt_succ_self _
            exact .pour hd hlive hwaiting hpoll hpush
              (ihn _ hrest _ _ _ _ hgoes (Nat.lt_of_le_of_lt hless hfuel) rfl)
        · cases hsender : inflow.senderOpen with
          | false =>
            rw [hsender] at hpoll
            obtain rfl := hs.closed hsender
            exact .ended hd hlive hempty hpoll
          | true =>
            rw [hsender] at hpoll
            cases hreads : reads with
            | nil =>
              subst hreads
              obtain ⟨hgoes, hless⟩ := hs.close hqueued hsender
              exact .close hd hlive hpoll (ih hgoes (by omega))
            | cons octets more =>
              obtain ⟨hne, hgoes, hless⟩ := hs.read hreads hqueued hempty hsender
              exact .read hd hlive hempty hpoll hsender hs.capacity_pos hne (ih hgoes (by omega))

/-! ## The command -/

/-- **A run writes the values of what it reads one a line, up to the first failure.**  There is fuel for all
    that is to be done. -/
theorem runReads_eq_outcomeOf (readSize : Nat) {reads : List Octets} (hreads : [] ∉ reads) :
    runReads readSize reads = outcomeOf "" ((Session.start readSize).ahead reads) := by
  have hfuel : (Session.start readSize).toDo reads < 2 * reads.flatten.length + 3 := by
    show 0 + 0 + 0 + 2 * reads.flatten.length + 1 < 2 * reads.flatten.length + 3
    omega
  exact Session.writes (Session.goesOn_start readSize hreads) hfuel ""

/-- **Of a text a run leaves what comes of its fragments**, however the reads cut it. -/
theorem runReads_octetsOf (readSize : Nat) {reads : List Octets} (hreads : [] ∉ reads) {text : String}
    (htext : reads.flatten = octetsOf text) :
    ∃ fragments : List String, String.join fragments = text ∧
      runReads readSize reads = outcomeOf "" (itemsOf .verbatim {} {} fragments) := by
  have hawaits := Utf8.Carry.awaits_octetsOf text
  rw [← htext] at hawaits
  obtain ⟨fragments, hjoin, harrivals, hend⟩ := hawaits.exists_arrivals
  refine ⟨fragments, hjoin, ?_⟩
  have hahead : (Session.start readSize).ahead reads =
      (Hopper.new .verbatim {}).ahead ((Utf8.Carry.empty.afterChunks reads).ending {})
        (Utf8.Carry.empty.arrivals reads) := rfl
  rw [runReads_eq_outcomeOf readSize hreads, hahead, harrivals, Utf8.Carry.ending_of_finished hend,
    Hopper.ahead_new, itemsOf_eq_itemsThrough]

/-- Full reads bring the whole input; each brings something, and no more than it may. -/
theorem fullReads_spec (size : Nat) (input : Octets) :
    (fullReads size input).flatten = input ∧ [] ∉ fullReads size input ∧
      ∀ octets ∈ fullReads size input, octets.length ≤ max size 1 := by
  fun_induction fullReads size input with
  | case1 => exact ⟨rfl, List.not_mem_nil, fun _ h => absurd h List.not_mem_nil⟩
  | case2 octet rest ih =>
    obtain ⟨hflatten, hnil, hsize⟩ := ih
    refine ⟨?_, ?_, ?_⟩
    · rw [List.flatten_cons, hflatten, List.cons_append, List.take_append_drop]
    · exact List.not_mem_cons_of_ne_of_not_mem (List.cons_ne_nil _ _).symm hnil
    · intro octets hoctets
      rcases List.mem_cons.1 hoctets with rfl | hmore
      · rw [List.length_cons, List.length_take]
        omega
      · exact hsize octets hmore

/-- The command is a run whose reads cut its input. -/
theorem run_eq_runReads {args : List String} {readSize : Nat} (hargs : readSize? args = .ok readSize)
    (input : Octets) :
    ∃ reads : List Octets, reads.flatten = input ∧ [] ∉ reads ∧
      (∀ octets ∈ reads, octets.length ≤ max readSize 1) ∧ run args input = runReads readSize reads := by
  obtain ⟨hflatten, hnil, hsize⟩ := fullReads_spec readSize input
  exact ⟨_, hflatten, hnil, hsize, by rw [run, hargs]⟩

theorem outcomeOf_map_ok (output : String) (values : List String) :
    outcomeOf output (values.map .ok) =
      { code := 0, output := output ++ String.join (values.map (· ++ "\n")), error := "" } := by
  induction values generalizing output with
  | nil =>
    have hjoin : String.join [] = "" := rfl
    rw [List.map_nil, outcomeOf, List.map_nil, hjoin, String.append_empty]
  | cons value values ih =>
    rw [List.map_cons, outcomeOf, ih, List.map_cons, String.join_cons, String.append_assoc]

end ObjectFeed.CommandLine
