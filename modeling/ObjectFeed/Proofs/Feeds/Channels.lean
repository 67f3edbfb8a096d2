/-
  Feeds over a channel, while chunks are sent.

  * `Session` is a feed over a channel with the chunks that were sent and the answers to its polls, and
    `Session.after` what it comes to when chunks are sent, the feed is polled, the sender closed and the
    feed cancelled, in any order;
  * `Session.Going` says how far a session that was not cancelled has come: the chunks sent are those that
    the feed took and those that wait.  `Going.turn` keeps it for a turn of a poll, `Going.act` for
    everything but a cancellation;
  * `Session.going_or_stopped`: a cancelled session keeps what it gave;
  * `session_gives`: so the items given are, at every moment, the first of those that come of all chunks
    sent as one, and once the feed has ended all of them.
-/
import ObjectFeed.Proofs.Feeds.Agreement
import ObjectFeed.Proofs.Feeds.Courses

namespace ObjectFeed

open Splitter (run)

variable {α : Type}

/-! ## Channels -/

namespace Channel

variable {c c' : Channel Octets}

/-- A chunk is sent only while both ends are there, and is then the last that waits.  Else nothing
    changes. -/
theorem send_cases (c : Channel Octets) (receiverOpen : Bool) (chunk : Octets) :
    ((c.send receiverOpen chunk).1 = .sent ∧ c.senderOpen = true ∧ receiverOpen = true ∧
      (c.send receiverOpen chunk).2 = { c with waiting := c.waiting.push chunk }) ∨
    (c.send receiverOpen chunk).1 ≠ .sent ∧ (c.send receiverOpen chunk).2 = c := by
  rw [send]
  cases hsender : c.senderOpen with
  | false => exact .inr ⟨nofun, rfl⟩
  | true =>
    cases receiverOpen with
    | false => exact .inr ⟨nofun, rfl⟩
    | true =>
      simp only [Bool.not_true, Bool.false_eq_true, if_false]
      by_cases hfull : c.capacity ≤ c.waiting.size
      · rw [if_pos hfull]
        exact .inr ⟨nofun, rfl⟩
      · rw [if_neg hfull]
        exact .inl ⟨rfl, trivial, trivial, rfl⟩

theorem send_of_released (hsender : c.senderOpen = true) (chunk : Octets) :
    (c.send false chunk).1 = .closed := by
  simp [send, hsender]

/-- A poll receives the first chunk that waits.  Where none waits, it finds the channel not ready, or ended
    if its sender has gone. -/
theorem poll_cases (c : Channel Octets) :
    (∃ octets rest, c.waiting.toList = octets :: rest.toList ∧
      Inflow.poll c = (.chunk octets, { c with waiting := rest })) ∨
    c.waiting.toList = [] ∧ Inflow.poll c = (if c.senderOpen then .notReady else .ended, c) := by
  have hpoll : Inflow.poll c = c.poll := rfl
  rw [hpoll, poll, receive?]
  cases hpop : c.waiting.pop? with
  | none => exact .inr ⟨(Backlog.pop?_eq_none_iff _).1 hpop, rfl⟩
  | some popped => exact .inl ⟨popped.1, popped.2, Backlog.toList_of_pop? hpop, rfl⟩

theorem waiting_of_takes {came : List Delivery} (h : Inflow.Takes c came c') :
    c'.senderOpen = c.senderOpen ∧
      ∃ chunks, came = chunks.map .ok ∧ c.waiting.toList = chunks ++ c'.waiting.toList := by
  rcases c.poll_cases with ⟨octets, rest, hwaiting, hpoll⟩ | ⟨hempty, hpoll⟩
  · cases h with
    | nothing => exact ⟨rfl, [], rfl, rfl⟩
    | notReady h => rw [hpoll] at h; cases h
    | chunk h =>
      rw [hpoll] at h
      cases h
      exact ⟨rfl, [octets], rfl, hwaiting⟩
    | failed h => rw [hpoll] at h; cases h
  · cases h with
    | nothing => exact ⟨rfl, [], rfl, rfl⟩
    | notReady h =>
      rw [hpoll] at h
      obtain ⟨-, rfl⟩ := Prod.mk.inj h
      exact ⟨rfl, [], rfl, rfl⟩
    | chunk h => cases hsender : c.senderOpen <;> rw [hpoll, hsender] at h <;> cases h
    | failed h => cases hsender : c.senderOpen <;> rw [hpoll, hsender] at h <;> cases h

theorem waiting_of_ended (h : Inflow.poll c = (.ended, c')) :
    c'.senderOpen = false ∧ c.waiting.toList = [] ∧ c'.waiting.toList = [] := by
  rcases c.poll_cases with ⟨octets, rest, -, hpoll⟩ | ⟨hempty, hpoll⟩
  · rw [hpoll] at h
    cases h
  · rw [hpoll] at h
    cases hsender : c.senderOpen with
    | true => rw [hsender] at h; cases h
    | false =>
      obtain ⟨-, rfl⟩ := Prod.mk.inj h
      exact ⟨hsender, hempty, hempty⟩

theorem delivers (hsender : c.senderOpen = false) : Inflow.Delivers c c.waiting.toList := by
  induction hwaiting : c.waiting.toList generalizing c with
  | nil =>
    rcases c.poll_cases with ⟨octets, rest, hsome, -⟩ | ⟨-, hpoll⟩
    · rw [hwaiting] at hsome
      cases hsome
    · rw [hsender] at hpoll
      exact .ended hpoll
  | cons chunk chunks ih =>
    rcases c.poll_cases with ⟨octets, rest, hsome, hpoll⟩ | ⟨hempty, -⟩
    · obtain ⟨rfl, rfl⟩ := List.cons.inj (hwaiting.symm.trans hsome)
      exact .chunk hpoll (ih hsender rfl)
    · rw [hwaiting] at hempty
      cases hempty

end Channel

/-! ## Sessions -/

/-- A feed over a channel, with the chunks that were sent and the answers to its polls, oldest first. -/
structure Session (α : Type) where
  feed : PollFeed (Channel Octets) α
  sent : List Octets := []
  answers : List (Readiness (Option (Item α))) := []

namespace Session

/-- What happens in a session at a time. -/
inductive Action where
  /-- A chunk is sent, if it is not refused. -/
  | send (chunk : Octets)
  | poll
  | closeSender
  | cancel
  deriving DecidableEq, Repr

/-- A session before anything happened. -/
def new (capacity : Nat) (interpret : Interpretation α) (settings : Settings) : Session α :=
  { feed := .ofChannel capacity interpret settings }

/-- What a session comes to by one action. -/
def act (s : Session α) : Action → Session α
  | .send chunk =>
    { s with
      feed := (s.feed.send chunk).2
      sent := if (s.feed.send chunk).1 = .sent then s.sent ++ [chunk] else s.sent }
  | .poll => { s with feed := s.feed.poll.2, answers := s.answers ++ [s.feed.poll.1] }
  | .closeSender => { s with feed := s.feed.closeSender }
  | .cancel => { s with feed := s.feed.cancel }

/-- What a session comes to by actions, the first of them first. -/
def after (s : Session α) (actions : List Action) : Session α :=
  actions.foldl act s

/-- The items given so far. -/
def items (s : Session α) : List (Item α) :=
  s.answers.filterMap Readiness.item?

/-- The chunks that were sent and do not wait any more. -/
def received (s : Session α) : List Octets :=
  s.sent.take (s.sent.length - s.feed.inflow.waiting.size)

/-! ### Sessions that go on -/

/-- The items that come of these chunks. -/
def ahead (start : Hopper α) (chunks : List Octets) : List (Item α) :=
  start.ahead ((Utf8.Carry.empty.afterChunks chunks).ending start.settings)
    (Utf8.Carry.empty.arrivals chunks)

/-- How far a feed has come with the chunks sent, without being cancelled. -/
inductive Going (start : Hopper α) (sent : List Octets) (given : List (Item α))
    (f : PollFeed (Channel Octets) α) : Prop
  /-- It took some chunks, and the others wait. -/
  | running (taken : List Octets) : sent = taken ++ f.inflow.waiting.toList →
      f.Follows start (taken.map .ok) given → Going start sent given f
  /-- It took all chunks, and no more will be sent. -/
  | finished : f.inflow.senderOpen = false → f.inflow.waiting.toList = [] →
      f.IsFinished start (sent.map .ok) given → Going start sent given f

section

variable {start : Hopper α} {sent : List Octets} {given : List (Item α)}
  {f f' : PollFeed (Channel Octets) α}

/-- **A turn of a poll leads a feed on**, and takes what it takes from the chunks that wait. -/
theorem Going.turn {answer : Option (Readiness (Option (Item α)))}
    (hf : Going start sent given f) (hturn : f.Turn answer f') :
    Going start sent (given ++ (answer.bind Readiness.item?).toList) f' := by
  cases hf with
  | running taken hsent hfollows =>
    rcases hfollows.turn hturn with ⟨came, htakes, hnext⟩ | ⟨hpoll, hfinished⟩
    · obtain ⟨-, chunks, rfl, hwaiting⟩ := Channel.waiting_of_takes htakes
      refine .running (taken ++ chunks) ?_ ?_
      · rw [hsent, hwaiting, List.append_assoc]
      · rw [List.map_append]
        exact hnext
    · obtain ⟨hsender, hempty, hleft⟩ := Channel.waiting_of_ended hpoll
      rw [hempty, List.append_nil] at hsent
      exact .finished hsender hleft (hsent ▸ hfinished)
  | finished hsender hwaiting hfinished =>
    obtain ⟨item, h, hd, rfl, rfl⟩ := hturn.of_over hfinished.dead
    obtain ⟨rfl, hfinished'⟩ := hfinished.dispense hd
    refine .finished hsender hwaiting ?_
    change start.Finished _ _ (given ++ []) h
    rwa [List.append_nil]

/-- **A poll leads a feed on**, and gives the next item if it gives one. -/
theorem Going.poll (hf : Going start sent given f) :
    Going start sent (given ++ f.poll.1.item?.toList) f.poll.2 := by
  obtain ⟨f₀, hf₀, hlast⟩ := PollFeed.poll_goesThrough.exists_last
    (P := Going start sent given) (fun hg hturn => by simpa using hg.turn hturn) hf
  exact hf₀.turn hlast

/-- What a feed gave and what is ahead of it are the items of the chunks that it took and of those that
    come next. -/
theorem ahead_of_follows {taken : List Octets} (hf : f.Follows start (taken.map .ok) given)
    (waiting : List Octets) :
    ahead start (taken ++ waiting) = given ++
      f.hopper.ahead (((Utf8.Carry.empty.afterChunks taken).afterChunks waiting).ending start.settings)
        ((Utf8.Carry.empty.afterChunks taken).arrivals waiting) := by
  rw [ahead, Utf8.Carry.afterChunks_append, Utf8.Carry.arrivals_append,
    ← Utf8.Carry.received_map_ok _ taken, hf.course.continues]

theorem ahead_of_isFinished (hf : f.IsFinished start (sent.map .ok) given) :
    ahead start sent = given := by
  rw [hf.given, arrived_map_ok, Utf8.Carry.received_map_ok, ahead]

theorem Going.isPrefix (hf : Going start sent given f) : given <+: ahead start sent := by
  cases hf with
  | running taken hsent hfollows =>
    rw [hsent, ahead_of_follows hfollows]
    exact List.prefix_append _ _
  | finished _ _ hfinished =>
    refine ⟨[], ?_⟩
    rw [List.append_nil, ahead_of_isFinished hfinished]

theorem Going.eq_of_isOver (hf : Going start sent given f) (hover : f.isOver = true) :
    given = ahead start sent := by
  cases hf with
  | running taken hsent hfollows =>
    obtain ⟨hdead, hempty, hnone⟩ := Hopper.isSpent_iff.1 hover
    have hqueued : f.hopper.queued = [] := by simp [Hopper.queued, hempty, hnone]
    rw [hsent, ahead_of_follows hfollows, Hopper.ahead_of_not_live _ _ hdead, hqueued,
      List.append_nil]
  | finished _ _ hfinished => exact (ahead_of_isFinished hfinished).symm

/-- **With the sender gone, a feed yields the rest of them.** -/
theorem Going.yields (hf : Going start sent given f) (horderly : f.IsOrderly)
    (hsender : f.inflow.senderOpen = false) :
    ∃ rest, Yields PollFeed.poll f rest ∧ given ++ rest = ahead start sent := by
  obtain ⟨inflow, h, carry, released⟩ := f
  cases hf with
  | running taken hsent hfollows =>
    rw [hsent, ahead_of_follows hfollows]
    refine ⟨_, ?_, rfl⟩
    cases hlive : h.isLive with
    | true =>
      obtain rfl : released = false := by
        rw [show released = _ from horderly.released, hlive]
        rfl
      obtain rfl : carry = _ := hfollows.carry hlive
      rw [arrived_map_ok, ← hfollows.course.settings]
      exact PollFeed.yields_arrivals (Channel.delivers hsender) _ h
    | false => exact (PollFeed.handsOut inflow carry released).yields_of_not_live hlive _ _
  | finished _ _ hfinished =>
    rw [ahead_of_isFinished hfinished]
    exact ⟨[], (PollFeed.handsOut inflow carry released).yields_nil hfinished.dead hfinished.queued,
      List.append_nil given⟩

end

/-! ### Whatever happens in a session -/

theorem after_append (s : Session α) (earlier later : List Action) :
    s.after (earlier ++ later) = (s.after earlier).after later :=
  List.foldl_append

theorem after_induction {P : Session α → Prop} {actions : List Action}
    (hact : ∀ {s}, ∀ action ∈ actions, P s → P (s.act action)) {s : Session α} (hs : P s) :
    P (s.after actions) := by
  induction actions generalizing s with
  | nil => exact hs
  | cons action actions ih =>
    exact ih (fun action haction => hact action (List.mem_cons_of_mem _ haction))
      (hact action List.mem_cons_self hs)

variable {s : Session α} {start : Hopper α}

theorem answers_after (s : Session α) (actions : List Action) :
    s.answers <+: (s.after actions).answers := by
  refine after_induction (P := fun s' => s.answers <+: s'.answers) ?_ (List.prefix_refl _)
  intro s' action _ hs'
  cases action with
  | poll => exact hs'.trans (List.prefix_append _ _)
  | _ => exact hs'

theorem items_act_poll (s : Session α) :
    (s.act .poll).items = s.items ++ s.feed.poll.1.item?.toList := by
  rw [items, items, act, List.filterMap_append]
  cases hitem : s.feed.poll.1.item? <;> simp [hitem]

/-- **Everything but a cancellation leads a session on.** -/
theorem Going.act {action : Action} (hs : Going start s.sent s.items s.feed)
    (haction : action ≠ .cancel) :
    Going start (s.act action).sent (s.act action).items (s.act action).feed := by
  cases action with
  | send chunk =>
    rcases Channel.send_cases s.feed.inflow (!s.feed.released) chunk with
      ⟨hsent, hsender, -, hinflow⟩ | ⟨hrefused, hinflow⟩
    · have hfeed : (s.feed.send chunk).2 =
          { s.feed with inflow := { s.feed.inflow with waiting := s.feed.inflow.waiting.push chunk } } :=
        congrArg (fun inflow => { s.feed with inflow }) hinflow
      have hanswer : (s.feed.send chunk).1 = .sent := hsent
      rw [Session.act, hfeed, if_pos hanswer]
      cases hs with
      | running taken heq hfollows =>
        refine .running taken ?_ ⟨hfollows.course, hfollows.carry⟩
        rw [heq, Backlog.toList_push, List.append_assoc]
      | finished hclosed =>
        rw [hsender] at hclosed
        cases hclosed
    · have hfeed : (s.feed.send chunk).2 = s.feed :=
        congrArg (fun inflow => { s.feed with inflow }) hinflow
      have hanswer : (s.feed.send chunk).1 ≠ .sent := hrefused
      rw [Session.act, hfeed, if_neg hanswer]
      exact hs
  | poll =>
    rw [items_act_poll]
    exact hs.poll
  | closeSender =>
    cases hs with
    | running taken hsent hfollows => exact .running taken hsent ⟨hfollows.course, hfollows.carry⟩
    | finished hsender hwaiting hfinished => exact .finished rfl hwaiting hfinished
  | cancel => exact absurd rfl haction

/-- What a cancelled feed gave stays, and it gives nothing more. -/
structure Stopped (start : Hopper α) (s : Session α) : Prop where
  isOver : s.feed.isOver = true
  given : s.items <+: ahead start s.sent

/-- An answer behind which there is nothing but the end: the end, or a final failure. -/
inductive IsLast : Readiness (Option (Item α)) → Prop
  | ended : IsLast (.ready none)
  | failed {failure : Failure} : failure.isFinal = true → IsLast (.ready (some (.error failure)))

/-- The feed has its end of the channel exactly while it is live, and is over after a last answer. -/
structure IsOrderly (s : Session α) : Prop where
  feed : s.feed.IsOrderly
  isOver : ∀ answer ∈ s.answers, IsLast answer → s.feed.isOver = true

theorem poll_of_isOver {f : PollFeed (Channel Octets) α} (hover : f.isOver = true) :
    f.poll.1 = .ready none ∧ f.poll.2.isOver = true := by
  obtain ⟨hdead, hempty, hnone⟩ := Hopper.isSpent_iff.1 hover
  have hdone : f.IsDone := ⟨by simp [hdead], by simp [Hopper.queued, hempty, hnone]⟩
  refine ⟨hdone.poll, ?_⟩
  exact PollFeed.poll_goesThrough.keeps (P := fun f : PollFeed (Channel Octets) α => f.isOver = true)
    (fun hg hturn => hturn.isOver hg) hover

theorem IsOrderly.act (hs : s.IsOrderly) (action : Action) : (s.act action).IsOrderly := by
  cases action with
  | send chunk => exact ⟨⟨hs.feed.hopper, hs.feed.released⟩, hs.isOver⟩
  | poll =>
    obtain ⟨f₀, hf₀, hlast⟩ := PollFeed.poll_goesThrough.exists_last PollFeed.IsOrderly.turn hs.feed
    refine ⟨hf₀.turn hlast, ?_⟩
    intro answer hanswer hends
    rcases List.mem_append.1 hanswer with hearlier | hnow
    · exact (poll_of_isOver (hs.isOver answer hearlier hends)).2
    · rw [List.mem_singleton] at hnow
      rw [← hnow] at hlast
      cases hends with
      | ended => exact hlast.isOver_of_end hf₀
      | failed hfinal => exact (hlast.isOver_iff_of_failure hf₀).2 (.inl hfinal)
  | closeSender => exact ⟨⟨hs.feed.hopper, hs.feed.released⟩, hs.isOver⟩
  | cancel => exact ⟨.cancel _, fun _ _ _ => s.feed.hopper.abandon_isSpent⟩

theorem IsOrderly.send (hs : s.IsOrderly) (hdead : s.feed.hopper.isLive = false) (chunk : Octets) :
    s.feed.released = true ∧ (s.feed.send chunk).1 ≠ .sent ∧ (s.feed.send chunk).2 = s.feed := by
  have hreleased : s.feed.released = true := by rw [hs.feed.released, hdead]; rfl
  rcases Channel.send_cases s.feed.inflow (!s.feed.released) chunk with
    ⟨-, -, hopen, -⟩ | ⟨hrefused, hinflow⟩
  · rw [hreleased] at hopen
    cases hopen
  · exact ⟨hreleased, hrefused, congrArg (fun inflow => { s.feed with inflow }) hinflow⟩

theorem Stopped.act (hs : s.Stopped start) (horderly : s.IsOrderly) (action : Action) :
    (s.act action).Stopped start := by
  cases action with
  | send chunk =>
    obtain ⟨-, hrefused, hfeed⟩ := horderly.send (Hopper.isSpent_iff.1 hs.isOver).1 chunk
    rw [Session.act, hfeed, if_neg hrefused]
    exact hs
  | poll =>
    obtain ⟨hend, hover⟩ := poll_of_isOver hs.isOver
    refine ⟨hover, ?_⟩
    rw [items_act_poll, hend]
    change s.items ++ [] <+: ahead start s.sent
    rw [List.append_nil]
    exact hs.given
  | closeSender => exact ⟨hs.isOver, hs.given⟩
  | cancel => exact ⟨s.feed.hopper.abandon_isSpent, hs.given⟩

theorem isLive_act (hdead : s.feed.hopper.isLive = false) (action : Action) :
    (s.act action).feed.hopper.isLive = false := by
  cases action with
  | poll =>
    refine PollFeed.poll_goesThrough.keeps
      (P := fun f : PollFeed (Channel Octets) α => f.hopper.isLive = false) ?_ hdead
    intro f f' answer hover hturn
    obtain ⟨item, h, hd, -, rfl⟩ := hturn.of_over hover
    exact (Hopper.isLive_of_dispense hd).trans hover
  | cancel => exact s.feed.hopper.abandon_isLive
  | _ => exact hdead

theorem isLive_after (hdead : s.feed.hopper.isLive = false) (actions : List Action) :
    (s.after actions).feed.hopper.isLive = false :=
  after_induction (P := fun s : Session α => s.feed.hopper.isLive = false)
    (fun action _ hs => isLive_act hs action) hdead

theorem isLive_of_cancel {actions : List Action} (hcancel : Action.cancel ∈ actions)
    (s : Session α) : (s.after actions).feed.hopper.isLive = false := by
  obtain ⟨earlier, later, rfl⟩ := List.append_of_mem hcancel
  rw [after_append]
  exact isLive_after ((s.after earlier).feed.hopper.abandon_isLive) later

theorem isOrderly_after (capacity : Nat) (interpret : Interpretation α) (settings : Settings)
    (actions : List Action) : ((new capacity interpret settings).after actions).IsOrderly :=
  after_induction (P := IsOrderly) (fun action _ hs => hs.act action)
    ⟨PollFeed.isOrderly_new _ interpret settings, fun _ hanswer => absurd hanswer List.not_mem_nil⟩

theorem going_new (capacity : Nat) (interpret : Interpretation α) (settings : Settings) :
    let s := new capacity interpret settings
    Going (Hopper.new interpret settings) s.sent s.items s.feed :=
  .running [] rfl ⟨.start, fun _ => rfl⟩

/-- **A session that was not cancelled goes on.** -/
theorem going_after (capacity : Nat) (interpret : Interpretation α) (settings : Settings)
    {actions : List Action} (hactions : Action.cancel ∉ actions) :
    let s := (new capacity interpret settings).after actions
    Going (Hopper.new interpret settings) s.sent s.items s.feed :=
  after_induction (P := fun s : Session α => Going _ s.sent s.items s.feed)
    (fun _ haction hs => hs.act fun hcancel => hactions (hcancel ▸ haction))
    (going_new capacity interpret settings)

/-- **A session goes on until it is cancelled**, and is stopped then. -/
theorem going_or_stopped (capacity : Nat) (interpret : Interpretation α) (settings : Settings)
    (actions : List Action) :
    let start := Hopper.new interpret settings
    let s := (new capacity interpret settings).after actions
    Going start s.sent s.items s.feed ∨ s.Stopped start := by
  intro start s
  have hstate : s.IsOrderly ∧ (Going start s.sent s.items s.feed ∨ s.Stopped start) := by
    refine after_induction
      (P := fun s : Session α => s.IsOrderly ∧ (Going start s.sent s.items s.feed ∨ s.Stopped start))
      ?_ ⟨isOrderly_after capacity interpret settings [], .inl (going_new capacity interpret settings)⟩
    rintro s action - ⟨horderly, hs⟩
    refine ⟨horderly.act action, ?_⟩
    rcases hs with hgoing | hstopped
    · by_cases hcancel : action = .cancel
      · subst hcancel
        exact .inr ⟨s.feed.hopper.abandon_isSpent, hgoing.isPrefix⟩
      · exact .inl (hgoing.act hcancel)
    · exact .inr (hstopped.act horderly action)
  exact hstate.2

theorem isPrefix_after (capacity : Nat) (interpret : Interpretation α) (settings : Settings)
    (actions : List Action) :
    let s := (new capacity interpret settings).after actions
    s.items <+: ahead (Hopper.new interpret settings) s.sent := by
  intro s
  rcases going_or_stopped capacity interpret settings actions with hgoing | hstopped
  · exact hgoing.isPrefix
  · exact hstopped.given

/-- Chunks of octets that begin a text give the same items as one chunk, but for the fragment that a failure
    quotes. -/
theorem ahead_flatten (interpret : Interpretation α) (settings : Settings) {chunks : List Octets}
    {text : String} {held : Octets} (htext : Utf8.decode chunks.flatten = .upTo text held) :
    (ahead (Hopper.new interpret settings) chunks).map Item.unquoted =
      (ahead (Hopper.new interpret settings) [chunks.flatten]).map Item.unquoted := by
  obtain ⟨fragments, hjoin, harrivals, hheld⟩ := Utf8.Carry.exists_arrivals .empty rfl htext
  have hone : Utf8.decode (Utf8.Carry.empty.held ++ [chunks.flatten].flatten) = .upTo text held := by
    rw [List.flatten_singleton]
    exact htext
  obtain ⟨whole, hjoin', hwhole, hheld'⟩ := Utf8.Carry.exists_arrivals .empty rfl hone
  have hcarry : Utf8.Carry.empty.afterChunks chunks =
      Utf8.Carry.empty.afterChunks [chunks.flatten] :=
    congrArg Utf8.Carry.mk (hheld.trans hheld'.symm)
  rw [ahead, ahead, harrivals, hwhole, hcarry, Hopper.ahead_new, Hopper.ahead_new, itemsThrough_cut,
    itemsThrough_cut _ _ _ _ whole, hjoin, hjoin']

/-! ## What a session gives -/

/-- The text that was received cannot be split. -/
def IsRefused (settings : Settings) (s : Session α) : Prop :=
  ∃ read held, Utf8.decode s.received.flatten = .upTo read held ∧
    (run settings.splitter .before read.toList).refusal ≠ none

/-- The feed has no end of the channel any more, and a sender that is still open is told so. -/
def IsReleased (s : Session α) : Prop :=
  s.feed.released = true ∧
    (s.feed.inflow.senderOpen = true → ∀ chunk, (s.feed.send chunk).1 = .closed)

theorem isLive_of_isRefused {interpret : Interpretation α} {settings : Settings}
    (hs : Going (Hopper.new interpret settings) s.sent s.items s.feed ∨
      s.Stopped (Hopper.new interpret settings))
    (hrefused : s.IsRefused settings) : s.feed.hopper.isLive = false := by
  rcases hs with (⟨taken, hsent, hfollows⟩ | ⟨-, -, hfinished⟩) | hstopped
  · obtain ⟨read, held, hread, hrefusal⟩ := hrefused
    have hreceived : s.received = taken := by
      rw [received, hsent, Backlog.size_eq_length, List.length_append, Nat.add_sub_cancel,
        List.take_left]
    rw [hreceived, ← arrived_map_ok taken] at hread
    obtain ⟨-, hjoin, -, -⟩ := Utf8.Carry.received_of_upTo hread
    by_contra hlive
    have hsplit := (hfollows.course.feedEach (by simpa using hlive)).1
    have hnone := (Splitter.failure_feedEach settings.splitter _).1 hsplit
    rw [hjoin] at hnone
    exact hrefusal hnone
  · exact hfinished.dead
  · exact (Hopper.isSpent_iff.1 hstopped.isOver).1

end Session

/-- **A feed over a channel gives the items of what is sent.**  Whatever is sent, in chunks that begin a text,
    and however sends, polls, the closing of the sender and cancellations follow each other: the items
    given so far are the first of those that a feed gives to which all chunks sent come as one, but for
    the fragment that a failure quotes.  Without a cancellation they are all of them once the feed gave
    its end, and if the sender is closed it gives the rest of them and then its end.  From a final failure
    on, be it given or held back, and from a cancellation on, an open sender is refused. -/
theorem session_gives {σ : Type} [Inflow σ] (capacity : Nat) (interpret : Interpretation α)
    (settings : Settings) (earlier later : List Session.Action) {now final : Session α}
    (hnow : now = (Session.new capacity interpret settings).after earlier)
    (hfinal : final = now.after later) {text : String} {held : Octets}
    (htext : Utf8.decode final.sent.flatten = .upTo text held) {whole : σ}
    (hwhole : Inflow.Delivers whole [final.sent.flatten]) :
    ∃ items, Drains PollFeed.poll (.new whole interpret settings) items ∧
      now.items.map Item.unquoted <+: items.map Item.unquoted ∧
      (Session.Action.cancel ∉ earlier ++ later →
        (.ready none ∈ final.answers →
          final.items.map Item.unquoted = items.map Item.unquoted) ∧
        (final.feed.inflow.senderOpen = false → ∃ rest, Drains PollFeed.poll final.feed rest ∧
          (final.items ++ rest).map Item.unquoted = items.map Item.unquoted)) ∧
      ((∃ failure, .error failure ∈ now.items ∧ failure.isFinal = true) ∨ now.IsRefused settings ∨
          Session.Action.cancel ∈ earlier →
        final.IsReleased) := by
  subst hnow
  rw [← Session.after_append] at hfinal
  have hitems := PollFeed.yields_arrivals hwhole .empty (Hopper.new interpret settings)
  have hsame := Session.ahead_flatten interpret settings htext
  have horderly : final.IsOrderly := hfinal ▸ Session.isOrderly_after _ _ _ _
  have hgrown : ((Session.new capacity interpret settings).after earlier).answers <+: final.answers := by
    rw [hfinal, Session.after_append]
    exact Session.answers_after _ later
  refine ⟨_, hitems.drains PollFeed.poll_lasts, ?_, fun hcancel => ?_, fun hover => ?_⟩
  · have hprefix : final.items <+: Session.ahead (Hopper.new interpret settings) final.sent :=
      hfinal ▸ Session.isPrefix_after _ _ _ _
    have hall := ((hgrown.filterMap Readiness.item?).trans hprefix).map Item.unquoted
    rwa [hsame] at hall
  · have hgoing : Session.Going (Hopper.new interpret settings) final.sent final.items final.feed :=
      hfinal ▸ Session.going_after _ _ _ hcancel
    refine ⟨fun hended => ?_, fun hsender => ?_⟩
    · have hdone := hgoing.eq_of_isOver (horderly.isOver _ hended .ended)
      rw [hdone, hsame]
      rfl
    · obtain ⟨rest, hrest, hsplit⟩ := hgoing.yields horderly.feed hsender
      refine ⟨rest, hrest.drains PollFeed.poll_lasts, ?_⟩
      rw [hsplit, hsame]
      rfl
  · have hdead : final.feed.hopper.isLive = false := by
      rcases hover with ⟨failure, hfailure, hlast⟩ | hrefused | hcancel
      · obtain ⟨_ | answer, hanswer, hitem⟩ := List.mem_filterMap.1 hfailure
        · cases hitem
        · obtain rfl : answer = some (.error failure) := hitem
          have hover := horderly.isOver _ (hgrown.subset hanswer) (.failed hlast)
          exact (Hopper.isSpent_iff.1 hover).1
      · have hnow := Session.isLive_of_isRefused (Session.going_or_stopped _ _ _ earlier) hrefused
        rw [hfinal, Session.after_append]
        exact Session.isLive_after hnow later
      · rw [hfinal]
        exact Session.isLive_of_cancel (List.mem_append_left later hcancel) _
    have hreleased : final.feed.released = true := by rw [horderly.feed.released, hdead]; rfl
    refine ⟨hreleased, fun hsender chunk => ?_⟩
    have hclosed := Channel.send_of_released hsender chunk
    rw [PollFeed.send, hreleased]
    exact hclosed

/-- A channel for one chunk, with a letter over two of them and a character behind the array.  The second is
    refused until the first was taken.  The feed is released when it took the second: its sender is
    refused although the failure has yet to be given. -/
theorem session_gives_refused :
    let first : Octets := [0x5B, 0x7B, 0x22, 0xC3]
    let second : Octets := [0xA9, 0x22, 0x3A, 0x31, 0x7D, 0x5D, 0x78]
    let now : Session String := (Session.new 1 .verbatim {}).after
      [.poll, .send first, .send second, .poll, .send second, .poll]
    let final := now.after [.send first, .poll, .poll]
    let whole : Script := { events := [.chunk (first ++ second)] }
    now.items = [.ok "\x7b\"é\":1\x7d"] ∧ now.IsRefused {} ∧ final.sent = [first, second] ∧
      Readiness.ready none ∈ final.answers ∧ final.IsReleased ∧
      ∃ items, Drains PollFeed.poll (.new whole .verbatim) items ∧
        now.items.map Item.unquoted <+: items.map Item.unquoted ∧
        final.items.map Item.unquoted = items.map Item.unquoted := by
  intro first second now final whole
  have hsent : final.sent = [first, second] := by decide +kernel
  have htext : Utf8.decode final.sent.flatten = .upTo "[\x7b\"é\":1\x7d]x" [] := by
    rw [hsent]
    decide +kernel
  have hwhole : Inflow.Delivers whole [final.sent.flatten] := by
    rw [hsent]
    exact .chunk rfl (.ended rfl)
  have hrefused : now.IsRefused {} :=
    ⟨"[\x7b\"é\":1\x7d]x", [], by decide +kernel, by decide +kernel⟩
  have hended : Readiness.ready none ∈ final.answers := by decide +kernel
  obtain ⟨items, hdrains, hprefix, hall, hreleased⟩ :=
    session_gives 1 .verbatim {} _ _ rfl rfl htext hwhole
  exact ⟨by decide +kernel, hrefused, hsent, hended, hreleased (.inr (.inl hrefused)), items, hdrains,
    hprefix, (hall (by decide)).1 hended⟩

end ObjectFeed
