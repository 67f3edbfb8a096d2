/-
  Transports that follow a script.

  A script is a list of events: a chunk arrives, the transport fails, or it is not ready yet.  The
  same script can be read by a blocking reader, by a polled reader, and as an inflow.  A read brings
  at most what was asked of the next chunk and leaves the rest of it for the next read; chunks are
  never joined.  After its last event a script is at its end.

  `Script.asked` counts how often the transport was asked.
-/
import ObjectFeed.Inflow.Reader
import ObjectFeed.Supply.Reader

namespace ObjectFeed

/-- What a transport does next. -/
inductive Script.Event where
  | chunk (octets : Octets)
  | fault (fault : Fault)
  | notReady
  deriving DecidableEq, Repr

/-- The events to come, and how often the transport was asked. -/
structure Script where
  events : List Script.Event
  asked : Nat := 0
  deriving Repr

namespace Script

/-- An event's part of the bound on what is still to come. -/
def Event.weight : Event → Nat
  | chunk octets => octets.length + 1
  | fault _ | notReady => 1

/-- The weight of events. -/
def weightOf : List Event → Nat
  | [] => 0
  | event :: rest => event.weight + weightOf rest

/-- A bound on the answers still to come. -/
def weight (s : Script) : Nat := weightOf s.events

/-- At most `n` octets of a chunk, and the events that are left. -/
def cut (n : Nat) (octets : Octets) (rest : List Event) : Octets × List Event :=
  match octets.drop n with
  | [] => (octets, rest)
  | left => (octets.take n, .chunk left :: rest)

/-- Poll a reader for at most `n` octets. -/
def pollEvents (n : Nat) : List Event → PolledRead × List Event
  | [] => (.octets [], [])
  | .chunk octets :: rest =>
    let (read, rest) := cut n octets rest
    (.octets read, rest)
  | .fault fault :: rest => (.failed fault, rest)
  | .notReady :: rest => (.notReady, rest)

/-- Read at most `n` octets, waiting while the transport is not ready. -/
def readEvents (n : Nat) : List Event → ReadAnswer × List Event
  | [] => (.octets [], [])
  | .chunk octets :: rest =>
    let (read, rest) := cut n octets rest
    (.octets read, rest)
  | .fault fault :: rest => (.failed fault, rest)
  | .notReady :: rest => readEvents n rest

/-- Poll a reader. -/
def pollRead (n : Nat) (s : Script) : PolledRead × Script :=
  let (answer, events) := pollEvents n s.events
  (answer, { events, asked := s.asked + 1 })

/-- Read from a blocking reader. -/
def read (n : Nat) (s : Script) : ReadAnswer × Script :=
  let (answer, events) := readEvents n s.events
  (answer, { events, asked := s.asked + 1 })

/-- Poll for the next chunk, whole. -/
def poll (s : Script) : Polled × Script :=
  match s.events with
  | [] => (.ended, { s with asked := s.asked + 1 })
  | .chunk octets :: events => (.chunk octets, { events, asked := s.asked + 1 })
  | .fault fault :: events => (.failed fault.message, { events, asked := s.asked + 1 })
  | .notReady :: events => (.notReady, { events, asked := s.asked + 1 })

/-- A chunk is spent, or is shorter than before. -/
theorem weight_cut_lt {n : Nat} (hn : 0 < n) (octets : Octets) (rest : List Event) :
    weightOf (cut n octets rest).2 < weightOf (.chunk octets :: rest) := by
  unfold cut
  split
  · simp only [weightOf, Event.weight]
    omega
  · rename_i hne
    have hlen : (octets.drop n).length = octets.length - n := List.length_drop
    have hpos : 0 < (octets.drop n).length := List.length_pos_iff.2 hne
    simp only [weightOf, Event.weight]
    omega

instance : PolledReader Script where
  pollRead := pollRead
  remaining := weight
  remaining_octets_lt {n s s' octets} hn h hne := by
    simp only [pollRead, Prod.mk.injEq] at h
    rw [← h.2]
    unfold weight
    rcases he : s.events with _ | ⟨event, rest⟩
    · simp only [he, pollEvents, PolledRead.octets.injEq] at h
      exact absurd h.1.symm hne
    · cases event with
      | chunk octets => exact weight_cut_lt hn octets rest
      | fault fault => simp [he, pollEvents] at h
      | notReady => simp [he, pollEvents] at h

theorem weight_readEvents_lt {n : Nat} {events rest : List Event} {answer : ReadAnswer}
    (hn : 0 < n) (h : readEvents n events = (answer, rest)) (ha : answer ≠ .octets []) :
    weightOf rest < weightOf events := by
  fun_induction readEvents n events with
  | case1 =>
    simp only [Prod.mk.injEq] at h
    exact absurd h.1.symm ha
  | case2 octets more read left hc =>
    simp only [Prod.mk.injEq] at h
    have hlt := weight_cut_lt hn octets more
    rw [hc] at hlt
    rw [← h.2]
    exact hlt
  | case3 fault more =>
    simp only [Prod.mk.injEq] at h
    rw [← h.2]
    simp only [weightOf, Event.weight]
    omega
  | case4 more ih =>
    have hlt := ih h
    simp only [weightOf, Event.weight]
    omega

theorem weight_read_lt {n : Nat} {s s' : Script} {answer : ReadAnswer} (hn : 0 < n)
    (h : s.read n = (answer, s')) (ha : answer ≠ .octets []) : s'.weight < s.weight := by
  simp only [read, Prod.mk.injEq] at h
  rw [← h.2]
  exact weight_readEvents_lt hn (Prod.ext h.1 rfl) ha

instance : OctetReader Script where
  read := read
  remaining := weight
  remaining_octets_lt hn h hne := weight_read_lt hn h (by simpa using hne)
  remaining_interrupted_lt hn h _ := weight_read_lt hn h (by simp)

instance : Inflow Script where
  poll := poll
  remaining := weight
  remaining_poll_lt {s s' octets} h := by
    unfold poll at h
    split at h <;> simp at h
    rename_i hs
    simp only [weight, hs, ← h.2, weightOf, Event.weight]
    omega

end Script

end ObjectFeed
