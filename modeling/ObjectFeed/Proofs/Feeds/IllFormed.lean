/-
  Feeds over octets that are not text, or end inside a code point.

  * `readers_agree`: a blocking and a polled reader that bring the same chunks give the same items, but
    for the failure of an open array, which the polled one passes over if the octets end inside a
    code point;
  * `objects_before_illFormed`: the values before the first failure are the objects of the chunks
    before the one that shows the octets to be ill-formed.  The text in front of the ill-formed
    sequence in that chunk is not read.
-/
import ObjectFeed.Proofs.Feeds.Scripts
import ObjectFeed.Proofs.Splitter.Cuts

namespace ObjectFeed

open Splitter (run)

variable {α : Type}

/-! ## The end of the octets -/

/-- The failure that a polled feed passes over at the end of these chunks: the array is still open,
    but the octets end inside a code point, which is reported in its place. -/
def passedOver (settings : Settings) (chunks : List Octets) : List (Item α) :=
  let fed := ({ options := settings.splitter } : Splitter).feedEach
    (texts (Utf8.Carry.empty.arrivals chunks))
  if (Utf8.Carry.empty.afterChunks chunks).held ≠ [] ∧ fed.failure = none then
    settings.ending fed.splitter
  else []

/-- Octets that end inside a code point are a fault, which a blocking feed reports before the failure of
    an open array, and a polled one in its place. -/
theorem itemsThrough_unfinished (interpret : Interpretation α) (settings : Settings)
    (carry : Utf8.Carry) (splitter : Splitter) :
    itemsThrough interpret settings settings.ending splitter
        (carry.unfinished?.map .error).toList =
      carry.ending settings splitter ++
        if carry.held ≠ [] then settings.ending splitter else [] := by
  rw [Utf8.Carry.ending, Utf8.Carry.unfinished?]
  rcases carry with ⟨_ | ⟨b, held⟩⟩
  · exact (List.append_nil _).symm
  · rfl

/-- **Blocking and polled readers agree on octets that are not text**, as far as the end of the input:
    there the blocking one also reports an open array after octets that end inside a code point. -/
theorem readers_agree {ρ π : Type} [OctetReader ρ] [PolledReader π] (interpret : Interpretation α)
    (settings : Settings) {chunks : List Octets} {reader : ρ}
    (hreader : OctetReader.Reads (max settings.readSize 1) reader chunks) {polled : π}
    (hpolled : PolledReader.Reads (max settings.readSize 1) polled chunks) :
    ∃ items, Yields PollFeed.poll (.ofReader polled interpret settings) items ∧
      Yields PullFeed.ask (.ofReader reader interpret settings)
        (items ++ passedOver settings chunks) := by
  have hpull := PullFeed.yields_arrivals (ReaderSupply.answers .empty hreader)
    (.new interpret settings)
  have hpoll := PollFeed.yields_arrivals (ReaderInflow.delivers hpolled) .empty
    (.new interpret settings)
  rw [Hopper.ahead_new] at hpull hpoll
  refine ⟨_, hpoll, ?_⟩
  -- both have the items of the chunks, and differ in what they add at the end
  rw [itemsThrough_append, itemsThrough_ending, Hopper.new, itemsThrough_unfinished] at hpull
  rw [itemsThrough_ending, List.append_assoc, passedOver]
  by_cases hfailure : ((({ options := settings.splitter } : Splitter).feedEach
      (texts (Utf8.Carry.empty.arrivals chunks))).failure = none)
  · rw [if_pos hfailure] at hpull ⊢
    simp only [hfailure, and_true]
    exact hpull
  · rw [if_neg hfailure] at hpull ⊢
    simp only [hfailure, and_false, if_false]
    exact hpull

/-- An array that ends after its first bracket and the first octet of a letter: the blocking feed tells
    of the array, and the polled one does not. -/
theorem readers_agree_openArray :
    ∃ items : List (Item String),
      Yields PollFeed.poll (.ofReader ({ events := [.chunk [0x5B, 0xC3]] } : Script) .verbatim)
        items ∧
      Yields PullFeed.ask (.ofReader ({ events := [.chunk [0x5B, 0xC3]] } : Script) .verbatim)
        (items ++ [.error (.truncated 1)]) := by
  have hreader : OctetReader.Reads 1024 ({ events := [.chunk [0x5B, 0xC3]] } : Script)
      [[0x5B, 0xC3]] := .octets rfl (List.cons_ne_nil _ _) (.ended rfl)
  have hpolled : PolledReader.Reads 1024 ({ events := [.chunk [0x5B, 0xC3]] } : Script)
      [[0x5B, 0xC3]] := .octets rfl (List.cons_ne_nil _ _) (.ended rfl)
  exact readers_agree .verbatim {} hreader hpolled

/-! ## Objects before what is ill-formed -/

/-- Asked until its end, a feed gives these values, and then a failure. -/
def FailsAfter {S : Type} (ask : S → Readiness (Option (Item α)) × S) (s : S) (values : List α) :
    Prop :=
  ∃ failure later, Yields ask s (values.map .ok ++ .error failure :: later)

theorem filterMap_verbatim (settings : Settings) (objects : List String) :
    objects.filterMap (itemOf? .verbatim settings) = objects.map .ok := by
  rw [← List.filterMap_eq_map]
  rfl

/-- Whatever comes after a fault, the objects of the fragments before it are the first items, and the
    next is a failure. -/
theorem exists_items_of_fault (settings : Settings) (ending : Splitter → List (Item String))
    (fragments : List String) (fault : Fault) (arrivals : List Arrival) :
    ∃ failure later,
      itemsThrough .verbatim settings ending { options := settings.splitter }
          (fragments.map .ok ++ .error fault :: arrivals) =
        (run settings.splitter .before (String.join fragments).toList).objects.map .ok ++
          .error failure :: later := by
  rw [← Splitter.objects_feedEach, ← filterMap_verbatim settings]
  exact itemsThrough_texts_fault .verbatim settings ending _ fragments fault arrivals

/-- **The values before the first failure** are the objects of the text that the chunks bring before
    the one that shows the octets to be ill-formed, by polling and by blocking reads.  The objects
    that end in that chunk are missed, however much of it is text. -/
theorem objects_before_illFormed {σ ρ : Type} [Inflow σ] [OctetReader ρ] (settings : Settings)
    {text : String} {tail : Octets} {length : Nat} (htail : Utf8.decode tail = .illFormed 0 length)
    {chunks : List Octets} (hchunks : chunks.flatten = octetsOf text ++ tail) {inflow : σ}
    (hinflow : Inflow.Delivers inflow chunks) {reader : ρ}
    (hreader : OctetReader.Reads (max settings.readSize 1) reader chunks) :
    ∃ (good : List Octets) (bad : Octets) (rest : List Octets) (read : String) (held : Octets)
      (missed : List String), chunks = good ++ bad :: rest ∧
      Utf8.decode good.flatten = .upTo read held ∧
      (∃ index length, Utf8.decode (good.flatten ++ bad) = .illFormed index length) ∧
      (run settings.splitter .before text.toList).objects =
        (run settings.splitter .before read.toList).objects ++ missed ∧
      FailsAfter PollFeed.poll (.new inflow .verbatim settings)
        (run settings.splitter .before read.toList).objects ∧
      FailsAfter PullFeed.ask (.ofReader reader .verbatim settings)
        (run settings.splitter .before read.toList).objects := by
  obtain ⟨index, length', hdecode⟩ := Utf8.exists_illFormed_append htail text
  rw [← hchunks] at hdecode
  obtain ⟨good, bad, rest, fragments, fault, rfl, hgood, hbad, ⟨held, hread⟩, hill⟩ :=
    Utf8.Carry.exists_fault_of_illFormed .empty rfl hdecode
  have hbegin : good.flatten ++ (bad ++ rest.flatten) = octetsOf text ++ tail := by
    rw [← hchunks, List.flatten_append, List.flatten_cons]
  obtain ⟨more, hmore⟩ := Utf8.exists_append_of_illFormed hbegin htail hread
  obtain ⟨missed, hmissed⟩ := Splitter.exists_objects_append settings.splitter .before
    (String.join fragments).toList more.toList
  rw [← String.toList_append, hmore] at hmissed
  obtain ⟨later, harrivals⟩ : ∃ later, Utf8.Carry.empty.arrivals (good ++ bad :: rest) =
      fragments.map .ok ++ .error fault :: later := by
    rw [Utf8.Carry.arrivals_append, hgood, Utf8.Carry.arrivals, hbad]
    exact ⟨_, rfl⟩
  refine ⟨good, bad, rest, String.join fragments, held, missed, rfl, hread, hill, hmissed, ?_, ?_⟩
  · have hpoll := PollFeed.yields_arrivals hinflow .empty (.new .verbatim settings)
    rw [Hopper.ahead_new, harrivals] at hpoll
    obtain ⟨failure, others, hitems⟩ := exists_items_of_fault settings _ fragments fault later
    rw [hitems] at hpoll
    exact ⟨failure, others, hpoll⟩
  · have hpull := PullFeed.yields_arrivals (ReaderSupply.answers .empty hreader)
      (.new .verbatim settings)
    rw [Hopper.ahead_new, harrivals, List.append_assoc, List.cons_append] at hpull
    obtain ⟨failure, others, hitems⟩ := exists_items_of_fault settings _ fragments fault _
    rw [hitems] at hpull
    exact ⟨failure, others, hpull⟩

/-- An object and an octet that no code point has: the object is missed if both come at once, and is
    given if the octet comes in a chunk of its own. -/
theorem objects_before_illFormed_empty :
    (run {} .before "[\x7b\x7d".toList).objects = ["\x7b\x7d"] ∧
      FailsAfter PollFeed.poll (.new ({ events := [.chunk [0x5B, 0x7B, 0x7D, 0xFF]] } : Script)
        .verbatim) [] ∧
      FailsAfter PollFeed.poll (.new ({ events := [.chunk [0x5B, 0x7B, 0x7D], .chunk [0xFF]] } : Script)
        .verbatim) ["\x7b\x7d"] := by
  have htail : Utf8.decode [0xFF] = .illFormed 0 1 := by decide
  have hoctets : octetsOf "[\x7b\x7d" = [0x5B, 0x7B, 0x7D] := by
    rw [Utf8.octetsOf_eq_flatMap]
    decide
  have hdecode : Utf8.decode [0x5B, 0x7B, 0x7D] = .upTo "[\x7b\x7d" [] := by decide
  refine ⟨by decide, ?_, ?_⟩
  · have hinflow : Inflow.Delivers ({ events := [.chunk [0x5B, 0x7B, 0x7D, 0xFF]] } : Script)
        [[0x5B, 0x7B, 0x7D, 0xFF]] := .chunk rfl (.ended rfl)
    have hreader : OctetReader.Reads 1024
        ({ events := [.chunk [0x5B, 0x7B, 0x7D, 0xFF]] } : Script) [[0x5B, 0x7B, 0x7D, 0xFF]] :=
      .octets rfl (List.cons_ne_nil _ _) (.ended rfl)
    obtain ⟨good, bad, rest, read, held, -, hchunks, hread, -, -, hpoll, -⟩ :=
      objects_before_illFormed {} htail (by rw [hoctets]; rfl) hinflow hreader
    -- the octet comes in the first chunk, so nothing is read before it
    cases good with
    | nil =>
      obtain ⟨rfl, -⟩ := Utf8.Decoding.upTo.inj hread
      exact hpoll
    | cons first good => cases good <;> cases hchunks
  · have hinflow : Inflow.Delivers
        ({ events := [.chunk [0x5B, 0x7B, 0x7D], .chunk [0xFF]] } : Script)
        [[0x5B, 0x7B, 0x7D], [0xFF]] := .chunk rfl (.chunk rfl (.ended rfl))
    have hreader : OctetReader.Reads 1024
        ({ events := [.chunk [0x5B, 0x7B, 0x7D], .chunk [0xFF]] } : Script)
        [[0x5B, 0x7B, 0x7D], [0xFF]] :=
      .octets rfl (List.cons_ne_nil _ _) (.octets rfl (List.cons_ne_nil _ _) (.ended rfl))
    obtain ⟨good, bad, rest, read, held, -, hchunks, hread, ⟨index, length, hill⟩, -, hpoll, -⟩ :=
      objects_before_illFormed {} htail (by rw [hoctets]; rfl) hinflow hreader
    cases good with
    | nil =>
      cases hchunks
      rw [List.flatten_nil, List.nil_append, hdecode] at hill
      cases hill
    | cons first good =>
      cases good with
      | nil =>
        cases hchunks
        obtain ⟨rfl, -⟩ := Utf8.Decoding.upTo.inj (hdecode.symm.trans hread)
        exact hpoll
      | cons second good => cases good <;> cases hchunks

end ObjectFeed
