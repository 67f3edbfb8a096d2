/-
  What comes of chunks that need not be text, and between which the transport may fail.

  * `Arrival` is what arrives where octets are turned into text: a fragment, or a fault.  `Delivery` is
    what the transport brings: a chunk, or a fault.  `arrived` and `faults` tell the two apart;
  * `Carry.arrivals` are the arrivals of chunks pushed one after another, `Carry.afterChunks` is what is
    held after them, and `Carry.unfinished?` the fault if the input ends there.  `Carry.received` are the
    arrivals of deliveries;
  * `exists_arrivals`: chunks that begin a text arrive as text, and `received_of_upTo`: so they do with
    faults between them;
  * `Awaits.exists_arrivals`: the chunks of a text arrive as this text, and nothing is held at the end;
  * `exists_fault_of_illFormed`: the chunks up to an ill-formed sequence arrive as text, and the chunk
    that shows it to be ill-formed arrives as a fault;
  * `exists_append_of_illFormed`: that text is the beginning of the text before the sequence.
-/
import ObjectFeed.Proofs.Utf8.Decoding

namespace ObjectFeed

/-- A fragment of text, or the fault that came in its place. -/
abbrev Arrival := Except Fault String

/-- A chunk of octets, or the fault that came in its place. -/
abbrev Delivery := Except Fault Octets

/-! ## Faults among what is brought -/

section

variable {β : Type}

/-- What was brought without a fault. -/
def arrived (events : List (Except Fault β)) : List β :=
  events.filterMap Except.toOption

/-- The fault that came in place of something. -/
def faultOf? : Except Fault β → Option Fault
  | .error fault => some fault
  | .ok _ => none

/-- The faults. -/
def faults (events : List (Except Fault β)) : List Fault :=
  events.filterMap faultOf?

@[simp] theorem arrived_nil : arrived ([] : List (Except Fault β)) = [] := rfl

@[simp] theorem arrived_ok (b : β) (events : List (Except Fault β)) :
    arrived (.ok b :: events) = b :: arrived events := rfl

@[simp] theorem arrived_error (fault : Fault) (events : List (Except Fault β)) :
    arrived (.error fault :: events) = arrived events := rfl

theorem arrived_append (events rest : List (Except Fault β)) :
    arrived (events ++ rest) = arrived events ++ arrived rest :=
  List.filterMap_append

@[simp] theorem arrived_map_ok (bs : List β) : arrived (bs.map .ok) = bs := by
  induction bs with
  | nil => rfl
  | cons b bs ih => rw [List.map_cons, arrived_ok, ih]

@[simp] theorem faults_ok (b : β) (events : List (Except Fault β)) :
    faults (.ok b :: events) = faults events := rfl

@[simp] theorem faults_error (fault : Fault) (events : List (Except Fault β)) :
    faults (.error fault :: events) = fault :: faults events := rfl

theorem faults_congr {γ : Type} {events : List (Except Fault β)} {others : List (Except Fault γ)}
    (h : events.map faultOf? = others.map faultOf?) : faults events = faults others := by
  have hfaults := congrArg (List.filterMap id) h
  rw [List.filterMap_map, List.filterMap_map, Function.id_comp, Function.id_comp] at hfaults
  exact hfaults

end

namespace Utf8

/-! ## Ill-formed octets -/

theorem le_index_of_decodeAfter {text : String} {held octets : Octets} {index length : Nat}
    (h : decodeAfter text held octets = .illFormed index length) : text.utf8ByteSize ≤ index := by
  induction octets generalizing text held with
  | nil => cases h
  | cons b rest ih =>
    rw [decodeAfter] at h
    cases hreading : Reading.of (held ++ [b]) with
    | whole c =>
      rw [hreading] at h
      have hle := ih h
      rw [String.utf8ByteSize_push] at hle
      exact Nat.le_trans (Nat.le_add_right _ _) hle
    | begun =>
      rw [hreading] at h
      exact ih h
    | broken =>
      rw [hreading] at h
      obtain ⟨rfl, -⟩ := Decoding.illFormed.inj h
      exact Nat.le_refl _

theorem exists_illFormed {text : String} {held octets : Octets} {index length : Nat}
    (h : decodeAfter text held octets = .illFormed index length) (before : String) :
    ∃ index' length', decodeAfter before held octets = .illFormed index' length' := by
  cases hbefore : decodeAfter before held octets with
  | illFormed index' length' => exact ⟨index', length', rfl⟩
  | upTo read left =>
    obtain ⟨more, -, hall⟩ := decodeAfter_text hbefore
    rw [hall text] at h
    cases h

theorem exists_illFormed_append {tail : Octets} {index length : Nat}
    (htail : decode tail = .illFormed index length) (text : String) :
    ∃ index' length', decode (octetsOf text ++ tail) = .illFormed index' length' := by
  rw [decode, decodeAfter_append, ← decode, decode_octetsOf]
  exact exists_illFormed htail text

/-- The text of the first of octets that are a text and then ill-formed is the beginning of the
    text. -/
theorem exists_append_of_illFormed {octets coming tail held : Octets} {text before : String}
    {length : Nat} (hoctets : octets ++ coming = octetsOf text ++ tail)
    (htail : decode tail = .illFormed 0 length) (hbefore : decode octets = .upTo before held) :
    ∃ more, before ++ more = text := by
  rcases List.append_eq_append_iff.1 hoctets with ⟨left, htext, -⟩ | ⟨left, hread, hleft⟩
  · -- the first octets end within the text
    have hall := decode_octetsOf text
    rw [htext, decode, decodeAfter_append, ← decode, hbefore] at hall
    obtain ⟨more, hmore, -⟩ := decodeAfter_text hall
    exact ⟨more, hmore⟩
  · -- they go on behind the text, but no character is read there
    rw [hread, decode, decodeAfter_append, ← decode, decode_octetsOf] at hbefore
    obtain ⟨more, hmore, hall⟩ := decodeAfter_text hbefore
    rw [hleft, decode, decodeAfter_append, hall ""] at htail
    have hle := le_index_of_decodeAfter htail
    have hempty : more = "" := by
      rw [String.empty_append, Nat.le_zero] at hle
      exact String.utf8ByteSize_eq_zero_iff.1 hle
    exact ⟨"", by rw [← hmore, hempty, String.append_empty]; exact String.append_empty⟩

theorem exists_upTo_of_append {octets coming held : Octets} {text : String}
    (h : decode (octets ++ coming) = .upTo text held) :
    ∃ text' held', decode octets = .upTo text' held' := by
  rw [decode, decodeAfter_append, ← decode] at h
  cases hoctets : decode octets with
  | upTo text' held' => exact ⟨text', held', rfl⟩
  | illFormed index length =>
    rw [hoctets] at h
    cases h

namespace Carry

/-! ## Arrivals -/

/-- What arrives of chunks that are pushed one after another. -/
def arrivals : Carry → List Octets → List Arrival
  | _, [] => []
  | carry, chunk :: rest => (carry.push chunk).1 :: (carry.push chunk).2.arrivals rest

/-- What is held after chunks. -/
def afterChunks (carry : Carry) (chunks : List Octets) : Carry :=
  chunks.foldl (fun carry chunk => (carry.push chunk).2) carry

/-- The fault at the end of the input, if it ends inside a code point. -/
def unfinished? (carry : Carry) : Option Fault :=
  if carry.held.isEmpty then none else some (.unfinishedText carry.held.length)

theorem flush_eq (carry : Carry) :
    carry.flush = (match carry.unfinished? with
      | none => .ok ()
      | some fault => .error fault, empty) := by
  rw [flush, unfinished?]
  cases carry.held.isEmpty <;> rfl

theorem afterChunks_cons (carry : Carry) (chunk : Octets) (rest : List Octets) :
    carry.afterChunks (chunk :: rest) = (carry.push chunk).2.afterChunks rest := rfl

theorem afterChunks_append (carry : Carry) (chunks rest : List Octets) :
    carry.afterChunks (chunks ++ rest) = (carry.afterChunks chunks).afterChunks rest :=
  List.foldl_append

theorem arrivals_append (carry : Carry) (chunks rest : List Octets) :
    carry.arrivals (chunks ++ rest) =
      carry.arrivals chunks ++ (carry.afterChunks chunks).arrivals rest := by
  induction chunks generalizing carry with
  | nil => rfl
  | cons chunk chunks ih =>
    rw [List.cons_append, arrivals, arrivals, List.cons_append, afterChunks_cons, ih]

theorem arrivals_concat (carry : Carry) (chunks : List Octets) (chunk : Octets) :
    carry.arrivals (chunks ++ [chunk]) =
        carry.arrivals chunks ++ [((carry.afterChunks chunks).push chunk).1] ∧
      carry.afterChunks (chunks ++ [chunk]) = ((carry.afterChunks chunks).push chunk).2 := by
  constructor
  · rw [arrivals_append, arrivals, arrivals]
  · rw [afterChunks, List.foldl_append]
    rfl

theorem length_arrivals (carry : Carry) (chunks : List Octets) :
    (carry.arrivals chunks).length = chunks.length := by
  induction chunks generalizing carry with
  | nil => rfl
  | cons chunk chunks ih => rw [arrivals, List.length_cons, List.length_cons, ih]

theorem arrivals_take (carry : Carry) (chunks : List Octets) (n : Nat) :
    carry.arrivals (chunks.take n) = (carry.arrivals chunks).take n := by
  induction chunks generalizing carry n with
  | nil => cases n <;> rfl
  | cons chunk chunks ih =>
    cases n with
    | zero => rfl
    | succ n => rw [List.take_succ_cons, arrivals, arrivals, List.take_succ_cons, ih]

theorem push_of_upTo {carry : Carry} {chunk held : Octets} {first : String}
    (h : decode (carry.held ++ chunk) = .upTo first held) :
    carry.push chunk = (.ok first, ⟨held⟩) ∧ Reading.of held = .begun ∧
      ∀ octets, decode (carry.held ++ (chunk ++ octets)) = decodeAfter first held octets := by
  refine ⟨?_, begun_of_decodeAfter h rfl, fun octets => ?_⟩
  · rw [push, h]
  · rw [← List.append_assoc, decode, decodeAfter_append, ← decode, h]

/-- **Chunks of octets that begin a text arrive as text**, and the rest of the octets is held. -/
theorem exists_arrivals (carry : Carry) (hbegun : Reading.of carry.held = .begun)
    {chunks : List Octets} {text : String} {held : Octets}
    (h : decode (carry.held ++ chunks.flatten) = .upTo text held) :
    ∃ fragments, String.join fragments = text ∧ carry.arrivals chunks = fragments.map .ok ∧
      (carry.afterChunks chunks).held = held := by
  induction chunks generalizing carry text with
  | nil =>
    rw [List.flatten_nil, List.append_nil, decode_of_begun hbegun, Decoding.upTo.injEq] at h
    exact ⟨[], h.1, rfl, h.2⟩
  | cons chunk chunks ih =>
    rw [List.flatten_cons] at h
    cases hchunk : decode (carry.held ++ chunk) with
    | illFormed index length =>
      rw [← List.append_assoc, decode, decodeAfter_append, ← decode, hchunk] at h
      cases h
    | upTo first left =>
      obtain ⟨hpush, hleft, hdecode⟩ := push_of_upTo hchunk
      rw [hdecode] at h
      obtain ⟨more, hmore, hall⟩ := decodeAfter_text h
      have hrest := hall ""
      rw [String.empty_append, ← decode_held_append hleft] at hrest
      obtain ⟨fragments, hfragments, harrivals, hend⟩ := ih ⟨left⟩ hleft hrest
      refine ⟨first :: fragments, ?_, ?_, ?_⟩
      · rw [String.join_cons, hfragments, hmore]
      · rw [arrivals, hpush, harrivals, List.map_cons]
      · rw [afterChunks_cons, hpush]
        exact hend

theorem Awaits.exists_arrivals {carry : Carry} {chunks : List Octets} {text : String}
    (h : carry.Awaits chunks.flatten text) :
    ∃ fragments, String.join fragments = text ∧ carry.arrivals chunks = fragments.map .ok ∧
      (carry.afterChunks chunks).unfinished? = none := by
  obtain ⟨fragments, hjoin, harrivals, hheld⟩ := carry.exists_arrivals h.begun h.decodes
  exact ⟨fragments, hjoin, harrivals, by rw [unfinished?, hheld]; rfl⟩

/-- **The chunks before an ill-formed sequence arrive as text**, and the chunk that shows it to be
    ill-formed arrives as a fault. -/
theorem exists_fault_of_illFormed (carry : Carry) (hbegun : Reading.of carry.held = .begun)
    {chunks : List Octets} {index length : Nat}
    (h : decode (carry.held ++ chunks.flatten) = .illFormed index length) :
    ∃ good bad rest fragments fault, chunks = good ++ bad :: rest ∧
      carry.arrivals good = fragments.map .ok ∧
      ((carry.afterChunks good).push bad).1 = .error fault ∧
      (∃ held, decode (carry.held ++ good.flatten) = .upTo (String.join fragments) held) ∧
      ∃ index length, decode (carry.held ++ (good.flatten ++ bad)) = .illFormed index length := by
  induction chunks generalizing carry index length with
  | nil =>
    rw [List.flatten_nil, List.append_nil, decode_of_begun hbegun] at h
    cases h
  | cons chunk chunks ih =>
    cases hchunk : decode (carry.held ++ chunk) with
    | illFormed index' length' =>
      refine ⟨[], chunk, chunks, [], .illFormedText index' length', rfl, rfl, ?_, ?_, ?_⟩
      · rw [afterChunks, List.foldl_nil, push, hchunk]
      · rw [List.flatten_nil, List.append_nil, decode_of_begun hbegun]
        exact ⟨_, rfl⟩
      · exact ⟨index', length', hchunk⟩
    | upTo first held =>
      obtain ⟨hpush, hheld, hdecode⟩ := push_of_upTo hchunk
      rw [List.flatten_cons, hdecode] at h
      obtain ⟨index', length', hrest⟩ := exists_illFormed h ""
      rw [← decode_held_append hheld] at hrest
      obtain ⟨good, bad, rest, fragments, fault, rfl, hgood, hbad, ⟨left, htext⟩, i, l, hfault⟩ :=
        ih ⟨held⟩ hheld hrest
      refine ⟨chunk :: good, bad, rest, first :: fragments, fault, rfl, ?_, ?_, ?_, ?_⟩
      · rw [arrivals, hpush, hgood, List.map_cons]
      · rw [afterChunks_cons, hpush]
        exact hbad
      · rw [decode_held_append hheld] at htext
        obtain ⟨more, hmore, hall⟩ := decodeAfter_text htext
        rw [String.empty_append] at hmore
        rw [List.flatten_cons, hdecode, hall first, hmore, String.join_cons]
        exact ⟨_, rfl⟩
      · rw [decode_held_append hheld] at hfault
        rw [List.flatten_cons, List.append_assoc, hdecode]
        exact exists_illFormed hfault first

/-! ## Deliveries -/

/-- What arrives of deliveries: a chunk is pushed, and a fault passes as it is. -/
def received : Carry → List Delivery → List Arrival
  | _, [] => []
  | carry, .error fault :: rest => .error fault :: carry.received rest
  | carry, .ok chunk :: rest => (carry.push chunk).1 :: (carry.push chunk).2.received rest

theorem received_map_ok (carry : Carry) (chunks : List Octets) :
    carry.received (chunks.map .ok) = carry.arrivals chunks := by
  induction chunks generalizing carry with
  | nil => rfl
  | cons chunk chunks ih => rw [List.map_cons, received, arrivals, ih]

theorem received_append (carry : Carry) (deliveries rest : List Delivery) :
    carry.received (deliveries ++ rest) =
      carry.received deliveries ++ (carry.afterChunks (arrived deliveries)).received rest := by
  induction deliveries generalizing carry with
  | nil => rfl
  | cons delivery deliveries ih =>
    cases delivery with
    | error fault => rw [List.cons_append, received, received, List.cons_append, ih, arrived_error]
    | ok chunk =>
      rw [List.cons_append, received, received, List.cons_append, ih, arrived_ok, afterChunks_cons]

/-- Faults between chunks that arrive as text change nothing about the text, and stay where they are. -/
theorem received_of_arrivals {carry : Carry} {deliveries : List Delivery} {fragments : List String}
    (h : carry.arrivals (arrived deliveries) = fragments.map .ok) :
    arrived (carry.received deliveries) = fragments ∧
      (carry.received deliveries).map faultOf? = deliveries.map faultOf? := by
  induction deliveries generalizing carry fragments with
  | nil => exact ⟨(List.map_eq_nil_iff.1 h.symm).symm, rfl⟩
  | cons delivery deliveries ih =>
    cases delivery with
    | error fault =>
      obtain ⟨htexts, hfaults⟩ := ih h
      rw [received, arrived_error, List.map_cons, List.map_cons, hfaults]
      exact ⟨htexts, rfl⟩
    | ok chunk =>
      obtain ⟨first, rest, rfl, hfirst, hrest⟩ := List.map_eq_cons_iff.1 h.symm
      obtain ⟨htexts, hfaults⟩ := ih hrest.symm
      rw [received, ← hfirst, arrived_ok, htexts, List.map_cons, List.map_cons, hfaults]
      exact ⟨rfl, rfl⟩

/-- **Chunks of octets that begin a text arrive as text**, whatever faults come between them. -/
theorem received_of_upTo {deliveries : List Delivery} {text : String} {held : Octets}
    (h : decode (arrived deliveries).flatten = .upTo text held) :
    empty.arrivals (arrived deliveries) = (arrived (empty.received deliveries)).map .ok ∧
      String.join (arrived (empty.received deliveries)) = text ∧
      (empty.received deliveries).map faultOf? = deliveries.map faultOf? ∧
      (empty.afterChunks (arrived deliveries)).held = held := by
  obtain ⟨fragments, hjoin, harrivals, hheld⟩ := exists_arrivals empty rfl h
  obtain ⟨rfl, hfaults⟩ := received_of_arrivals harrivals
  exact ⟨harrivals, hjoin, hfaults, hheld⟩

end Carry

end Utf8

end ObjectFeed
