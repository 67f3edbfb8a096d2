/-
  Objects that are complete and wait to be handed out, oldest first.

  A backlog is a queue on two lists: values leave at the front of one and enter at the front of the
  other.  `Backlog.toList` is its content, oldest first, and the lemmas say what each operation does
  to it.
-/

namespace ObjectFeed

/-- A first-in, first-out queue. -/
structure Backlog (α : Type) where
  /-- The values that leave next. -/
  leaving : List α := []
  /-- The values that came last, newest first. -/
  entered : List α := []

namespace Backlog

variable {α : Type}

/-- Nothing waits. -/
def empty : Backlog α := {}

/-- The content, oldest first. -/
def toList (b : Backlog α) : List α :=
  b.leaving ++ b.entered.reverse

/-- Add a value as the newest. -/
def push (b : Backlog α) (a : α) : Backlog α :=
  { b with entered := a :: b.entered }

/-- Add values, the first of them first. -/
def pushAll (b : Backlog α) (as : List α) : Backlog α :=
  as.foldl push b

/-- Take the oldest value out. -/
def pop? (b : Backlog α) : Option (α × Backlog α) :=
  match b.leaving with
  | a :: rest => some (a, { b with leaving := rest })
  | [] =>
    match b.entered.reverse with
    | a :: rest => some (a, { leaving := rest, entered := [] })
    | [] => none

/-- The number of values that wait. -/
def size (b : Backlog α) : Nat :=
  b.leaving.length + b.entered.length

/-- Whether nothing waits. -/
def isEmpty (b : Backlog α) : Bool :=
  b.leaving.isEmpty && b.entered.isEmpty

@[simp] theorem toList_empty : (empty : Backlog α).toList = [] := rfl

@[simp] theorem toList_push (b : Backlog α) (a : α) : (b.push a).toList = b.toList ++ [a] := by
  simp [toList, push]

@[simp] theorem toList_pushAll (b : Backlog α) (as : List α) :
    (b.pushAll as).toList = b.toList ++ as := by
  induction as generalizing b with
  | nil => simp [pushAll]
  | cons a as ih =>
    have h : b.pushAll (a :: as) = (b.push a).pushAll as := rfl
    rw [h, ih, toList_push]
    simp

@[simp] theorem size_eq_length (b : Backlog α) : b.size = b.toList.length := by
  simp [size, toList]

@[simp] theorem isEmpty_eq (b : Backlog α) : b.isEmpty = b.toList.isEmpty := by
  rcases b with ⟨_ | _, _ | _⟩ <;> simp [isEmpty, toList]

/-- Nothing comes out exactly when nothing waits. -/
theorem pop?_eq_none_iff (b : Backlog α) : b.pop? = none ↔ b.toList = [] := by
  rcases b with ⟨_ | ⟨a, leaving⟩, entered⟩
  · cases he : entered.reverse <;> simp [pop?, toList, he]
  · simp [pop?, toList]

/-- What comes out is the head of the content, and the tail stays. -/
theorem toList_of_pop? {b rest : Backlog α} {a : α} (h : b.pop? = some (a, rest)) :
    b.toList = a :: rest.toList := by
  rcases b with ⟨_ | ⟨first, leaving⟩, entered⟩
  · cases he : entered.reverse with
    | nil => simp [pop?, he] at h
    | cons first more =>
      simp only [pop?, he, Option.some.injEq, Prod.mk.injEq] at h
      obtain ⟨rfl, rfl⟩ := h
      simp [toList, he]
  · simp only [pop?, Option.some.injEq, Prod.mk.injEq] at h
    obtain ⟨rfl, rfl⟩ := h
    simp [toList]

theorem size_lt_of_pop? {b rest : Backlog α} {a : α} (h : b.pop? = some (a, rest)) :
    rest.size < b.size := by
  rw [size_eq_length, size_eq_length, toList_of_pop? h]
  exact Nat.lt_succ_self _

end Backlog

end ObjectFeed
