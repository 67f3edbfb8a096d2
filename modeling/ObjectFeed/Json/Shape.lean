/-
  Typed reading of JSON.

  A document is read in its flat form: every node is followed by the nodes of its content, and a
  container says how many items or members it has.  A shape takes what it wants from the front.

  * `Json.Node` and `Value.nodes` are the flat form;
  * `Json.Shape` reads a typed value from the front of a flat document; `Shape.skip` takes any value;
  * `Shape.record` reads a record from an object, where unknown keys are passed over and a known key
    may come once, or from an array that has the values of the fields in their order.  What a record
    leaves of an array is met next by whoever reads on;
  * `Shape.ofText?` reads a whole text.
-/
import ObjectFeed.Json.Value

namespace ObjectFeed.Json

/-- A node of a flat document. -/
inductive Node where
  | null
  | bool (b : Bool)
  | number (n : Number)
  | string (s : String)
  | array (size : Nat)
  | object (size : Nat)
  deriving DecidableEq, Repr

/-- The number of values that follow a node and belong to it, keys included. -/
def Node.children : Node → Nat
  | array size => size
  | object size => 2 * size
  | null | bool _ | number _ | string _ => 0

mutual

/-- The nodes of a value in reading order, before those that follow it. -/
def Value.nodesBefore (rest : List Node) : Value → List Node
  | .null => .null :: rest
  | .bool b => .bool b :: rest
  | .number n => .number n :: rest
  | .string s => .string s :: rest
  | .array items => .array items.length :: nodesOfItems rest items
  | .object members => .object members.length :: nodesOfMembers rest members

/-- The nodes of the items of an array. -/
def nodesOfItems (rest : List Node) : List Value → List Node
  | [] => rest
  | v :: more => v.nodesBefore (nodesOfItems rest more)

/-- The nodes of the members of an object, each key before its value. -/
def nodesOfMembers (rest : List Node) : List (String × Value) → List Node
  | [] => rest
  | (k, v) :: more => .string k :: v.nodesBefore (nodesOfMembers rest more)

end

/-- The flat form of a value. -/
def Value.nodes (v : Value) : List Node := v.nodesBefore []

/-- Reads a typed value from the front of a flat document. -/
abbrev Shape (α : Type) := List Node → Option (α × List Node)

namespace Shape

variable {α β σ : Type}

/-- Take whole values from the front. -/
def skipValues : Nat → List Node → Option (List Node)
  | 0, nodes => some nodes
  | _ + 1, [] => none
  | n + 1, node :: rest => skipValues (n + node.children) rest

/-- Any value, which is ignored. -/
def skip : Shape Unit := fun nodes => (skipValues 1 nodes).map fun rest => ((), rest)

/-- A truth value. -/
def bool : Shape Bool
  | .bool b :: rest => some (b, rest)
  | _ => none

/-- A text. -/
def string : Shape String
  | .string s :: rest => some (s, rest)
  | _ => none

/-- A natural number up to a greatest one, written as an integer. -/
def natUpTo (greatest : Nat) : Shape Nat
  | .number n :: rest =>
    match n.int? with
    | some i => if 0 ≤ i && i ≤ (greatest : Int) then some (i.toNat, rest) else none
    | none => none
  | _ => none

/-- A value, or null for none. -/
def optional (shape : Shape α) : Shape (Option α)
  | .null :: rest => some (none, rest)
  | nodes => (shape nodes).map fun (a, rest) => (some a, rest)

/-- A field of a record whose fields are gathered in a `σ`. -/
structure Field (σ : Type) where
  key : String
  /-- Whether the field has been read. -/
  isRead : σ → Bool
  /-- Read the value of the field. -/
  read : σ → List Node → Option (σ × List Node)

/-- The field that `get` and `set` reach. -/
def Field.of (key : String) (shape : Shape β) (get : σ → Option β) (set : σ → β → σ) : Field σ where
  key := key
  isRead s := (get s).isSome
  read s nodes := (shape nodes).map fun (b, rest) => (set s b, rest)

/-- Read the members of an object. -/
def readMembers (fields : List (Field σ)) : Nat → σ → List Node → Option (σ × List Node)
  | 0, s, nodes => some (s, nodes)
  | n + 1, s, .string key :: nodes =>
    match fields.find? (fun f => f.key = key) with
    | some field =>
      if field.isRead s then none
      else (field.read s nodes).bind fun (s, rest) => readMembers fields n s rest
    | none => (skipValues 1 nodes).bind fun rest => readMembers fields n s rest
  | _ + 1, _, _ => none

/-- Read the items of an array as the values of the fields in their order. -/
def readInOrder : List (Field σ) → Nat → σ → List Node → Option (σ × List Node)
  | field :: fields, n + 1, s, nodes =>
    (field.read s nodes).bind fun (s, rest) => readInOrder fields n s rest
  | _, _, s, nodes => some (s, nodes)

/-- A record: its fields are gathered from `start` on, and `finish` supplies what is missing or
    refuses. -/
def record (start : σ) (fields : List (Field σ)) (finish : σ → Option α) : Shape α := fun nodes =>
  let gathered := match nodes with
    | .object n :: rest => readMembers fields n start rest
    | .array n :: rest => readInOrder fields n start rest
    | _ => none
  gathered.bind fun (s, rest) => (finish s).map fun a => (a, rest)

/-- Read a typed value from a text. -/
def ofText? (shape : Shape α) (text : String) : Option α :=
  ((read? text.toList).bind fun v => shape v.nodes).map Prod.fst

end Shape

end ObjectFeed.Json
