/-
  The values of JSON, and strict reading.

  * `Json.Value` keeps the members of an object in their order, repeated keys included;
  * `Value.ofTokens?` reads tokens with a stack of the containers that are open.  `Json.Reading` is
    what has been read and what may come next;
  * `Json.parse?` reads a text by the grammar alone; `Json.read?` moreover wants every number to
    have a machine form.
-/
import ObjectFeed.Json.Number
import ObjectFeed.Json.Quoted
import ObjectFeed.Json.Token

namespace ObjectFeed.Json

/-- A JSON value. -/
inductive Value where
  | null
  | bool (b : Bool)
  | number (n : Number)
  | string (s : String)
  | array (items : List Value)
  | object (members : List (String × Value))

/-- The value of a word. -/
def Value.ofWord? (spelling : List Char) : Option Value :=
  if spelling = ['n', 'u', 'l', 'l'] then some .null
  else if spelling = ['t', 'r', 'u', 'e'] then some (.bool true)
  else if spelling = ['f', 'a', 'l', 's', 'e'] then some (.bool false)
  else (Number.ofChars? spelling).map .number

/-- A container that is open; its content comes newest first. -/
inductive Frame where
  | array (items : List Value)
  /-- The members read and the key of the next. -/
  | object (members : List (String × Value)) (key : String)

/-- What has been read of a document, and what may come next. -/
inductive Reading where
  /-- A value. -/
  | value (stack : List Frame)
  /-- A value, or the end of the array just opened. -/
  | firstItem (stack : List Frame)
  /-- A key, or the end of the object just opened. -/
  | firstKey (stack : List Frame)
  /-- A key. -/
  | key (members : List (String × Value)) (stack : List Frame)
  /-- The colon after a key. -/
  | colon (members : List (String × Value)) (key : String) (stack : List Frame)
  /-- After a value: a comma, or the end of the innermost container. -/
  | after (v : Value) (stack : List Frame)

namespace Reading

/-- Read the first token of a value. -/
def stepValue (stack : List Frame) : Token → Option Reading
  | .mark .openBrace => some (firstKey stack)
  | .mark .openBracket => some (firstItem stack)
  | .mark _ => none
  | .quoted body => (unescape? body).map fun s => after (.string s) stack
  | .word spelling => (Value.ofWord? spelling).map fun v => after v stack

/-- Read one token. -/
def step : Reading → Token → Option Reading
  | value stack, t => stepValue stack t
  | firstItem stack, t =>
    if t = .mark .closeBracket then some (after (.array []) stack)
    else stepValue (.array [] :: stack) t
  | firstKey stack, .mark .closeBrace => some (after (.object []) stack)
  | firstKey stack, .quoted body => (unescape? body).map fun k => colon [] k stack
  | key members stack, .quoted body => (unescape? body).map fun k => colon members k stack
  | colon members k stack, .mark .colon => some (value (.object members k :: stack))
  | after v (.array items :: stack), .mark .comma => some (value (.array (v :: items) :: stack))
  | after v (.array items :: stack), .mark .closeBracket =>
    some (after (.array (v :: items).reverse) stack)
  | after v (.object members k :: stack), .mark .comma => some (key ((k, v) :: members) stack)
  | after v (.object members k :: stack), .mark .closeBrace =>
    some (after (.object ((k, v) :: members).reverse) stack)
  | _, _ => none

/-- The value of a document that ends here. -/
def finish? : Reading → Option Value
  | after v [] => some v
  | _ => none

end Reading

/-- The value that tokens write. -/
def Value.ofTokens? (tokens : List Token) : Option Value :=
  (tokens.foldlM Reading.step (.value [])).bind Reading.finish?

/-- The value a text writes by the grammar of JSON. -/
def parse? (text : List Char) : Option Value :=
  (tokens? Text.isJsonBlank text).bind Value.ofTokens?

mutual

/-- Whether a property holds of every number in a value. -/
def Value.allNumbers (p : Number → Bool) : Value → Bool
  | .number n => p n
  | .array items => allNumbersOfItems p items
  | .object members => allNumbersOfMembers p members
  | .null | .bool _ | .string _ => true

/-- The same for the items of an array. -/
def allNumbersOfItems (p : Number → Bool) : List Value → Bool
  | [] => true
  | v :: rest => v.allNumbers p && allNumbersOfItems p rest

/-- The same for the members of an object. -/
def allNumbersOfMembers (p : Number → Bool) : List (String × Value) → Bool
  | [] => true
  | (_, v) :: rest => v.allNumbers p && allNumbersOfMembers p rest

end

mutual

/-- How many containers are open at most at one place of a value. -/
def Value.depth : Value → Nat
  | .array items => depthOfItems items + 1
  | .object members => depthOfMembers members + 1
  | .null | .bool _ | .number _ | .string _ => 0

/-- The greatest depth of the items of an array. -/
def depthOfItems : List Value → Nat
  | [] => 0
  | v :: rest => max v.depth (depthOfItems rest)

/-- The greatest depth of the members of an object. -/
def depthOfMembers : List (String × Value) → Nat
  | [] => 0
  | (_, v) :: rest => max v.depth (depthOfMembers rest)

end

/-- The value a text writes, if every number in it has a machine form. -/
def read? (text : List Char) : Option Value :=
  (parse? text).filter (Value.allNumbers Number.hasMachineForm)

end ObjectFeed.Json
