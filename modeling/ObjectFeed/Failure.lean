/-
  The failures a feed hands to its caller.

  * `Rejection` says why an object's text was not accepted as a value;
  * `Failure` says why a pull gave no value;
  * `Failure.isFinal` tells the failures that end the feed from those that concern one pull only.
-/
import ObjectFeed.Fault
import ObjectFeed.Text.Quoted

namespace ObjectFeed

/-- Why an object's text was not accepted. -/
inductive Rejection where
  /-- It is not the JSON text of a value of the wanted shape. -/
  | json
  /-- The value breaks rules: the codes of the broken rules, by field. -/
  | invalid (fields : List (String × List String))
  /-- For a reason of the caller's own. -/
  | custom (text : String)
  deriving DecidableEq, Repr

/-- Why a pull gave no value. -/
inductive Failure where
  /-- The fragment does not belong to an array of objects. -/
  | malformed (fragment : String)
  /-- The transport failed, or its octets are not text. -/
  | transport (fault : Fault)
  /-- A complete object was not accepted. -/
  | rejected (rejection : Rejection)
  /-- The input ended while `depth` braces and brackets were open. -/
  | truncated (depth : Nat)
  /-- The object being read outgrew the limit. -/
  | tooLarge (limit : Nat)
  deriving DecidableEq, Repr

/-- A final failure ends the feed; the others concern the pull that returned them. -/
def Failure.isFinal : Failure → Bool
  | transport _ | rejected _ => false
  | malformed _ | truncated _ | tooLarge _ => true

/-- The wording of a rejection, where it has a fixed one. -/
def Rejection.message? : Rejection → Option String
  | custom text => some text
  | json | invalid _ => none

/-- The wording of a failure, where it has a fixed one. -/
def Failure.message? : Failure → Option String
  | malformed fragment =>
    some ("Can only parse array of JSON objects, instead got " ++ Text.quoted fragment)
  | transport fault => some ("Transport error: " ++ fault.message)
  | rejected rejection => rejection.message?.map ("Decode error: " ++ ·)
  | truncated depth => some ("Stream ended inside the array at depth " ++ toString depth)
  | tooLarge limit => some ("Object exceeds the maximum size of " ++ toString limit ++ " bytes")

end ObjectFeed
