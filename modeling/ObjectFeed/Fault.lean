/-
  What can go wrong while octets or fragments are brought in.

  * `Fault.Kind` are the kinds of faults a transport reports, each with a name;
  * `Fault` is a cause: one that the transport reported in its own words, or text that is not UTF-8;
  * `Fault.kind` and `Fault.message` are the kind and the wording of a cause.
-/

namespace ObjectFeed

/-- The kinds of faults. -/
inductive Fault.Kind where
  | brokenPipe
  | connectionReset
  | connectionAborted
  | timedOut
  | wouldBlock
  | interrupted
  | unexpectedEnd
  | invalidData
  | other
  deriving DecidableEq, Repr

/-- The name of a kind. -/
def Fault.Kind.name : Fault.Kind → String
  | brokenPipe => "BrokenPipe"
  | connectionReset => "ConnectionReset"
  | connectionAborted => "ConnectionAborted"
  | timedOut => "TimedOut"
  | wouldBlock => "WouldBlock"
  | interrupted => "Interrupted"
  | unexpectedEnd => "UnexpectedEof"
  | invalidData => "InvalidData"
  | other => "Other"

/-- The cause of a failed pull. -/
inductive Fault where
  /-- The transport's own report. -/
  | reported (kind : Fault.Kind) (text : String)
  /-- After `index` octets of text stand `length` octets that no code point has. -/
  | illFormedText (index length : Nat)
  /-- The input ended after `held` octets of a code point. -/
  | unfinishedText (held : Nat)
  deriving DecidableEq, Repr

namespace Fault

/-- The kind of a cause. -/
def kind : Fault → Kind
  | reported kind _ => kind
  | illFormedText _ _ => .invalidData
  | unfinishedText _ => .unexpectedEnd

/-- The wording of a cause. -/
def message : Fault → String
  | reported _ text => text
  | illFormedText index length =>
    "invalid utf-8 sequence of " ++ toString length ++ " bytes from index " ++ toString index
  | unfinishedText held =>
    "stream ended with " ++ toString held ++ " byte(s) of an incomplete UTF-8 sequence"

end Fault

end ObjectFeed
