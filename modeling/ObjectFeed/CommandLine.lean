/-
  The command: an array of objects on standard input becomes one object a line on standard output.

  * `CommandLine.readSize?` reads the argument, the number of octets to read at a time;
  * `CommandLine.Session` is a run of the command.  `Session.next` says what is to be done next: write
    a line, read more input, or stop; `Session.give` hands the input over that was read;
  * `CommandLine.runReads` is the whole run where the reads bring these octets, and `CommandLine.run` the run
    over an input, where each read brings as much as it may.
-/
import ObjectFeed.PollFeed

namespace ObjectFeed.CommandLine

/-! ## Arguments -/

/-- Why an argument is no size. -/
inductive SizeFault where
  | empty
  | invalidDigit
  | overflow
  deriving DecidableEq, Repr

/-- Read decimal digits, up to the first that is none or takes the size beyond the greatest. -/
def sizeOfDigits? (n : Nat) : List Char → Except SizeFault Nat
  | [] => .ok n
  | c :: rest =>
    if !c.isDigit then .error .invalidDigit
    else
      let n := n * 10 + (c.toNat - '0'.toNat)
      if Settings.greatestSize < n then .error .overflow else sizeOfDigits? n rest

/-- Read a size: decimal digits, after a plus or not. -/
def size? (text : String) : Except SizeFault Nat :=
  match text.toList with
  | [] => .error .empty
  | ['+'] | ['-'] => .error .invalidDigit
  | '+' :: digits => sizeOfDigits? 0 digits
  | digits => sizeOfDigits? 0 digits

/-- The number of octets to read at a time: the first argument, or the default.  It is taken to be one for
    which room can be allocated; every size up to the greatest is accepted here. -/
def readSize? : List String → Except SizeFault Nat
  | [] => .ok defaultReadSize
  | first :: _ => size? first

/-! ## Reports -/

/-- The report of an argument that is no size. -/
def SizeFault.report : SizeFault → String
  | empty => "ParseIntError \x7b kind: Empty \x7d"
  | invalidDigit => "ParseIntError \x7b kind: InvalidDigit \x7d"
  | overflow => "ParseIntError \x7b kind: PosOverflow \x7d"

/-- The report of a fault. -/
def faultReport (fault : Fault) : String :=
  let cause := match fault with
    | .illFormedText index length =>
      "Utf8Error \x7b valid_up_to: " ++ toString index ++ ", error_len: Some(" ++ toString length ++
        ") \x7d"
    | fault => Text.quoted fault.message
  "Custom \x7b kind: " ++ fault.kind.name ++ ", error: " ++ cause ++ " \x7d"

/-- The report of a rejection. -/
def rejectionReport : Rejection → String
  | .json => "Json"
  | .invalid _ => "Validation"
  | .custom text => "Custom(" ++ Text.quoted text ++ ")"

/-- The report of a failure. -/
def failureReport : Failure → String
  | .malformed fragment => "Malformed \x7b fragment: " ++ Text.quoted fragment ++ " \x7d"
  | .transport fault => "Transport(" ++ faultReport fault ++ ")"
  | .rejected rejection => "Decode(" ++ rejectionReport rejection ++ ")"
  | .truncated depth => "Truncated \x7b depth: " ++ toString depth ++ " \x7d"
  | .tooLarge limit => "ObjectTooLarge \x7b limit: " ++ toString limit ++ " \x7d"

/-- What is written when the command fails. -/
def errorLine (report : String) : String := "Error: " ++ report ++ "\n"

/-! ## The run -/

/-- A run of the command. -/
structure Session where
  feed : PollFeed (Channel Octets) String
  readSize : Nat

/-- What is to be done next. -/
inductive Action where
  /-- Write a text on standard output. -/
  | write (line : String)
  /-- Read at most this many octets. -/
  | read (size : Nat)
  /-- Stop, and write a text on standard error if there is one. -/
  | stop (error : Option String)
  deriving DecidableEq, Repr

namespace Session

/-- A run before its first input.  What is read goes through a channel with room for one chunk, so that the
    feed asks for input exactly when one over the reader itself would read. -/
def start (readSize : Nat) : Session :=
  { feed := .ofChannel 1 .verbatim, readSize := max readSize 1 }

/-- What is to be done next. -/
def next (s : Session) : Action × Session :=
  match s.feed.poll with
  | (.notReady, feed) => (.read s.readSize, { s with feed })
  | (.ready (some (.ok text)), feed) => (.write (text ++ "\n"), { s with feed })
  | (.ready (some (.error failure)), feed) =>
    (.stop (some (errorLine (failureReport failure))), { s with feed })
  | (.ready none, feed) => (.stop none, { s with feed })

/-- Hand over what was read; nothing at the end of the input. -/
def give (s : Session) (octets : Octets) : Session :=
  if octets.isEmpty then { s with feed := s.feed.closeSender }
  else { s with feed := (s.feed.send octets).2 }

end Session

/-- What a run leaves. -/
structure Outcome where
  code : Nat
  output : String
  error : String
  deriving DecidableEq, Repr

/-- The actions of a run, at most `fuel` of them, after what it has written.  Each read brings the next of
    these, and after the last nothing. -/
def runFrom (output : String) : (fuel : Nat) → Session → (reads : List Octets) → Outcome
  | 0, _, _ => { code := 0, output, error := "" }
  | fuel + 1, s, reads =>
    match s.next with
    | (.write line, s) => runFrom (output ++ line) fuel s reads
    | (.read _, s) => runFrom output fuel (s.give (reads.headD [])) reads.tail
    | (.stop none, _) => { code := 0, output, error := "" }
    | (.stop (some error), _) => { code := 1, output, error }

/-- A run whose reads bring these octets.  Every octet is read once and ends at most one line, so the actions
    are bounded by their number. -/
def runReads (readSize : Nat) (reads : List Octets) : Outcome :=
  runFrom "" (2 * reads.flatten.length + 3) (.start readSize) reads

/-- An input cut into reads of this size, but for the last.  Zero counts as one. -/
def fullReads (size : Nat) : Octets → List Octets
  | [] => []
  | octet :: rest => (octet :: rest.take (size - 1)) :: fullReads size (rest.drop (size - 1))
termination_by input => input.length
decreasing_by
  rw [List.length_drop, List.length_cons]
  omega

/-- A run over an input, where each read brings as much as it may. -/
def run (args : List String) (input : Octets) : Outcome :=
  match readSize? args with
  | .error fault => { code := 1, output := "", error := errorLine fault.report }
  | .ok readSize => runReads readSize (fullReads readSize input)

end ObjectFeed.CommandLine
