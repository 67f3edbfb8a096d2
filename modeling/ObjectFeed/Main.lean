/-
  The command on the real standard streams: it does what the actions of a session say.
-/
import ObjectFeed.CommandLine

open ObjectFeed ObjectFeed.CommandLine

/-- Do the actions of a session until it stops. -/
partial def perform (input output error : IO.FS.Stream) (s : Session) : IO UInt32 := do
  match s.next with
  | (.write line, s) =>
    output.putStr line
    output.flush
    perform input output error s
  | (.read size, s) =>
    let octets ← input.read (USize.ofNat (min size (2 ^ 30)))
    perform input output error (s.give octets.toList)
  | (.stop none, _) => pure 0
  | (.stop (some text), _) =>
    error.putStr text
    pure 1

/-- Write the objects of the array on standard input, one a line. -/
def main (args : List String) : IO UInt32 := do
  let error ← IO.getStderr
  match readSize? args with
  | .error fault =>
    error.putStr (errorLine fault.report)
    pure 1
  | .ok readSize => perform (← IO.getStdin) (← IO.getStdout) error (.start readSize)
