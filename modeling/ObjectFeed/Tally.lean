/-
  What a feed has done so far, in numbers.

  * `Tally` counts fragments, objects and rejections, and gauges the objects that wait;
  * `Tally.exposition` shows a tally in the text form that a Prometheus server reads.
-/

namespace ObjectFeed

/-- The numbers of a feed. -/
structure Tally where
  /-- Fragments fed to the splitter. -/
  fragments : Nat := 0
  /-- Objects handed out as values. -/
  objects : Nat := 0
  /-- Complete objects that were rejected. -/
  rejections : Nat := 0
  /-- Complete objects that wait. -/
  waiting : Nat := 0
  deriving DecidableEq, Repr

namespace Tally

/-- The lines that show one number. -/
def metric (name help type : String) (value : Nat) : List String :=
  ["# HELP " ++ name ++ " " ++ help, "# TYPE " ++ name ++ " " ++ type,
   name ++ " " ++ toString value]

/-- The lines that show a tally, the metrics by name. -/
def exposition (t : Tally) : List String :=
  metric "decode_failures_total" "Total number of completed objects the decoder rejected"
      "counter" t.rejections ++
    metric "fragments_scanned_total" "Total number of stream fragments fed to the boundary scanner"
      "counter" t.fragments ++
    metric "objects_emitted_total" "Total number of decoded objects handed to callers"
      "counter" t.objects ++
    metric "pending_objects" "Completed objects scanned but not yet delivered" "gauge" t.waiting

end Tally

end ObjectFeed
