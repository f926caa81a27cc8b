import FeedbackQueue.Binary64.Decimal
import FeedbackQueue.Config.Basic
import FeedbackQueue.Report.Basic
import FeedbackQueue.Text.Numeral

/-!
# Printed output

The banner, the description of a configuration, and a report as a table with
averages and a summary.
-/

namespace FeedbackQueue

namespace Banner

def title : String := "Multi-Level Feedback Queue (MLFQ) Scheduling Simulation"

def rules : List String := [
  "1. If Priority(A) > Priority(B), A runs",
  "2. If Priority(A) = Priority(B), A & B run in round-robin",
  "3. New job starts at highest priority",
  "4a. If job uses full time slice, it moves down one queue",
  "4b. If job gives up CPU before time slice is used, it stays at same priority",
  "5. After some time period S, move all jobs to highest priority queue"]

def text : String :=
  title ++ "\n" ++ String.ofList (List.replicate 58 '=') ++ "\n\nMLFQ Rules:\n" ++
    "\n".intercalate rules ++ "\n"

end Banner

namespace Config

/-- What marks a level as the highest or lowest in a description. -/
def levelTag (c : Config) (level : Nat) : String :=
  if c.numQueues = 1 then " (only)"
  else if level = 0 then " (highest)"
  else if level = c.lowestLevel then " (lowest)"
  else ""

def describeLevel (c : Config) (level : Nat) : Text.Phrase :=
  ["Queue ", level, c.levelTag level, ": Time Quantum = ", c.quantum level]

def text (c : Config) : Text.Phrase :=
  .join "\n" (["Queue Configuration:"] :: ((List.range c.numQueues).map c.describeLevel).append
    [["Priority Boost Interval: ", c.boostInterval, " time units"],
      ["I/O Duration: ", c.ioDuration, " time units"]])

end Config

/-- Columns of the results table: header and full width. -/
def tableColumns : List (String × Nat) := [
  ("Proc", 6),
  ("Type", 11),
  ("Burst", 8),
  ("Response", 11),
  ("Completion", 12),
  ("Turnaround", 14),
  ("Waiting", 10)]

namespace Table

/-- A text between single blanks, filled up to the width of its column. -/
def cell (width : Nat) (value : Text.Phrase) : Text.Phrase :=
  let blanks := List.replicate (width - 2 - value.text.length) ' '
  .concat [[" "], value, [String.ofList blanks, " "]]

def line (values : List Text.Phrase) : Text.Phrase :=
  let cells := List.zipWith (fun column value => cell column.2 value) tableColumns values
  .concat [["|"], .join "|" cells, ["|"]]

def separator : String :=
  "+" ++ "+".intercalate (tableColumns.map fun column =>
    String.ofList (List.replicate column.2 '-')) ++ "+"

/-- A time, or a dash when it is missing. -/
def time : Option Int → Text.Phrase
  | some t => [t]
  | none => ["-"]

end Table

def Row.line (r : Row) : Text.Phrase :=
  Table.line [[r.name], [r.kind], [r.burst], Table.time r.response, Table.time r.completion,
    Table.time r.turnaround, Table.time r.waiting]

namespace Report

def tableLines (r : Report) : List Text.Phrase :=
  [Table.separator] :: Table.line (tableColumns.map fun column => [column.1]) ::
    [Table.separator] :: (r.rows.map Row.line).append [[Table.separator]]

def table (r : Report) : Text.Phrase := .join "\n" r.tableLines

def groupLines (label : String) (averages : Averages) (withWaiting : Bool) : List String :=
  let line (what : String) (mean : Binary64) : String :=
    s!"{label} Average {what} Time: {mean.twoPlaces}"
  [line "Turnaround" averages.turnaround] ++
    (if withWaiting then [line "Waiting" averages.waiting] else []) ++
    [line "Response" averages.response]

def averages (r : Report) : String :=
  "\n\n".intercalate ([groupLines "Overall" r.overall true, groupLines "I/O-bound" r.ioBound false,
    groupLines "CPU-bound" r.cpuBound false].map ("\n".intercalate ·))

def summary (r : Report) : Text.Phrase :=
  ["Finished at time ", r.endTime, " after ", r.contextSwitches, " dispatches and ", r.boosts,
    " priority boost(s).",
    if r.complete then "" else " Run stopped early; incomplete processes are shown with '-'."]

def text (r : Report) : Text.Phrase :=
  .join "\n\n" ["Results:\n" :: r.table, [r.averages], r.summary]

end Report

end FeedbackQueue
