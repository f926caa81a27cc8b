import FeedbackQueue.Json.Value
import FeedbackQueue.Log
import FeedbackQueue.Report.Basic

/-!
# Reports and log entries as documents
-/

namespace FeedbackQueue

def Row.toValue (r : Row) : Json.Value := .obj [
  ("pid", .int r.pid),
  ("name", .str r.name),
  ("io_bound", .bool r.ioBound),
  ("arrival_time", .int r.arrival),
  ("burst_time", .int r.burst),
  ("remaining_time", .int r.remaining),
  ("final_queue", .int r.finalLevel),
  ("first_run_time", .ofInt? r.firstRun),
  ("completion_time", .ofInt? r.completion),
  ("turnaround_time", .ofInt? r.turnaround),
  ("waiting_time", .ofInt? r.waiting),
  ("response_time", .ofInt? r.response)]

def Averages.toValue (a : Averages) : Json.Value := .obj [
  ("count", .int a.count),
  ("avg_turnaround_time", .float (.finite a.turnaround)),
  ("avg_waiting_time", .float (.finite a.waiting)),
  ("avg_response_time", .float (.finite a.response))]

def Report.toValue (r : Report) : Json.Value := .obj [
  ("complete", .bool r.complete),
  ("end_time", .int r.endTime),
  ("context_switches", .int r.contextSwitches),
  ("boosts", .int r.boosts),
  ("processes", .arr (r.rows.map Row.toValue)),
  ("averages", .obj [
    ("overall", r.overall.toValue),
    ("io_bound", r.ioBound.toValue),
    ("cpu_bound", r.cpuBound.toValue)])]

def Entry.toMembers (e : Entry) : Json.Members := [
  ("time", .int e.time),
  ("kind", .str e.kind.label),
  ("message", .str e.message.text),
  ("level", .str e.severity.label),
  ("pid", .ofInt? e.pid)]

end FeedbackQueue
