import FeedbackQueue.Config.Document
import FeedbackQueue.Report.Document
import FeedbackQueue.Scheduler.Run
import FeedbackQueue.Workload.Document

/-!
# Web service

Three calls: for the configuration in force, for a run of the reference workload,
and for a run of a posted workload. Each call runs a fresh scheduler. Which call a
request is, and what document it holds, is found out before the service is asked.
-/

namespace FeedbackQueue.Web

/-- What the service is asked for. A posted document is missing if the body of the
request is none. -/
inductive Call where
  | config
  | reference
  | simulate (document : Option Json.Value)

/-- A status and a document; other bodies are not described. -/
structure Response where
  status : Nat
  body : Option Json.Value

namespace Response

def bare (status : Nat) : Response := ⟨status, none⟩

/-- A document is answered if it can be written. -/
def document (status : Nat) (body : Json.Value) : Response :=
  if body.isWritable then ⟨status, some body⟩ else .bare 500

end Response

/-! ## Answers -/

def refusal (message : String) : Response := .document 400 (.obj [("error", .str message)])

def sliceValue (s : Slice) : Json.Value := .obj [
  ("pid", .int s.pid),
  ("start", .int s.start),
  ("duration", .int s.duration),
  ("level", .int s.level),
  ("outcome", .str s.outcome.label)]

def eventValues (log : Log) : Json.Value := .arr (log.toList.map fun e => .obj e.toMembers)

/-- A run of a workload. What keeps it from its end is a failure of the service, and so
are numbers that are too large. -/
def simulate (config : Config) (workload : Workload) : Response :=
  let ending := (workload.start config).finish
  match ending.result with
  | .ok report => .document 200 (.obj [
      ("config", .obj config.toMembers),
      ("report", report.toValue),
      ("events", eventValues ending.final.log),
      ("timeline", .arr (ending.final.timeline.toList.map sliceValue))])
  | .error (.stalled pending clock report) => .document 422 (.obj [
      ("error", .str (stalledMessage pending)),
      ("current_time", .int clock),
      ("report", report.toValue),
      ("events", eventValues ending.final.log)])
  | .error _ => .bare 500

/-- The configuration for a posted workload: the overrides on top of the
standard one, or the one in force when there are none. -/
def effectiveConfig (config : Config) (members : Json.Members) :
    Except (LoadError ConfigError) Config :=
  match members.lookup "config" with
  | none | some .null => .ok config
  | some (.obj overrides) => Config.ofMembers overrides
  | some _ => .error (.rejected .overridesNotObject)

/-- Answer a posted document, or the lack of one. -/
def answerPosted (config : Config) (document : Option Json.Value) : Response :=
  match document with
  | some (.obj members) =>
    match members.lookup "processes" with
    | none => refusal "Missing 'processes' field"
    | some processes =>
      match Workload.parse processes with
      | .error (.rejected e) => refusal e.message
      | .error (.fault _) => .bare 500
      | .ok workload =>
        match effectiveConfig config members with
        | .error (.rejected e) => refusal e.message
        | .error (.fault _) => .bare 500
        | .ok config => simulate config workload
  | _ => refusal "Missing 'processes' field"

/-- The answer of a service whose configuration in force is `config`. -/
def answer (config : Config) : Call → Response
  | .config => .document 200 (.obj config.toMembers)
  | .reference => simulate config .reference
  | .simulate document => answerPosted config document

end FeedbackQueue.Web
