import FeedbackQueue.CommandLine.Arguments
import FeedbackQueue.Config.Document
import FeedbackQueue.Report.Text
import FeedbackQueue.Scheduler.Run
import FeedbackQueue.Workload.Document

/-!
# Command-line sessions

What one invocation prints and how it exits, given what is found at the paths
that it names.
-/

namespace FeedbackQueue.CommandLine

structure Output where
  exit : Nat
  stdout : String
  stderr : String
deriving DecidableEq, Repr

/-- Why an invocation breaks off without an output of its own. -/
inductive Failure where
  | read (f : ReadFault)
  | write (e : Text.NumeralError)
  | run (e : SchedulerError)

def Failure.message : Failure → String
  | .read f => f.message
  | .write e => e.message
  | .run e => e.message

def program : String := "py-mlfq"

def usageLine : String := s!"usage: {program} [-h] [--config CONFIG] [--quiet] [workload]\n"

def helpText : String :=
  usageLine ++ "
Simulate a Multi-Level Feedback Queue CPU scheduler.

positional arguments:
  workload              JSON workload file (defaults to the built-in reference
                        workload)

options:
  -h, --help            show this help message and exit
  --config CONFIG, -c CONFIG
                        JSON scheduler configuration file
  --quiet, -q           print only the results, not the event trace
"

def Stop.output : Stop → Output
  | .help => ⟨0, helpText, ""⟩
  | .usage e => ⟨2, "", usageLine ++ s!"{program}: error: {e.message}\n"⟩

def refusal (message : String) : Output := ⟨1, "", s!"{program}: error: {message}\n"⟩

def heading (config : Config) : Text.Phrase :=
  .concat [[Banner.text, "\n"], config.text,
    ["\n\nMLFQ Simulation Start\n=====================\n\n"]]

def trace (log : Log) : Text.Phrase := .concat [Log.text log.toList, ["\n"]]

/-- Run a workload and print the trace, unless quiet, and the report. -/
def simulate (quiet : Bool) (config : Config) (workload : Workload) : Except Failure Output := do
  let unlessQuiet (p : Text.Phrase) : Except Failure String :=
    if quiet then .ok "" else p.write.mapError .write
  let opening ← unlessQuiet (heading config)
  let ending := (workload.start config).finish
  match ending.result with
  | .ok report =>
    let middle ← unlessQuiet (.concat [trace ending.final.log, ["\n"]])
    let closing ← report.text.write.mapError .write
    return ⟨0, opening ++ middle ++ closing ++ "\n", ""⟩
  | .error (.stalled pending clock report) =>
    let middle ← unlessQuiet (trace ending.final.log)
    let closing ← report.text.write.mapError .write
    return ⟨1, opening ++ middle ++ "\n" ++ closing ++ "\n",
      s!"{program}: error at time {clock}: {stalledMessage pending}\n"⟩
  | .error e => throw (.run e)

/-- The configuration and the workload of an invocation, the configuration
being looked at first. -/
def inputs (read : String → Contents) (options : Options) :
    Except (LoadError String) (Config × Workload) := do
  let config ← match options.config with
    | none => pure .standard
    | some none => throw (.fault .noPath)
    | some (some path) => (Config.ofContents path (read path)).mapError (·.map ConfigError.message)
  let workload ← match options.workload with
    | none => pure .reference
    | some path => (Workload.ofContents path (read path)).mapError (·.map WorkloadError.message)
  return (config, workload)

def run (read : String → Contents) (arguments : List String) : Except Failure Output :=
  match parse arguments with
  | .error stop => .ok stop.output
  | .ok options =>
    match inputs read options with
    | .error (.rejected message) => .ok (refusal message)
    | .error (.fault f) => .error (.read f)
    | .ok (config, workload) => simulate options.quiet config workload

end FeedbackQueue.CommandLine
