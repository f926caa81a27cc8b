import FeedbackQueue.CommandLine.Session

/-!
# The command

Reads the files that the arguments name, prints what the session answers, and
exits with its status.
-/

namespace FeedbackQueue.CommandLine

def faultOf : IO.Error → FileFault
  | .noFileOrDirectory .. => .missing
  | .inappropriateType .. => .isDirectory
  | .invalidArgument .. => .missing
  | .permissionDenied _ code text => .other code.toNat text
  | e => .other 5 e.toString

def contentsOf (path : String) : IO Contents := do
  try
    let octets ← IO.FS.readBinFile (Path.parse path).text
    return .ok octets.data.toList
  catch e => return .error (faultOf e)

/-- The contents at the paths that the arguments name. -/
def gather (arguments : List String) : IO (List (String × Contents)) := do
  match parse arguments with
  | .error _ => return []
  | .ok options =>
    let paths := options.config.join.toList ++ options.workload.toList
    paths.mapM fun path => do return (path, ← contentsOf path)

end FeedbackQueue.CommandLine

open FeedbackQueue.CommandLine in
def main (arguments : List String) : IO UInt32 := do
  let found ← gather arguments
  let read (path : String) := (found.lookup path).getD (.error .missing)
  match run read arguments with
  | .ok output =>
    (← IO.getStdout).putStr output.stdout
    (← IO.getStderr).putStr output.stderr
    return output.exit.toUInt32
  | .error failure =>
    (← IO.getStderr).putStrLn failure.message
    return 1
