import FeedbackQueue.Files
import FeedbackQueue.Json.Parser
import FeedbackQueue.Text.Lines
import FeedbackQueue.Text.Utf8

/-!
# Documents in files

A file holds a document as UTF-8 text with any line ends.
-/

namespace FeedbackQueue

namespace Json

/-- The document in the contents found at a path, or the reason why there is none. -/
def ofContents (path : String) (contents : Contents) : Except (LoadError String) Value := do
  if path.toList.contains '\x00' then throw (.fault .nulInPath)
  let octets ← contents.mapError fun fault => .rejected (fault.message (Path.parse path).text)
  let text ← (Text.Utf8.decode octets).mapError fun fault => .rejected fault.message
  match parse (some Text.digitLimit) (Text.unifyLineEnds text) with
  | .ok v => return v
  | .error (.longInteger limit digits) => throw (.fault (.longInteger limit digits))
  | .error e => throw (.rejected e.message)

end Json

end FeedbackQueue
