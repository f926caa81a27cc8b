/-!
# Line ends

A carriage return, alone or before a line feed, ends a line like a line feed.
-/

namespace FeedbackQueue.Text

/-- Every line end as one line feed. -/
def unifyLineEnds : List Char → List Char
  | [] => []
  | '\r' :: '\n' :: rest => '\n' :: unifyLineEnds rest
  | '\r' :: rest => '\n' :: unifyLineEnds rest
  | c :: rest => c :: unifyLineEnds rest

end FeedbackQueue.Text
