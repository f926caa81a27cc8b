/-!
# Texts between separators
-/

namespace FeedbackQueue.Text

/-- The texts between the separators; one more than there are separators. -/
def fields (separator : Char) : List Char → List (List Char)
  | [] => [[]]
  | c :: rest =>
    if c = separator then [] :: fields separator rest
    else
      match fields separator rest with
      | first :: others => (c :: first) :: others
      | [] => [[c]]

/-- The text after the first occurrence of a character, if there is one. -/
def after? (c : Char) (s : List Char) : Option (List Char) := (s.dropWhile (· ≠ c)).tail?

end FeedbackQueue.Text
