/-!
# Lines

A line ends with a line feed, with or without a carriage return before it.  The last line need not
end, but it counts only if it holds something.
-/

namespace EquationPractice.Text

/-- The lines of a text, without their ends. -/
def splitLines : List Char → List (List Char)
  | [] => []
  | '\n' :: rest => [] :: splitLines rest
  | '\r' :: '\n' :: rest => [] :: splitLines rest
  | c :: rest =>
      match splitLines rest with
      | [] => [[c]]
      | line :: lines => (c :: line) :: lines

/-- Every line with a line feed after it. -/
def joinLines (lines : List String) : String :=
  String.join (lines.map (· ++ "\n"))

end EquationPractice.Text
