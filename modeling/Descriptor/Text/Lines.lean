/-!
# Lines of a text

A line ends at a line feed; a carriage return right before the line feed belongs to the line end.
A carriage return anywhere else is an ordinary character, and so is every other separator that
Unicode knows. A text that ends in a line feed has no further, empty line behind it.

## Main definitions

* `lines` : the lines of a text without their ends.
* `dropReturn` : a line without the carriage return of its line end.
-/

namespace Descriptor.Text

/-- A line without the carriage return that stands before its line feed. -/
def dropReturn (line : List Char) : List Char :=
  match line.getLast? with
  | some '\r' => line.dropLast
  | _ => line

/-- The lines of a text, where `line` holds the characters of the unfinished line in reverse. -/
def linesFrom (line : List Char) : List Char → List (List Char)
  | [] => if line.isEmpty then [] else [line.reverse]
  | c :: cs =>
    if c = '\n' then dropReturn line.reverse :: linesFrom [] cs else linesFrom (c :: line) cs

/-- The lines of a text without their line ends. -/
def lines (cs : List Char) : List (List Char) := linesFrom [] cs

end Descriptor.Text
