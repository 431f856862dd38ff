/-!
# Positions in a text

Places in a text are byte offsets into its UTF-8 form. For a reader they are given as a line and a
column, both counted from one; a column counts characters, whatever their width.

## Main definitions

* `takeBytes?` : the characters before a byte offset.
* `Position`, `Position.ofOffset` : the line and column of a byte offset.
-/

namespace Descriptor.Script

/-- A place in a text, counted from one. -/
structure Position where
  line : Nat
  column : Nat
  deriving DecidableEq, Repr

/-- The order of reading. -/
def Position.before (p q : Position) : Prop :=
  p.line < q.line ∨ (p.line = q.line ∧ p.column < q.column)

/-- The characters before a byte offset, unless it lies inside a character or behind the text. -/
def takeBytes? : Nat → List Char → Option (List Char)
  | 0, _ => some []
  | _ + 1, [] => none
  | n + 1, c :: cs =>
    if c.utf8Size ≤ n + 1 then (takeBytes? (n + 1 - c.utf8Size) cs).map (c :: ·) else none

/-- The position right behind a text that starts at the given position. -/
def Position.advance (p : Position) : List Char → Position
  | [] => p
  | c :: cs => Position.advance (if c = '\n' then ⟨p.line + 1, 1⟩ else ⟨p.line, p.column + 1⟩) cs

/-- The position of a byte offset. An offset that is none of the text's stands for its end. -/
def Position.ofOffset (source : List Char) (offset : Nat) : Position :=
  Position.advance ⟨1, 1⟩ ((takeBytes? offset source).getD source)

end Descriptor.Script
