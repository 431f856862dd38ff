import Descriptor.Script.Lowering
import Descriptor.Script.Position

/-!
# Modules

A script as a whole: from its source to its list of statements, or to the first place where it
cannot be read. What the syntax tree of a source is, is up to a grammar.

## Main definitions

* `SyntaxError` : why and where a script cannot be read, with its message.
* `readModuleWith` : the statements of a script, given the grammar.
-/

namespace Descriptor.Script

/-- Why and where a script cannot be read. -/
structure SyntaxError where
  position : Position
  message : String
  deriving DecidableEq, Repr

/-- The text of a syntax error. -/
def SyntaxError.text (e : SyntaxError) : String :=
  "line " ++ toString e.position.line ++ ", column " ++ toString e.position.column ++ ": " ++
    e.message

/-- The statements of a script, unless there is a fault below the root of its tree. -/
def readModuleWith (grammar : Grammar) (source : String) : Except SyntaxError (List Stmt) :=
  let root := grammar source
  match root.children.findSome? Node.firstFault? with
  | some (offset, message) => .error ⟨.ofOffset source.toList offset, message⟩
  | none => .ok root.toBlock

end Descriptor.Script
