import Descriptor.Script.Grammar.Statement
import Descriptor.Script.Module

/-!
# A grammar to run with

The grammar that the program runs with where no other is at hand: a lexer and a grammar by recursive
descent for the scripts that describe packages. Nothing that is said of scripts rests on it;
theorems hold for every grammar, or for those of which they assume something.

Its trees are short of what they do not need. The parts of nodes from which no statement and no
expression is read are left out, and so are comments. The tree of a script that has a fault holds
nothing but the first fault.

## Main definitions

* `parse` : the syntax tree of a script.
* `readModule` : the statements of a script by this grammar.
-/

namespace Descriptor.Script

/-- The node that stands for a fault in a script of so many bytes. -/
def Fault.toNode (length : Nat) : Fault → Node
  | .unexpected rest => ⟨"ERROR", true, none, length - Text.byteLength rest, rest, []⟩
  | .missingBlock rest => ⟨"block", true, none, length - Text.byteLength rest, [], []⟩

/-- The nodes of the statements that lexemes make up, all of them being used. -/
def readLexemes (ls : List Lexeme) : Outcome (List Node) := do
  let (ss, rest) ← block (depthFor ls.length) 0 ls
  if rest.isEmpty then .ok ss else fail rest

/-- The syntax tree of a script. -/
def parse : Grammar := fun source =>
  let text := source.toList
  let ls := scan text
  let children := match readLexemes ls with
    | .ok ss => withTokens ls ss
    | .error fault => [fault.toNode (Text.byteLength text)]
  ⟨"module", true, none, 0, text, children⟩

/-- The statements of a script. -/
def readModule (source : String) : Except SyntaxError (List Stmt) := readModuleWith parse source

end Descriptor.Script
