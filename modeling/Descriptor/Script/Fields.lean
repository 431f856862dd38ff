import Descriptor.Record.Basic
import Descriptor.Script.CallSite

/-!
# The record that a script registers

The fields of the registering call, as far as they are written out. A value is a literal, a display
of literals, or a name that one assignment gives such a value; a keyword argument may also come from
a mapping that the call passes as a whole. Whatever is not written out leaves its field unknown.

## Main definitions

* `CallSite.value?` : the value that a call passes under a keyword.
* `CallSite.text?`, `CallSite.texts`, `CallSite.groups` : a field of each kind.
* `recordOf` : the record that a module registers.
-/

namespace Descriptor.Script

/-- The value of the first entry whose key is the given literal. -/
def entryValue? (entries : List Entry) (key : String) : Option Expr :=
  entries.findSome? fun
    | .pair k value => if k.text? = some key then some value else none
    | .splat _ => none

/-- The value under a key of a mapping that is written out: a display, or a call of `dict`. -/
def mappingValue? (mapping : Expr) (key : String) : Option Expr :=
  match mapping with
  | .dict entries => entryValue? entries key
  | .call func _ keywords => if func.name? = some "dict" then keywordValue? keywords key else none
  | _ => none

/-- The literals among expressions. -/
def literalsOf (elements : List Expr) : List String := elements.filterMap (·.text?)

namespace CallSite

/-- The value that a call passes under a keyword: by itself, or else in the last whole mapping that
it passes, which has to be a bare name. -/
def value? (site : CallSite) (keyword : String) : Option Expr :=
  match keywordValue? site.call.keywords keyword with
  | some value => some value
  | none => do
    let mapping ← bundle? site.call.keywords
    let id ← mapping.name?
    mappingValue? (← lookup? site.body id) keyword

/-- The value of a bare name, or an expression of any other kind itself. -/
def resolve? (site : CallSite) : Expr → Option Expr
  | .name id => lookup? site.body id
  | value => some value

/-- The text under a keyword. -/
def text? (site : CallSite) (keyword : String) : Option String := do
  (← site.resolve? (← site.value? keyword)).text?

/-- The elements that an expression or the value of a bare name lists. -/
def elements? (site : CallSite) (value : Expr) : Option (List Expr) := do
  (← site.resolve? value).elements?

/-- The literals that are listed under a keyword. -/
def texts (site : CallSite) (keyword : String) : List String :=
  ((site.value? keyword).bind site.elements?).elim [] literalsOf

/-- The group that an entry of a mapping display gives, when its key is a literal and its value
lists something. -/
def group? (site : CallSite) : Entry → Option Group
  | .pair (.text name) value => (site.elements? value).map fun es => (name, literalsOf es)
  | _ => none

/-- The groups under a keyword. -/
def groups (site : CallSite) (keyword : String) : Groups :=
  match (site.value? keyword).bind site.resolve? with
  | some (.dict entries) => .ofList (entries.filterMap site.group?)
  | _ => .empty

/-- The record of a call. -/
def record (site : CallSite) : Record where
  name := site.text? "name"
  version := site.text? "version"
  pythonRequires := site.text? "python_requires"
  installRequires := site.texts "install_requires"
  extrasRequire := site.groups "extras_require"

end CallSite

/-- The record that a module registers, unknown where no call does. -/
def recordOf (statements : List Stmt) : Record :=
  ((findCallSite statements).map (·.record)).getD .unknown

end Descriptor.Script
