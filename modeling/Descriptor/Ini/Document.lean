import Descriptor.Ini.Line
import Descriptor.Text.Lines

/-!
# Configuration documents

A document is a list of sections, each a list of options with keys and values. A line that is
indented deeper than the option before it continues the value of that option, the blank lines
between them included; comments may stand anywhere and belong to nothing.

## Main definitions

* `Document`, `Section`, `Entry` : what a document holds, in its order.
* `ReadError`, `Fault` : the first line that cannot be read, and why.
* `Document.read` : the document that a text spells.
* `Document.get?`, `Document.items?` : the options of a section, with the defaults.
-/

namespace Descriptor.Ini

/-- An option: a key and the value it has. -/
structure Entry where
  key : String
  value : String
  deriving DecidableEq, Repr

/-- A section and its options, in order. -/
structure Section where
  name : String
  entries : List Entry
  deriving DecidableEq, Repr

/-- A document: its sections, in order. -/
structure Document where
  sections : List Section
  deriving DecidableEq, Repr

/-- Why a line cannot be read. -/
inductive Fault where
  | repeatedSection (name : String)
  | repeatedKey (key : String)
  | noSection
  | unreadable (line : String)
  deriving DecidableEq, Repr

/-- The text of a fault. -/
def Fault.message : Fault → String
  | .repeatedSection name => "section '" ++ name ++ "' already exists"
  | .repeatedKey key => "option '" ++ key ++ "' already exists in this section"
  | .noSection => "option found before any section header"
  | .unreadable line => "cannot parse line '" ++ line ++ "'"

/-- The first line that cannot be read, counted from one. -/
structure ReadError where
  line : Nat
  fault : Fault
  deriving DecidableEq, Repr

/-- The text of a read error. -/
def ReadError.message (e : ReadError) : String := e.fault.message

/-! ### Reading -/

/-- The option whose value may still be continued: its indentation, and the number of blank lines
since its last line. -/
structure OpenEntry where
  indent : Nat
  blanks : Nat
  deriving DecidableEq, Repr

/-- A document under construction. Sections and the options of each stand in reverse, so that what
was read last comes first. -/
structure Draft where
  sections : List Section
  openEntry : Option OpenEntry
  deriving DecidableEq, Repr

namespace Draft

/-- The draft of a document of which nothing is read. -/
def empty : Draft := ⟨[], none⟩

/-- The lines that continue a value, behind the given number of blank lines. -/
def continuation (blanks : Nat) (text : List Char) : String :=
  String.ofList (List.replicate (blanks + 1) '\n' ++ text)

/-- Adds a text at the end of the option read last. -/
def extendLast (more : String) : List Section → List Section
  | ⟨name, ⟨key, value⟩ :: entries⟩ :: rest => ⟨name, ⟨key, value ++ more⟩ :: entries⟩ :: rest
  | sections => sections

/-- Reads a line that starts a section or an option. -/
def start (d : Draft) (indent : Nat) (text : List Char) : Except Fault Draft :=
  match headerName? text with
  | some header =>
    let name := String.ofList header
    if d.sections.any (·.name = name) then .error (.repeatedSection name)
    else .ok ⟨⟨name, []⟩ :: d.sections, none⟩
  | none =>
    match d.sections with
    | [] => .error .noSection
    | current :: rest =>
      match splitOption? text with
      | none => .error (.unreadable (String.ofList text))
      | some (key, value) =>
        let key := String.ofList key
        if current.entries.any (·.key = key) then .error (.repeatedKey key)
        else .ok
          ⟨{ current with entries := ⟨key, String.ofList value⟩ :: current.entries } :: rest,
            some ⟨indent, 0⟩⟩

/-- Reads a line. -/
def addLine (d : Draft) : Line → Except Fault Draft
  | .comment => .ok d
  | .blank => .ok { d with openEntry := d.openEntry.map fun o => { o with blanks := o.blanks + 1 } }
  | .content indent text =>
    match d.openEntry with
    | some o =>
      if o.indent < indent then
        .ok ⟨extendLast (continuation o.blanks text) d.sections, some ⟨o.indent, 0⟩⟩
      else d.start indent text
    | none => d.start indent text

/-- Reads lines, of which the first has the given number. -/
def addLines (d : Draft) (number : Nat) : List Line → Except ReadError Draft
  | [] => .ok d
  | line :: rest =>
    match d.addLine line with
    | .error fault => .error ⟨number, fault⟩
    | .ok next => next.addLines (number + 1) rest

/-- The document as far as it is read, in its own order. -/
def toDocument (d : Draft) : Document :=
  ⟨d.sections.reverse.map fun s => { s with entries := s.entries.reverse }⟩

end Draft

namespace Document

/-- The document of a list of lines. -/
def ofLines (lines : List Line) : Except ReadError Document :=
  (Draft.empty.addLines 1 lines).map (·.toDocument)

/-- The document that a text spells. -/
def read (content : String) : Except ReadError Document :=
  ofLines ((Text.lines content.toList).map Line.ofText)

/-! ### Looking up -/

/-- The section whose options stand in for those that another section lacks. -/
def defaultSection : String := "DEFAULT"

/-- The options of the section with the given name. -/
def entries? (d : Document) (name : String) : Option (List Entry) :=
  (d.sections.find? (·.name = name)).map (·.entries)

/-- The value of the option with the given key. -/
def lookup? (entries : List Entry) (key : String) : Option String :=
  (entries.find? (·.key = key)).map (·.value)

/-- The value of an option, from the defaults when the section is absent or lacks it. -/
def get? (d : Document) (name key : String) : Option String :=
  match (d.entries? name).bind (lookup? · key) with
  | some value => some value
  | none => (d.entries? defaultSection).bind (lookup? · key)

/-- The options of a section that is present: its own, then the defaults that it lacks. -/
def items? (d : Document) (name : String) : Option (List Entry) :=
  (d.entries? name).map fun own =>
    if name = defaultSection then own
    else own ++ ((d.entries? defaultSection).getD []).filter fun e => !own.any (·.key = e.key)

end Document

end Descriptor.Ini
