import Descriptor.Ini.Document

/-!
# Documents read in place

A reader that leaves everything where it stands. Sections and options are kept in their order, names
of sections are looked up in an index, and cursors remember by their positions the section and the
option that are being read. A position may have nothing at it, so every access by position can fail
in a way of its own.

## Main definitions

* `Catalog` : sections with an index of their names.
* `Cursor`, `Reader` : a catalog under construction, with what is remembered between two lines.
* `Halt` : why reading stops before the end.
* `Catalog.read` : the catalog of the document that a text spells.
-/

namespace Descriptor.Ini

/-- Sections in their order, and the position of each under its name. -/
structure Catalog where
  sections : List Section
  index : List (String × Nat)
  deriving DecidableEq, Repr

/-- Where an option stands, by position, and the indentation of its first line. -/
structure Cursor where
  sectionAt : Nat
  entryAt : Nat
  indent : Nat
  deriving DecidableEq, Repr

/-- Why reading stops. -/
inductive Halt where
  | fault (fault : Fault)
  /-- There is nothing at a position that is asked for. -/
  | outOfBounds
  deriving DecidableEq, Repr

namespace Catalog

/-- The catalog without sections. -/
def empty : Catalog := ⟨[], []⟩

/-- The section at a position. -/
def sectionAt (c : Catalog) (i : Nat) : Except Halt Section :=
  match c.sections[i]? with
  | some s => .ok s
  | none => .error .outOfBounds

/-- The options of the section with the given name, found by its position. -/
def entries? (c : Catalog) (name : String) : Except Halt (Option (List Entry)) :=
  match c.index.lookup name with
  | some i => (c.sectionAt i).map fun s => some s.entries
  | none => .ok none

/-- Adds a section without options. -/
def push (c : Catalog) (name : String) : Catalog :=
  ⟨c.sections ++ [⟨name, []⟩], (name, c.sections.length) :: c.index⟩

/-- Puts a section in the place of another one. -/
def setSection (c : Catalog) (i : Nat) (s : Section) : Catalog :=
  { c with sections := c.sections.set i s }

/-- Adds a text at the end of the value of an option. -/
def extend (c : Catalog) (cursor : Cursor) (more : String) : Except Halt Catalog := do
  let s ← c.sectionAt cursor.sectionAt
  match s.entries[cursor.entryAt]? with
  | some e =>
    let entries := s.entries.set cursor.entryAt { e with value := e.value ++ more }
    .ok (c.setSection cursor.sectionAt { s with entries := entries })
  | none => .error .outOfBounds

end Catalog

/-- A catalog under construction: the section that is being read, the option whose value may be
continued, and the number of blank lines since the last line of its value. -/
structure Reader where
  catalog : Catalog
  currentSection : Option Nat
  currentOption : Option Cursor
  blanks : Nat
  deriving DecidableEq, Repr

namespace Reader

/-- The reader of a document of which nothing is read. -/
def empty : Reader := ⟨.empty, none, none, 0⟩

/-- Reads a line that starts a section or an option. -/
def start (r : Reader) (indent : Nat) (text : List Char) : Except Halt Reader :=
  match headerName? text with
  | some header =>
    let name := String.ofList header
    if (r.catalog.index.lookup name).isSome then .error (.fault (.repeatedSection name))
    else .ok ⟨r.catalog.push name, some r.catalog.sections.length, none, 0⟩
  | none =>
    match r.currentSection with
    | none => .error (.fault .noSection)
    | some i =>
      match splitOption? text with
      | none => .error (.fault (.unreadable (String.ofList text)))
      | some (key, value) => do
        let key := String.ofList key
        let s ← r.catalog.sectionAt i
        if s.entries.any (·.key = key) then .error (.fault (.repeatedKey key))
        else
          let entries := s.entries ++ [⟨key, String.ofList value⟩]
          .ok ⟨r.catalog.setSection i { s with entries := entries }, some i,
            some ⟨i, s.entries.length, indent⟩, 0⟩

/-- Reads a line. -/
def addLine (r : Reader) : Line → Except Halt Reader
  | .comment => .ok r
  | .blank => .ok (if r.currentOption.isSome then { r with blanks := r.blanks + 1 } else r)
  | .content indent text =>
    match r.currentOption with
    | some cursor =>
      if cursor.indent < indent then
        (r.catalog.extend cursor (Draft.continuation r.blanks text)).map fun c =>
          { r with catalog := c, blanks := 0 }
      else r.start indent text
    | none => r.start indent text

/-- Reads lines, of which the first has the given number. -/
def addLines (r : Reader) (number : Nat) : List Line → Except (Nat × Halt) Reader
  | [] => .ok r
  | line :: rest =>
    match r.addLine line with
    | .error halt => .error (number, halt)
    | .ok next => next.addLines (number + 1) rest

end Reader

/-- The catalog of the document that a text spells. -/
def Catalog.read (content : String) : Except (Nat × Halt) Catalog :=
  (Reader.empty.addLines 1 ((Text.lines content.toList).map Line.ofText)).map (·.catalog)

end Descriptor.Ini
