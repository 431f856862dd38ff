/-!
# Tables

What a configuration file says: texts, arrays and tables under keys. A table keeps how it came to
be, because that decides which later lines may still add to it.

## Main definitions

* `Value`, `TableKind` : a value, and how a table came to be.
* `Entries.assign?` : a line that gives a value to a key, which may be dotted.
* `Entries.define?`, `Entries.append?` : the header of a table and of one more table of an array.
* `Entries.assignIn?` : a line below a header.
-/

namespace Descriptor.Toml

/-- How a table came to be. -/
inductive TableKind where
  /-- By a header of its own. -/
  | header
  /-- By the header of a table below it. -/
  | implied
  /-- By dotted keys. -/
  | dotted
  /-- Between braces, and closed for good. -/
  | inline
  deriving DecidableEq, Repr

/-- A value. Of scalars other than texts only their presence is kept. -/
inductive Value where
  | text (value : String)
  | scalar
  | array (elements : List Value)
  | table (kind : TableKind) (entries : List (String × Value))
  /-- An array of tables that headers made, of which the last one is open. -/
  | tables (earlier : List (List (String × Value))) (last : List (String × Value))

instance : Inhabited Value := ⟨.scalar⟩

/-- Keys with their values. -/
abbrev Entries := List (String × Value)

namespace Entries

/-- The value of a key. -/
def get? (entries : Entries) (key : String) : Option Value :=
  (entries.find? (·.1 = key)).map (·.2)

/-- Gives a key a value, in place of the one it had. -/
def put (key : String) (value : Value) : Entries → Entries
  | [] => [(key, value)]
  | e :: rest => if e.1 = key then (key, value) :: rest else e :: put key value rest

/-- Gives a value to a key that has none, below dotted keys. These pass through tables that no
header or braces made of their own; the table that takes the value has to be made by dotted keys
alone. -/
def assign? (entries : Entries) (value : Value) : List String → Option Entries
  | [] => none
  | [key] => if (entries.get? key).isSome then none else some (entries ++ [(key, value)])
  | key :: rest =>
    let through := rest.length > 1
    match entries.get? key with
    | none => (assign? [] value rest).map fun inner => entries ++ [(key, .table .dotted inner)]
    | some (.table kind inner) =>
      if kind = .dotted || (kind = .implied && through) then
        (assign? inner value rest).map fun inner => entries.put key (.table kind inner)
      else none
    | some (.tables earlier last) =>
      if through then
        (assign? last value rest).map fun last => entries.put key (.tables earlier last)
      else none
    | some _ => none

/-- Changes the value at the end of a header's path. The path passes through tables and the last
tables of arrays, and makes the tables that it lacks. -/
def alter? (entries : Entries) (change : Option Value → Option Value) :
    List String → Option Entries
  | [] => none
  | [key] => (change (entries.get? key)).map (entries.put key ·)
  | key :: rest =>
    match entries.get? key with
    | none => (alter? [] change rest).map fun inner => entries.put key (.table .implied inner)
    | some (.table kind inner) =>
      if kind = .inline then none
      else (alter? inner change rest).map fun inner => entries.put key (.table kind inner)
    | some (.tables earlier last) =>
      (alter? last change rest).map fun last => entries.put key (.tables earlier last)
    | some _ => none

/-- The header of a table, which may be implied by others before but not made. -/
def define? (entries : Entries) (path : List String) : Option Entries :=
  entries.alter? (fun
    | none => some (.table .header [])
    | some (.table .implied inner) => some (.table .header inner)
    | some _ => none) path

/-- The header of one more table of an array. -/
def append? (entries : Entries) (path : List String) : Option Entries :=
  entries.alter? (fun
    | none => some (.tables [] [])
    | some (.tables earlier last) => some (.tables (earlier ++ [last]) [])
    | some _ => none) path

/-- A line that gives a value to a key below the header with the given path. -/
def assignIn? (entries : Entries) (path : List String) (value : Value) (keys : List String) :
    Option Entries :=
  if path.isEmpty then entries.assign? value keys
  else
    entries.alter? (fun
      | some (.table kind inner) => (assign? inner value keys).map (.table kind)
      | some (.tables earlier last) => (assign? last value keys).map (.tables earlier)
      | _ => none) path

end Entries

end Descriptor.Toml
