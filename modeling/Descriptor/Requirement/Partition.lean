import Descriptor.Record.Groups
import Descriptor.Requirement.Clause

/-!
# Requirements and their groups

A distribution states its requirements in one list. A requirement belongs to a group of extras when
a clause of its marker names one; that clause is dropped, and what is left of the marker stays with
the requirement.

## Main definitions

* `Filed`, `file` : a requirement in normal form, with the group that it belongs to.
* `Partition`, `partition` : the requirements without a group and those of each group.
-/

namespace Descriptor.Requirement

open Text (isBlank squeeze)

/-- A requirement in normal form, with the group that it belongs to. -/
structure Filed where
  requirement : String
  group : Option String
  deriving DecidableEq, Repr

/-- Whether a character has no place in front of a marker: blanks and parentheses. -/
def isLoose (c : Char) : Bool := c = '(' || c = ')' || isBlank c

/-- The normal form of what stands in front of a marker: nothing around a version is kept. -/
def compact (cs : List Char) : List Char := cs.filter (!isLoose ·)

/-- The two sides of the first semicolon, the second one absent without a semicolon. -/
def splitMarker : List Char → List Char × Option (List Char)
  | [] => ([], none)
  | ';' :: marker => ([], some marker)
  | c :: rest => ((splitMarker rest).map (c :: ·) id)

/-- The first clause that names a group, with the clauses in front of it and behind it. -/
def takeGroup? : List (List Char) → Option (List Char × List (List Char))
  | [] => none
  | clause :: rest =>
    match extraGroup? clause with
    | some group => some (group, rest)
    | none => (takeGroup? rest).map fun (group, others) => (group, clause :: others)

/-- A requirement with a marker behind it. -/
def withMarker (requirement marker : List Char) : String :=
  String.ofList (requirement ++ ';' :: ' ' :: marker)

/-- The normal form of a requirement and the group that it belongs to. Without a group the marker is
kept even when it is blank. -/
def file (record : String) : Filed :=
  match splitMarker record.toList with
  | (front, none) => ⟨String.ofList (compact front), none⟩
  | (front, some text) =>
    let marker := squeeze text
    match takeGroup? (clauses marker) with
    | none => ⟨withMarker (compact front) marker, none⟩
    | some (group, others) =>
      let rest := joinClauses others
      let requirement :=
        if rest.isEmpty then String.ofList (compact front) else withMarker (compact front) rest
      ⟨requirement, some (String.ofList group)⟩

/-- Requirements without a group, and those of each group, in their order. -/
structure Partition where
  base : List String
  extras : Groups
  deriving DecidableEq

/-- The requirement of a filed one that belongs to no group. -/
def Filed.base? (f : Filed) : Option String :=
  if f.group.isNone then some f.requirement else none

/-- Groups with a further requirement, if it belongs to a group. -/
def addFiled (groups : Groups) (f : Filed) : Groups :=
  match f.group with
  | some group => groups.push group f.requirement
  | none => groups

/-- The requirements of a list, sorted into groups. -/
def partition (records : List String) : Partition :=
  let filed := records.map file
  ⟨filed.filterMap (·.base?), filed.foldl addFiled .empty⟩

end Descriptor.Requirement
