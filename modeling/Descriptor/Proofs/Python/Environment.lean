import Descriptor.Proofs.Files.Listing
import Descriptor.Python.Environment

/-!
# The interpreter that is found

An interpreter under a usual name is found whatever else there is. Where there is none, the first
one is found that the directory lists, and nothing tells the candidates apart but their place in the
listing. So the order of the listing makes no difference exactly where there are no two candidates.

## Main definitions

* `IsInterpreter` : the names of the interpreters that a directory lists.
* `Candidate` : the interpreters of an environment that can be found.

## Main results

* `findInterpreter_cases` : what is found in an environment.
* `exists_findInterpreter_iff` : every candidate is found in some order of the listing.
* `findInterpreter_anyOrder_iff` : when the order of the listing makes no difference.
-/

namespace Descriptor.Python

open Files (FileTree joinPath)

/-- The name of an entry of a directory that is an interpreter, or a link to one. -/
structure IsInterpreter (files : FileTree) (directory name : String) : Prop where
  listed : ∃ names, files.list directory = .ok names ∧ name ∈ names
  start : "python".toList <+: name.toList
  isFile : files.isFile (joinPath directory name) = true

/-- The directory of the programs of an environment. -/
def programs (environment : String) : String := joinPath environment "bin"

/-- The path of a program of an environment. -/
def program (environment name : String) : String := joinPath (programs environment) name

/-- The interpreters of an environment that can be found: one under a usual name, or else any that
is listed. -/
inductive Candidate (files : FileTree) (environment : String) : String → Prop
  | python3 (h : files.isFile (program environment "python3") = true) :
      Candidate files environment (program environment "python3")
  | python (h3 : files.isFile (program environment "python3") = false)
      (h : files.isFile (program environment "python") = true) :
      Candidate files environment (program environment "python")
  | listed {name : String} (h3 : files.isFile (program environment "python3") = false)
      (h : files.isFile (program environment "python") = false)
      (hname : IsInterpreter files (programs environment) name) :
      Candidate files environment (program environment name)

variable {files files' : FileTree} {directory environment name path : String}

/-! ### Listed interpreters -/

/-- Whether a name that is listed is that of an interpreter. -/
private def qualifies (files : FileTree) (directory name : String) : Bool :=
  isInterpreterName name && files.isFile (joinPath directory name)

private theorem qualifies_iff {names : List String} (hlist : files.list directory = .ok names) :
    name ∈ names ∧ qualifies files directory name = true ↔ IsInterpreter files directory name := by
  rw [qualifies, Bool.and_eq_true, isInterpreterName, List.isPrefixOf_iff_prefix]
  constructor
  · rintro ⟨hname, hstart, hfile⟩
    exact ⟨⟨names, hlist, hname⟩, hstart, hfile⟩
  · rintro ⟨⟨names', hlist', hname⟩, hstart, hfile⟩
    obtain rfl := Except.ok.inj (hlist.symm.trans hlist')
    exact ⟨hname, hstart, hfile⟩

theorem interpreterIn?_of_python3 (h : files.isFile (joinPath directory "python3") = true) :
    interpreterIn? files directory = some (joinPath directory "python3") := by
  simp [interpreterIn?, usualNames, h]

theorem interpreterIn?_of_python (h3 : files.isFile (joinPath directory "python3") = false)
    (h : files.isFile (joinPath directory "python") = true) :
    interpreterIn? files directory = some (joinPath directory "python") := by
  simp [interpreterIn?, usualNames, h3, h]

/-- Where there is no interpreter under a usual name, the first one listed is found. -/
private theorem interpreterIn?_of_list (h3 : files.isFile (joinPath directory "python3") = false)
    (h : files.isFile (joinPath directory "python") = false) :
    interpreterIn? files directory =
      (((files.list directory).toOption.getD []).find? (qualifies files directory)).map
        (joinPath directory) := by
  have husual : (usualNames.map (joinPath directory)).find? files.isFile = none := by
    simp [usualNames, h3, h]
  rw [interpreterIn?, husual]
  simp only [List.find?_map, List.find?_filter]
  congr 2
  funext name
  simp [qualifies]

/-- The first interpreter listed is an interpreter. -/
private theorem isInterpreter_of_find?
    (h : ((files.list directory).toOption.getD []).find? (qualifies files directory) = some name) :
    IsInterpreter files directory name := by
  cases hlist : files.list directory with
  | error fault => simp [hlist, Except.toOption] at h
  | ok names =>
    rw [hlist] at h
    exact (qualifies_iff hlist).mp ⟨List.mem_of_find?_eq_some h, List.find?_some h⟩

/-- Where no interpreter is the first one listed there is none. -/
private theorem not_isInterpreter_of_find?
    (h : ((files.list directory).toOption.getD []).find? (qualifies files directory) = none)
    (name : String) : ¬IsInterpreter files directory name := by
  rintro hname
  obtain ⟨names, hlist, -⟩ := hname.listed
  obtain ⟨hmem, hqualifies⟩ := (qualifies_iff hlist).mpr hname
  rw [hlist] at h
  exact List.find?_eq_none.mp h name hmem hqualifies

/-! ### The interpreter of an environment -/

theorem findInterpreter_of_isDirectory (h : files.isDirectory environment = true) :
    findInterpreter files environment =
      match interpreterIn? files (programs environment) with
      | some path => .ok path
      | none => .error (.noInterpreter (programs environment)) := by
  rw [findInterpreter, if_pos h]
  rfl

/-- An environment is not there, has no candidate, or has one that is found. -/
theorem findInterpreter_cases (files : FileTree) (environment : String) :
    (files.isDirectory environment = false ∧
      findInterpreter files environment = .error (.notFound environment)) ∨
    (files.isDirectory environment = true ∧ (∀ path, ¬Candidate files environment path) ∧
      findInterpreter files environment = .error (.noInterpreter (programs environment))) ∨
    (files.isDirectory environment = true ∧ ∃ path, Candidate files environment path ∧
      findInterpreter files environment = .ok path) := by
  cases hdirectory : files.isDirectory environment with
  | false => exact .inl ⟨rfl, by rw [findInterpreter, hdirectory, if_neg Bool.false_ne_true]⟩
  | true =>
    refine .inr ?_
    rw [findInterpreter_of_isDirectory hdirectory]
    cases h3 : files.isFile (program environment "python3") with
    | true => exact .inr ⟨rfl, _, .python3 h3, by rw [interpreterIn?_of_python3 h3]; rfl⟩
    | false =>
      cases h : files.isFile (program environment "python") with
      | true => exact .inr ⟨rfl, _, .python h3 h, by rw [interpreterIn?_of_python h3 h]; rfl⟩
      | false =>
        rw [interpreterIn?_of_list h3 h]
        cases hfind : ((files.list (programs environment)).toOption.getD []).find?
            (qualifies files (programs environment)) with
        | some name =>
          exact .inr ⟨rfl, _, .listed h3 h (isInterpreter_of_find? hfind), rfl⟩
        | none =>
          refine .inl ⟨rfl, fun path hpath => ?_, rfl⟩
          cases hpath with
          | python3 h3' => exact absurd (h3.symm.trans h3') Bool.false_ne_true
          | python _ h' => exact absurd (h.symm.trans h') Bool.false_ne_true
          | listed _ _ hname => exact not_isInterpreter_of_find? hfind _ hname

/-- An environment is said not to be there exactly where it is no directory. -/
theorem findInterpreter_eq_notFound_iff :
    findInterpreter files environment = .error (.notFound environment) ↔
      files.isDirectory environment = false := by
  obtain ⟨h, hfind⟩ | ⟨h, -, hfind⟩ | ⟨h, path, -, hfind⟩ := findInterpreter_cases files environment
  · simp [h, hfind]
  · simp [h, hfind]
  · simp [h, hfind]

/-- An environment is said to have no interpreter exactly where it has no candidate. -/
theorem findInterpreter_eq_noInterpreter_iff :
    findInterpreter files environment = .error (.noInterpreter (programs environment)) ↔
      files.isDirectory environment = true ∧ ∀ path, ¬Candidate files environment path := by
  obtain ⟨h, hfind⟩ | ⟨h, hnone, hfind⟩ | ⟨h, path, hpath, hfind⟩ :=
    findInterpreter_cases files environment
  · simp [h, hfind]
  · simp [h, hnone, hfind]
  · simp only [hfind, reduceCtorEq, false_iff, not_and]
    exact fun _ hnone => hnone path hpath

theorem candidate_of_findInterpreter (h : findInterpreter files environment = .ok path) :
    files.isDirectory environment = true ∧ Candidate files environment path := by
  obtain ⟨-, hfind⟩ | ⟨-, -, hfind⟩ | ⟨hdirectory, path', hpath, hfind⟩ :=
    findInterpreter_cases files environment
  · simp [hfind] at h
  · simp [hfind] at h
  · obtain rfl := Except.ok.inj (hfind.symm.trans h)
    exact ⟨hdirectory, hpath⟩

/-! ### Other orders -/

/-- The candidates are the same in every order. -/
theorem Candidate.of_relisted (h : files.Relisted files')
    (hpath : Candidate files environment path) : Candidate files' environment path := by
  cases hpath with
  | python3 h3 => exact .python3 (by rwa [h.isFile])
  | python h3 hp => exact .python (by rwa [h.isFile]) (by rwa [h.isFile])
  | listed h3 hp hname =>
    refine .listed (by rwa [h.isFile]) (by rwa [h.isFile]) ⟨?_, hname.start, ?_⟩
    · obtain ⟨names, hlist, hmem⟩ := hname.listed
      obtain ⟨fault, hlist', -⟩ | ⟨names₁, names', hlist₁, hlist', hperm⟩ :=
        h.list (programs environment)
      · simp [hlist] at hlist'
      · obtain rfl := Except.ok.inj (hlist.symm.trans hlist₁)
        exact ⟨names', hlist', hperm.mem_iff.mpr hmem⟩
    · rw [h.isFile]
      exact hname.isFile

/-- Any interpreter of a directory without a usual one is found in some order of the listing. -/
theorem exists_interpreterIn?_of_isInterpreter
    (h3 : files.isFile (joinPath directory "python3") = false)
    (h : files.isFile (joinPath directory "python") = false)
    (hname : IsInterpreter files directory name) :
    ∃ files', files.Relisted files' ∧
      interpreterIn? files' directory = some (joinPath directory name) := by
  obtain ⟨names, hlist, hmem⟩ := hname.listed
  obtain ⟨l, hfind, rfl⟩ := FileTree.list_eq_ok_iff.mp hlist
  let files' := files.moveFirst (l ++ [name])
  have hfiles : files.Relisted files' := FileTree.relisted_moveFirst files _
  obtain ⟨rest, hfirst⟩ := FileTree.exists_namesIn_moveFirst hmem
  have hlist' : files'.list directory = .ok (name :: rest) :=
    FileTree.list_eq_ok_iff.mpr ⟨l, (hfiles.find directory).trans hfind, hfirst.symm⟩
  have hqualifies : qualifies files' directory name = true := by
    rw [qualifies, hfiles.isFile]
    exact ((qualifies_iff hlist).mpr hname).2
  refine ⟨files', hfiles, ?_⟩
  rw [interpreterIn?_of_list (by rwa [hfiles.isFile]) (by rwa [hfiles.isFile]), hlist']
  simp only [Except.toOption, Option.getD_some, List.find?_cons, hqualifies, Option.map_some]

/-- A candidate is what is found in some order of the listing, and what is found is a candidate. -/
theorem exists_findInterpreter_iff :
    (∃ files', files.Relisted files' ∧ findInterpreter files' environment = .ok path) ↔
      files.isDirectory environment = true ∧ Candidate files environment path := by
  constructor
  · rintro ⟨files', hfiles, hfind⟩
    obtain ⟨hdirectory, hpath⟩ := candidate_of_findInterpreter hfind
    exact ⟨by rwa [hfiles.isDirectory] at hdirectory, hpath.of_relisted hfiles.symm⟩
  · rintro ⟨hdirectory, hpath⟩
    cases hpath with
    | python3 h3 =>
      refine ⟨files, .refl files, ?_⟩
      rw [findInterpreter_of_isDirectory hdirectory, interpreterIn?_of_python3 h3]
      rfl
    | python h3 h =>
      refine ⟨files, .refl files, ?_⟩
      rw [findInterpreter_of_isDirectory hdirectory, interpreterIn?_of_python h3 h]
      rfl
    | listed h3 h hname =>
      obtain ⟨files', hfiles, hfind⟩ := exists_interpreterIn?_of_isInterpreter h3 h hname
      refine ⟨files', hfiles, ?_⟩
      rw [findInterpreter_of_isDirectory (by rwa [hfiles.isDirectory]), hfind]
      rfl

/-- **The interpreter that is found, and the order of the listing.** An environment that is no
directory is not found; one that is a directory has no interpreter if it has no candidate, and else
the interpreter is a candidate. Which one it is depends on the order in which the directory lists
its entries: every candidate is found in some order. So the order makes no difference exactly where
there is one candidate at most, as there is where an interpreter has a usual name. -/
theorem findInterpreter_anyOrder_iff (files : FileTree) (environment : String) :
    (findInterpreter files environment = .error (.notFound environment) ↔
      files.isDirectory environment = false) ∧
    (findInterpreter files environment = .error (.noInterpreter (programs environment)) ↔
      files.isDirectory environment = true ∧ ∀ path, ¬Candidate files environment path) ∧
    (∀ path, (∃ files', files.Relisted files' ∧ findInterpreter files' environment = .ok path) ↔
      files.isDirectory environment = true ∧ Candidate files environment path) ∧
    ((∀ files', files.Relisted files' →
        findInterpreter files' environment = findInterpreter files environment) ↔
      (files.isDirectory environment = true → ∀ path path', Candidate files environment path →
        Candidate files environment path' → path = path')) := by
  refine ⟨findInterpreter_eq_notFound_iff, findInterpreter_eq_noInterpreter_iff,
    fun _ => exists_findInterpreter_iff, fun hsame hdirectory path path' hpath hpath' => ?_,
    fun hone files' hfiles => ?_⟩
  · obtain ⟨files₁, hfiles₁, hfind₁⟩ := exists_findInterpreter_iff.mpr ⟨hdirectory, hpath⟩
    obtain ⟨files₂, hfiles₂, hfind₂⟩ := exists_findInterpreter_iff.mpr ⟨hdirectory, hpath'⟩
    rw [hsame files₁ hfiles₁] at hfind₁
    rw [hsame files₂ hfiles₂] at hfind₂
    exact Except.ok.inj (hfind₁.symm.trans hfind₂)
  · obtain ⟨h, hfind⟩ | ⟨h, hnone, hfind⟩ | ⟨h, path, hpath, hfind⟩ :=
      findInterpreter_cases files environment
    · rw [hfind]
      exact findInterpreter_eq_notFound_iff.mpr (by rwa [hfiles.isDirectory])
    · rw [hfind]
      exact findInterpreter_eq_noInterpreter_iff.mpr
        ⟨by rwa [hfiles.isDirectory], fun path hpath => hnone path (hpath.of_relisted hfiles.symm)⟩
    · obtain ⟨h', -⟩ | ⟨-, hnone, -⟩ | ⟨-, path', hpath', hfind'⟩ :=
        findInterpreter_cases files' environment
      · rw [hfiles.isDirectory, h] at h'
        cases h'
      · exact absurd (hpath.of_relisted hfiles) (hnone path)
      · rw [hfind, hfind', hone h path' path (hpath'.of_relisted hfiles.symm) hpath]

/-- An environment with two interpreters. -/
def versioned (first second : String) : FileTree where
  entries := [(["bin"], .directory), (["bin", first], .file [] true),
    (["bin", second], .file [] true)]
  workingDirectory := []

private theorem isEntryName_bin : Files.IsEntryName "bin" :=
  ⟨⟨by decide, by decide, by decide⟩, by decide⟩

/-- The directory of the programs, and what its names lead to. -/
private theorem leads_versioned (first second : String) :
    FileTree.Leads (versioned first second) FileTree.linkLimit
      ((versioned first second).start (programs ".")) (Files.namesTo (programs "."))
      FileTree.linkLimit ["bin"] := by
  have hdot : FileTree.Leads (versioned first second) FileTree.linkLimit
      ((versioned first second).start ".") (Files.namesTo ".") FileTree.linkLimit [] := by
    rw [show Files.namesTo "." = ["."] by decide]
    exact .blank (.inr rfl) (.nil _ _)
  exact hdot.joinPath (by decide) isEntryName_bin rfl

/-- Of two interpreters under names that are not usual, the one listed first is found. -/
theorem findInterpreter_versioned {first second : String} (hname : Files.IsEntryName first)
    (hstart : isInterpreterName first = true)
    (husual : ∀ name ∈ usualNames, name ≠ first ∧ name ≠ second) :
    findInterpreter (versioned first second) "." = .ok (program "." first) := by
  have hdirectory : (versioned first second).isDirectory "." = true := by
    refine FileTree.isDirectory_iff.mpr ⟨[], ?_, rfl⟩
    rw [FileTree.locate, FileTree.locateFrom_of_ne_empty (by decide),
      show Files.components "." = ["."] by decide, FileTree.walk_blank (.inr rfl), FileTree.walk]
    rfl
  have hisFile (name : String) (hname : Files.IsEntryName name) :
      (versioned first second).isFile (program "." name) =
        decide (name = first ∨ name = second) := by
    have hitem : (versioned first second).item? ["bin", name] =
        if first = name then some (.file [] true)
        else if second = name then some (.file [] true) else none := by
      by_cases hfirst : first = name <;> by_cases hsecond : second = name <;>
        simp [FileTree.item?, versioned, hfirst, hsecond]
    have hlink (target : String) :
        (versioned first second).item? ["bin", name] ≠ some (.link target) := by
      rw [hitem]
      split_ifs <;> simp
    rw [FileTree.isFile, program, FileTree.itemAt?_joinPath_of_leads (by decide) hname
      (leads_versioned first second) hlink, List.singleton_append, hitem]
    split_ifs with hfirst hsecond
    · exact (decide_eq_true (.inl hfirst.symm)).symm
    · exact (decide_eq_true (.inr hsecond.symm)).symm
    · refine (decide_eq_false ?_).symm
      rintro (h | h)
      exacts [hfirst h.symm, hsecond h.symm]
  have hlist : (versioned first second).list (programs ".") = .ok [first, second] := by
    refine FileTree.list_eq_ok_iff.mpr ⟨["bin"], ?_, rfl⟩
    rw [programs, FileTree.find_joinPath_dot isEntryName_bin, FileTree.find,
      FileTree.locate_name isEntryName_bin (by rintro _ ⟨⟩)]
    rfl
  have h3 := hisFile "python3" ⟨⟨by decide, by decide, by decide⟩, by decide⟩
  have h := hisFile "python" ⟨⟨by decide, by decide, by decide⟩, by decide⟩
  rw [decide_eq_false (by simpa using husual "python3" (by decide))] at h3
  rw [decide_eq_false (by simpa using husual "python" (by decide))] at h
  have hqualifies : qualifies (versioned first second) (programs ".") first = true := by
    rw [qualifies, hstart, ← program, hisFile _ hname]
    simp
  rw [findInterpreter_of_isDirectory hdirectory, interpreterIn?_of_list h3 h, hlist]
  simp only [Except.toOption, Option.getD_some, List.find?_cons, hqualifies, Option.map_some,
    program]

/-- Listed in another order, the same environment has another interpreter. -/
theorem findInterpreter_ne_of_relisted :
    (versioned "python-a" "python-b").Relisted (versioned "python-b" "python-a") ∧
    findInterpreter (versioned "python-a" "python-b") "." = .ok "./bin/python-a" ∧
    findInterpreter (versioned "python-b" "python-a") "." = .ok "./bin/python-b" := by
  have ha : Files.IsEntryName "python-a" := ⟨⟨by decide, by decide, by decide⟩, by decide⟩
  have hb : Files.IsEntryName "python-b" := ⟨⟨by decide, by decide, by decide⟩, by decide⟩
  refine ⟨FileTree.relisted_of_perm (.cons _ (.swap ..)) (by decide) rfl, ?_, ?_⟩
  · exact findInterpreter_versioned ha (by decide) (by decide)
  · exact findInterpreter_versioned hb (by decide) (by decide)

end Descriptor.Python
