import Descriptor.Proofs.Files.Path
import Descriptor.Proofs.Text.Squeeze
import Descriptor.Settings.File

/-!
# Lists written with commas

A list of requirements is shown with commas between its elements and is taken apart at the commas
when it is entered. What comes from a text has elements that are trimmed, have no commas and are not
empty, and a list of such elements is what its own text is taken apart to, the empty list included.
So a setting that is entered as it is shown stays as it is.

## Main definitions

* `Settings.IsElement` : the elements that a text can be taken apart to.
* `Settings.WellFormed` : settings whose list of requirements has such elements only.

## Main results

* `splitList_joinList` : a list is what its text is taken apart to.
* `WellFormed.set` : entering a value leaves settings well formed.
* `WellFormed.set_get?` : a value that is entered as it is shown changes nothing.
-/

namespace Descriptor

open Files (splitFrom splitFrom_append splitFrom_of_not_mem)

/-- Parts of a text have no separators. -/
theorem Files.not_mem_of_mem_splitFrom {separator : Char} {part piece cs : List Char}
    (hpart : separator ∉ part) (h : piece ∈ splitFrom separator part cs) : separator ∉ piece := by
  induction cs generalizing part with
  | nil =>
    rw [splitFrom, List.mem_singleton] at h
    rwa [h, List.mem_reverse]
  | cons c cs ih =>
    rw [splitFrom] at h
    split at h
    · obtain rfl | h := List.mem_cons.mp h
      · rwa [List.mem_reverse]
      · exact ih List.not_mem_nil h
    · next hc => exact ih (List.not_mem_cons_of_ne_of_not_mem (Ne.symm hc) hpart) h

/-- A text is no longer for being trimmed. -/
theorem Text.mem_of_mem_trim {c : Char} {cs : List Char} (h : c ∈ Text.trim cs) : c ∈ cs := by
  obtain ⟨before, after, -, -, hcs⟩ := Text.trim_decomposition cs
  rw [hcs]
  exact List.mem_append_left _ (List.mem_append_right _ h)

namespace Settings

variable {s : Settings} {key other : Key} {text value : String} {texts : List String}

/-- An element that a text with commas can be taken apart to. -/
structure IsElement (text : String) : Prop where
  ne_empty : text ≠ ""
  trimmed : Text.trimmed text = text
  no_comma : ',' ∉ text.toList

/-- What a text is taken apart to has such elements only. -/
theorem isElement_of_mem_splitList (h : text ∈ splitList value) : IsElement text := by
  obtain ⟨htext, hne⟩ := List.mem_filter.mp h
  obtain ⟨_, hpart, rfl⟩ := List.mem_map.mp htext
  obtain ⟨piece, hpiece, rfl⟩ := List.mem_map.mp hpart
  have hcomma : ',' ∉ piece := Files.not_mem_of_mem_splitFrom List.not_mem_nil hpiece
  refine ⟨by simpa using hne, ?_, ?_⟩
  · simp only [Text.trimmed, String.toList_ofList, Text.trim_trim]
  · simp only [Text.trimmed, String.toList_ofList]
    exact fun hmem => hcomma (Text.mem_of_mem_trim hmem)

/-- A text of pieces with a comma and a space between them is taken apart to these pieces, all but
the first one with the space. -/
theorem splitFrom_intercalate {first : List Char} {pieces : List (List Char)} (hfirst : ',' ∉ first)
    (hpieces : ∀ piece ∈ pieces, ',' ∉ piece) :
    splitFrom ',' [] ([',', ' '].intercalate (first :: pieces)) =
      first :: pieces.map (' ' :: ·) := by
  induction pieces generalizing first with
  | nil => rw [List.intercalate_singleton, splitFrom_of_not_mem hfirst]; rfl
  | cons piece pieces ih =>
    obtain ⟨hpiece, hpieces⟩ := List.forall_mem_cons.mp hpieces
    have hspaced : ',' ∉ ' ' :: piece := List.not_mem_cons_of_ne_of_not_mem (by decide) hpiece
    calc splitFrom ',' [] ([',', ' '].intercalate (first :: piece :: pieces))
        = splitFrom ',' [] (first ++ ',' :: [',', ' '].intercalate ((' ' :: piece) :: pieces)) := by
          rw [List.intercalate_cons_cons, List.intercalate_cons_cons_left]
          simp
      _ = first :: (' ' :: piece) :: pieces.map (' ' :: ·) := by
          rw [splitFrom_append, splitFrom_of_not_mem hfirst, ih hspaced hpieces]
          rfl

/-- **A list is what its text is taken apart to.** -/
theorem splitList_joinList (h : ∀ text ∈ texts, IsElement text) :
    splitList (joinList texts) = texts := by
  cases texts with
  | nil => decide
  | cons first texts =>
    obtain ⟨hfirst, htexts⟩ := List.forall_mem_cons.mp h
    have hparts : Files.splitAt ',' (joinList (first :: texts)) =
        first :: texts.map (" " ++ ·) := by
      have hpieces : ∀ piece ∈ texts.map String.toList, ',' ∉ piece := by
        simpa using fun text htext => (htexts text htext).no_comma
      rw [Files.splitAt, joinList, String.toList_intercalate, List.map_cons]
      refine (congrArg _ (splitFrom_intercalate hfirst.no_comma hpieces)).trans ?_
      simp [Function.comp_def, String.ofList_cons]
    have htrimmed : texts.map (Text.trimmed ∘ (" " ++ ·)) = texts := by
      refine (List.map_congr_left fun text htext => ?_).trans (List.map_id texts)
      have hspace := Text.trim_blanks_append Text.blanks_space text.toList
      rw [Function.comp_apply, Text.trimmed, String.toList_append]
      exact (congrArg String.ofList hspace).trans (htexts text htext).trimmed
    rw [splitList, hparts, List.map_cons, hfirst.trimmed, List.map_map, htrimmed]
    exact List.filter_eq_self.mpr fun text htext => by simpa using (h text htext).ne_empty

/-! ### Settings with lists that can be written -/

/-- Settings whose list of requirements has elements only that a text can be taken apart to. -/
def WellFormed (s : Settings) : Prop :=
  ∀ requires, s.buildRequires = some requires → ∀ text ∈ requires, IsElement text

theorem wellFormed_none : none.WellFormed := nofun

/-- Entering a value leaves settings well formed, whatever the value. -/
theorem WellFormed.set (h : s.WellFormed) (key : Key) (value : String) :
    (s.set key value).WellFormed := by
  cases key with
  | buildRequires =>
    rintro requires ⟨⟩ text htext
    exact isElement_of_mem_splitList htext
  | uvPath => exact h
  | pythonVersion => exact h
  | buildBackend => exact h

/-- A value that is entered as it is shown changes nothing. -/
theorem WellFormed.set_get? (h : s.WellFormed) (hvalue : s.get? key = some value) :
    s.set key value = s := by
  cases key with
  | buildRequires =>
    obtain ⟨requires, hrequires, rfl⟩ := Option.map_eq_some_iff.mp hvalue
    rw [Settings.set, splitList_joinList (h requires hrequires), ← hrequires]
  | uvPath => simp only [Settings.set, ← show s.uvPath = some value from hvalue]
  | pythonVersion => simp only [Settings.set, ← show s.pythonVersion = some value from hvalue]
  | buildBackend => simp only [Settings.set, ← show s.buildBackend = some value from hvalue]

/-- A value that is entered leaves the other settings alone. -/
theorem get?_set_of_ne (h : other ≠ key) (s : Settings) (value : String) :
    (s.set key value).get? other = s.get? other := by
  cases key <;> cases other <;> first | rfl | exact absurd rfl h

end Settings

end Descriptor
