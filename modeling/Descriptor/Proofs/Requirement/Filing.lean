import Descriptor.Proofs.Requirement.Encoding
import Mathlib.Logic.Relation

/-!
# Filing requirements

What filing a requirement depends on, and what it keeps. Only the characters in front of the marker
that are neither blanks nor parentheses count, and the marker with its white space squeezed. A
requirement of no group is filed as it is when it is filed again. Of the clauses of a marker all are
kept but the one that names the group, and they are found again in what is filed, although they are
only told apart by the word between them.

## Main definitions

* `FiledAs` : the filed forms of a record, by what its marker says.
* `essence` : what filing depends on.
* `Relaid` : one difference in how a record is written that has no meaning.
* `markerClauses?` : the clauses of the marker of a record.
* `KeepsClauses` : what becomes of the clauses of a record.

## Main results

* `filedAs_file` : how a record is filed.
* `file_congr`, `file_eq_of_relaid` : records that are filed alike.
* `FiledAs.keepsClauses` : the clauses of what is filed.
* `file_stable_and_lossless` : filing is stable and loses no other clause.
-/

namespace Descriptor.Requirement

open Text

/-! ### The ways in which a record is filed -/

/-- The filed forms of a record, by what its marker says. -/
inductive FiledAs (record : String) : Filed → Prop
  | bare (hrecord : ';' ∉ record.toList) :
      FiledAs record ⟨String.ofList (compact record.toList), none⟩
  | plain {front text : List Char} (hrecord : record.toList = front ++ ';' :: text)
      (hfront : ';' ∉ front) (hplain : ∀ c ∈ clauses (squeeze text), extraGroup? c = none) :
      FiledAs record ⟨withMarker (compact front) (squeeze text), none⟩
  | grouped {front text group clause : List Char} {before after : List (List Char)}
      (hrecord : record.toList = front ++ ';' :: text) (hfront : ';' ∉ front)
      (htaken : TakenClause text before clause after group) :
      FiledAs record
        ⟨if before ++ after = [] then String.ofList (compact front)
          else withMarker (compact front) (joinClauses (before ++ after)),
          some (String.ofList group)⟩

theorem filedAs_file (record : String) : FiledAs record (file record) := by
  cases hsplit : (splitMarker record.toList).2 with
  | none =>
    have hrecord := splitMarker_eq_none_iff.mp hsplit
    rw [file_of_no_marker hrecord]
    exact .bare hrecord
  | some text =>
    obtain ⟨front, hfront, hrecord⟩ := exists_of_splitMarker hsplit
    cases htake : takeGroup? (clauses (squeeze text)) with
    | none =>
      rw [file_of_takeGroup?_eq_none hrecord hfront htake]
      exact .plain hrecord hfront (takeGroup?_eq_none_iff.mp htake)
    | some taken =>
      obtain ⟨before, clause, after, htaken⟩ := exists_takenClause htake
      -- joined clauses are empty only if there are none
      have hempty : (joinClauses (before ++ after)).isEmpty ↔ before ++ after = [] := by
        rw [List.isEmpty_iff]
        refine ⟨fun hjoin => ?_, fun hnil => by rw [hnil]; rfl⟩
        by_contra hne
        exact (htaken.spec_others hne).1.2 hjoin
      rw [file_of_takeGroup?_eq_some hrecord hfront htaken.takeGroup?]
      simp only [hempty]
      exact .grouped hrecord hfront htaken

/-- A group has a name. -/
theorem file_group_ne_empty (record : String) : (file record).group ≠ some "" := by
  have h := filedAs_file record
  generalize file record = f at h
  cases h with
  | bare => exact Option.some_ne_none _ ∘ Eq.symm
  | plain => exact Option.some_ne_none _ ∘ Eq.symm
  | @grouped front text group clause before after hrecord hfront htaken =>
    intro hgroup
    have hname : String.ofList group = String.ofList [] := Option.some.inj hgroup
    exact (groupClause_of_extraGroup? htaken.clause_eq_some).1 (String.ofList_inj.mp hname)

/-! ### Records that are written differently -/

/-- One difference in how a record is written: a blank or a parenthesis more in front of its marker,
or another run of blanks within the marker. -/
inductive Relaid : List Char → List Char → Prop
  | loose {before after : List Char} {c : Char} (hbefore : ';' ∉ before) (hc : isLoose c) :
      Relaid (before ++ after) (before ++ c :: after)
  | gap {front before gap gap' after : List Char} (hfront : ';' ∉ front) (hgap : IsGap gap)
      (hgap' : IsGap gap') :
      Relaid (front ++ ';' :: (before ++ gap ++ after)) (front ++ ';' :: (before ++ gap' ++ after))

/-- What is filed of a record as it is written: what stands in front of its marker, and the marker
without the white space that has no meaning. -/
def essence (cs : List Char) : List Char × Option (List Char) :=
  (compact (splitMarker cs).1, (splitMarker cs).2.map squeeze)

theorem Relaid.essence_eq {cs ds : List Char} (h : Relaid cs ds) : essence cs = essence ds := by
  induction h with
  | @loose before after c hbefore hc =>
    have hsemicolon : ';' ∉ [c] := fun hmem => by
      obtain rfl := List.mem_singleton.mp hmem
      exact absurd hc (by decide)
    have hcons : splitMarker (c :: after) = (c :: (splitMarker after).1, (splitMarker after).2) :=
      splitMarker_append_of_not_mem hsemicolon after
    simp [essence, splitMarker_append_of_not_mem hbefore, hcons, compact, hc]
  | @gap front before gap gap' after hfront hgap hgap' =>
    rw [essence, essence, splitMarker_append hfront, splitMarker_append hfront]
    simp only [Option.map_some, squeeze_gap_congr hgap.1 hgap.2 hgap'.1 hgap'.2]

theorem file_congr {record other : String} (h : essence record.toList = essence other.toList) :
    file record = file other := by
  obtain ⟨hfront, hmarker⟩ := Prod.mk.inj h
  unfold file
  cases hrecord : splitMarker record.toList with
  | mk front text =>
  cases hother : splitMarker other.toList with
  | mk front' text' =>
  rw [hrecord, hother] at hfront hmarker
  cases text <;> cases text' <;> simp_all

/-- Records that differ in such ways only are filed alike. -/
theorem file_eq_of_relaid {record other : String}
    (h : Relation.EqvGen Relaid record.toList other.toList) : file other = file record := by
  have hequiv : Equivalence fun cs ds => essence cs = essence ds := eq_equivalence.comap essence
  have hessence := hequiv.eqvGen_iff.mp (h.mono fun _ _ => Relaid.essence_eq)
  exact (file_congr hessence).symm

/-! ### Filing what is filed -/

theorem compact_compact (front : List Char) : compact (compact front) = compact front := by
  simp [compact]

theorem splitMarker_withMarker {front : List Char} (h : ';' ∉ front) (marker : List Char) :
    splitMarker (withMarker (compact front) marker).toList =
      (compact front, some (' ' :: marker)) := by
  rw [withMarker, String.toList_ofList, splitMarker_append (mt semicolon_not_mem_compact.mp h)]

/-- What stands in front of the marker of a filed requirement is compact. -/
theorem FiledAs.exists_compact {record : String} {f : Filed} (h : FiledAs record f) :
    ∃ front, (splitMarker f.requirement.toList).1 = compact front := by
  cases h with
  | bare hrecord =>
    refine ⟨record.toList, ?_⟩
    rw [String.toList_ofList, splitMarker_of_not_mem (mt semicolon_not_mem_compact.mp hrecord)]
  | plain hrecord hfront => exact ⟨_, by rw [splitMarker_withMarker hfront]⟩
  | @grouped front text group clause before after hrecord hfront =>
    refine ⟨front, ?_⟩
    dsimp only
    split_ifs
    · rw [String.toList_ofList, splitMarker_of_not_mem (mt semicolon_not_mem_compact.mp hfront)]
    · rw [splitMarker_withMarker hfront]

private theorem squeeze_space_cons_of_squeeze_eq {marker : List Char}
    (h : squeeze marker = marker) : squeeze (' ' :: marker) = marker := by
  rw [← List.singleton_append, squeeze_blanks_append blanks_space, h]

/-- A requirement that is filed under no group depends on nothing else than its record. -/
theorem FiledAs.essence_eq {record : String} {f : Filed} (h : FiledAs record f)
    (hgroup : f.group = none) : essence f.requirement.toList = essence record.toList := by
  cases h with
  | bare hrecord =>
    rw [String.toList_ofList, essence, essence, splitMarker_of_not_mem hrecord,
      splitMarker_of_not_mem (mt semicolon_not_mem_compact.mp hrecord), compact_compact]
  | @plain front text hrecord hfront hplain =>
    rw [essence, essence, splitMarker_withMarker hfront, hrecord, splitMarker_append hfront,
      Option.map_some, Option.map_some, compact_compact,
      squeeze_space_cons_of_squeeze_eq (squeeze_squeeze text)]
  | grouped => exact absurd hgroup (Option.some_ne_none _)

/-- The clauses of the marker of a record, if it has one. -/
def markerClauses? (record : String) : Option (List (List Char)) :=
  (splitMarker record.toList).2.map fun text => clauses (squeeze text)

/-- What becomes of the clauses of a record. Without a group they are all there, and none names a
group. With a group they are those but the first one that names a group, which names this one; where
no other is left, there is no marker. -/
structure KeepsClauses (record : String) (f : Filed) : Prop where
  ungrouped : f.group = none → markerClauses? f.requirement = markerClauses? record ∧
    ∀ cs ∈ markerClauses? record, ∀ c ∈ cs, extraGroup? c = none
  grouped : ∀ group, f.group = some group → ∃ before clause after,
    markerClauses? record = some (before ++ clause :: after) ∧
      (∀ c ∈ before, extraGroup? c = none) ∧ extraGroup? clause = some group.toList ∧
      (before ++ after = [] → ';' ∉ f.requirement.toList) ∧
      (before ++ after ≠ [] → markerClauses? f.requirement = some (before ++ after))

theorem markerClauses?_append {record : String} {front text : List Char}
    (hrecord : record.toList = front ++ ';' :: text) (hfront : ';' ∉ front) :
    markerClauses? record = some (clauses (squeeze text)) := by
  rw [markerClauses?, hrecord, splitMarker_append hfront, Option.map_some]

theorem markerClauses?_withMarker {front : List Char} (h : ';' ∉ front) {marker : List Char}
    (hmarker : squeeze marker = marker) :
    markerClauses? (withMarker (compact front) marker) = some (clauses marker) := by
  rw [markerClauses?, splitMarker_withMarker h, Option.map_some,
    squeeze_space_cons_of_squeeze_eq hmarker]

theorem FiledAs.keepsClauses {record : String} {f : Filed} (h : FiledAs record f) :
    KeepsClauses record f := by
  cases h with
  | bare hrecord =>
    have hnone : markerClauses? record = none := by
      rw [markerClauses?, splitMarker_of_not_mem hrecord, Option.map_none]
    refine ⟨fun _ => ⟨?_, by simp [hnone]⟩, fun group hgroup => absurd hgroup.symm (by simp)⟩
    rw [hnone, markerClauses?, String.toList_ofList,
      splitMarker_of_not_mem (mt semicolon_not_mem_compact.mp hrecord), Option.map_none]
  | @plain front text hrecord hfront hplain =>
    refine ⟨fun _ => ?_, fun group hgroup => absurd hgroup.symm (by simp)⟩
    rw [markerClauses?_append hrecord hfront,
      markerClauses?_withMarker hfront (squeeze_squeeze text)]
    exact ⟨rfl, by simpa using hplain⟩
  | @grouped front text name clause before after hrecord hfront htaken =>
    refine ⟨fun hgroup => absurd hgroup (by simp), fun group hgroup => ?_⟩
    obtain rfl := Option.some.inj hgroup
    have hclause : extraGroup? clause = some (String.ofList name).toList := by
      rw [String.toList_ofList, htaken.clause_eq_some]
    refine ⟨before, clause, after, ?_, htaken.before_eq_none, hclause, fun hnil => ?_,
      fun hne => ?_⟩
    · rw [markerClauses?_append hrecord hfront, htaken.clauses_eq]
    · rw [if_pos hnil, String.toList_ofList]
      exact mt semicolon_not_mem_compact.mp hfront
    · obtain ⟨hsqueezed, hfound⟩ := htaken.spec_others hne
      rw [if_neg hne, markerClauses?_withMarker hfront hsqueezed.1, hfound]

/-- **Filing is stable and loses no other clause.** In front of a marker neither blanks nor
parentheses are left; which of them were there, and which white space was within the marker, makes
no difference; a requirement of no group is filed as it is when it is filed again; and the clauses
of the marker are kept but for the one that names the group. -/
theorem file_stable_and_lossless (record : String) :
    (∀ c ∈ (splitMarker (file record).requirement.toList).1,
        isBlank c = false ∧ c ≠ '(' ∧ c ≠ ')') ∧
      (∀ other : String, Relation.EqvGen Relaid record.toList other.toList →
        file other = file record) ∧
      ((file record).group = none → file (file record).requirement = file record) ∧
      KeepsClauses record (file record) := by
  have h := filedAs_file record
  refine ⟨fun c hc => ?_, fun other => file_eq_of_relaid, fun hgroup => ?_, h.keepsClauses⟩
  · obtain ⟨front, hfront⟩ := h.exists_compact
    rw [hfront, compact, List.mem_filter] at hc
    simpa [isLoose, and_assoc, and_comm] using hc.2
  · exact file_congr (h.essence_eq hgroup)

/-- A requirement of a group, with a condition of its own. -/
def mockRecord : String := "mock>1;os=='nt' and extra=='t'"

/-- The requirement `mockRecord` with a parenthesis and a tab more. -/
def relaidMockRecord : String := "mock>1);os=='nt' \tand extra=='t'"

/-- A requirement of no group. -/
def attrsRecord : String := "attrs (>=21); os  == 'nt'"

theorem file_stable_and_lossless_mockRecord :
    Relation.EqvGen Relaid mockRecord.toList relaidMockRecord.toList ∧
      file relaidMockRecord = file mockRecord ∧
      (file mockRecord).group = some "t" ∧ KeepsClauses mockRecord (file mockRecord) ∧
      (file attrsRecord).group = none ∧
      file (file attrsRecord).requirement = file attrsRecord := by
  have hloose : Relaid mockRecord.toList "mock>1);os=='nt' and extra=='t'".toList :=
    @Relaid.loose "mock>1".toList ";os=='nt' and extra=='t'".toList ')' (by decide) (by decide)
  have hgap : Relaid "mock>1);os=='nt' and extra=='t'".toList relaidMockRecord.toList :=
    @Relaid.gap "mock>1)".toList "os=='nt'".toList [' '] [' ', '\t'] "and extra=='t'".toList
      (by decide) ⟨by decide, by decide⟩ ⟨by decide, by decide⟩
  have hrelaid : Relation.EqvGen Relaid mockRecord.toList relaidMockRecord.toList :=
    .trans _ _ _ (.rel _ _ hloose) (.rel _ _ hgap)
  have hnone : (file attrsRecord).group = none := by decide
  exact ⟨hrelaid, (file_stable_and_lossless mockRecord).2.1 _ hrelaid, by decide,
    (file_stable_and_lossless mockRecord).2.2.2, hnone,
    (file_stable_and_lossless attrsRecord).2.2.1 hnone⟩

end Descriptor.Requirement
