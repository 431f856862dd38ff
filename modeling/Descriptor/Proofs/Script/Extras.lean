import Descriptor.Proofs.Record.Groups
import Descriptor.Proofs.Script.Redaction

/-!
# Groups of extras, entry by entry

A call takes its groups of extras from a mapping display, written in place or given to a bare name.
An entry gives a group when its key is a literal and its value lists something; of the entries that
give a group of one name, the last one counts. Every other entry might as well not be there: it can
be put in, taken out and moved, even under the key of a group, and no group is different. Entries
with different keys can stand in any order.

## Main definitions

* `StandsFor` : the value of a bare name, and any other value itself.
* `Lists`, `Entry.Gives` : values that list something, and entries that give a group.
* `GivesLast` : the last of the entries that give a group of one name.
* `CallSite.TakesGroups` : the entries from which a call takes its groups.
* `Rearranged` : entries that are put in, taken out and moved without a difference.

## Main results

* `groups_of_takesGroups` : the groups as the entries that give one.
* `Rearranged.groups_eq` : the groups after a rearrangement.
* `extrasRequire_iff_gives` : which groups a record has, and what they depend on.
-/

namespace Descriptor.Script

/-! ### Values that stand for displays -/

/-- What a value stands for in visible statements: a bare name for the value of its first
assignment, and anything else for itself. -/
inductive StandsFor (body : List Stmt) : Expr → Expr → Prop
  | itself {value : Expr} (h : value.name? = none) : StandsFor body value value
  | named {id : String} {value : Expr} (h : FirstAssigned body id value) :
      StandsFor body (.name id) value

/-- The elements that a value lists in visible statements: it has to stand for a list or tuple
display. -/
inductive Lists (body : List Stmt) (value : Expr) (elements : List Expr) : Prop
  | list (h : StandsFor body value (.list elements))
  | tuple (h : StandsFor body value (.tuple elements))

/-- The group that an entry of a mapping display gives: it stands under a literal key and holds the
literals among the elements that the value lists. -/
inductive Entry.Gives (body : List Stmt) : Entry → String → List String → Prop
  | intro (name : String) {value : Expr} {elements : List Expr} (h : Lists body value elements) :
      Gives body (.pair (.text name) value) name (literalsOf elements)

/-- What the last of the entries holds that give a group of the given name. -/
inductive GivesLast (body : List Stmt) : List Entry → String → List String → Prop
  | intro {before after : List Entry} {entry : Entry} {name : String} {texts : List String}
      (h : entry.Gives body name texts)
      (hafter : ∀ later ∈ after, ∀ texts', ¬later.Gives body name texts') :
      GivesLast body (before ++ entry :: after) name texts

/-- The entries from which a call takes its groups of extras: what it passes for them stands for a
mapping display. -/
def CallSite.TakesGroups (site : CallSite) (entries : List Entry) : Prop :=
  ∃ value, site.value? "extras_require" = some value ∧ StandsFor site.body value (.dict entries)

namespace CallSite

variable {site other : CallSite}

theorem resolve?_eq_some_iff {value result : Expr} :
    site.resolve? value = some result ↔ StandsFor site.body value result := by
  constructor
  · intro h
    cases value with
    | name id => exact .named (lookup?_eq_some_iff.mp h)
    | _ =>
      obtain rfl := Option.some.inj h
      exact .itself rfl
  · rintro (h | h)
    · cases value with
      | name id => simp only [Expr.name?, reduceCtorEq] at h
      | _ => rfl
    · exact lookup?_eq_some_iff.mpr h

theorem elements?_eq_some_iff {value : Expr} {elements : List Expr} :
    site.elements? value = some elements ↔ Lists site.body value elements := by
  rw [elements?, Option.bind_eq_bind, Option.bind_eq_some_iff]
  constructor
  · rintro ⟨display, hdisplay, helements⟩
    have hstands := resolve?_eq_some_iff.mp hdisplay
    cases display with
    | list es => exact .list (Option.some.inj helements ▸ hstands)
    | tuple es => exact .tuple (Option.some.inj helements ▸ hstands)
    | _ => cases helements
  · rintro (h | h)
    · exact ⟨_, resolve?_eq_some_iff.mpr h, rfl⟩
    · exact ⟨_, resolve?_eq_some_iff.mpr h, rfl⟩

theorem group?_eq_some_iff {entry : Entry} {name : String} {texts : List String} :
    site.group? entry = some (name, texts) ↔ entry.Gives site.body name texts := by
  constructor
  · intro h
    unfold group? at h
    split at h
    · next key value =>
      obtain ⟨elements, helements, hgroup⟩ := Option.map_eq_some_iff.mp h
      obtain ⟨rfl, rfl⟩ := Prod.mk.inj hgroup
      exact .intro key (elements?_eq_some_iff.mp helements)
    · cases h
  · rintro ⟨name, h⟩
    rw [group?, elements?_eq_some_iff.mpr h, Option.map_some]

theorem group?_eq_none_iff {entry : Entry} :
    site.group? entry = none ↔ ∀ name texts, ¬entry.Gives site.body name texts := by
  simp only [Option.eq_none_iff_forall_ne_some, ne_eq, Prod.forall, group?_eq_some_iff]

theorem bind_resolve?_eq_some_iff {entries : List Entry} :
    (site.value? "extras_require").bind site.resolve? = some (.dict entries) ↔
      site.TakesGroups entries := by
  simp only [Option.bind_eq_some_iff, resolve?_eq_some_iff, TakesGroups]

/-- The groups are those that the entries give. -/
theorem groups_of_takesGroups {entries : List Entry} (h : site.TakesGroups entries) :
    site.groups "extras_require" = .ofList (entries.filterMap site.group?) := by
  rw [groups, bind_resolve?_eq_some_iff.mpr h]

theorem groups_of_not_takesGroups (h : ∀ entries, ¬site.TakesGroups entries) :
    site.groups "extras_require" = .empty := by
  unfold groups
  split
  · next entries hentries => exact absurd (bind_resolve?_eq_some_iff.mp hentries) (h entries)
  · rfl

/-- The groups that entries give, of which the last one of a name counts. -/
theorem get?_ofList_filterMap_iff {entries : List Entry} {name : String} {texts : List String} :
    (Groups.ofList (entries.filterMap site.group?)).get? name = some texts ↔
      GivesLast site.body entries name texts := by
  rw [Groups.get?_ofList_eq_some_iff]
  constructor
  · rintro ⟨before, after, hgroups, hafter⟩
    obtain ⟨front, rest, rfl, -, hrest⟩ := List.filterMap_eq_append_iff.mp hgroups
    obtain ⟨idle, entry, later, rfl, -, hentry, rfl⟩ := List.filterMap_eq_cons_iff.mp hrest
    rw [← List.append_assoc]
    refine .intro (group?_eq_some_iff.mp hentry) fun e he texts' hgives => hafter ?_
    exact List.mem_map.mpr
      ⟨_, List.mem_filterMap.mpr ⟨e, he, group?_eq_some_iff.mpr hgives⟩, rfl⟩
  · rintro ⟨h, hafter⟩
    next before after entry =>
    refine ⟨before.filterMap site.group?, after.filterMap site.group?, ?_, fun hmem => ?_⟩
    · rw [List.filterMap_append, List.filterMap_cons, group?_eq_some_iff.mpr h]
    · obtain ⟨⟨key, texts'⟩, hgroup, rfl⟩ := List.mem_map.mp hmem
      obtain ⟨later, hlater, hgives⟩ := List.mem_filterMap.mp hgroup
      exact hafter later hlater texts' (group?_eq_some_iff.mp hgives)

end CallSite

/-! ### The last entry of a name -/

section GivesLast

variable {body : List Stmt} {entries : List Entry} {name : String} {texts : List String}

theorem GivesLast.cons (h : GivesLast body entries name texts) (first : Entry) :
    GivesLast body (first :: entries) name texts := by
  obtain ⟨h, hafter⟩ := h
  exact @GivesLast.intro body (first :: _) _ _ _ _ h hafter

/-- Where an entry gives a group, there is a last one that does. -/
theorem exists_givesLast_iff : (∃ texts, GivesLast body entries name texts) ↔
    ∃ entry ∈ entries, ∃ texts, entry.Gives body name texts := by
  constructor
  · rintro ⟨texts, h, -⟩
    exact ⟨_, List.mem_append_right _ List.mem_cons_self, texts, h⟩
  · rintro ⟨entry, hmem, texts, hgives⟩
    induction entries generalizing entry texts with
    | nil => cases hmem
    | cons first rest ih =>
      by_cases hlater : ∃ later ∈ rest, ∃ texts', later.Gives body name texts'
      · obtain ⟨later, hlater, texts', hgives⟩ := hlater
        obtain ⟨last, hlast⟩ := ih later hlater texts' hgives
        exact ⟨last, hlast.cons first⟩
      · rcases List.mem_cons.mp hmem with rfl | hmem
        · exact ⟨texts, @GivesLast.intro body [] rest entry name texts hgives
            fun later hmem texts' h => hlater ⟨later, hmem, texts', h⟩⟩
        · exact absurd ⟨entry, hmem, texts, hgives⟩ hlater

end GivesLast

/-! ### Entries put in, taken out and moved -/

/-- Entries under one literal key. -/
def SameKey (a b : Entry) : Prop :=
  ∃ name value value', a = .pair (.text name) value ∧ b = .pair (.text name) value'

theorem sameKey_of_gives {body : List Stmt} {a b : Entry} {name : String}
    {texts texts' : List String} (ha : a.Gives body name texts) (hb : b.Gives body name texts') :
    SameKey a b := by
  obtain ⟨name, -⟩ := ha
  obtain ⟨name, -⟩ := hb
  exact ⟨name, _, _, rfl, rfl⟩

/-- Entries that come about by putting in and taking out entries that give no group, and by letting
neighbours with different keys change places. An entry that gives no group is moved by taking it out
and putting it in elsewhere. -/
inductive Rearranged (body : List Stmt) (entries : List Entry) : List Entry → Prop
  | refl : Rearranged body entries entries
  | insert {before after : List Entry} {entry : Entry}
      (h : Rearranged body entries (before ++ after))
      (hidle : ∀ name texts, ¬entry.Gives body name texts) :
      Rearranged body entries (before ++ entry :: after)
  | delete {before after : List Entry} {entry : Entry}
      (h : Rearranged body entries (before ++ entry :: after))
      (hidle : ∀ name texts, ¬entry.Gives body name texts) :
      Rearranged body entries (before ++ after)
  | swap {before after : List Entry} {a b : Entry}
      (h : Rearranged body entries (before ++ a :: b :: after)) (hkeys : ¬SameKey a b) :
      Rearranged body entries (before ++ b :: a :: after)

/-- Statements in which every bare name lists the same. -/
def SameLists (body other : List Stmt) : Prop :=
  ∀ id elements, Lists other (.name id) elements ↔ Lists body (.name id) elements

namespace Rearranged

variable {body : List Stmt} {entries entries' entries'' : List Entry}

theorem trans (h : Rearranged body entries entries') (h' : Rearranged body entries' entries'') :
    Rearranged body entries entries'' := by
  induction h' with
  | refl => exact h
  | insert _ hidle ih => exact ih.insert hidle
  | delete _ hidle ih => exact ih.delete hidle
  | swap _ hkeys ih => exact ih.swap hkeys

theorem cons (h : Rearranged body entries entries') (first : Entry) :
    Rearranged body (first :: entries) (first :: entries') := by
  induction h with
  | refl => exact .refl
  | @insert before _ _ _ hidle ih => exact @insert body _ (first :: before) _ _ ih hidle
  | @delete before _ _ _ hidle ih => exact @delete body _ (first :: before) _ _ ih hidle
  | @swap before _ _ _ _ hkeys ih => exact @swap body _ (first :: before) _ _ _ ih hkeys

/-- Entries with different keys can stand in any order. -/
theorem of_perm (h : entries.Perm entries')
    (hkeys : entries.Pairwise fun a b => ¬SameKey a b) : Rearranged body entries entries' := by
  have hsymm {a b : Entry} (hab : ¬SameKey a b) : ¬SameKey b a := by
    rintro ⟨name, value, value', hb, ha⟩
    exact hab ⟨name, value', value, ha, hb⟩
  induction h with
  | nil => exact .refl
  | cons first _ ih => exact (ih (List.pairwise_cons.mp hkeys).2).cons first
  | swap a b rest =>
    have hab := (List.pairwise_cons.mp hkeys).1 a List.mem_cons_self
    exact @swap body _ [] rest b a .refl hab
  | trans hfirst _ ih ih' => exact (ih hkeys).trans (ih' (hfirst.pairwise hkeys hsymm))

/-- The groups that entries give are the same after a rearrangement. -/
theorem groups_eq {site : CallSite} (h : Rearranged site.body entries entries') :
    Groups.ofList (entries'.filterMap site.group?) =
      Groups.ofList (entries.filterMap site.group?) := by
  induction h with
  | refl => rfl
  | insert _ hidle ih =>
    rwa [List.filterMap_append, List.filterMap_cons_none (CallSite.group?_eq_none_iff.mpr hidle),
      ← List.filterMap_append]
  | delete _ hidle ih =>
    rwa [List.filterMap_append, List.filterMap_cons_none (CallSite.group?_eq_none_iff.mpr hidle),
      ← List.filterMap_append] at ih
  | @swap before after a b _ hkeys ih =>
    rw [← ih]
    simp only [List.filterMap_append, List.filterMap_cons]
    cases ha : site.group? a with
    | none => cases site.group? b <;> rfl
    | some group =>
      cases hb : site.group? b with
      | none => rfl
      | some group' =>
        refine Groups.ofList_swap (fun hname => hkeys ?_) _ _
        exact sameKey_of_gives (CallSite.group?_eq_some_iff.mp ha)
          (hname ▸ CallSite.group?_eq_some_iff.mp hb)

end Rearranged

/-! ### Other statements -/

theorem lookup?_assign (before : List Stmt) (id : String) (value : Expr) (after : List Stmt)
    (name : String) : lookup? (before ++ .assign id value :: after) name =
      (lookup? before name).or (if id = name then some value else lookup? after name) := by
  rw [lookup?_append, lookup?, lookup?, List.findSome?_cons, Stmt.assigned?]
  split_ifs <;> rfl

theorem lists_name_iff {body : List Stmt} {id : String} {elements : List Expr} :
    Lists body (.name id) elements ↔
      lookup? body id = some (.list elements) ∨ lookup? body id = some (.tuple elements) := by
  simp only [lookup?_eq_some_iff]
  constructor
  · rintro (⟨⟨⟩⟩ | ⟨⟨⟩⟩)
    · next h => exact .inl h
    · next h => exact .inr h
  · rintro (h | h)
    · exact .list (.named h)
    · exact .tuple (.named h)

/-- A mapping display that a name is given may as well be another one. -/
theorem sameLists_assign_dict (before : List Stmt) (id : String) (entries entries' : List Entry)
    (after : List Stmt) :
    SameLists (before ++ .assign id (.dict entries) :: after)
      (before ++ .assign id (.dict entries') :: after) := by
  intro name elements
  rw [lists_name_iff, lists_name_iff, lookup?_assign, lookup?_assign]
  cases lookup? before name with
  | some value => rfl
  | none => split_ifs <;> simp

namespace CallSite

variable {site other : CallSite} (h : SameLists site.body other.body)

include h

theorem elements?_congr (value : Expr) : other.elements? value = site.elements? value := by
  cases value with
  | name id =>
    refine Option.ext fun elements => ?_
    rw [elements?_eq_some_iff, elements?_eq_some_iff, h]
  | _ => rfl

theorem group?_congr (entry : Entry) : other.group? entry = site.group? entry := by
  cases entry with
  | splat value => rfl
  | pair key value => cases key <;> simp only [group?, elements?_congr h]

/-- Rearranged entries give the same groups where every bare name lists the same. -/
theorem extrasRequire_eq_of_rearranged {entries entries' : List Entry}
    (hsite : site.TakesGroups entries) (hother : other.TakesGroups entries')
    (hentries : Rearranged site.body entries entries') :
    other.record.extrasRequire = site.record.extrasRequire := by
  have hgroups : other.group? = site.group? := funext fun entry => group?_congr h entry
  simp only [record, groups_of_takesGroups hsite, groups_of_takesGroups hother, hgroups,
    hentries.groups_eq]

end CallSite

/-! ### The groups of a call -/

/-- **The groups are those of the entries that give one.** Let a call take its groups of extras from
the entries of a mapping display, be it written in place or given to a bare name.

* The record has a group of a name just when some entry gives one, and the group is that of the last
  such entry: the literals that its value lists, in their order.
* A call that takes its groups from a rearrangement of the entries has the same groups. Statements
  that give a name another mapping display make no difference to what any name lists, so the entries
  may be rearranged where they stand.
* Entries with different keys may come in any order.

A call that passes anything else has no groups. -/
theorem extrasRequire_iff_gives (site : CallSite) :
    (∀ entries, site.TakesGroups entries →
      (∀ name, (∃ texts, site.record.extrasRequire.get? name = some texts) ↔
        ∃ entry ∈ entries, ∃ texts, entry.Gives site.body name texts) ∧
      (∀ name texts, site.record.extrasRequire.get? name = some texts ↔
        GivesLast site.body entries name texts) ∧
      ∀ (other : CallSite) (entries' : List Entry), other.TakesGroups entries' →
        SameLists site.body other.body →
        (Rearranged site.body entries entries' ∨
          entries.Perm entries' ∧ entries.Pairwise fun a b => ¬SameKey a b) →
        other.record.extrasRequire = site.record.extrasRequire) ∧
    ((∀ entries, ¬site.TakesGroups entries) → site.record.extrasRequire = .empty) ∧
    ∀ before id entries entries' after,
      SameLists (before ++ .assign id (.dict entries) :: after)
        (before ++ .assign id (.dict entries') :: after) := by
  refine ⟨fun entries h => ?entries, CallSite.groups_of_not_takesGroups, sameLists_assign_dict⟩
  have hlast (name : String) (texts : List String) :
      site.record.extrasRequire.get? name = some texts ↔
        GivesLast site.body entries name texts := by
    rw [CallSite.record, CallSite.groups_of_takesGroups h]
    exact CallSite.get?_ofList_filterMap_iff
  refine ⟨fun name => ?_, hlast, fun other entries' hother hlists hentries => ?_⟩
  · simp only [hlast, exists_givesLast_iff]
  · exact CallSite.extrasRequire_eq_of_rearranged hlists h hother
      (hentries.elim id fun hperm => .of_perm hperm.1 hperm.2)

private def mixedEntries : List Entry :=
  [.pair (.text "docs") (.list [.text "sphinx"]), .pair (.text "docs") (.call (.name "more") [] []),
    .pair (.name "KEY") (.list [.text "ignored"]), .splat (.name "OTHERS"),
    .pair (.text "test") (.name "TEST")]

private def plainEntries : List Entry :=
  [.pair (.text "test") (.name "TEST"), .pair (.text "docs") (.list [.text "sphinx"])]

private def extrasBody (entries : List Entry) : List Stmt :=
  [.assign "TEST" (.tuple [.text "pytest", .other]), .assign "EXTRAS" (.dict entries)]

/-- A call that takes its groups from a mapping display under a bare name. -/
def extrasSite (entries : List Entry) : CallSite :=
  ⟨⟨.name "setup", [], [.named "extras_require" (.name "EXTRAS")]⟩, extrasBody entries⟩

private theorem takesGroups_extrasSite (entries : List Entry) :
    (extrasSite entries).TakesGroups entries :=
  ⟨.name "EXTRAS", rfl, .named (lookup?_eq_some_iff.mp rfl)⟩

private theorem mixedEntries_rearranged :
    Rearranged (extrasSite mixedEntries).body mixedEntries plainEntries := by
  have hidle {entry : Entry} (h : (extrasSite mixedEntries).group? entry = none) :
      ∀ name texts, ¬entry.Gives (extrasSite mixedEntries).body name texts :=
    CallSite.group?_eq_none_iff.mp h
  have hcall := @Rearranged.delete _ mixedEntries [mixedEntries[0]] _ _ .refl (hidle rfl)
  have hkey := @Rearranged.delete _ mixedEntries [mixedEntries[0]] _ _ hcall (hidle rfl)
  have hsplat := @Rearranged.delete _ mixedEntries [mixedEntries[0]] _ _ hkey (hidle rfl)
  refine @Rearranged.swap _ mixedEntries [] [] _ _ hsplat ?_
  rintro ⟨name, value, value', hdocs, htest⟩
  have hname : "docs" = name := Expr.text.inj (Entry.pair.inj hdocs).1
  have hname' : "test" = name := Expr.text.inj (Entry.pair.inj htest).1
  exact absurd (hname.trans hname'.symm) (by decide)

theorem extrasRequire_iff_gives_extrasSite :
    (extrasSite mixedEntries).TakesGroups mixedEntries ∧
      (extrasSite plainEntries).TakesGroups plainEntries ∧
      Rearranged (extrasSite mixedEntries).body mixedEntries plainEntries ∧
      (∀ texts, (extrasSite mixedEntries).record.extrasRequire.get? "test" = some texts ↔
        GivesLast (extrasSite mixedEntries).body mixedEntries "test" texts) ∧
      (extrasSite mixedEntries).record.extrasRequire.get? "test" = some ["pytest"] ∧
      (extrasSite plainEntries).record.extrasRequire =
        (extrasSite mixedEntries).record.extrasRequire := by
  have hmixed := takesGroups_extrasSite mixedEntries
  have hplain := takesGroups_extrasSite plainEntries
  obtain ⟨hentries, -, hlists⟩ := extrasRequire_iff_gives (extrasSite mixedEntries)
  obtain ⟨-, hlast, hrearranged⟩ := hentries mixedEntries hmixed
  refine ⟨hmixed, hplain, mixedEntries_rearranged, hlast "test", ?_,
    hrearranged _ plainEntries hplain (hlists [_] "EXTRAS" mixedEntries plainEntries [])
      (.inl mixedEntries_rearranged)⟩
  rfl

end Descriptor.Script
