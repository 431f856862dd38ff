import Descriptor.Proofs.Cli.Assignment
import Descriptor.Proofs.Settings.CommaList

/-!
# Settings entered as they are shown

A setting is shown and entered under its name. Whatever was entered before, a name that means
nothing is refused and changes nothing, a value that is entered leaves the other settings as they
are shown, and one that is entered as it is shown leaves all settings as they are. The requests of
the program do just this with the settings that it loads.

## Main definitions

* `Settings.enterAll` : the settings after values were entered one after the other.

## Main results

* `perform_assign_of_load`, `perform_get_of_load` : requests enter and show what they load.
* `enterAll_eq_updated` : after many values were entered, the last one for each setting counts.
* `enterAll_reentry` : settings that were entered are refused, kept and entered again as told above.
-/

namespace Descriptor

namespace Settings

/-- The settings after values were entered one after the other, whether they were taken or
refused. -/
def enterAll (s : Settings) (assignments : List Assignment) : Settings :=
  assignments.foldl (fun s a => (s.enter a).2) s

variable {s : Settings} {key : Key} {a : Assignment} {name : String}

/-! ### One value -/

/-- A name stands for a setting, or it is shown and entered in vain. -/
theorem named_or_unknown (name : String) :
    (∃ key : Key, key.name = name) ∨ ∀ key : Key, key.name ≠ name := by
  by_cases h : ∃ key : Key, key.name = name
  · exact .inl h
  · exact .inr fun key hkey => h ⟨key, hkey⟩

/-- A value under one name leaves what is shown under another one. -/
theorem shown_enter_of_ne (h : name ≠ a.name) (s : Settings) :
    (s.enter a).2.shown name = s.shown name := by
  obtain ⟨key, hkey⟩ | hunknown := named_or_unknown a.name
  · obtain ⟨other, hother⟩ | hunknown' := named_or_unknown name
    · have hne : other ≠ key := by
        rintro rfl
        exact h (hother.symm.trans hkey)
      rw [enter_of_name hkey, shown_of_name hother, shown_of_name hother, get?_set_of_ne hne]
    · rw [shown_of_unknown hunknown', shown_of_unknown hunknown']
  · rw [enter_of_unknown hunknown]

/-- What is shown under a name can be entered there, and changes nothing. -/
theorem WellFormed.enter_shown {value : String} (h : s.WellFormed)
    (hshown : s.shown name = .ok (some value)) : s.enter ⟨name, value⟩ = (.ok (), s) := by
  obtain ⟨key, hkey⟩ | hunknown := named_or_unknown name
  · rw [shown_of_name hkey] at hshown
    rw [enter_of_name (a := ⟨name, value⟩) hkey, h.set_get? (Except.ok.inj hshown)]
  · rw [shown_of_unknown hunknown] at hshown
    cases hshown

/-! ### Values one after the other -/

theorem WellFormed.enter (h : s.WellFormed) (a : Assignment) : (s.enter a).2.WellFormed := by
  obtain ⟨key, hkey⟩ | hunknown := named_or_unknown a.name
  · rw [enter_of_name hkey]
    exact h.set key a.value
  · rwa [enter_of_unknown hunknown]

/-- Settings stay well formed, by induction on the values that are entered. -/
theorem WellFormed.enterAll (h : s.WellFormed) (assignments : List Assignment) :
    (s.enterAll assignments).WellFormed := by
  induction assignments generalizing s with
  | nil => exact h
  | cons a assignments ih => exact ih (h.enter a)

theorem enter_eq_updated (s : Settings) (a : Assignment) : (s.enter a).2 = s.updated [a] := by
  obtain ⟨key, hkey⟩ | hunknown := named_or_unknown a.name
  · rw [enter_of_name hkey, Cli.updated_of_name hkey]
  · rw [enter_of_unknown hunknown, Cli.updated_of_unknown hunknown]

/-- After many values were entered, the last one for each setting counts. -/
theorem enterAll_eq_updated (s : Settings) (assignments : List Assignment) :
    s.enterAll assignments = s.updated assignments := by
  induction assignments generalizing s with
  | nil => rfl
  | cons a assignments ih =>
    rw [Cli.updated_cons, ← enter_eq_updated]
    exact ih _

/-- **Settings that are entered as they are shown stay as they are.** Whatever was entered into
settings of which none was set, the last value for each setting counts, and then:

* a value is taken exactly if its name stands for a setting; one that is refused names no setting
  and changes nothing;
* a value leaves what is shown under every other name;
* the elements of the list of requirements are trimmed, have no commas and are not empty;
* what is shown under a name can be entered there, and leaves all settings as they are. -/
theorem enterAll_reentry (assignments : List Assignment) :
    let s := none.enterAll assignments
    s = none.updated assignments ∧
    (∀ a, (s.enter a).1 = .ok () ↔ ∃ key : Key, key.name = a.name) ∧
    (∀ a e, (s.enter a).1 = .error e → e = .unknownKey a.name ∧ (s.enter a).2 = s) ∧
    (∀ a name, name ≠ a.name → (s.enter a).2.shown name = s.shown name) ∧
    (∀ requires, s.buildRequires = some requires → ∀ text ∈ requires,
      text ≠ "" ∧ Text.trimmed text = text ∧ ',' ∉ text.toList) ∧
    ∀ name value, s.shown name = .ok (some value) → s.enter ⟨name, value⟩ = (.ok (), s) := by
  intro s
  have hs : s.WellFormed := wellFormed_none.enterAll assignments
  refine ⟨enterAll_eq_updated _ _, fun a => ?_, fun a e he => ?_, fun a name h => ?_,
    fun requires hrequires text htext => ?_, fun name value hshown => ?_⟩
  · obtain hname | hunknown := named_or_unknown a.name
    · obtain ⟨key, hkey⟩ := hname
      exact iff_of_true (by rw [enter_of_name hkey]) ⟨key, hkey⟩
    · exact iff_of_false (by rw [enter_of_unknown hunknown]; exact nofun)
        fun ⟨key, hkey⟩ => hunknown key hkey
  · obtain ⟨key, hkey⟩ | hunknown := named_or_unknown a.name
    · rw [enter_of_name hkey] at he
      cases he
    · rw [enter_of_unknown hunknown] at he ⊢
      exact ⟨(Except.error.inj he).symm, rfl⟩
  · exact shown_enter_of_ne h s
  · obtain ⟨hne, htrimmed, hcomma⟩ := hs requires hrequires text htext
    exact ⟨hne, htrimmed, hcomma⟩
  · exact hs.enter_shown hshown

/-- An empty list of requirements is shown, and entered again, as an empty text. -/
example :
    let s := none.enterAll [⟨"build-requires", " , ,"⟩]
    s.shown "build-requires" = .ok (some "") ∧ s.enter ⟨"build-requires", ""⟩ = (.ok (), s) := by
  decide +kernel

end Settings

/-! ### Requests -/

namespace Cli

open Session (perform perform_bind perform_pure)

variable {g : Globals} {s : Session} {settings : Settings}

/-- A request to set something enters a value into the settings that it loads, and saves them. -/
theorem perform_assign_of_load (hload : Settings.load s = .ok settings) (a : Assignment) :
    perform (assign g a) s =
      match settings.enter a with
      | (.ok (), settings') =>
        perform (do
          saveSettings settings'
          Log.success ("Set " ++ a.name ++ " = " ++ a.value)
          return []) s
      | (.error e, _) => (.error (.settings e), s) := by
  rw [assign, answerSettings, perform_bind, perform_loadSettings, hload]
  simp only [Except.mapError]
  rcases settings.enter a with ⟨_ | _, _⟩ <;> rfl

/-- A request for a setting shows it in the settings that it loads. -/
theorem perform_get_of_load (hload : Settings.load s = .ok settings) (name : String) :
    perform (answerSettings g (.get name)) s =
      match settings.shown name with
      | .ok (some value) => (.ok [value], s)
      | .ok none => perform (do Log.info (name ++ " is not set"); return []) s
      | .error e => (.error (.settings e), s) := by
  rw [answerSettings, perform_bind, perform_loadSettings, hload]
  simp only [Except.mapError]
  rcases settings.shown name with _ | _ | _ <;> rfl

end Cli

end Descriptor
