import Mathlib.Data.List.Induction
import Mathlib.Logic.Function.Basic

/-! Values inherited along parent links. A table gives some keys a value, and a
list of entries gives keys a parent. One pass over the list lets every key without
a value adopt that of its parent; it finds the values whose chain of ancestors
occurs in the list in order, ancestors first. -/
namespace VirtualSfc.Base.Inheritance

variable {κ α : Type*}

structure Entry (κ : Type*) where
  key : κ
  parent : κ

def UniqueParents (entries : List (Entry κ)) : Prop :=
  ∀ entry ∈ entries, ∀ other ∈ entries, entry.key = other.key → entry.parent = other.parent

/-- A key has the value of the nearest ancestor in the table. The path lists the
keys that inherit it, from the ancestor's child down to the key itself. -/
inductive Inherits (table : κ → Option α) (entries : List (Entry κ)) :
    List κ → κ → α → Prop
  | own {key : κ} {value : α} (h : table key = some value) :
      Inherits table entries [] key value
  | inherit {entry : Entry κ} {path : List κ} {value : α} (hentry : entry ∈ entries)
      (hnone : table entry.key = none) (h : Inherits table entries path entry.parent value) :
      Inherits table entries (path ++ [entry.key]) entry.key value

section Paths

variable {table : κ → Option α} {entries : List (Entry κ)} {path : List κ} {key : κ} {value : α}

theorem Inherits.path_cases (h : Inherits table entries path key value) :
    (path = [] ∧ table key = some value) ∨
      ∃ entry ∈ entries, ∃ rest, entry.key = key ∧ path = rest ++ [key] ∧ table key = none ∧
        Inherits table entries rest entry.parent value := by
  cases h with
  | own hvalue => exact Or.inl ⟨rfl, hvalue⟩
  | inherit hentry hnone hparent => exact Or.inr ⟨_, hentry, _, rfl, rfl, hnone, hparent⟩

theorem Inherits.functional (hunique : UniqueParents entries)
    (h : Inherits table entries path key value) {path' : List κ} {value' : α}
    (h' : Inherits table entries path' key value') : path = path' ∧ value = value' := by
  induction h generalizing path' value' with
  | own hvalue =>
      rcases h'.path_cases with ⟨hpath, hvalue'⟩ | ⟨_, _, _, _, _, hnone, _⟩
      · exact ⟨hpath.symm, Option.some.inj (hvalue.symm.trans hvalue')⟩
      · simp [hvalue] at hnone
  | @inherit entry path value hentry hnone hparent ih =>
      rcases h'.path_cases with ⟨_, hvalue'⟩ | ⟨entry', hentry', rest, hkey, hpath, _, hparent'⟩
      · simp [hnone] at hvalue'
      · rw [hunique entry' hentry' entry hentry hkey] at hparent'
        obtain ⟨hrest, hvalue⟩ := ih hparent'
        rw [hpath, hrest]
        exact ⟨rfl, hvalue⟩

theorem Inherits.mono {whole : List (Entry κ)} (hsub : entries ⊆ whole)
    (h : Inherits table entries path key value) : Inherits table whole path key value := by
  induction h with
  | own hvalue => exact .own hvalue
  | inherit hentry hnone _ ih => exact .inherit (hsub hentry) hnone ih

theorem Inherits.flatten {later : κ → Option α}
    (hlater : ∀ key value, later key = some value → ∃ path, Inherits table entries path key value)
    (hextends : ∀ key, later key = none → table key = none)
    (h : Inherits later entries path key value) :
    ∃ path, Inherits table entries path key value := by
  induction h with
  | own hvalue => exact hlater _ _ hvalue
  | inherit hentry hnone _ ih =>
      obtain ⟨path, hpath⟩ := ih
      exact ⟨_, .inherit hentry (hextends _ hnone) hpath⟩

theorem sublist_concat_cases {path keys : List κ} {last : κ}
    (h : path.Sublist (keys ++ [last])) :
    path.Sublist keys ∨ ∃ rest, path = rest ++ [last] ∧ rest.Sublist keys := by
  obtain ⟨rest, tail, hpath, hrest, htail⟩ := List.sublist_append_iff.mp h
  cases tail with
  | nil =>
      apply Or.inl
      simpa [hpath] using hrest
  | cons key tail =>
      have hsingle : key :: tail = [last] := htail.eq_of_length_le (by simp)
      exact Or.inr ⟨rest, by rw [hpath, hsingle], hrest⟩

end Paths

section Pass

variable [DecidableEq κ]

def adopt (table : κ → Option α) (entry : Entry κ) : κ → Option α :=
  if (table entry.key).isSome then table
  else if (table entry.parent).isSome then
    Function.update table entry.key (table entry.parent)
  else table

def sweep (table : κ → Option α) (entries : List (Entry κ)) : κ → Option α :=
  entries.foldl adopt table

theorem sweep_append (table : κ → Option α) (entries : List (Entry κ)) (entry : Entry κ) :
    sweep table (entries ++ [entry]) = adopt (sweep table entries) entry := by
  simp [sweep]

theorem adopt_eq_some (table : κ → Option α) (entry : Entry κ) (key : κ) (value : α) :
    adopt table entry key = some value ↔
      table key = some value ∨
        key = entry.key ∧ table key = none ∧ table entry.parent = some value := by
  unfold adopt
  by_cases hkey : key = entry.key
  · rw [hkey]
    cases hvalue : table entry.key with
    | some value => simp [hvalue]
    | none => cases table entry.parent <;> simp [hvalue]
  · split
    · simp [hkey]
    · split
      · simp [hkey, Function.update_of_ne]
      · simp [hkey]

theorem sweep_extends (table : κ → Option α) (entries : List (Entry κ)) {key : κ} {value : α}
    (h : table key = some value) : sweep table entries key = some value := by
  induction entries generalizing table with
  | nil => exact h
  | cons entry entries ih => exact ih _ ((adopt_eq_some table entry key value).mpr (Or.inl h))

theorem eq_none_of_sweep {table : κ → Option α} {entries : List (Entry κ)} {key : κ}
    (h : sweep table entries key = none) : table key = none := by
  cases hvalue : table key with
  | none => rfl
  | some value => simp [sweep_extends table entries hvalue] at h

theorem sweep_eq_some (table : κ → Option α) {entries : List (Entry κ)}
    (hunique : UniqueParents entries) (part : List (Entry κ)) (hpart : part ⊆ entries)
    (key : κ) (value : α) :
    sweep table part key = some value ↔
      ∃ path, Inherits table entries path key value ∧ path.Sublist (part.map Entry.key) := by
  induction part using List.reverseRecOn generalizing key value with
  | nil =>
      constructor
      · intro h
        exact ⟨[], .own h, .refl _⟩
      · rintro ⟨path, hpath, hsublist⟩
        rcases hpath.path_cases with ⟨_, h⟩ | ⟨_, _, rest, _, hrest, _, _⟩
        · exact h
        · simp [hrest] at hsublist
  | append_singleton part entry ih =>
      have hentry : entry ∈ entries := hpart (by simp)
      have hfound := ih fun other hother => hpart (List.mem_append_left _ hother)
      rw [sweep_append, adopt_eq_some, List.map_append, List.map_singleton]
      constructor
      · rintro (h | ⟨hkey, hnone, hparent⟩)
        · obtain ⟨path, hpath, hsublist⟩ := (hfound key value).mp h
          exact ⟨path, hpath, hsublist.trans (List.sublist_append_left _ _)⟩
        · obtain ⟨path, hpath, hsublist⟩ := (hfound entry.parent value).mp hparent
          rw [hkey] at hnone ⊢
          exact ⟨_, .inherit hentry (eq_none_of_sweep hnone) hpath, hsublist.append (.refl _)⟩
      · rintro ⟨path, hpath, hsublist⟩
        rcases sublist_concat_cases hsublist with hearlier | ⟨rest, hrest, hearlier⟩
        · exact Or.inl ((hfound key value).mpr ⟨path, hpath, hearlier⟩)
        · rcases hpath.path_cases with ⟨hnil, _⟩ | ⟨other, hother, rest', hkey, hrest', _, hparent⟩
          · simp [hnil] at hrest
          · obtain ⟨heq, hlast⟩ := List.append_inj' (hrest'.symm.trans hrest) rfl
            have hkey' : key = entry.key := by simpa using hlast
            rw [heq, hunique other hother entry hentry (hkey.trans hkey')] at hparent
            cases hvalue : sweep table part key with
            | none =>
                exact Or.inr ⟨hkey', rfl, (hfound entry.parent value).mpr ⟨rest, hparent, hearlier⟩⟩
            | some value' =>
                obtain ⟨_, hpath', _⟩ := (hfound key value').mp hvalue
                exact Or.inl (by rw [(hpath'.functional hunique hpath).2])

end Pass

end VirtualSfc.Base.Inheritance
