import Chord.Table
import Mathlib.Data.List.Forall2

/-!
# Tables that match

**Input.** Two tables and a relation between their values.

**Results.** `Table.Matches` says that two tables have the same names and that the values under each
name are related. Such tables stay so when related values are put under one name or when one name is
removed, and every look-up finds related values. `Table.map` changes all values of a table, and
`Table.insertAll` puts several values into one.
-/

namespace Chord
namespace Table

variable {α β : Type} {R : α → β → Prop}

/-- Same names, related values. -/
def Matches (R : α → β → Prop) (t : Table α) (u : Table β) : Prop :=
  List.Forall₂ (fun x y => x.1 = y.1 ∧ R x.2 y.2) t.entries u.entries

theorem matches_empty : Matches R (empty : Table α) (empty : Table β) :=
  .nil

theorem insertEntry_matches {key : String} {a : α} {b : β} (hab : R a b)
    {entries : List (String × α)} {entries' : List (String × β)}
    (h : List.Forall₂ (fun x y => x.1 = y.1 ∧ R x.2 y.2) entries entries') :
    List.Forall₂ (fun x y => x.1 = y.1 ∧ R x.2 y.2) (insertEntry key a entries)
      (insertEntry key b entries') := by
  induction h with
  | nil => exact .cons ⟨rfl, hab⟩ .nil
  | @cons x y entries entries' hxy hrest ih =>
      simp only [insertEntry, ← hxy.1]
      split
      · exact .cons ⟨rfl, hab⟩ (.cons hxy hrest)
      · split
        · exact .cons hxy ih
        · exact .cons ⟨rfl, hab⟩ hrest

theorem lookup_matches {entries : List (String × α)} {entries' : List (String × β)}
    (h : List.Forall₂ (fun x y => x.1 = y.1 ∧ R x.2 y.2) entries entries') (key : String) :
    (entries.lookup key = none ∧ entries'.lookup key = none) ∨
      ∃ a b, entries.lookup key = some a ∧ entries'.lookup key = some b ∧ R a b := by
  induction h with
  | nil => exact Or.inl ⟨rfl, rfl⟩
  | @cons x y entries entries' hxy hrest ih =>
      rw [List.lookup_cons, List.lookup_cons, ← hxy.1]
      cases key == x.1 with
      | true => exact Or.inr ⟨x.2, y.2, rfl, rfl, hxy.2⟩
      | false => exact ih

variable {t : Table α} {u : Table β}

theorem Matches.insert (h : t.Matches R u) (key : String) {a : α} {b : β} (hab : R a b) :
    (t.insert key a).Matches R (u.insert key b) :=
  insertEntry_matches hab h

theorem Matches.erase (h : t.Matches R u) (key : String) :
    (t.erase key).Matches R (u.erase key) := by
  refine List.rel_filter ?_ h
  intro x y hxy
  show (x.1 != key) = true ↔ (y.1 != key) = true
  rw [hxy.1]

theorem Matches.keys_eq (h : t.Matches R u) : t.keys = u.keys := by
  have hmap : List.Forall₂ (· = ·) t.keys u.keys := by
    refine List.forall₂_map_left_iff.2 (List.forall₂_map_right_iff.2 ?_)
    exact h.imp fun _ _ hxy => hxy.1
  rwa [List.forall₂_eq_eq_eq] at hmap

/-- A look-up finds nothing in both tables, or related values. -/
theorem Matches.get? (h : t.Matches R u) (key : String) :
    (t.get? key = none ∧ u.get? key = none) ∨
      ∃ a b, t.get? key = some a ∧ u.get? key = some b ∧ R a b :=
  lookup_matches h key

theorem Matches.contains_eq (h : t.Matches R u) (key : String) :
    t.contains key = u.contains key := by
  unfold contains
  rcases h.get? key with ⟨ht, hu⟩ | ⟨a, b, ht, hu, -⟩ <;> rw [ht, hu] <;> rfl

/-! ## Names -/

theorem mem_keys_iff {t : Table α} {key : String} : key ∈ t.keys ↔ ∃ a, t.get? key = some a := by
  unfold keys get?
  induction t.entries with
  | nil => simp
  | cons entry rest ih =>
      rw [List.map_cons, List.mem_cons, List.lookup_cons]
      by_cases hkey : key = entry.1
      · simp [hkey]
      · have hne : (key == entry.1) = false := by simpa using hkey
        rw [hne]
        simpa [hkey] using ih

theorem mem_keys_insert {t : Table α} {key other : String} {a : α} :
    other ∈ (t.insert key a).keys ↔ other = key ∨ other ∈ t.keys := by
  rw [mem_keys_iff, mem_keys_iff]
  by_cases hkey : other = key
  · subst hkey
    simp
  · rw [get?_insert_of_ne t hkey]
    simp [hkey]

theorem mem_keys_erase {t : Table α} {key other : String} :
    other ∈ (t.erase key).keys ↔ other ≠ key ∧ other ∈ t.keys := by
  rw [mem_keys_iff, mem_keys_iff]
  by_cases hkey : other = key
  · subst hkey
    simp
  · rw [get?_erase_of_ne t hkey]
    simp [hkey]

/-- Every entry is found under its name. -/
theorem get?_of_mem_entries {t : Table α} {entry : String × α} (h : entry ∈ t.entries) :
    t.get? entry.1 = some entry.2 := by
  obtain ⟨entries, hsorted⟩ := t
  unfold get?
  induction entries with
  | nil => cases h
  | cons head rest ih =>
      obtain ⟨hhead, hrest⟩ := List.pairwise_cons.1 hsorted
      rw [List.lookup_cons]
      rcases List.mem_cons.1 h with rfl | hmem
      · rw [beq_self_eq_true]
      · have hne : (entry.1 == head.1) = false := by
          rw [beq_eq_false_iff_ne]
          intro heq
          exact String.lt_irrefl _ (heq ▸ hhead entry hmem)
        rw [hne]
        exact ih hrest hmem

theorem contains_iff_mem_keys {t : Table α} {key : String} :
    t.contains key = true ↔ key ∈ t.keys := by
  rw [mem_keys_iff, contains, Option.isSome_iff_exists]

/-! ## Changing all values -/

/-- The table with every value changed. -/
def map (f : α → β) (t : Table α) : Table β :=
  ⟨t.entries.map fun entry => (entry.1, f entry.2), List.pairwise_map.2 t.sorted⟩

theorem ext {t u : Table α} (h : t.entries = u.entries) : t = u := by
  cases t
  cases u
  cases h
  rfl

theorem map_id (t : Table α) : t.map (fun a => a) = t :=
  ext (List.map_id _)

theorem lookup_map (f : α → β) (key : String) (entries : List (String × α)) :
    (entries.map fun entry => (entry.1, f entry.2)).lookup key = (entries.lookup key).map f := by
  induction entries with
  | nil => rfl
  | cons entry rest ih =>
      rw [List.map_cons, List.lookup_cons, List.lookup_cons]
      cases key == entry.1 with
      | true => rfl
      | false => exact ih

theorem get?_map (f : α → β) (t : Table α) (key : String) :
    (t.map f).get? key = (t.get? key).map f :=
  lookup_map f key t.entries

theorem insertEntry_map (f : α → β) (key : String) (value : α) (entries : List (String × α)) :
    insertEntry key (f value) (entries.map fun entry => (entry.1, f entry.2)) =
      (insertEntry key value entries).map fun entry => (entry.1, f entry.2) := by
  induction entries with
  | nil => rfl
  | cons entry rest ih =>
      simp only [List.map_cons, insertEntry]
      split
      · rfl
      · split
        · rw [ih, List.map_cons]
        · rfl

theorem insert_map (f : α → β) (t : Table α) (key : String) (value : α) :
    (t.map f).insert key (f value) = (t.insert key value).map f :=
  ext (insertEntry_map f key value t.entries)

/-! ## Several values -/

/-- The table with values put under their names, one after the other. -/
def insertAll (name : α → String) (t : Table α) (values : List α) : Table α :=
  values.foldl (fun t a => t.insert (name a) a) t

theorem insertAll_append (name : α → String) (t : Table α) (values more : List α) :
    t.insertAll name (values ++ more) = (t.insertAll name values).insertAll name more :=
  List.foldl_append

/-- Of several values under one name the last one stays. -/
theorem get?_insertAll (name : α → String) (t : Table α) (values : List α) (key : String) :
    (t.insertAll name values).get? key =
      (values.reverse.find? fun a => name a == key).or (t.get? key) := by
  induction values generalizing t with
  | nil => rfl
  | cons a rest ih =>
      have hfirst : (t.insert (name a) a).get? key =
          ([a].find? fun a => name a == key).or (t.get? key) := by
        by_cases hkey : key = name a
        · subst hkey
          simp
        · have hne : (name a == key) = false := by simpa using fun heq => hkey heq.symm
          rw [get?_insert_of_ne t hkey, List.find?_cons, hne]
          rfl
      rw [List.reverse_cons, List.find?_append, Option.or_assoc, ← hfirst]
      exact ih (t.insert (name a) a)

end Table
end Chord
