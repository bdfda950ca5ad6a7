/-!
# Tables

Finite maps from names to values that are listed in the order of the names.

**Input.** Names and values.

**Results.** A `Table` holds its entries by strictly ascending name, so there is one table for each
finite map. `get?`, `insert`, `erase` and `keys` are the operations, each with the law that says
what a later look-up finds.
-/

namespace Chord

/-- Entries by strictly ascending name. -/
structure Table (α : Type) where
  entries : List (String × α)
  sorted : entries.Pairwise fun a b => a.1 < b.1

namespace Table

variable {α : Type}

/-- Puts an entry at its place, in place of one with the same name. -/
def insertEntry (key : String) (value : α) : List (String × α) → List (String × α)
  | [] => [(key, value)]
  | entry :: rest =>
      if key < entry.1 then (key, value) :: entry :: rest
      else if entry.1 < key then entry :: insertEntry key value rest
      else (key, value) :: rest

theorem mem_insertEntry {key : String} {value : α} {entry : String × α} :
    {entries : List (String × α)} → entry ∈ insertEntry key value entries →
      entry = (key, value) ∨ entry ∈ entries
  | [], h => by
      simp [insertEntry] at h
      exact Or.inl h
  | head :: rest, h => by
      unfold insertEntry at h
      split at h
      · simpa using h
      · split at h
        · rcases List.mem_cons.1 h with h | h
          · exact Or.inr (h ▸ List.mem_cons_self)
          · rcases mem_insertEntry h with h | h
            · exact Or.inl h
            · exact Or.inr (List.mem_cons_of_mem _ h)
        · rcases List.mem_cons.1 h with h | h
          · exact Or.inl h
          · exact Or.inr (List.mem_cons_of_mem _ h)

theorem insertEntry_sorted (key : String) (value : α) :
    {entries : List (String × α)} → (entries.Pairwise fun a b => a.1 < b.1) →
      (insertEntry key value entries).Pairwise fun a b => a.1 < b.1
  | [], _ => by simp [insertEntry]
  | head :: rest, h => by
      have hrest := (List.pairwise_cons.1 h).2
      have hhead := (List.pairwise_cons.1 h).1
      unfold insertEntry
      split
      · rename_i hlt
        refine List.pairwise_cons.2 ⟨?_, h⟩
        intro entry hmem
        rcases List.mem_cons.1 hmem with rfl | hmem
        · exact hlt
        · exact String.lt_trans hlt (hhead entry hmem)
      · rename_i hge
        split
        · rename_i hlt
          refine List.pairwise_cons.2 ⟨?_, insertEntry_sorted key value hrest⟩
          intro entry hmem
          rcases mem_insertEntry hmem with rfl | hmem
          · exact hlt
          · exact hhead entry hmem
        · rename_i hle
          have heq : key = head.1 := String.le_antisymm hle hge
          refine List.pairwise_cons.2 ⟨?_, hrest⟩
          intro entry hmem
          rw [heq]
          exact hhead entry hmem

/-- The table without entries. -/
def empty : Table α :=
  ⟨[], List.Pairwise.nil⟩

instance : EmptyCollection (Table α) := ⟨empty⟩

instance : Inhabited (Table α) := ⟨empty⟩

/-- The value under a name. -/
def get? (t : Table α) (key : String) : Option α :=
  t.entries.lookup key

/-- Whether there is a value under a name. -/
def contains (t : Table α) (key : String) : Bool :=
  (t.get? key).isSome

/-- Puts a value under a name, in place of an earlier one. -/
def insert (t : Table α) (key : String) (value : α) : Table α :=
  ⟨insertEntry key value t.entries, insertEntry_sorted key value t.sorted⟩

/-- Removes what is under a name. -/
def erase (t : Table α) (key : String) : Table α :=
  ⟨t.entries.filter fun entry => entry.1 != key, t.sorted.filter _⟩

/-- The names, ascending. -/
def keys (t : Table α) : List String :=
  t.entries.map Prod.fst

/-- The values, by ascending name. -/
def values (t : Table α) : List α :=
  t.entries.map Prod.snd

theorem keys_sorted (t : Table α) : t.keys.Pairwise (· < ·) :=
  List.pairwise_map.2 t.sorted

@[simp] theorem get?_empty (key : String) : (empty : Table α).get? key = none :=
  rfl

theorem lookup_insertEntry_self (key : String) (value : α) :
    (entries : List (String × α)) → (insertEntry key value entries).lookup key = some value
  | [] => by simp [insertEntry]
  | head :: rest => by
      unfold insertEntry
      split
      · simp
      · split
        · rename_i hlt
          have hne : (key == head.1) = false := by
            simp only [beq_eq_false_iff_ne]
            rintro rfl
            exact String.lt_irrefl _ hlt
          rw [List.lookup_cons, hne]
          exact lookup_insertEntry_self key value rest
        · simp

theorem lookup_insertEntry_of_ne {key other : String} (h : other ≠ key) (value : α) :
    (entries : List (String × α)) →
      (insertEntry key value entries).lookup other = entries.lookup other
  | [] => by
      have hne : (other == key) = false := by simpa using h
      simp [insertEntry, List.lookup_cons, hne]
  | head :: rest => by
      have hne : (other == key) = false := by simpa using h
      unfold insertEntry
      split
      · rw [List.lookup_cons, hne]
      · split
        · rw [List.lookup_cons, List.lookup_cons, lookup_insertEntry_of_ne h value rest]
        · rename_i hge hle
          have heq : key = head.1 := String.le_antisymm hle hge
          rw [List.lookup_cons, List.lookup_cons, ← heq, hne]

@[simp] theorem get?_insert_self (t : Table α) (key : String) (value : α) :
    (t.insert key value).get? key = some value :=
  lookup_insertEntry_self key value t.entries

theorem get?_insert_of_ne (t : Table α) {key other : String} (h : other ≠ key) (value : α) :
    (t.insert key value).get? other = t.get? other :=
  lookup_insertEntry_of_ne h value t.entries

theorem lookup_erase_self (key : String) :
    (entries : List (String × α)) →
      (entries.filter fun entry => entry.1 != key).lookup key = none
  | [] => rfl
  | head :: rest => by
      by_cases h : head.1 = key
      · simp only [List.filter_cons, h, bne_self_eq_false, Bool.false_eq_true, if_false]
        exact lookup_erase_self key rest
      · have hne : (key == head.1) = false := by simpa using fun e => h (e.symm)
        have hb : (head.1 != key) = true := by simpa using h
        rw [List.filter_cons, if_pos hb, List.lookup_cons, hne]
        exact lookup_erase_self key rest

theorem lookup_erase_of_ne {key other : String} (h : other ≠ key) :
    (entries : List (String × α)) →
      (entries.filter fun entry => entry.1 != key).lookup other = entries.lookup other
  | [] => rfl
  | head :: rest => by
      by_cases hk : head.1 = key
      · have hne : (other == head.1) = false := by simpa [hk] using h
        simp only [List.filter_cons, hk, bne_self_eq_false, Bool.false_eq_true, if_false]
        rw [List.lookup_cons, hne]
        exact lookup_erase_of_ne h rest
      · have hb : (head.1 != key) = true := by simpa using hk
        rw [List.filter_cons, if_pos hb, List.lookup_cons, List.lookup_cons,
          lookup_erase_of_ne h rest]

@[simp] theorem get?_erase_self (t : Table α) (key : String) : (t.erase key).get? key = none :=
  lookup_erase_self key t.entries

theorem get?_erase_of_ne (t : Table α) {key other : String} (h : other ≠ key) :
    (t.erase key).get? other = t.get? other :=
  lookup_erase_of_ne h t.entries

end Table

end Chord
