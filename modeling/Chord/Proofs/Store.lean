import Chord.Proofs.Table
import Chord.Store

/-!
# Files that were written

**Input.** A store and a path to which some text can be written.

**Results.** `read_of_write`: the text is read back. Writing makes no directory and puts nothing in
the way of the path, because no proper part of a path is the path itself (`join_take_ne`).
-/

namespace Chord
namespace Store

/-! ## Paths -/

theorem ne_empty_of_mem_parts {path part : String} (h : part ∈ parts path) : part ≠ "" := by
  have hpart := (List.mem_filter.1 h).2
  simp only [Bool.and_eq_true, bne_iff_ne] at hpart
  exact hpart.1

/-- A path is longer than each of its fronts. -/
theorem join_take_ne {ps : List String} (hps : ∀ part ∈ ps, part ≠ "") {i : Nat}
    (hi : i < ps.length) : join (ps.take i) ≠ join ps := by
  have hback : ps.drop i ≠ [] := by
    rw [Ne, List.drop_eq_nil_iff]
    omega
  have hsplit := List.take_append_drop i ps
  intro heq
  by_cases hfront : ps.take i = []
  · -- The front is the empty path, but the first part of the path is not empty.
    rw [hfront, join, join, String.intercalate_nil] at heq
    cases ps with
    | nil => exact absurd hi (Nat.not_lt_zero i)
    | cons part rest =>
        refine hps part List.mem_cons_self ?_
        cases rest with
        | nil => rw [heq, String.intercalate_singleton]
        | cons next rest =>
            rw [String.intercalate_cons_cons] at heq
            have hempty := String.append_eq_empty_iff.1 heq.symm
            exact (String.append_eq_empty_iff.1 hempty.1).1
  · have hjoin : join ps = join (ps.take i) ++ "/" ++ join (ps.drop i) := by
      rw [join, join, join, ← String.intercalate_append_of_ne_nil hfront hback, hsplit]
    have hlength := congrArg String.length (heq.trans hjoin)
    simp only [String.length_append] at hlength
    have hslash : "/".length = 1 := rfl
    omega

/-! ## Writing -/

variable {s s' : Store} {path : String} {bytes : ByteArray}

/-- When bytes can be written, and what the store is then. -/
theorem writeBytes_eq_ok : s.writeBytes path bytes = .ok s' ↔
    path.isEmpty = false ∧ s.isDirectory (parts path) = false ∧ s.blocked? (parts path) = none ∧
      path.endsWith "/" = false ∧
      s' = { s with files := s.files.insert (join (parts path)) bytes } := by
  constructor
  · intro h
    unfold writeBytes at h
    simp only at h
    split at h
    · cases h
    rename_i hpath
    split at h
    · cases h
    rename_i hdirectory
    split at h
    · cases h
    rename_i hblocked
    split at h
    · cases h
    rename_i hend
    cases h
    rw [Bool.not_eq_true] at hpath hdirectory hend
    exact ⟨hpath, hdirectory, hblocked, hend, rfl⟩
  · rintro ⟨hpath, hdirectory, hblocked, hend, rfl⟩
    simp [writeBytes, hpath, hdirectory, hblocked, hend]

/-- A new file lies below the same directories as the files before, or below its own. -/
theorem isDirectory_insert (s : Store) (ps : List String) (path : String) (bytes : ByteArray) :
    ({ s with files := s.files.insert path bytes } : Store).isDirectory ps =
      (s.isDirectory ps || path.startsWith (join ps ++ "/")) := by
  have hkeys : (s.files.insert path bytes).keys.any (·.startsWith (join ps ++ "/")) =
      (path.startsWith (join ps ++ "/") || s.files.keys.any (·.startsWith (join ps ++ "/"))) := by
    rw [Bool.eq_iff_iff, Bool.or_eq_true, List.any_eq_true, List.any_eq_true]
    simp [Table.mem_keys_insert]
  rw [isDirectory, isDirectory, hkeys]
  cases path.startsWith (join ps ++ "/") <;> simp

theorem not_isDirectory_insert {ps : List String} (h : s.isDirectory ps = false)
    (bytes : ByteArray) :
    ({ s with files := s.files.insert (join ps) bytes } : Store).isDirectory ps = false := by
  have hself : (join ps).startsWith (join ps ++ "/") = false := by
    rw [String.startsWith_string_eq_false_iff]
    intro hle
    have hlength := hle.length_le
    rw [String.toList_append, List.length_append] at hlength
    have hslash : "/".toList.length = 1 := rfl
    omega
  rw [isDirectory_insert, h, hself]
  rfl

/-- Nothing blocks a path whose fronts are directories and no files. -/
theorem blocked?_eq_none {ps : List String} : s.blocked? ps = none ↔
    (∀ i < ps.length, s.files.contains (join (ps.take i)) = false) ∧
      (∀ i < ps.length, s.isDirectory (ps.take i) = true) ∧
      s.closed.contains (join ps) = false := by
  have hfiles : (((List.range ps.length).map ps.take).any fun front =>
      s.files.contains (join front)) = false ↔
        ∀ i < ps.length, s.files.contains (join (ps.take i)) = false := by
    simp
  have hdirectories : ((List.range ps.length).map ps.take).all s.isDirectory = true ↔
      ∀ i < ps.length, s.isDirectory (ps.take i) = true := by
    simp
  rw [blocked?, ← hfiles, ← hdirectories]
  cases (((List.range ps.length).map ps.take).any fun front => s.files.contains (join front)) <;>
    cases ((List.range ps.length).map ps.take).all s.isDirectory <;>
    cases s.closed.contains (join ps) <;> simp

/-- A file does not stand in its own way. -/
theorem blocked?_insert {ps : List String} (hps : ∀ part ∈ ps, part ≠ "")
    (h : s.blocked? ps = none) (bytes : ByteArray) :
    ({ s with files := s.files.insert (join ps) bytes } : Store).blocked? ps = none := by
  obtain ⟨hfiles, hdirectories, hclosed⟩ := blocked?_eq_none.1 h
  refine blocked?_eq_none.2 ⟨fun i hi => ?_, fun i hi => ?_, hclosed⟩
  · show (((s.files.insert (join ps) bytes).get? (join (ps.take i))).isSome) = false
    rw [Table.get?_insert_of_ne _ (join_take_ne hps hi)]
    exact hfiles i hi
  · rw [isDirectory_insert, hdirectories i hi]
    rfl

/-- **A text that was written is read back.** -/
theorem read_of_write {text : String} (h : s.write path text = .ok s') :
    s'.read path = .ok text := by
  obtain ⟨hpath, hdirectory, hblocked, hend, rfl⟩ := writeBytes_eq_ok.1 h
  have hps : ∀ part ∈ parts path, part ≠ "" := fun _ => ne_empty_of_mem_parts
  have hbytes :
      ({ s with files := s.files.insert (join (parts path)) text.toUTF8 } : Store).readBytes path =
        .ok text.toUTF8 := by
    simp [readBytes, hpath, not_isDirectory_insert hdirectory, blocked?_insert hps hblocked, hend]
  have htext : String.fromUTF8? text.toUTF8 = some text :=
    dif_pos text.isValidUTF8
  simp only [read, hbytes, htext, bind, Except.bind]

end Store
end Chord
