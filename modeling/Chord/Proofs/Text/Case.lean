import Chord.Text.Blank
import Chord.Text.Case
import Mathlib.Data.List.DropRight

/-!
# What case mapping keeps

**Input.** Characters and texts as lists of characters.

**Algorithm.** The images of a run lie between those of its first and of its last code point, so
that one look at each run of a case table tells where they are.

**Results.** `mem_upperChar` and `mem_lowerAfter`: a character that comes out of a case mapping went
into it, or it is `isInked`, neither a blank nor an ASCII sign. `IsSign.count_lowerAfter`: signs are
neither lost nor added. `tight_trim` and `Tight.trim_eq`: texts without blanks at their ends are
what trimming gives.
-/

namespace Chord
namespace Text

/-! ## ASCII characters -/

/-- What holds of the code points below 128 holds of all ASCII characters. -/
theorem forall_ascii {P : Char → Prop} (h : ∀ n < 128, P (Char.ofNat n)) {c : Char}
    (hc : c.toNat < 128) : P c := by
  have hn := h c.toNat hc
  rwa [Char.ofNat_toNat] at hn

theorem toUpper_of_le {c : Char} (hc : 128 ≤ c.toNat) : c.toUpper = c := by
  unfold Char.toUpper
  rw [dif_neg]
  rintro ⟨-, hlast⟩
  have hlast : c.toNat ≤ 122 := hlast
  omega

theorem toLower_of_le {c : Char} (hc : 128 ≤ c.toNat) : c.toLower = c := by
  unfold Char.toLower
  rw [dif_neg]
  rintro ⟨-, hlast⟩
  have hlast : c.toNat ≤ 90 := hlast
  omega

theorem ascii_of_toUpper {c : Char} (h : c.toUpper.toNat < 128) : c.toNat < 128 := by
  by_contra hc
  rw [toUpper_of_le (Nat.le_of_not_lt hc)] at h
  exact hc h

theorem ascii_of_toLower {c : Char} (h : c.toLower.toNat < 128) : c.toNat < 128 := by
  by_contra hc
  rw [toLower_of_le (Nat.le_of_not_lt hc)] at h
  exact hc h

/-! ## Where the images are -/

/-- ASCII digits and letters, and ranges behind ASCII that have no blanks. -/
def inkRanges : List (Nat × Nat) := [
  (0x30, 0x39), (0x41, 0x5A), (0x61, 0x7A), (0xA1, 0x167F), (0x1681, 0x1FFF), (0x2060, 0x2FFF),
  (0x3001, 0xD7FF), (0xE000, 0x10FFFF)]

/-- Characters in the ranges of digits and letters. -/
def isInked (c : Char) : Bool :=
  inRanges c.toNat inkRanges

theorem inRanges_of_mem {n : Nat} {range : Nat × Nat} {ranges : List (Nat × Nat)}
    (h : range ∈ ranges) (hfirst : range.1 ≤ n) (hlast : n ≤ range.2) :
    inRanges n ranges = true := by
  induction ranges with
  | nil => cases h
  | cons head ranges ih =>
      unfold inRanges
      rcases List.mem_cons.1 h with rfl | h
      · simp [hfirst, hlast]
      · rw [ih h, Bool.or_true]

theorem isBlank_of_isInked {c : Char} (h : isInked c = true) : isBlank c = false := by
  simp only [isInked, inkRanges, inRanges, Bool.or_false, Bool.or_eq_true, Bool.and_eq_true,
    decide_eq_true_eq] at h
  simp only [isBlank, Bool.or_eq_false_iff, Bool.and_eq_false_iff, decide_eq_false_iff_not,
    beq_eq_false_iff_ne]
  omega

theorem isInked_ofNat {range : Nat × Nat} (h : range ∈ inkRanges) {n : Nat}
    (hfirst : range.1 ≤ n) (hlast : n ≤ range.2) : isInked (Char.ofNat n) = true := by
  have hvalid : n.isValidChar := by
    simp only [inkRanges, List.mem_cons, List.not_mem_nil, or_false] at h
    unfold Nat.isValidChar
    rcases h with rfl | rfl | rfl | rfl | rfl | rfl | rfl | rfl <;> simp only at hfirst hlast <;>
      omega
  have hnat : (Char.ofNat n).toNat = n := by
    unfold Char.ofNat
    rw [dif_pos hvalid]
    rfl
  unfold isInked
  rw [hnat]
  exact inRanges_of_mem h hfirst hlast

/-- A run moves a code point that it has. -/
theorem findRun_eq_some {n m : Nat} {runs : List CaseRun} (h : findRun n runs = some m) :
    ∃ run ∈ runs, run.first ≤ n ∧ n ≤ run.last ∧ m = ((n : Int) + run.shift).toNat := by
  induction runs with
  | nil => cases h
  | cons run runs ih =>
      unfold findRun at h
      split at h
      · rename_i hrun
        simp only [Bool.and_eq_true, decide_eq_true_eq] at hrun
        cases h
        exact ⟨run, List.mem_cons_self, hrun.1.1, hrun.1.2, rfl⟩
      · obtain ⟨other, hmem, hother⟩ := ih h
        exact ⟨other, List.mem_cons_of_mem run hmem, hother⟩

/-- All images of a run lie in one of the ranges of digits and letters. -/
def CaseRun.IsInked (run : CaseRun) : Prop :=
  ∃ range ∈ inkRanges, (range.1 : Int) ≤ run.first + run.shift ∧ run.last + run.shift ≤ range.2

instance (run : CaseRun) : Decidable run.IsInked :=
  inferInstanceAs (Decidable (∃ range ∈ inkRanges, _))

theorem mem_mapChar {runs : List CaseRun} {expansions : List (Nat × List Nat)}
    (hruns : ∀ run ∈ runs, run.IsInked)
    (hexpansions : ∀ entry ∈ expansions, ∀ n ∈ entry.2, isInked (Char.ofNat n) = true) {c d : Char}
    (h : d ∈ mapChar runs expansions c) : d = c ∨ isInked d = true := by
  unfold mapChar at h
  split at h
  · rename_i n hn
    obtain ⟨run, hmem, hfirst, hlast, rfl⟩ := findRun_eq_some hn
    obtain ⟨range, hrange, hlow, hhigh⟩ := hruns run hmem
    obtain rfl := List.mem_singleton.1 h
    exact Or.inr (isInked_ofNat hrange (by omega) (by omega))
  · split at h
    · rename_i ns hns
      obtain ⟨n, hn, rfl⟩ := List.mem_map.1 h
      obtain ⟨before, after, hsplit, -⟩ := List.lookup_eq_some_iff.1 hns
      refine Or.inr (hexpansions (c.toNat, ns) ?_ n hn)
      rw [hsplit]
      exact List.mem_append_right _ List.mem_cons_self
    · exact Or.inl (List.mem_singleton.1 h)

theorem mapChar_ne_nil {runs : List CaseRun} {expansions : List (Nat × List Nat)}
    (hexpansions : ∀ entry ∈ expansions, entry.2 ≠ []) (c : Char) :
    mapChar runs expansions c ≠ [] := by
  unfold mapChar
  split
  · exact List.cons_ne_nil _ _
  · split
    · rename_i ns hns
      obtain ⟨before, after, hsplit, -⟩ := List.lookup_eq_some_iff.1 hns
      have hmem : (c.toNat, ns) ∈ expansions := by
        rw [hsplit]
        exact List.mem_append_right _ List.mem_cons_self
      simpa using hexpansions _ hmem
    · exact List.cons_ne_nil _ _

theorem toUpper_eq_or_isInked {c : Char} (hc : c.toNat < 128) :
    c.toUpper = c ∨ isInked c.toUpper = true :=
  forall_ascii (P := fun c => c.toUpper = c ∨ isInked c.toUpper = true) (by decide) hc

theorem toLower_eq_or_isInked {c : Char} (hc : c.toNat < 128) :
    c.toLower = c ∨ isInked c.toLower = true :=
  forall_ascii (P := fun c => c.toLower = c ∨ isInked c.toLower = true) (by decide) hc

/-- The capital form of a character is the character itself, or it is inked. -/
theorem mem_upperChar {c d : Char} (h : d ∈ upperChar c) : d = c ∨ isInked d = true := by
  unfold upperChar at h
  split at h
  · rename_i hc
    obtain rfl := List.mem_singleton.1 h
    exact toUpper_eq_or_isInked hc
  · exact mem_mapChar (by decide +kernel) (by decide +kernel) h

/-- The small form of a character is the character itself, or it is inked. -/
theorem mem_lowerChar {c d : Char} (h : d ∈ lowerChar c) : d = c ∨ isInked d = true := by
  unfold lowerChar at h
  split at h
  · rename_i hc
    obtain rfl := List.mem_singleton.1 h
    exact toLower_eq_or_isInked hc
  · exact mem_mapChar (by decide +kernel) (by decide +kernel) h

theorem upperChar_ne_nil (c : Char) : upperChar c ≠ [] := by
  unfold upperChar
  split
  · exact List.cons_ne_nil _ _
  · exact mapChar_ne_nil (by decide +kernel) c

theorem lowerChar_ne_nil (c : Char) : lowerChar c ≠ [] := by
  unfold lowerChar
  split
  · exact List.cons_ne_nil _ _
  · exact mapChar_ne_nil (by decide +kernel) c

/-! ## Small forms of texts -/

/-- The small form of a character in a text. -/
def lowerAt (before : List Char) (c : Char) (after : List Char) : List Char :=
  if c == 'Σ' then [if startsCased before && !startsCased after then 'ς' else 'σ']
  else lowerChar c

theorem lowerAfter_cons (before : List Char) (c : Char) (cs : List Char) :
    lowerAfter before (c :: cs) = lowerAt before c cs ++ lowerAfter (c :: before) cs :=
  rfl

theorem mem_lowerAt {before after : List Char} {c d : Char} (h : d ∈ lowerAt before c after) :
    d = c ∨ isInked d = true := by
  unfold lowerAt at h
  split at h
  · obtain rfl := List.mem_singleton.1 h
    right
    split <;> decide
  · exact mem_lowerChar h

theorem lowerAt_ne_nil (before : List Char) (c : Char) (after : List Char) :
    lowerAt before c after ≠ [] := by
  unfold lowerAt
  split
  · exact List.cons_ne_nil _ _
  · exact lowerChar_ne_nil c

theorem lowerAfter_eq_nil {before cs : List Char} (h : lowerAfter before cs = []) : cs = [] := by
  cases cs with
  | nil => rfl
  | cons c cs => exact absurd (List.append_eq_nil_iff.1 h).1 (lowerAt_ne_nil before c cs)

/-- The last character of the small form of a text is the last one of the text, or it is inked. -/
theorem getLast?_lowerAfter {before cs : List Char} {d : Char}
    (h : d ∈ (lowerAfter before cs).getLast?) : d ∈ cs.getLast? ∨ isInked d = true := by
  induction cs generalizing before with
  | nil => cases h
  | cons c cs ih =>
      rw [lowerAfter_cons] at h
      by_cases hcs : lowerAfter (c :: before) cs = []
      · obtain rfl := lowerAfter_eq_nil hcs
        rw [hcs, List.append_nil] at h
        rcases mem_lowerAt (List.mem_of_getLast? h) with rfl | hinked
        · exact Or.inl rfl
        · exact Or.inr hinked
      · rw [List.getLast?_append_of_ne_nil _ hcs] at h
        have hne : cs ≠ [] := by
          rintro rfl
          exact hcs rfl
        rw [← List.singleton_append, List.getLast?_append_of_ne_nil _ hne]
        exact ih h

/-! ## Signs -/

/-- A character that no case mapping changes or brings about. -/
structure IsSign (x : Char) : Prop where
  isInked : isInked x = false
  isBlank : isBlank x = false
  upper : upperChar x = [x]
  lower : lowerChar x = [x]
  ne_sigma : x ≠ 'Σ'

theorem isSign_plus : IsSign '+' := by
  constructor <;> decide

theorem IsSign.count_upperChar {x : Char} (hx : IsSign x) (c : Char) :
    (upperChar c).count x = [c].count x := by
  by_cases hc : c = x
  · rw [hc, hx.upper]
  · rw [List.count_eq_zero_of_not_mem, List.count_eq_zero_of_not_mem]
    · exact fun hmem => hc (List.mem_singleton.1 hmem).symm
    · intro hmem
      rcases mem_upperChar hmem with rfl | hinked
      · exact hc rfl
      · exact absurd hinked (by rw [hx.isInked]; decide)

theorem IsSign.count_lowerAt {x : Char} (hx : IsSign x) (before : List Char) (c : Char)
    (after : List Char) : (lowerAt before c after).count x = [c].count x := by
  by_cases hc : c = x
  · subst hc
    rw [lowerAt, if_neg (by simpa using hx.ne_sigma), hx.lower]
  · rw [List.count_eq_zero_of_not_mem, List.count_eq_zero_of_not_mem]
    · exact fun hmem => hc (List.mem_singleton.1 hmem).symm
    · intro hmem
      rcases mem_lowerAt hmem with rfl | hinked
      · exact hc rfl
      · exact absurd hinked (by rw [hx.isInked]; decide)

theorem IsSign.count_lowerAfter {x : Char} (hx : IsSign x) (before cs : List Char) :
    (lowerAfter before cs).count x = cs.count x := by
  induction cs generalizing before with
  | nil => rfl
  | cons c cs ih =>
      rw [lowerAfter_cons, List.count_append, hx.count_lowerAt, ih, ← List.count_append]
      rfl

/-! ## Trimming -/

/-- Texts without blanks at their two ends. -/
structure Tight (cs : List Char) : Prop where
  first : ∀ c ∈ cs.head?, isBlank c = false
  last : ∀ c ∈ cs.getLast?, isBlank c = false

theorem Tight.trim_eq {cs : List Char} (h : Tight cs) : trim cs = cs := by
  have hfirst : cs.dropWhile isBlank = cs := by
    cases cs with
    | nil => rfl
    | cons c cs => exact List.dropWhile_cons_of_neg (by simp [h.first c rfl])
  show (cs.dropWhile isBlank).rdropWhile isBlank = cs
  rw [hfirst, List.rdropWhile_eq_self_iff]
  intro hne
  rw [h.last _ (List.getLast?_eq_some_getLast hne)]
  decide

theorem tight_trim (cs : List Char) : Tight (trim cs) where
  first := by
    intro c hc
    have hfront : trim cs <+: cs.dropWhile isBlank := List.rdropWhile_prefix _ _
    cases htrim : trim cs with
    | nil =>
        rw [htrim] at hc
        cases hc
    | cons d ds =>
        rw [htrim] at hc hfront
        cases hc
        obtain ⟨rest, hrest⟩ := hfront
        have hhead := List.head?_dropWhile_not isBlank cs
        rw [← hrest] at hhead
        exact hhead
  last := by
    intro c hc
    obtain ⟨hne, rfl⟩ := List.mem_getLast?_eq_getLast hc
    exact Bool.eq_false_iff.2 (List.rdropWhile_last_not isBlank _ hne)

theorem isBlank_of_trim_eq_nil {cs : List Char} (h : trim cs = []) :
    ∀ c ∈ cs, isBlank c = true := by
  have hdropped : ∀ c ∈ cs.dropWhile isBlank, isBlank c = true := List.rdropWhile_eq_nil_iff.1 h
  refine List.dropWhile_eq_nil_iff.1 ?_
  cases hdrop : cs.dropWhile isBlank with
  | nil => rfl
  | cons c rest =>
      have hhead := List.head?_dropWhile_not isBlank cs
      rw [hdrop] at hdropped hhead
      exact absurd (hdropped c List.mem_cons_self) (by rw [hhead]; decide)

theorem IsSign.count_dropWhile {x : Char} (hx : IsSign x) (cs : List Char) :
    (cs.dropWhile Text.isBlank).count x = cs.count x := by
  have hnone : (cs.takeWhile Text.isBlank).count x = 0 := by
    refine List.count_eq_zero_of_not_mem fun hmem => ?_
    have hblank := List.mem_takeWhile_imp hmem
    exact absurd hblank (by rw [hx.isBlank]; decide)
  have hsplit : (cs.takeWhile Text.isBlank ++ cs.dropWhile Text.isBlank).count x = cs.count x := by
    rw [List.takeWhile_append_dropWhile]
  rwa [List.count_append, hnone, Nat.zero_add] at hsplit

/-- Trimming takes no signs away. -/
theorem IsSign.count_trim {x : Char} (hx : IsSign x) (cs : List Char) :
    (trim cs).count x = cs.count x := by
  unfold trim trimEnd
  rw [List.count_reverse, hx.count_dropWhile, List.count_reverse, hx.count_dropWhile]

end Text
end Chord
