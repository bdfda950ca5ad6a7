import Chord.Hotkey
import Chord.Proofs.Token.Splitting

/-!
# Canonical keys

**Input.** Sets of modifiers, and keys that are words.

**Results.** `Modifiers.toList_foldl_insert`: a set put together from a list has the modifiers of
that list, in canonical order. `canonicalKey_of_isWordChar`: the canonical name of a key that is a
word is a word itself.
-/

namespace Chord

/-! ## Word characters -/

theorem isAlpha_of_isAlpha_toLower {c : Char} (h : c.toLower.isAlpha = true) :
    c.isAlpha = true := by
  unfold Char.toLower at h
  split at h
  · rename_i hrange
    have hupper : c.isUpper = true := decide_eq_true hrange
    show (c.isUpper || c.isLower) = true
    rw [hupper, Bool.true_or]
  · exact h

namespace Scan

/-- What holds of the word characters below 128 holds of all word characters. -/
theorem forall_isWordChar {P : Char → Prop}
    (h : ∀ n < 128, isWordChar (Char.ofNat n) = true → P (Char.ofNat n)) {c : Char}
    (hc : isWordChar c = true) : P c := by
  have hrange := toNat_of_isWordChar hc
  have hn := h c.toNat (by omega)
  rw [Char.ofNat_toNat] at hn
  exact hn hc

theorem isWordChar_of_isAlpha {c : Char} (h : c.isAlpha = true) : isWordChar c = true := by
  simp [isWordChar, Char.isAlphanum, h]

theorem isDigit_of_isAlpha {c : Char} (h : c.isAlpha = true) : c.isDigit = false :=
  forall_isWordChar (P := fun c => c.isAlpha = true → c.isDigit = false) (by decide)
    (isWordChar_of_isAlpha h) h

theorem ofSymbol?_of_isWordChar {c : Char} (h : isWordChar c = true) :
    Modifier.ofSymbol? c = none :=
  forall_isWordChar (P := fun c => Modifier.ofSymbol? c = none) (by decide) h

end Scan

/-! ## Sets of modifiers -/

namespace Modifiers

@[simp] theorem holds_insert (ms : Modifiers) (m n : Modifier) :
    (ms.insert m).holds n = (decide (n = m) || ms.holds n) := by
  cases m <;> cases n <;> simp [insert, holds]

theorem holds_foldl_insert (ms : Modifiers) (l : List Modifier) (n : Modifier) :
    (l.foldl insert ms).holds n = (decide (n ∈ l) || ms.holds n) := by
  induction l generalizing ms with
  | nil => simp
  | cons m l ih =>
      rw [List.foldl_cons, ih, holds_insert, ← Bool.or_assoc]
      congr 1
      rw [Bool.or_comm]
      simp [Bool.decide_or]

/-- The modifiers of a set that was put together from a list. -/
theorem toList_foldl_insert (l : List Modifier) :
    (l.foldl insert empty).toList = Modifier.all.filter (· ∈ l) := by
  unfold toList
  congr 1
  funext n
  rw [holds_foldl_insert]
  cases n <;> simp [empty, holds]

end Modifiers

namespace Text

theorem trim_eq_self {cs : List Char} (h : ∀ c ∈ cs, isBlank c = false) : trim cs = cs := by
  have hdrop : ∀ {l : List Char}, (∀ c ∈ l, isBlank c = false) → l.dropWhile isBlank = l := by
    intro l hl
    cases l with
    | nil => rfl
    | cons c l => exact List.dropWhile_cons_of_neg (by simp [hl c List.mem_cons_self])
  unfold trim trimEnd
  rw [hdrop h, hdrop fun c hc => h c (List.mem_reverse.1 hc), List.reverse_reverse]

end Text

namespace Hotkey

theorem takeWords_cons_of_ne (ms : Modifiers) (word : List Char) {c : Char} (hc : c ≠ '+')
    (cs : List Char) : takeWords ms word (c :: cs) = takeWords ms (c :: word) cs := by
  rw [takeWords]
  rintro d ds rfl
  exact absurd rfl hc

theorem takeWords_append (ms : Modifiers) (word : List Char) {cs : List Char}
    (h : '+' ∉ cs) (rest : List Char) :
    takeWords ms word (cs ++ rest) = takeWords ms (cs.reverse ++ word) rest := by
  induction cs generalizing word with
  | nil => rfl
  | cons c cs ih =>
      have hc : c ≠ '+' := fun heq => h (heq ▸ List.mem_cons_self)
      rw [List.cons_append, takeWords_cons_of_ne ms word hc,
        ih (c :: word) fun hmem => h (List.mem_cons_of_mem c hmem)]
      simp

end Hotkey

/-! ## Canonical keys -/

section CanonicalKey

open Scan

theorem isWordChar_toLower {c : Char} (h : isWordChar c = true) : isWordChar c.toLower = true :=
  forall_isWordChar (P := fun c => isWordChar c.toLower = true) (by decide) h

theorem isWordChar_toUpper {c : Char} (h : isWordChar c = true) : isWordChar c.toUpper = true :=
  forall_isWordChar (P := fun c => isWordChar c.toUpper = true) (by decide) h

theorem upperChar_of_isWordChar {c : Char} (h : isWordChar c = true) :
    Text.upperChar c = [c.toUpper] := by
  have hrange := toNat_of_isWordChar h
  rw [Text.upperChar, if_pos (by omega)]

theorem lowerAfter_of_isWordChar (before : List Char) {cs : List Char}
    (h : ∀ c ∈ cs, isWordChar c = true) : Text.lowerAfter before cs = cs.map Char.toLower := by
  induction cs generalizing before with
  | nil => rfl
  | cons c cs ih =>
      have hc := h c List.mem_cons_self
      have hrange := toNat_of_isWordChar hc
      have hsigma : c ≠ 'Σ' := by
        rintro rfl
        exact absurd hc (by decide)
      rw [Text.lowerAfter, ih (c :: before) fun d hd => h d (List.mem_cons_of_mem c hd)]
      simp [hsigma, Text.lowerChar, Nat.lt_of_le_of_lt hrange.2 (by decide : 0x7A < 0x80)]

/-- The canonical name of a key that is a word is a word. -/
theorem canonicalKey_of_isWordChar {key : List Char} (hne : key ≠ [])
    (hkey : ∀ c ∈ key, isWordChar c = true) :
    canonicalKey key ≠ [] ∧ ∀ c ∈ canonicalKey key, isWordChar c = true := by
  have hblank : ∀ c ∈ key, Text.isBlank c = false :=
    fun c hc => isBlank_of_isKeyChar (isKeyChar_of_isWordChar (hkey c hc))
  have hmap : ∀ {f : Char → Char}, (∀ c, isWordChar c = true → isWordChar (f c) = true) →
      ∀ {cs : List Char}, (∀ c ∈ cs, isWordChar c = true) →
        ∀ c ∈ cs.map f, isWordChar c = true := by
    intro f hf cs hcs c hc
    obtain ⟨d, hd, rfl⟩ := List.mem_map.1 hc
    exact hf d (hcs d hd)
  unfold canonicalKey
  rw [Text.trim_eq_self hblank]
  split
  · exact absurd rfl hne
  · rename_i c
    have hc := hkey c List.mem_cons_self
    rw [upperChar_of_isWordChar hc]
    exact ⟨List.cons_ne_nil _ _, by simpa using isWordChar_toUpper hc⟩
  · rename_i c rest _
    have hc := hkey c List.mem_cons_self
    split
    · exact ⟨by simp, hmap (fun _ => isWordChar_toUpper) hkey⟩
    · split
      · rename_i name hname
        have htable : ∀ entry ∈ keyNames, entry.2.toList ≠ [] ∧
            entry.2.toList.all isWordChar = true := by decide
        obtain ⟨before, after, hsplit, -⟩ := List.lookup_eq_some_iff.1 hname
        have hmem : (String.ofList ((c :: rest).map Char.toLower), name) ∈ keyNames := by
          rw [hsplit]
          exact List.mem_append_right _ List.mem_cons_self
        exact ⟨(htable _ hmem).1, List.all_eq_true.1 (htable _ hmem).2⟩
      · rw [upperChar_of_isWordChar hc, Text.lower,
          lowerAfter_of_isWordChar [] fun d hd => hkey d (List.mem_cons_of_mem c hd)]
        refine ⟨List.cons_ne_nil _ _, ?_⟩
        intro d hd
        rcases List.mem_cons.1 hd with rfl | hd
        · exact isWordChar_toUpper hc
        · exact hmap (fun _ => isWordChar_toLower)
            (fun e he => hkey e (List.mem_cons_of_mem c he)) d hd

end CanonicalKey

end Chord
