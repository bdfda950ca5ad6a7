import Chord.Text.Quoted

/-!
# Quoted texts can be told apart

**Input.** Texts in double quotes.

**Results.** `Escape` lists the forms in which a character can be written. None of them contains a
line end, and none is the beginning of another one; hence a quoted text determines where it ends and
what it stands for, whatever is behind it (`quoted_append_inj`).
-/

namespace Chord
namespace Text

/-! ## Numbers of characters -/

theorem digitChar_inj : ∀ d < 16, ∀ d' < 16, Nat.digitChar d = Nat.digitChar d' → d = d' := by
  decide

/-- What is neither a line end nor a brace can stand in the number of a character. -/
theorem digitChar_ne : ∀ d < 16, Nat.digitChar d ≠ '\n' ∧ Nat.digitChar d ≠ '\x7d' := by
  decide

theorem hex_of_lt {n : Nat} (h : n < 16) : hex n = [Nat.digitChar n] :=
  Nat.toDigits_of_lt_base h

theorem hex_of_le {n : Nat} (h : 16 ≤ n) : hex n = hex (n / 16) ++ [Nat.digitChar (n % 16)] :=
  Nat.toDigits_of_base_le (by decide) h

theorem exists_digitChar_of_mem_hex {c : Char} (n : Nat) (h : c ∈ hex n) :
    ∃ d < 16, c = Nat.digitChar d := by
  by_cases hn : n < 16
  · rw [hex_of_lt hn, List.mem_singleton] at h
    exact ⟨n, hn, h⟩
  · rw [hex_of_le (Nat.le_of_not_lt hn), List.mem_append, List.mem_singleton] at h
    obtain h | h := h
    · exact exists_digitChar_of_mem_hex (n / 16) h
    · exact ⟨n % 16, Nat.mod_lt n (by decide), h⟩
termination_by n

theorem hex_ne_nil (n : Nat) : hex n ≠ [] :=
  Nat.toDigits_ne_nil

theorem hex_inj {m n : Nat} (h : hex m = hex n) : m = n := by
  by_cases hm : m < 16
  · by_cases hn : n < 16
    · rw [hex_of_lt hm, hex_of_lt hn, List.cons.injEq] at h
      exact digitChar_inj m hm n hn h.1
    · rw [hex_of_lt hm, hex_of_le (Nat.le_of_not_lt hn)] at h
      exact absurd (List.append_eq_singleton_iff.1 h.symm) (by simp [hex_ne_nil])
  · by_cases hn : n < 16
    · rw [hex_of_le (Nat.le_of_not_lt hm), hex_of_lt hn] at h
      exact absurd (List.append_eq_singleton_iff.1 h) (by simp [hex_ne_nil])
    · rw [hex_of_le (Nat.le_of_not_lt hm), hex_of_le (Nat.le_of_not_lt hn)] at h
      obtain ⟨hhigh, hlow⟩ := List.append_inj' h rfl
      have hquotient : m / 16 = n / 16 := hex_inj hhigh
      have hremainder : m % 16 = n % 16 :=
        digitChar_inj _ (Nat.mod_lt m (by decide)) _ (Nat.mod_lt n (by decide))
          (List.cons.inj hlow).1
      omega
termination_by m

/-! ## Characters -/

/-- The characters with an escape of one letter, and their letters. -/
def shortForms : List (Char × Char) := [
  ('\x00', '0'), ('\t', 't'), ('\n', 'n'), ('\r', 'r'), ('"', '"'), ('\\', '\\')]

/-- How a character can be written. -/
inductive Escape : Char → List Char → Prop
  | short {c e : Char} : (c, e) ∈ shortForms → Escape c ['\\', e]
  | plain {c : Char} : c ≠ '\n' → c ≠ '"' → c ≠ '\\' → Escape c [c]
  | number {c : Char} : Escape c ('\\' :: 'u' :: '\x7b' :: (hex c.toNat ++ ['\x7d']))

theorem escape_quotedChar (c : Char) : Escape c (quotedChar c) := by
  by_cases hshort : ∃ e, (c, e) ∈ shortForms
  · obtain ⟨e, he⟩ := hshort
    have hforms : ∀ form ∈ shortForms, quotedChar form.1 = ['\\', form.2] := by decide
    rw [hforms _ he]
    exact .short he
  · have hne : ∀ form ∈ shortForms, c ≠ form.1 := by
      rintro ⟨_, e⟩ he rfl
      exact hshort ⟨e, he⟩
    simp only [shortForms, List.forall_mem_cons] at hne
    obtain ⟨h0, ht, hn, hr, hquote, hslash, -⟩ := hne
    unfold quotedChar
    simp only [beq_iff_eq, h0, ht, hn, hr, hquote, hslash, if_false]
    split
    · exact .plain hn hquote hslash
    · exact .number

namespace Escape

variable {c c' : Char} {cs cs' r r' : List Char}

theorem newline_notMem (h : Escape c cs) : '\n' ∉ cs := by
  cases h with
  | short he =>
      have hforms : ∀ form ∈ shortForms, '\n' ∉ ['\\', form.2] := by decide
      exact hforms _ he
  | plain hnewline _ _ => exact fun hmem => hnewline (List.mem_singleton.1 hmem).symm
  | number =>
      simp only [List.mem_cons, List.mem_append, List.not_mem_nil, or_false, not_or]
      refine ⟨by decide, by decide, by decide, fun hmem => ?_, by decide⟩
      obtain ⟨d, hd, heq⟩ := exists_digitChar_of_mem_hex _ hmem
      exact (digitChar_ne d hd).1 heq.symm

theorem append_ne_quote (h : Escape c cs) : cs ++ r ≠ '"' :: r' := by
  cases h with
  | short _ => exact nofun
  | plain _ hquote _ => exact fun heq => hquote (List.cons.inj heq).1
  | number => exact nofun

/-- The number of a character ends at the first brace. -/
theorem number_append_inj (h : hex c.toNat ++ '\x7d' :: r = hex c'.toNat ++ '\x7d' :: r') :
    c = c' ∧ r = r' := by
  have hbrace (d : Char) : ∀ x ∈ hex d.toNat, (x != '\x7d') = true := by
    intro x hx
    obtain ⟨k, hk, rfl⟩ := exists_digitChar_of_mem_hex _ hx
    exact bne_iff_ne.2 (digitChar_ne k hk).2
  have htake := congrArg (List.takeWhile (· != '\x7d')) h
  rw [List.takeWhile_append_of_pos (hbrace c), List.takeWhile_append_of_pos (hbrace c')] at htake
  have hhex : hex c.toNat = hex c'.toNat := by simpa using htake
  rw [hhex] at h
  exact ⟨Char.toNat_inj.1 (hex_inj hhex), (List.cons.inj (List.append_cancel_left h)).2⟩

/-- No form is the beginning of another one. -/
theorem append_inj (h : Escape c cs) (h' : Escape c' cs') (heq : cs ++ r = cs' ++ r') :
    c = c' ∧ r = r' := by
  have hforms : ∀ form ∈ shortForms, form.2 ≠ 'u' ∧
      ∀ form' ∈ shortForms, form.2 = form'.2 → form.1 = form'.1 := by decide
  cases h with
  | short he =>
      cases h' with
      | short he' =>
          obtain ⟨hletter, hr⟩ := List.cons.inj (List.cons.inj heq).2
          exact ⟨(hforms _ he).2 _ he' hletter, hr⟩
      | plain _ _ hslash => exact absurd (List.cons.inj heq).1.symm hslash
      | number => exact absurd (List.cons.inj (List.cons.inj heq).2).1 (hforms _ he).1
  | plain _ _ hslash =>
      cases h' with
      | short _ => exact absurd (List.cons.inj heq).1 hslash
      | plain _ _ _ => exact List.cons.inj heq
      | number => exact absurd (List.cons.inj heq).1 hslash
  | number =>
      cases h' with
      | short he' => exact absurd (List.cons.inj (List.cons.inj heq).2).1.symm (hforms _ he').1
      | plain _ _ hslash => exact absurd (List.cons.inj heq).1.symm hslash
      | number =>
          simp only [List.cons_append, List.append_assoc, List.nil_append, List.cons.injEq,
            true_and] at heq
          exact number_append_inj heq

end Escape

/-! ## Texts -/

theorem toList_quoted (s : String) :
    (quoted s).toList = '"' :: (s.toList.flatMap quotedChar ++ ['"']) := by
  simp [quoted]

theorem newline_notMem_quoted (s : String) : '\n' ∉ (quoted s).toList := by
  rw [toList_quoted]
  simp only [List.mem_cons, List.mem_append, List.mem_flatMap, List.not_mem_nil, or_false, not_or,
    not_exists, not_and]
  exact ⟨by decide, fun c _ => (escape_quotedChar c).newline_notMem, by decide⟩

theorem flatMap_quotedChar_inj {r r' : List Char} : (cs cs' : List Char) →
    cs.flatMap quotedChar ++ '"' :: r = cs'.flatMap quotedChar ++ '"' :: r' → cs = cs' ∧ r = r'
  | [], [], h => ⟨rfl, (List.cons.inj h).2⟩
  | [], c :: cs', h => by
      rw [List.flatMap_cons, List.append_assoc] at h
      exact absurd h.symm (escape_quotedChar c).append_ne_quote
  | c :: cs, [], h => by
      rw [List.flatMap_cons, List.append_assoc] at h
      exact absurd h (escape_quotedChar c).append_ne_quote
  | c :: cs, c' :: cs', h => by
      rw [List.flatMap_cons, List.flatMap_cons, List.append_assoc, List.append_assoc] at h
      obtain ⟨rfl, hrest⟩ := (escape_quotedChar c).append_inj (escape_quotedChar c') h
      obtain ⟨rfl, hr⟩ := flatMap_quotedChar_inj cs cs' hrest
      exact ⟨rfl, hr⟩

/-- **A quoted text determines what it stands for** and where it ends. -/
theorem quoted_append_inj {s s' : String} {r r' : List Char}
    (h : (quoted s).toList ++ r = (quoted s').toList ++ r') : s = s' ∧ r = r' := by
  simp only [toList_quoted, List.cons_append, List.append_assoc, List.nil_append, List.cons.injEq,
    true_and] at h
  obtain ⟨hs, hr⟩ := flatMap_quotedChar_inj _ _ h
  exact ⟨String.toList_inj.1 hs, hr⟩

end Text
end Chord
