import Chord.Proofs.Hotkey.Rereading

/-!
# Plain hotkeys

A combination is settled unless its key changes under case mapping a second time, or begins with a
modifier word once blanks are taken off it.

**Input.** A text whose blanks and characters cause nothing of the kind: it `isPlain`.

**Algorithm.** Steady characters stay in ASCII or outside of it under case mapping. Where a name has
ASCII characters only, its key is read letter case aside, and reading the name gives the same; where
it has others, it is neither a function key nor a named key nor a modifier word.

**Results.** `settled_of_isPlain`: the combination of a plain text is settled. More than that, it is
read back from its canonical text (`parse_normalize_of_isPlain`), so that solid texts in ASCII share
a canonical text only if they are spellings of one combination (`parse_normalize_of_isSolid`).
-/

namespace Chord

namespace Text

/-! ## Steady characters -/

/-- Characters of ASCII, and those that have one capital form and keep their case forms outside of
ASCII. -/
def isSteady (c : Char) : Bool :=
  c.toNat < 0x80 ||
    ((upperChar c).length == 1 &&
      (upperChar c).all (fun d => 0x80 ≤ d.toNat && upperChar d == [d]) &&
      (lowerChar c).all fun d => 0x80 ≤ d.toNat && lowerChar d == [d])

theorem upperChar_of_isSteady {c : Char} (h : isSteady c = true) :
    ∃ d, upperChar c = [d] ∧ upperChar d = [d] ∧
      (d.toNat < 128 → c.toNat < 128 ∧ d = c.toUpper) := by
  by_cases hc : c.toNat < 128
  · refine ⟨c.toUpper, if_pos hc, ?_, fun _ => ⟨hc, rfl⟩⟩
    exact forall_ascii (P := fun c => upperChar c.toUpper = [c.toUpper]) (by decide) hc
  · simp only [isSteady, decide_eq_false hc, Bool.false_or, Bool.and_eq_true, beq_iff_eq] at h
    obtain ⟨⟨hlength, hupper⟩, -⟩ := h
    obtain ⟨d, hd⟩ := List.length_eq_one_iff.1 hlength
    rw [hd] at hupper
    simp only [List.all_cons, List.all_nil, Bool.and_true, Bool.and_eq_true, decide_eq_true_eq,
      beq_iff_eq] at hupper
    exact ⟨d, hd, hupper.2, fun hlow => absurd hupper.1 (Nat.not_le_of_lt hlow)⟩

theorem lowerAt_of_ascii {c : Char} (hc : c.toNat < 128) (before after : List Char) :
    lowerAt before c after = [c.toLower] := by
  have hsigma : c ≠ 'Σ' := by
    rintro rfl
    exact absurd hc (by decide)
  rw [lowerAt, if_neg (by simpa using hsigma), lowerChar, if_pos hc]

/-- The small form of a steady character is in ASCII with it, or it stays outside. -/
theorem lowerAt_of_isSteady {c : Char} (h : isSteady c = true) (before after : List Char) :
    (c.toNat < 128 ∧ lowerAt before c after = [c.toLower]) ∨
      ∀ d ∈ lowerAt before c after, 128 ≤ d.toNat ∧ lowerChar d = [d] := by
  by_cases hc : c.toNat < 128
  · exact Or.inl ⟨hc, lowerAt_of_ascii hc before after⟩
  · right
    unfold lowerAt
    split
    · intro d hd
      obtain rfl := List.mem_singleton.1 hd
      split <;> decide +kernel
    · simp only [isSteady, decide_eq_false hc, Bool.false_or, Bool.and_eq_true,
        List.all_eq_true, decide_eq_true_eq, beq_iff_eq] at h
      exact h.2

theorem lowerAfter_of_ascii (before : List Char) {cs : List Char}
    (h : ∀ c ∈ cs, c.toNat < 128) : lowerAfter before cs = cs.map Char.toLower := by
  induction cs generalizing before with
  | nil => rfl
  | cons c cs ih =>
      rw [lowerAfter_cons, lowerAt_of_ascii (h c List.mem_cons_self),
        ih (c :: before) fun d hd => h d (List.mem_cons_of_mem c hd)]
      rfl

theorem lowerAfter_eq_self (before : List Char) {cs : List Char}
    (h : ∀ c ∈ cs, lowerChar c = [c]) : lowerAfter before cs = cs := by
  induction cs generalizing before with
  | nil => rfl
  | cons c cs ih =>
      have hc := h c List.mem_cons_self
      have hsigma : c ≠ 'Σ' := by
        rintro rfl
        revert hc
        decide +kernel
      rw [lowerAfter_cons, lowerAt, if_neg (by simpa using hsigma), hc,
        ih (c :: before) fun d hd => h d (List.mem_cons_of_mem c hd)]
      rfl

/-- Small forms of steady characters have no other small forms. -/
theorem lowerChar_of_mem_lowerAfter {before cs : List Char} (h : ∀ c ∈ cs, isSteady c = true)
    {d : Char} (hd : d ∈ lowerAfter before cs) : lowerChar d = [d] := by
  induction cs generalizing before with
  | nil => cases hd
  | cons c cs ih =>
      rw [lowerAfter_cons, List.mem_append] at hd
      rcases hd with hd | hd
      · rcases lowerAt_of_isSteady (h c List.mem_cons_self) before cs with ⟨hc, hlower⟩ | hother
        · rw [hlower, List.mem_singleton] at hd
          rw [hd]
          exact forall_ascii (P := fun c => lowerChar c.toLower = [c.toLower]) (by decide) hc
        · exact (hother d hd).2
      · exact ih (fun e he => h e (List.mem_cons_of_mem c he)) hd

theorem lower_lower {cs : List Char} (h : ∀ c ∈ cs, isSteady c = true) :
    lower (lower cs) = lower cs :=
  lowerAfter_eq_self [] fun _ hd => lowerChar_of_mem_lowerAfter h hd

/-- A text of steady characters has a small form in ASCII only if it is in ASCII itself. -/
theorem ascii_of_lowerAfter {before cs : List Char} (h : ∀ c ∈ cs, isSteady c = true)
    (hlower : ∀ d ∈ lowerAfter before cs, d.toNat < 128) : ∀ c ∈ cs, c.toNat < 128 := by
  induction cs generalizing before with
  | nil => nofun
  | cons c cs ih =>
      rw [lowerAfter_cons] at hlower
      intro d hd
      rcases List.mem_cons.1 hd with rfl | hd
      · rcases lowerAt_of_isSteady (h d List.mem_cons_self) before cs with ⟨hc, -⟩ | hother
        · exact hc
        · obtain ⟨e, es, hes⟩ := List.exists_cons_of_ne_nil (lowerAt_ne_nil before d cs)
          have he : e ∈ lowerAt before d cs := hes ▸ List.mem_cons_self
          have hbound := hlower e (List.mem_append_left _ he)
          exact absurd (hother e he).1 (Nat.not_le_of_lt hbound)
      · exact ih (fun e he => h e (List.mem_cons_of_mem c he))
          (fun e he => hlower e (List.mem_append_right _ he)) d hd

/-- The small form of a text is cut at a plus sign where the text is, behind ASCII characters. -/
theorem lowerAfter_split {before cs word rest : List Char} (h : ∀ c ∈ cs, isSteady c = true)
    (hword : ∀ d ∈ word, d.toNat < 128) (hrest : rest ≠ [])
    (hsplit : lowerAfter before cs = word ++ '+' :: rest) :
    ∃ word' rest', cs = word' ++ '+' :: rest' ∧ rest' ≠ [] ∧ (∀ c ∈ word', c.toNat < 128) ∧
      word = word'.map Char.toLower := by
  induction cs generalizing before word with
  | nil => exact absurd hsplit (by simp [lowerAfter])
  | cons c cs ih =>
      rw [lowerAfter_cons] at hsplit
      have hcs : ∀ d ∈ cs, isSteady d = true := fun d hd => h d (List.mem_cons_of_mem c hd)
      rcases lowerAt_of_isSteady (h c List.mem_cons_self) before cs with ⟨hc, hlower⟩ | hother
      · rw [hlower, List.singleton_append] at hsplit
        cases word with
        | nil =>
            obtain ⟨hplus, htail⟩ := List.cons.inj hsplit
            have hc' : c = '+' :=
              forall_ascii (P := fun c => c.toLower = '+' → c = '+') (by decide) hc hplus
            refine ⟨[], cs, by rw [hc']; rfl, ?_, fun d hd => absurd hd List.not_mem_nil, rfl⟩
            rintro rfl
            exact hrest htail.symm
        | cons w word =>
            obtain ⟨hw, htail⟩ := List.cons.inj hsplit
            obtain ⟨word', rest', hcs', hne, hascii, hmap⟩ :=
              ih hcs (fun d hd => hword d (List.mem_cons_of_mem w hd)) htail
            refine ⟨c :: word', rest', by rw [hcs']; rfl, hne, ?_, ?_⟩
            · intro d hd
              rcases List.mem_cons.1 hd with rfl | hd
              · exact hc
              · exact hascii d hd
            · rw [List.map_cons, ← hw, ← hmap]
      · -- The first character is outside of ASCII, but a word and the plus sign are not.
        obtain ⟨e, es, hes⟩ := List.exists_cons_of_ne_nil (lowerAt_ne_nil before c cs)
        have he := (hother e (hes ▸ List.mem_cons_self)).1
        rw [hes, List.cons_append] at hsplit
        cases word with
        | nil =>
            obtain ⟨rfl, -⟩ := List.cons.inj hsplit
            exact absurd he (by decide)
        | cons w word =>
            obtain ⟨rfl, -⟩ := List.cons.inj hsplit
            exact absurd he (Nat.not_le_of_lt (hword e List.mem_cons_self))

end Text

/-! ## ASCII keys -/

section Ascii

variable {cs : List Char}

theorem isFunctionKey_map_toLower (h : ∀ c ∈ cs, c.toNat < 128) :
    isFunctionKey (cs.map Char.toLower) = isFunctionKey cs := by
  have hletter : ∀ {c : Char}, c.toNat < 128 →
      (c.toLower == 'f' || c.toLower == 'F') = (c == 'f' || c == 'F') := fun hc =>
    Text.forall_ascii
      (P := fun c => (c.toLower == 'f' || c.toLower == 'F') = (c == 'f' || c == 'F')) (by decide) hc
  have htens : ∀ {c : Char}, c.toNat < 128 →
      (c.toLower == '1') = (c == '1') ∧ (c.toLower == '2') = (c == '2') := fun hc =>
    Text.forall_ascii
      (P := fun c => (c.toLower == '1') = (c == '1') ∧ (c.toLower == '2') = (c == '2'))
      (by decide) hc
  have hdigit : ∀ {c : Char}, c.toNat < 128 →
      c.toLower.isDigit = c.isDigit ∧ (c.toLower != '0') = (c != '0') ∧
        decide ('0' ≤ c.toLower) = decide ('0' ≤ c) ∧
        decide (c.toLower ≤ '4') = decide (c ≤ '4') := fun hc =>
    Text.forall_ascii
      (P := fun c => c.toLower.isDigit = c.isDigit ∧ (c.toLower != '0') = (c != '0') ∧
        decide ('0' ≤ c.toLower) = decide ('0' ≤ c) ∧
        decide (c.toLower ≤ '4') = decide (c ≤ '4'))
      (by decide) hc
  match cs, h with
  | [], _ => rfl
  | [_], _ => rfl
  | [f, d], h =>
      obtain ⟨hdigits, hzero, -, -⟩ := hdigit (h d (by simp))
      simp only [List.map_cons, List.map_nil, isFunctionKey, hletter (h f (by simp)), hdigits,
        hzero]
  | [f, t, d], h =>
      obtain ⟨hdigits, -, hlow, hhigh⟩ := hdigit (h d (by simp))
      obtain ⟨hone, htwo⟩ := htens (h t (by simp))
      simp only [List.map_cons, List.map_nil, isFunctionKey, hletter (h f (by simp)), hdigits,
        hlow, hhigh, hone, htwo]
  | _ :: _ :: _ :: _ :: _, _ => rfl

theorem map_toLower_toLower (h : ∀ c ∈ cs, c.toNat < 128) :
    (cs.map Char.toLower).map Char.toLower = cs.map Char.toLower := by
  rw [List.map_map]
  refine List.map_congr_left fun c hc => ?_
  exact Text.forall_ascii (P := fun c => c.toLower.toLower = c.toLower) (by decide) (h c hc)

theorem map_toLower_toUpper (h : ∀ c ∈ cs, c.toNat < 128) :
    (cs.map Char.toLower).map Char.toUpper = cs.map Char.toUpper := by
  rw [List.map_map]
  refine List.map_congr_left fun c hc => ?_
  exact Text.forall_ascii (P := fun c => c.toLower.toUpper = c.toUpper) (by decide) (h c hc)

theorem toLower_ascii {c : Char} (hc : c.toNat < 128) : c.toLower.toNat < 128 :=
  Text.forall_ascii (P := fun c => c.toLower.toNat < 128) (by decide) hc

theorem toLower_toUpper {c : Char} (hc : c.toNat < 128) : c.toUpper.toLower = c.toLower :=
  Text.forall_ascii (P := fun c => c.toUpper.toLower = c.toLower) (by decide) hc

theorem upperChar_toLower {c : Char} (hc : c.toNat < 128) :
    Text.upperChar c.toLower = Text.upperChar c :=
  Text.forall_ascii (P := fun c => Text.upperChar c.toLower = Text.upperChar c) (by decide) hc

theorem tight_map_toLower (h : ∀ c ∈ cs, c.toNat < 128) (htight : Text.Tight cs) :
    Text.Tight (cs.map Char.toLower) := by
  have hblank : ∀ {c : Char}, c.toNat < 128 →
      Text.isBlank c.toLower = Text.isBlank c := fun hc =>
    Text.forall_ascii (P := fun c => Text.isBlank c.toLower = Text.isBlank c) (by decide) hc
  constructor
  · intro d hd
    rw [List.head?_map] at hd
    obtain ⟨c, hc, rfl⟩ := Option.map_eq_some_iff.1 hd
    rw [hblank (h c (List.mem_of_head? hc))]
    exact htight.first c hc
  · intro d hd
    rw [List.getLast?_map] at hd
    obtain ⟨c, hc, rfl⟩ := Option.map_eq_some_iff.1 hd
    rw [hblank (h c (List.mem_of_getLast? hc))]
    exact htight.last c hc

/-- Letter case does not matter for the name of an ASCII key. -/
theorem canonicalKey_map_toLower (h : ∀ c ∈ cs, c.toNat < 128) (htight : Text.Tight cs) :
    canonicalKey (cs.map Char.toLower) = canonicalKey cs := by
  unfold canonicalKey
  rw [htight.trim_eq, (tight_map_toLower h htight).trim_eq]
  match cs, h with
  | [], _ => rfl
  | [c], h => exact upperChar_toLower (h c List.mem_cons_self)
  | c :: d :: rest, h =>
      have hrest : ∀ e ∈ d :: rest, e.toNat < 128 := fun e he => h e (List.mem_cons_of_mem c he)
      have hlower : Text.lower ((d :: rest).map Char.toLower) = Text.lower (d :: rest) := by
        have hascii : ∀ e ∈ (d :: rest).map Char.toLower, e.toNat < 128 := by
          intro e he
          obtain ⟨f, hf, rfl⟩ := List.mem_map.1 he
          exact toLower_ascii (hrest f hf)
        rw [Text.lower, Text.lower, Text.lowerAfter_of_ascii [] hascii,
          Text.lowerAfter_of_ascii [] hrest, map_toLower_toLower hrest]
      have hname := map_toLower_toLower h
      have hfunction := isFunctionKey_map_toLower h
      have hcapitals := map_toLower_toUpper h
      have hfirst := upperChar_toLower (h c List.mem_cons_self)
      simp only [List.map_cons] at hname hfunction hcapitals hlower ⊢
      simp only [hname, hfunction, hcapitals, hfirst, hlower]

end Ascii

/-! ## Steady keys -/

section Steady

variable {cs : List Char}

/-- The name of a steady key with no name of its own: a capital `d`, then small letters. Where it is
in ASCII it is the key itself, letter case aside; elsewhere it is read character by character. -/
theorem naming_other_canonical {c d : Char} {rest : List Char} (hrest : rest ≠ [])
    (hsteady : ∀ e ∈ c :: rest, Text.isSteady e = true) (hd : Text.upperChar d = [d])
    (hascii : d.toNat < 128 → c.toNat < 128 ∧ d = c.toUpper)
    (htight : Text.Tight (c :: rest)) (hname : canonicalKey (c :: rest) = d :: Text.lower rest) :
    canonicalKey (d :: Text.lower rest) = d :: Text.lower rest := by
  have hrestSteady : ∀ e ∈ rest, Text.isSteady e = true :=
    fun e he => hsteady e (List.mem_cons_of_mem c he)
  have htightName : Text.Tight (d :: Text.lower rest) := by
    have hnaming := canonicalKey_naming (c :: rest)
    rw [htight.trim_eq, hname] at hnaming
    exact hnaming.tight htight
  by_cases hall : ∀ e ∈ d :: Text.lower rest, e.toNat < 128
  · obtain ⟨hcascii, hupper⟩ := hascii (hall d List.mem_cons_self)
    have hrestAscii : ∀ e ∈ rest, e.toNat < 128 :=
      Text.ascii_of_lowerAfter hrestSteady fun e he => hall e (List.mem_cons_of_mem d he)
    have hkeyAscii : ∀ e ∈ c :: rest, e.toNat < 128 := by
      intro e he
      rcases List.mem_cons.1 he with rfl | he
      · exact hcascii
      · exact hrestAscii e he
    -- The key and its name are the same, letter case aside.
    have hsame : (d :: Text.lower rest).map Char.toLower = (c :: rest).map Char.toLower := by
      rw [Text.lower, Text.lowerAfter_of_ascii [] hrestAscii, List.map_cons, List.map_cons,
        map_toLower_toLower hrestAscii, hupper, toLower_toUpper hcascii]
    rw [← canonicalKey_map_toLower hall htightName, hsame,
      canonicalKey_map_toLower hkeyAscii htight, hname]
  · have hnaming := canonicalKey_naming (d :: Text.lower rest)
    have hlower : Text.lower rest ≠ [] := fun hnil => hrest (Text.lowerAfter_eq_nil hnil)
    have hagain := Text.lower_lower hrestSteady
    rw [htightName.trim_eq] at hnaming
    generalize canonicalKey (d :: Text.lower rest) = name at hnaming ⊢
    generalize Text.lower rest = small at hnaming hlower hagain hall ⊢
    cases hnaming with
    | single _ => exact absurd rfl hlower
    | known hkey _ => exact absurd (fun e he => (hkey e he).1) hall
    | other _ _ => rw [hd, hagain, List.singleton_append]

/-- The name of a steady key is its own name. -/
theorem canonicalKey_canonicalKey (htight : Text.Tight cs)
    (hsteady : ∀ c ∈ cs, Text.isSteady c = true) :
    canonicalKey (canonicalKey cs) = canonicalKey cs := by
  have hnaming := canonicalKey_naming cs
  rw [htight.trim_eq] at hnaming
  generalize hname : canonicalKey cs = name at hnaming
  have htightName := hnaming.tight htight
  cases hnaming with
  | blank => rfl
  | single c =>
      obtain ⟨d, hc, hd, -⟩ := Text.upperChar_of_isSteady (hsteady c List.mem_cons_self)
      rw [hc] at htightName ⊢
      unfold canonicalKey
      rw [htightName.trim_eq]
      exact hd
  | known _ hknown => exact hknown.canonical
  | @other c rest hrest =>
      obtain ⟨d, hc, hd, hascii⟩ := Text.upperChar_of_isSteady (hsteady c List.mem_cons_self)
      rw [hc, List.singleton_append] at hname ⊢
      exact naming_other_canonical hrest hsteady hd hascii htight hname

/-- The name of a steady key does not begin with a modifier word, unless the key does. -/
theorem wordless_canonicalKey (htight : Text.Tight cs)
    (hsteady : ∀ c ∈ cs, Text.isSteady c = true) (hless : Hotkey.Wordless cs) :
    Hotkey.Wordless (canonicalKey cs) := by
  have hnaming := canonicalKey_naming cs
  rw [htight.trim_eq] at hnaming
  intro w tail htail hsplit
  rw [hsplit] at hnaming
  generalize hname : w.text.toList ++ '+' :: tail = name at hnaming
  obtain ⟨a, as, has, -⟩ := w.toList_eq_cons
  have hascii : ∀ e ∈ a :: as, e.toNat < 128 := by
    intro e he
    have hrange := Scan.toNat_of_isWordChar (Scan.isWordChar_of_isAlpha (w.isAlpha_of_mem
      (has ▸ he)))
    omega
  rw [has, List.cons_append] at hname
  cases hnaming with
  | blank => cases hname
  | single c =>
      obtain ⟨d, hc, -, -⟩ := Text.upperChar_of_isSteady (hsteady c List.mem_cons_self)
      rw [hc] at hname
      exact absurd (List.cons.inj hname).2 (by simp)
  | known _ hknown =>
      have hplus : '+' ∈ name := by
        rw [← hname]
        exact List.mem_cons_of_mem a (List.mem_append_right as List.mem_cons_self)
      exact absurd (hknown.inked _ hplus) (by decide)
  | @other c rest hrest =>
      obtain ⟨d, hc, -, hd⟩ := Text.upperChar_of_isSteady (hsteady c List.mem_cons_self)
      rw [hc, List.singleton_append] at hname
      obtain ⟨rfl, hlower⟩ := List.cons.inj hname
      obtain ⟨hcascii, hupper⟩ := hd (hascii a List.mem_cons_self)
      obtain ⟨word, rest', hrest', hne, hword, hmap⟩ := Text.lowerAfter_split
        (fun e he => hsteady e (List.mem_cons_of_mem c he))
        (fun e he => hascii e (List.mem_cons_of_mem a he)) htail hlower.symm
      -- The word of the name is the word of the key, letter case aside.
      have hlow : Text.asciiLower (String.ofList (c :: word)) = Text.asciiLower w.text := by
        rw [Text.asciiLower, Text.asciiLower, String.toList_ofList, has, hmap, List.map_cons,
          List.map_cons, map_toLower_toLower hword, hupper, toLower_toUpper hcascii]
      refine hless ⟨String.ofList (c :: word), w.modifier, hlow ▸ w.named⟩ rest' hne ?_
      rw [String.toList_ofList, hrest']
      rfl

end Steady

/-! ## Plain texts -/

/-- No blank stands behind a symbol of a modifier. -/
def isJoined : List Char → Bool
  | c :: d :: cs => !((Modifier.ofSymbol? c).isSome && Text.isBlank d) && isJoined (d :: cs)
  | _ => true

/-- Texts of steady characters that have no blank behind a symbol of a modifier. -/
def isPlain (text : String) : Bool :=
  isJoined (Text.trim text.toList) && (Text.trim text.toList).all Text.isSteady

theorem isBlank_of_isJoined {front rest : List Char} {c : Char}
    (h : isJoined (front ++ c :: rest) = true) (hc : (Modifier.ofSymbol? c).isSome = true) :
    ∀ d ∈ rest.head?, Text.isBlank d = false := by
  induction front with
  | nil =>
      intro d hd
      cases rest with
      | nil => cases hd
      | cons e rest =>
          cases hd
          rw [List.nil_append, isJoined, hc] at h
          simpa using (Bool.and_eq_true_iff.1 h).1
  | cons b front ih =>
      refine ih ?_
      cases hfront : front ++ c :: rest with
      | nil => rfl
      | cons e es =>
          rw [List.cons_append, hfront, isJoined] at h
          exact (Bool.and_eq_true_iff.1 h).2

/-- What is left for the key does not begin with a blank. -/
theorem Hotkey.isBlank_of_isJoined_chain {symbols : List Modifier} {words : List Modifier.Word}
    {rest : List Char}
    (h : isJoined (symbols.map Modifier.symbol ++ Spelling.chain words rest) = true)
    (htight : Text.Tight (symbols.map Modifier.symbol ++ Spelling.chain words rest)) :
    ∀ c ∈ rest.head?, Text.isBlank c = false := by
  rcases List.eq_nil_or_concat words with rfl | ⟨before, w, rfl⟩
  · rcases List.eq_nil_or_concat symbols with rfl | ⟨before, m, rfl⟩
    · exact htight.first
    · have hsplit : (before.concat m).map Modifier.symbol ++ Spelling.chain [] rest =
          before.map Modifier.symbol ++ m.symbol :: rest := by
        simp [Spelling.chain]
      rw [hsplit] at h
      exact isBlank_of_isJoined h (by rw [Modifier.ofSymbol?_symbol]; rfl)
  · have hsplit : symbols.map Modifier.symbol ++ Spelling.chain (before.concat w) rest =
        (symbols.map Modifier.symbol ++ Spelling.chain before w.text.toList) ++ '+' :: rest := by
      simp [Spelling.chain]
    rw [hsplit] at h
    exact isBlank_of_isJoined h (by decide)

/-- The key of a plain text is a name of its own and has no modifier word in front. -/
theorem Hotkey.key_of_isPlain {text : String} (h : isPlain text = true) :
    Wordless (parse text).key.toList ∧
      canonicalKey (parse text).key.toList = (parse text).key.toList := by
  unfold isPlain at h
  rw [Bool.and_eq_true] at h
  obtain ⟨symbols, words, rest, htrim, hne, -, hless, hparse⟩ := parse_split text
  have htight := Text.tight_trim text.toList
  rw [htrim] at h htight
  have hsteady : ∀ c ∈ rest, Text.isSteady c = true := fun c hc =>
    List.all_eq_true.1 h.2 c (List.mem_append_right _ (List.mem_append_right _ hc))
  have hrest : Text.Tight rest := by
    refine ⟨isBlank_of_isJoined_chain h.1 htight, fun c hc => htight.last c ?_⟩
    have hsome : rest ≠ [] := by
      rintro rfl
      cases hc
    rw [List.getLast?_append_of_ne_nil _ (Spelling.chain_ne_nil words hsome),
      Spelling.getLast?_chain words hsome]
    exact hc
  rw [hparse, String.toList_ofList]
  exact ⟨wordless_canonicalKey hrest hsteady hless, canonicalKey_canonicalKey hrest hsteady⟩

theorem Hotkey.settled_of_wordless {h : Hotkey} (hless : Wordless h.key.toList)
    (hkey : canonicalKey h.key.toList = h.key.toList) : h.Settled := by
  rw [settled_iff, hless.takeWords_eq]
  exact ⟨⟨[], (List.append_nil _).symm, rfl⟩, hkey⟩

/-- **The combination of a plain text is settled.** -/
theorem Hotkey.settled_of_isPlain {text : String} (h : isPlain text = true) :
    (parse text).Settled :=
  settled_of_wordless (key_of_isPlain h).1 (key_of_isPlain h).2

/-! ## Combinations that are read back -/

/-- Nothing comes off a name without modifier words, and it stays a name. -/
theorem Hotkey.reread_of_wordless {h : Hotkey} (hless : Wordless h.key.toList)
    (hkey : canonicalKey h.key.toList = h.key.toList) : h.reread = h := by
  unfold reread
  rw [hless.takeWords_eq]
  simp only [hkey, String.ofList_toList]

/-- **The combination of a plain text is read back from its canonical text.** -/
theorem Hotkey.parse_normalize_of_isPlain {text : String} (h : isPlain text = true) :
    parse (normalize text) = parse text := by
  obtain ⟨hless, hkey⟩ := key_of_isPlain h
  calc parse (normalize text) = (parse text).reread := (parse_parsed text).parse_text
    _ = parse text := reread_of_wordless hless hkey

/-- ASCII texts without blanks. -/
def isSolid (text : String) : Bool :=
  text.toList.all fun c => c.toNat < 0x80 && !Text.isBlank c

theorem isJoined_of_forall {cs : List Char} (h : ∀ c ∈ cs, Text.isBlank c = false) :
    isJoined cs = true := by
  induction cs with
  | nil => rfl
  | cons c cs ih =>
      have hrest := ih fun d hd => h d (List.mem_cons_of_mem c hd)
      cases cs with
      | nil => rfl
      | cons d cs =>
          have hd : Text.isBlank d = false := h d (List.mem_cons_of_mem c List.mem_cons_self)
          rw [isJoined, hd, hrest, Bool.and_false]
          rfl

theorem isPlain_of_isSolid {text : String} (h : isSolid text = true) : isPlain text = true := by
  have hall : ∀ c ∈ text.toList, c.toNat < 0x80 ∧ Text.isBlank c = false := by
    intro c hc
    simpa using List.all_eq_true.1 h c hc
  have hblank : ∀ c ∈ text.toList, Text.isBlank c = false := fun c hc => (hall c hc).2
  have hsteady : text.toList.all Text.isSteady = true := by
    refine List.all_eq_true.2 fun c hc => ?_
    rw [Text.isSteady, decide_eq_true (hall c hc).1, Bool.true_or]
  rw [isPlain, Text.trim_eq_self hblank, isJoined_of_forall hblank, hsteady]
  rfl

/-- **Solid texts are unambiguous.** The canonical text of an ASCII text without blanks is read as
the same modifiers with the same key, and no text of this kind has that canonical text unless it is
read so as well. -/
theorem Hotkey.parse_normalize_of_isSolid {text : String} (h : isSolid text = true) :
    parse (normalize text) = parse text ∧
      ∀ other, isSolid other = true →
        (normalize other = normalize text ↔ parse other = parse text) := by
  have hread : ∀ {text : String}, isSolid text = true → parse (normalize text) = parse text :=
    fun h => parse_normalize_of_isPlain (isPlain_of_isSolid h)
  refine ⟨hread h, fun other hother => ⟨fun heq => ?_, congrArg Hotkey.text⟩⟩
  calc parse other = parse (normalize other) := (hread hother).symm
    _ = parse (normalize text) := by rw [heq]
    _ = parse text := hread h

/-- An unknown word in front of a modifier word makes all that follows a key, plus signs included. -/
theorem Hotkey.parse_normalize_hyper :
    normalize "!+HYPER+ctrl++" = "Alt+Shift+Hyper+ctrl++" ∧
      parse "Alt+Shift+Hyper+ctrl++" = parse "!+HYPER+ctrl++" ∧
      (normalize "shift+alt+Hyper+CTRL++" = "Alt+Shift+Hyper+ctrl++" ↔
        parse "shift+alt+Hyper+CTRL++" = parse "!+HYPER+ctrl++") := by
  have htext : normalize "!+HYPER+ctrl++" = "Alt+Shift+Hyper+ctrl++" := by decide +kernel
  obtain ⟨hread, hshared⟩ :=
    parse_normalize_of_isSolid (by decide : isSolid "!+HYPER+ctrl++" = true)
  rw [htext] at hread hshared
  exact ⟨htext, hread, hshared _ (by decide)⟩

end Chord
