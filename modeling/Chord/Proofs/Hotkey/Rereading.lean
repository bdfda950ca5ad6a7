import Chord.Proofs.Hotkey.Spelling
import Chord.Proofs.Text.Case

/-!
# Reading a canonical text again

The canonical text of a combination is a text like any other, and it is taken apart in the same way
when it is read again. Nothing is trimmed from it, no symbol is taken off, and the names in front
are those of the modifiers. But the key behind them need not stay what it is.

**Input.** Any text.

**Algorithm.** `takeSymbols_split` and `takeWords_split` say what is taken off a text and what is
left. No case mapping brings a plus sign about, so two canonical texts are compared part by part.

**Results.** `normalize_normalize_iff`: the canonical text of a canonical text is the same one
exactly if its combination is `Settled`.
-/

namespace Chord

/-! ## Words and names of modifiers -/

namespace Modifier

/-- The name of a modifier as a word for it. -/
def word (m : Modifier) : Word where
  text := m.name
  modifier := m
  named := by cases m <;> decide

theorem name_injective : Function.Injective name := by
  intro m n
  cases m <;> cases n <;> decide

theorem mem_words_of_ofWord? {word : String} {m : Modifier} (h : ofWord? word = some m) :
    (Text.asciiLower word, m) ∈ words := by
  unfold ofWord? at h
  split at h <;> rename_i hword <;> cases h <;> rw [hword] <;> decide

theorem symbol_of_ofSymbol? {c : Char} {m : Modifier} (h : ofSymbol? c = some m) :
    c = m.symbol := by
  unfold ofSymbol? at h
  split at h <;> cases h <;> rfl

theorem ofSymbol?_of_isInked {c : Char} (h : Text.isInked c = true) : ofSymbol? c = none := by
  cases hsymbol : ofSymbol? c with
  | none => rfl
  | some m =>
      rw [symbol_of_ofSymbol? hsymbol] at h
      revert h
      cases m <;> decide

theorem Word.plus_not_mem (w : Word) : '+' ∉ w.text.toList :=
  fun hmem => absurd (w.isAlpha_of_mem hmem) (by decide)

/-- A word begins with a letter. -/
theorem Word.toList_eq_cons (w : Word) :
    ∃ c cs, w.text.toList = c :: cs ∧ Scan.isWordChar c = true := by
  obtain ⟨c, cs, hcs⟩ := List.exists_cons_of_ne_nil w.toList_ne_nil
  exact ⟨c, cs, hcs, Scan.isWordChar_of_isAlpha (w.isAlpha_of_mem (hcs ▸ List.mem_cons_self))⟩

end Modifier

theorem Modifiers.foldl_insert_toList (ms : Modifiers) : ms.toList.foldl insert empty = ms := by
  obtain ⟨ctrl, alt, shift, win⟩ := ms
  cases ctrl <;> cases alt <;> cases shift <;> cases win <;> rfl

/-- A set is empty only if nothing was put into it. -/
theorem Modifiers.eq_nil_of_foldl_insert {l : List Modifier} (h : l.foldl insert empty = empty) :
    l = [] := by
  refine List.eq_nil_iff_forall_not_mem.2 fun m hm => ?_
  have hholds := holds_foldl_insert empty l m
  rw [h] at hholds
  have hempty : empty.holds m = false := by cases m <;> rfl
  rw [hempty] at hholds
  simp [hm] at hholds

/-! ## Chains of words -/

namespace Spelling

theorem chain_cons (w : Modifier.Word) (words : List Modifier.Word) (key : List Char) :
    chain (w :: words) key = w.text.toList ++ '+' :: chain words key := by
  simp [chain]

theorem chain_append (words more : List Modifier.Word) (key : List Char) :
    chain (words ++ more) key = chain words (chain more key) := by
  simp [chain]

theorem chain_eq_nil {words : List Modifier.Word} {key : List Char} (h : chain words key = []) :
    words = [] ∧ key = [] := by
  cases words with
  | nil => exact ⟨rfl, h⟩
  | cons w words =>
      rw [chain_cons] at h
      exact absurd (List.append_eq_nil_iff.1 h).1 w.toList_ne_nil

theorem chain_ne_nil (words : List Modifier.Word) {key : List Char} (hkey : key ≠ []) :
    chain words key ≠ [] :=
  fun h => hkey (chain_eq_nil h).2

theorem getLast?_chain (words : List Modifier.Word) {key : List Char} (hkey : key ≠ []) :
    (chain words key).getLast? = key.getLast? :=
  List.getLast?_append_of_ne_nil _ hkey

theorem count_chain (words : List Modifier.Word) (key : List Char) :
    (chain words key).count '+' = words.length + key.count '+' := by
  induction words with
  | nil => simp [chain]
  | cons w words ih =>
      rw [chain_cons, List.count_append, List.count_eq_zero_of_not_mem w.plus_not_mem,
        List.count_cons_self, ih, List.length_cons]
      omega

/-- Texts in front of their first plus sign. -/
theorem append_plus_inj {as bs cs ds : List Char} (has : '+' ∉ as) (hbs : '+' ∉ bs)
    (h : as ++ '+' :: cs = bs ++ '+' :: ds) : as = bs ∧ cs = ds := by
  induction as generalizing bs with
  | nil =>
      cases bs with
      | nil => exact ⟨rfl, (List.cons.inj h).2⟩
      | cons b bs =>
          have hb : '+' = b := (List.cons.inj h).1
          exact absurd (hb ▸ List.mem_cons_self) hbs
  | cons a as ih =>
      cases bs with
      | nil =>
          have ha : a = '+' := (List.cons.inj h).1
          exact absurd (ha ▸ List.mem_cons_self) has
      | cons b bs =>
          obtain ⟨hab, hrest⟩ := List.cons.inj h
          obtain ⟨hparts, htails⟩ := ih (fun hmem => has (List.mem_cons_of_mem a hmem))
            (fun hmem => hbs (List.mem_cons_of_mem b hmem)) hrest
          exact ⟨by rw [hab, hparts], htails⟩

/-- A chain determines its words and its key, if the number of the words is known. -/
theorem chain_inj {words more : List Modifier.Word} {key rest : List Char}
    (hlength : words.length = more.length) (h : chain words key = chain more rest) :
    words.map (·.text) = more.map (·.text) ∧ key = rest := by
  induction words generalizing more with
  | nil =>
      obtain rfl := List.length_eq_zero_iff.1 hlength.symm
      exact ⟨rfl, h⟩
  | cons w words ih =>
      cases more with
      | nil => cases hlength
      | cons v more =>
          rw [chain_cons, chain_cons] at h
          obtain ⟨htexts, hchains⟩ := append_plus_inj w.plus_not_mem v.plus_not_mem h
          obtain ⟨hmap, hkeys⟩ := ih (Nat.succ.inj hlength) hchains
          refine ⟨?_, hkeys⟩
          rw [List.map_cons, List.map_cons, String.toList_inj.1 htexts, hmap]

theorem chain_congr {words more : List Modifier.Word}
    (h : words.map (·.text) = more.map (·.text)) (key : List Char) :
    chain words key = chain more key := by
  have hchars : ∀ words : List Modifier.Word,
      chain words key = (words.map (·.text)).flatMap (fun text => text.toList ++ ['+']) ++ key := by
    intro words
    rw [List.flatMap_map]
    rfl
  rw [hchars, hchars, h]

end Spelling

namespace Hotkey

open Spelling

/-! ## Taking symbols off -/

/-- Texts that do not begin with a symbol, unless they are nothing else. -/
def Symbolless (cs : List Char) : Prop :=
  ∀ c d ds, cs = c :: d :: ds → Modifier.ofSymbol? c = none

theorem Symbolless.takeSymbols_eq {cs : List Char} (h : Symbolless cs) (ms : Modifiers) :
    takeSymbols ms cs = (ms, cs) := by
  match cs with
  | [] => rfl
  | [_] => rfl
  | c :: d :: ds =>
      rw [takeSymbols, h c d ds rfl]

/-- What is taken off a text, and what is left. -/
theorem takeSymbols_split (cs : List Char) :
    ∃ (symbols : List Modifier) (rest : List Char),
      cs = symbols.map Modifier.symbol ++ rest ∧ (cs ≠ [] → rest ≠ []) ∧ Symbolless rest ∧
      ∀ ms, takeSymbols ms cs = (symbols.foldl Modifiers.insert ms, rest) := by
  induction cs with
  | nil => exact ⟨[], [], rfl, id, nofun, fun _ => rfl⟩
  | cons c cs ih =>
      by_cases hleft : Symbolless (c :: cs)
      · exact ⟨[], c :: cs, rfl, id, hleft, hleft.takeSymbols_eq⟩
      · unfold Symbolless at hleft
        push Not at hleft
        obtain ⟨c', d, ds, hcs, hsymbol⟩ := hleft
        obtain ⟨rfl, rfl⟩ := List.cons.inj hcs
        obtain ⟨m, hm⟩ := Option.ne_none_iff_exists'.1 hsymbol
        obtain ⟨symbols, rest, hsplit, hne, hrest, htake⟩ := ih
        refine ⟨m :: symbols, rest, ?_, fun _ => hne (List.cons_ne_nil d ds), hrest, ?_⟩
        · rw [hsplit, Modifier.symbol_of_ofSymbol? hm]
          rfl
        · intro ms
          rw [takeSymbols, hm]
          exact htake (ms.insert m)

/-! ## Taking words off -/

/-- Texts without a modifier word and a plus sign in front of something else. -/
def Wordless (cs : List Char) : Prop :=
  ∀ (w : Modifier.Word) (rest : List Char), rest ≠ [] → cs ≠ w.text.toList ++ '+' :: rest

theorem takeWords_of_wordless (ms : Modifiers) (word cs : List Char)
    (h : Wordless (word.reverse ++ cs)) :
    takeWords ms word cs = (ms, word.reverse ++ cs) := by
  induction cs generalizing word with
  | nil => rw [takeWords, List.append_nil]
  | cons c cs ih =>
      have hgo : takeWords ms (c :: word) cs = (ms, word.reverse ++ c :: cs) := by
        have hshift : (c :: word).reverse ++ cs = word.reverse ++ c :: cs := by simp
        rw [← hshift]
        exact ih (c :: word) (hshift ▸ h)
      by_cases hplus : c = '+'
      · subst hplus
        cases cs with
        | nil => exact hgo
        | cons d ds =>
            rw [takeWords]
            split
            · rename_i hempty
              rw [List.isEmpty_iff.1 hempty]
              rfl
            · split
              · rename_i m hm
                refine absurd ?_ (h ⟨_, m, Modifier.mem_words_of_ofWord? hm⟩ (d :: ds)
                  (List.cons_ne_nil d ds))
                rw [String.toList_ofList]
              · rfl
      · rw [takeWords_cons_of_ne ms word hplus]
        exact hgo

theorem Wordless.takeWords_eq {cs : List Char} (h : Wordless cs) (ms : Modifiers) :
    takeWords ms [] cs = (ms, cs) :=
  takeWords_of_wordless ms [] cs h

/-- A word in front of something else is taken off. -/
theorem takeWords_word (ms : Modifiers) (w : Modifier.Word) {rest : List Char} (hrest : rest ≠ []) :
    takeWords ms [] (w.text.toList ++ '+' :: rest) = takeWords (ms.insert w.modifier) [] rest := by
  obtain ⟨d, ds, rfl⟩ := List.exists_cons_of_ne_nil hrest
  rw [takeWords_append ms [] w.plus_not_mem, takeWords]
  simp [w.toList_ne_nil]

/-- The words of a chain are taken off. -/
theorem takeWords_chain_eq (ms : Modifiers) (words : List Modifier.Word) {key : List Char}
    (hkey : key ≠ []) :
    takeWords ms [] (chain words key) =
      takeWords ((words.map (·.modifier)).foldl Modifiers.insert ms) [] key := by
  induction words generalizing ms with
  | nil => rfl
  | cons w words ih =>
      rw [chain_cons, takeWords_word ms w (chain_ne_nil words hkey), ih]
      rfl

/-- What is taken off a text, and what is left. -/
theorem takeWords_split (cs : List Char) :
    ∃ words rest, cs = chain words rest ∧ (cs ≠ [] → rest ≠ []) ∧ Wordless rest ∧
      ∀ ms, takeWords ms [] cs =
        ((words.map (·.modifier)).foldl Modifiers.insert ms, rest) := by
  by_cases hleft : Wordless cs
  · exact ⟨[], cs, rfl, id, hleft, hleft.takeWords_eq⟩
  · unfold Wordless at hleft
    push Not at hleft
    obtain ⟨w, tail, hne, hcs⟩ := hleft
    have hshorter : tail.length < cs.length := by
      rw [hcs, List.length_append, List.length_cons]
      omega
    obtain ⟨words, rest, htail, hrest, hless, htake⟩ := takeWords_split tail
    refine ⟨w :: words, rest, ?_, fun _ => hrest hne, hless, ?_⟩
    · rw [hcs, chain_cons, ← htail]
    · intro ms
      rw [hcs, takeWords_word ms w hne, htake]
      rfl
termination_by cs.length

end Hotkey

/-! ## Canonical keys -/

/-- The names of the function keys. -/
def functionKeys : List (List Char) :=
  (List.range 24).map fun n => 'F' :: (toString (n + 1)).toList

theorem map_toUpper_mem_functionKeys {cs : List Char} (h : isFunctionKey cs = true) :
    cs.map Char.toUpper ∈ functionKeys := by
  have hfirst : ∀ {f : Char}, (f == 'f' || f == 'F') = true → f.toUpper = 'F' := by
    intro f hf
    rcases Bool.or_eq_true_iff.1 hf with hf | hf <;> rw [beq_iff_eq.1 hf] <;> rfl
  have hdigit : ∀ {d : Char}, d.isDigit = true → Scan.isWordChar d = true := by
    intro d hd
    simp [Scan.isWordChar, Char.isAlphanum, hd]
  unfold isFunctionKey at h
  split at h
  · rename_i f d
    simp only [Bool.and_eq_true] at h
    rw [List.map_cons, hfirst h.1.1]
    exact Scan.forall_isWordChar
      (P := fun d => d.isDigit = true ∧ (d != '0') = true →
        'F' :: [d].map Char.toUpper ∈ functionKeys)
      (by decide) (hdigit h.1.2) ⟨h.1.2, h.2⟩
  · rename_i f t d
    simp only [Bool.and_eq_true] at h
    rw [List.map_cons, hfirst h.1]
    rcases Bool.or_eq_true_iff.1 h.2 with h | h
    · simp only [Bool.and_eq_true, beq_iff_eq] at h
      obtain ⟨rfl, hd⟩ := h
      exact Scan.forall_isWordChar
        (P := fun d => d.isDigit = true → 'F' :: ['1', d].map Char.toUpper ∈ functionKeys)
        (by decide) (hdigit hd) hd
    · simp only [Bool.and_eq_true, beq_iff_eq, decide_eq_true_eq] at h
      obtain ⟨⟨rfl, hlow⟩, hhigh⟩ := h
      have hascii : d.toNat < 128 := Nat.lt_of_le_of_lt (show d.toNat ≤ 52 from hhigh) (by decide)
      exact Text.forall_ascii
        (P := fun d => '0' ≤ d → d ≤ '4' → 'F' :: ['2', d].map Char.toUpper ∈ functionKeys)
        (by decide) hascii hlow hhigh
  · cases h

/-- A key that is known by its name: it is left as it is, and it has no signs. -/
structure KnownKey (key : List Char) : Prop where
  ne_nil : key ≠ []
  inked : ∀ c ∈ key, Text.isInked c = true
  canonical : canonicalKey key = key

theorem knownKey_of_mem_functionKeys {key : List Char} (h : key ∈ functionKeys) : KnownKey key := by
  have hall : ∀ key ∈ functionKeys, key ≠ [] ∧ key.all Text.isInked = true ∧
      canonicalKey key = key := by decide +kernel
  obtain ⟨hne, hinked, hcanonical⟩ := hall key h
  exact ⟨hne, List.all_eq_true.1 hinked, hcanonical⟩

theorem knownKey_of_mem_keyNames {entry : String × String} (h : entry ∈ keyNames) :
    KnownKey entry.2.toList := by
  have hall : ∀ entry ∈ keyNames, entry.2.toList ≠ [] ∧ entry.2.toList.all Text.isInked = true ∧
      canonicalKey entry.2.toList = entry.2.toList := by decide +kernel
  obtain ⟨hne, hinked, hcanonical⟩ := hall entry h
  exact ⟨hne, List.all_eq_true.1 hinked, hcanonical⟩

/-- How a trimmed key gets its canonical name. -/
inductive Naming : List Char → List Char → Prop
  | blank : Naming [] []
  | single (c : Char) : Naming [c] (Text.upperChar c)
  | known {key name : List Char} : (∀ c ∈ key, c.toNat < 128 ∧ c ≠ '+') → KnownKey name →
      Naming key name
  | other (c : Char) {rest : List Char} : rest ≠ [] →
      Naming (c :: rest) (Text.upperChar c ++ Text.lower rest)

theorem canonicalKey_naming (cs : List Char) : Naming (Text.trim cs) (canonicalKey cs) := by
  have hfunctions : ∀ key ∈ functionKeys, key.all (fun c => c.toNat < 128 ∧ c ≠ '+') = true := by
    decide +kernel
  have hnames : ∀ entry ∈ keyNames,
      entry.1.toList.all (fun c => c.toNat < 128 ∧ c ≠ '+') = true := by decide +kernel
  unfold canonicalKey
  split
  · rename_i htrim
    rw [htrim]
    exact .blank
  · rename_i c htrim
    rw [htrim]
    exact .single c
  · rename_i c rest hrest htrim
    rw [htrim]
    split
    · rename_i hfunction
      have hkey := map_toUpper_mem_functionKeys hfunction
      refine .known ?_ (knownKey_of_mem_functionKeys hkey)
      intro d hd
      obtain ⟨hascii, hplus⟩ := of_decide_eq_true
        (List.all_eq_true.1 (hfunctions _ hkey) _ (List.mem_map_of_mem hd))
      refine ⟨Text.ascii_of_toUpper hascii, ?_⟩
      rintro rfl
      exact hplus rfl
    · split
      · rename_i name hname
        obtain ⟨before, after, hsplit, -⟩ := List.lookup_eq_some_iff.1 hname
        have hmem : (String.ofList ((c :: rest).map Char.toLower), name) ∈ keyNames := by
          rw [hsplit]
          exact List.mem_append_right _ List.mem_cons_self
        refine .known ?_ (knownKey_of_mem_keyNames hmem)
        intro d hd
        have hlower : d.toLower ∈
            (String.ofList ((c :: rest).map Char.toLower)).toList := by
          rw [String.toList_ofList]
          exact List.mem_map_of_mem hd
        obtain ⟨hascii, hplus⟩ :=
          of_decide_eq_true (List.all_eq_true.1 (hnames _ hmem) _ hlower)
        refine ⟨Text.ascii_of_toLower hascii, ?_⟩
        rintro rfl
        exact hplus rfl
      · exact .other c hrest

namespace Naming

variable {key name : List Char}

theorem ne_nil (h : Naming key name) (hkey : key ≠ []) : name ≠ [] := by
  cases h with
  | blank => exact hkey
  | single c => exact Text.upperChar_ne_nil c
  | known _ hname => exact hname.ne_nil
  | other c _ => exact fun hnil => Text.upperChar_ne_nil c (List.append_eq_nil_iff.1 hnil).1

/-- A name begins with the first character of the key, or with one that is inked. -/
theorem head? (h : Naming key name) {d : Char} (hd : d ∈ name.head?) :
    d ∈ key.head? ∨ Text.isInked d = true := by
  have hupper : ∀ c, d ∈ (Text.upperChar c).head? → some c = some d ∨ Text.isInked d = true :=
    fun c hd => (Text.mem_upperChar (List.mem_of_head? hd)).imp_left fun heq => by rw [heq]
  cases h with
  | blank => cases hd
  | single c => exact hupper c hd
  | known _ hname => exact Or.inr (hname.inked d (List.mem_of_head? hd))
  | other c _ =>
      rw [List.head?_append_of_ne_nil _ (Text.upperChar_ne_nil c)] at hd
      exact hupper c hd

/-- A name ends with the last character of the key, or with one that is inked. -/
theorem getLast? (h : Naming key name) {d : Char} (hd : d ∈ name.getLast?) :
    d ∈ key.getLast? ∨ Text.isInked d = true := by
  cases h with
  | blank => cases hd
  | single c =>
      rcases Text.mem_upperChar (List.mem_of_getLast? hd) with rfl | hinked
      · exact Or.inl rfl
      · exact Or.inr hinked
  | known _ hname => exact Or.inr (hname.inked d (List.mem_of_getLast? hd))
  | @other c rest hrest =>
      have hlower : Text.lower rest ≠ [] := fun hnil => hrest (Text.lowerAfter_eq_nil hnil)
      rw [List.getLast?_append_of_ne_nil _ hlower] at hd
      rw [← List.singleton_append, List.getLast?_append_of_ne_nil _ hrest]
      exact Text.getLast?_lowerAfter hd

theorem tight (h : Naming key name) (hkey : Text.Tight key) : Text.Tight name where
  first := fun d hd => (h.head? hd).elim (hkey.first d) Text.isBlank_of_isInked
  last := fun d hd => (h.getLast? hd).elim (hkey.last d) Text.isBlank_of_isInked

/-- A name has as many plus signs as the key. -/
theorem count_plus (h : Naming key name) : name.count '+' = key.count '+' := by
  cases h with
  | blank => rfl
  | single c => exact Text.isSign_plus.count_upperChar c
  | known hkey hname =>
      have hplus : '+' ∉ name := fun hmem => absurd (hname.inked _ hmem) (by decide)
      rw [List.count_eq_zero_of_not_mem hplus,
        List.count_eq_zero_of_not_mem fun hmem => (hkey _ hmem).2 rfl]
  | @other c rest _ =>
      rw [List.count_append, Text.isSign_plus.count_upperChar, Text.lower,
        Text.isSign_plus.count_lowerAfter, ← List.count_append]
      rfl

theorem symbolless (h : Naming key name) (hkey : Hotkey.Symbolless key) :
    Hotkey.Symbolless name := by
  intro d e ds hname
  have hhead : d ∈ name.head? := by rw [hname]; rfl
  rcases h.head? hhead with hfirst | hinked
  · cases h with
    | blank => cases hhead
    | single c =>
        cases hfirst
        cases hsymbol : Modifier.ofSymbol? d with
        | none => rfl
        | some m =>
            rw [Modifier.symbol_of_ofSymbol? hsymbol] at hname
            have hsingle : (Text.upperChar m.symbol).length = 1 := by cases m <;> rfl
            rw [hname] at hsingle
            simp at hsingle
    | known _ hknown =>
        exact Modifier.ofSymbol?_of_isInked (hknown.inked d (List.mem_of_head? hhead))
    | @other c rest hrest =>
        cases hfirst
        obtain ⟨r, rs, rfl⟩ := List.exists_cons_of_ne_nil hrest
        exact hkey d r rs rfl
  · exact Modifier.ofSymbol?_of_isInked hinked

end Naming

/-- A key that does not end with a blank has a name. -/
theorem canonicalKey_ne_nil {cs : List Char} (hne : cs ≠ [])
    (hlast : ∀ c ∈ cs.getLast?, Text.isBlank c = false) : canonicalKey cs ≠ [] := by
  refine (canonicalKey_naming cs).ne_nil fun hnil => ?_
  have hblank := Text.isBlank_of_trim_eq_nil hnil _ (List.getLast_mem hne)
  rw [hlast _ (List.getLast?_eq_some_getLast hne)] at hblank
  cases hblank

namespace Hotkey

open Spelling

/-! ## Parsed combinations -/

/-- How a text is taken apart: symbols, words, and what is left for the key. -/
theorem parse_split (text : String) :
    ∃ (symbols : List Modifier) (words : List Modifier.Word) (rest : List Char),
      Text.trim text.toList = symbols.map Modifier.symbol ++ chain words rest ∧
      (Text.trim text.toList ≠ [] → rest ≠ []) ∧ Symbolless (chain words rest) ∧ Wordless rest ∧
      parse text = ⟨(symbols ++ words.map (·.modifier)).foldl Modifiers.insert .empty,
        String.ofList (canonicalKey rest)⟩ := by
  obtain ⟨symbols, left, hsymbols, hleft, hsymbolless, htakeSymbols⟩ :=
    takeSymbols_split (Text.trim text.toList)
  obtain ⟨words, rest, rfl, hrest, hwordless, htakeWords⟩ := takeWords_split left
  refine ⟨symbols, words, rest, hsymbols, fun h => hrest (hleft h), hsymbolless, hwordless, ?_⟩
  unfold parse
  simp only [htakeSymbols, htakeWords, List.foldl_append]

/-- A text that is not blank names a key. -/
theorem parse_key_ne_nil {text : String} (h : Text.trim text.toList ≠ []) :
    (parse text).key.toList ≠ [] := by
  obtain ⟨symbols, words, rest, htrim, hne, -, -, hparse⟩ := parse_split text
  rw [hparse, String.toList_ofList]
  refine canonicalKey_ne_nil (hne h) fun c hc => (Text.tight_trim text.toList).last c ?_
  rw [htrim, List.getLast?_append_of_ne_nil _ (chain_ne_nil words (hne h)),
    getLast?_chain words (hne h)]
  exact hc

/-- Combinations as parsing gives them. -/
structure Parsed (h : Hotkey) : Prop where
  key_ne_nil : h.modifiers ≠ .empty → h.key.toList ≠ []
  tight : Text.Tight h.key.toList
  symbolless : h.modifiers = .empty → Symbolless h.key.toList

theorem parse_parsed (text : String) : (parse text).Parsed := by
  obtain ⟨symbols, words, rest, htrim, -, hsymbolless, -, hparse⟩ := parse_split text
  have hnaming := canonicalKey_naming rest
  refine ⟨fun hmodifiers => parse_key_ne_nil fun hnil => hmodifiers ?_, ?_, ?_⟩
  · rw [hnil] at htrim
    obtain ⟨hsymbols, hchain⟩ := List.append_eq_nil_iff.1 htrim.symm
    rw [hparse, List.map_eq_nil_iff.1 hsymbols, (chain_eq_nil hchain).1]
    rfl
  · rw [hparse, String.toList_ofList]
    exact hnaming.tight (Text.tight_trim rest)
  · rw [hparse]
    intro hempty
    obtain ⟨hsymbols, hwords⟩ := List.append_eq_nil_iff.1 (Modifiers.eq_nil_of_foldl_insert hempty)
    rw [hsymbols, List.map_eq_nil_iff.1 hwords] at htrim
    have hrest : Text.trim text.toList = rest := htrim
    have htight := Text.tight_trim text.toList
    rw [hrest] at htight
    rw [List.map_eq_nil_iff.1 hwords] at hsymbolless
    rw [htight.trim_eq] at hnaming
    rw [String.toList_ofList]
    exact hnaming.symbolless hsymbolless

/-- The canonical text of a combination with a key is a chain of names. -/
theorem toList_text {h : Hotkey} (hkey : h.key.toList ≠ []) :
    h.text.toList = chain (h.modifiers.toList.map Modifier.word) h.key.toList := by
  have hkept : h.key.isEmpty = false := by
    simpa [String.isEmpty_iff, ← String.toList_eq_nil_iff] using hkey
  unfold text
  rw [hkept]
  simp only [Bool.false_eq_true, if_false]
  induction h.modifiers.toList with
  | nil => rfl
  | cons m ms ih =>
      rw [List.map_cons, List.cons_append, String.intercalate_cons_of_ne_nil (by simp),
        String.toList_append, String.toList_append, ih, List.map_cons, chain_cons]
      simp [Modifier.word]

theorem tight_chain (words : List Modifier.Word) {key : List Char} (hne : key ≠ [])
    (hkey : Text.Tight key) : Text.Tight (chain words key) where
  first := by
    intro c hc
    cases words with
    | nil => exact hkey.first c hc
    | cons w words =>
        obtain ⟨d, ds, hds, hd⟩ := w.toList_eq_cons
        rw [chain_cons, hds] at hc
        cases hc
        exact Scan.isBlank_of_isKeyChar (Scan.isKeyChar_of_isWordChar hd)
  last := by
    intro c hc
    rw [getLast?_chain words hne] at hc
    exact hkey.last c hc

theorem symbolless_chain_cons (w : Modifier.Word) (words : List Modifier.Word) (key : List Char) :
    Symbolless (chain (w :: words) key) := by
  intro c d ds hcs
  obtain ⟨e, es, hes, he⟩ := w.toList_eq_cons
  rw [chain_cons, hes, List.cons_append] at hcs
  obtain ⟨rfl, -⟩ := List.cons.inj hcs
  exact Scan.ofSymbol?_of_isWordChar he

/-- The combination that is read from a canonical text. -/
def reread (h : Hotkey) : Hotkey :=
  let (ms, rest) := takeWords h.modifiers [] h.key.toList
  { modifiers := ms, key := String.ofList (canonicalKey rest) }

/-- Only the key is taken apart further when a canonical text is read. -/
theorem Parsed.parse_text {h : Hotkey} (hparsed : h.Parsed) : parse h.text = h.reread := by
  by_cases hkey : h.key.toList = []
  · have hmodifiers : h.modifiers = .empty := by
      by_contra hne
      exact hparsed.key_ne_nil hne hkey
    obtain ⟨ms, key⟩ := h
    obtain rfl : ms = .empty := hmodifiers
    obtain rfl : key = "" := String.toList_eq_nil_iff.1 hkey
    decide +kernel
  · have htext := toList_text hkey
    have hwords : (h.modifiers.toList.map Modifier.word).map (·.modifier) = h.modifiers.toList := by
      rw [List.map_map]
      exact List.map_id _
    have htight := tight_chain (h.modifiers.toList.map Modifier.word) hkey hparsed.tight
    -- The text begins with the key, or with the name of a modifier.
    have hsymbolless : Symbolless (chain (h.modifiers.toList.map Modifier.word) h.key.toList) := by
      cases hlist : h.modifiers.toList with
      | nil =>
          refine hparsed.symbolless ?_
          rw [← h.modifiers.foldl_insert_toList, hlist]
          rfl
      | cons m ms => exact symbolless_chain_cons m.word (ms.map Modifier.word) h.key.toList
    unfold parse reread
    rw [htext, htight.trim_eq, hsymbolless.takeSymbols_eq]
    simp only
    rw [takeWords_chain_eq _ _ hkey, hwords, Modifiers.foldl_insert_toList]

/-- Combinations that are found again in their canonical text. The key is read once more: the words
taken off it are the names of more modifiers in canonical order, and what is left is the name of a
key. -/
@[mk_iff]
structure Settled (h : Hotkey) : Prop where
  names : ∃ later, (takeWords h.modifiers [] h.key.toList).1.toList = h.modifiers.toList ++ later ∧
    h.key.toList =
      chain (later.map Modifier.word) (takeWords h.modifiers [] h.key.toList).2
  canonical : canonicalKey (takeWords h.modifiers [] h.key.toList).2 =
    (takeWords h.modifiers [] h.key.toList).2

/-- Names that are the same texts as words in front of more names. -/
theorem exists_later {ms ms' : List Modifier} {words : List Modifier.Word}
    (h : (ms'.map Modifier.word).map (·.text) =
      (ms.map Modifier.word ++ words).map (·.text)) :
    ∃ later : List Modifier, ms' = ms ++ later ∧
      (later.map Modifier.word).map (·.text) = words.map (·.text) := by
  have hnames : ∀ l : List Modifier, (l.map Modifier.word).map (·.text) = l.map Modifier.name := by
    intro l
    rw [List.map_map]
    rfl
  rw [List.map_append, hnames, hnames] at h
  obtain ⟨before, later, rfl, hbefore, hlater⟩ := List.map_eq_append_iff.1 h
  obtain rfl := List.map_injective_iff.2 Modifier.name_injective hbefore
  exact ⟨later, rfl, by rw [hnames, hlater]⟩

theorem Parsed.text_reread_iff {h : Hotkey} (hparsed : h.Parsed) :
    h.reread.text = h.text ↔ h.Settled := by
  obtain ⟨words, rest, hchain, hne, -, htake⟩ := takeWords_split h.key.toList
  unfold reread
  rw [Hotkey.settled_iff, htake]
  simp only
  by_cases hkey : h.key.toList = []
  · rw [hkey] at hchain
    obtain ⟨rfl, rfl⟩ := chain_eq_nil hchain.symm
    have hname : String.ofList (canonicalKey []) = h.key := (String.toList_eq_nil_iff.1 hkey).symm
    rw [hname]
    exact iff_of_true rfl ⟨⟨[], (List.append_nil _).symm, hkey⟩, rfl⟩
  · generalize (words.map (·.modifier)).foldl Modifiers.insert h.modifiers = ms
    have hname : (String.ofList (canonicalKey rest)).toList ≠ [] := by
      rw [String.toList_ofList]
      refine canonicalKey_ne_nil (hne hkey) fun c hc => hparsed.tight.last c ?_
      rw [hchain, getLast?_chain words (hne hkey)]
      exact hc
    have hreread := toList_text (h := ⟨ms, String.ofList (canonicalKey rest)⟩) hname
    rw [← String.toList_inj, hreread, toList_text hkey, String.toList_ofList]
    constructor
    · intro heq
      rw [hchain, ← chain_append] at heq
      have hcount := congrArg (List.count '+') heq
      rw [count_chain, count_chain, (canonicalKey_naming rest).count_plus,
        Text.isSign_plus.count_trim] at hcount
      have hlength : (ms.toList.map Modifier.word).length =
          (h.modifiers.toList.map Modifier.word ++ words).length := Nat.add_right_cancel hcount
      obtain ⟨htexts, hrest⟩ := chain_inj hlength heq
      obtain ⟨later, hlater, hwords⟩ := exists_later htexts
      exact ⟨⟨later, hlater, by rw [hchain, chain_congr hwords]⟩, hrest⟩
    · rintro ⟨⟨later, hlater, hwords⟩, hrest⟩
      rw [hrest, hlater, hwords, List.map_append, chain_append]

end Hotkey

/-- **Canonical texts of canonical texts.** Normalizing a second time changes nothing exactly if the
combination of the text is settled. -/
theorem normalize_normalize_iff (text : String) :
    normalize (normalize text) = normalize text ↔ (Hotkey.parse text).Settled := by
  have hparsed := Hotkey.parse_parsed text
  unfold normalize
  rw [hparsed.parse_text]
  exact hparsed.text_reread_iff

end Chord
