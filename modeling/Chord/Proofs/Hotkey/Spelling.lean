import Chord.Proofs.Engine.Modes
import Chord.Proofs.Hotkey.Canonical
import Chord.Proofs.Script.Concatenation

/-!
# Spellings of a hotkey

A combination is written as modifier symbols, then modifier words with a plus sign behind each of
them, then the word of a key. Scanning and `Hotkey.parse` take such a text apart independently of
each other.

**Input.** A `Spelling`: the symbols, the words and the key.

**Algorithm.** Behind its first character a spelling is a word that may go on, with more words
behind plus signs; `comboExtent_chain` measures it once for every way in which it can begin. The
canonical text is split again at its plus signs, because no part of it has one.

**Results.** `Spelling.binds`: a spelling in front of an arrow is read as one binding of that very
text, and the key that is bound names the denoted modifiers in canonical order.
-/

namespace Chord

/-! ## Spellings -/

namespace Modifier

/-- The symbol of a modifier. -/
def symbol : Modifier → Char
  | .ctrl => '^'
  | .alt => '!'
  | .shift => '+'
  | .win => '#'

/-- The words for modifiers, in small letters. -/
def words : List (String × Modifier) := [
  ("ctrl", .ctrl), ("control", .ctrl), ("alt", .alt), ("shift", .shift), ("win", .win),
  ("super", .win)]

/-- A word for a modifier, in any letter case. -/
structure Word where
  text : String
  modifier : Modifier
  named : (Text.asciiLower text, modifier) ∈ words

end Modifier

/-- The words that no key in front of an arrow can be called by. -/
def reservedWords : List String :=
  ["let", "if", "else", "while", "fn", "function", "return", "and", "or"]

/-- A way to write a combination. A key without modifiers must look like a name. -/
structure Spelling where
  symbols : List Modifier
  words : List Modifier.Word
  key : String
  key_ne : key ≠ ""
  key_chars : ∀ c ∈ key.toList, Scan.isWordChar c = true
  bare_first : symbols = [] → words = [] → ∀ c ∈ key.toList.head?, c.isAlpha = true ∨ c = '_'
  bare_free : symbols = [] → words = [] → key ∉ reservedWords

namespace Spelling

/-- Words with a plus sign behind each of them, and the key. -/
def chain (words : List Modifier.Word) (key : List Char) : List Char :=
  words.flatMap (fun w => w.text.toList ++ ['+']) ++ key

/-- The characters of a spelling. -/
def chars (s : Spelling) : List Char :=
  s.symbols.map Modifier.symbol ++ chain s.words s.key.toList

/-- The text of a spelling. -/
def text (s : Spelling) : String :=
  String.ofList s.chars

/-- A script that binds the combination. -/
def source (s : Spelling) : String :=
  s.text ++ " => 1"

/-- The modifiers that a spelling denotes, repeats included. -/
def denoted (s : Spelling) : List Modifier :=
  s.symbols ++ s.words.map (·.modifier)

/-- The parts of the canonical text: the names of the denoted modifiers and that of the key. -/
def parts (s : Spelling) : List String :=
  (Modifier.all.filter (· ∈ s.denoted)).map Modifier.name
    ++ [String.ofList (canonicalKey s.key.toList)]

end Spelling

/-! ## Characters of a spelling -/

namespace Modifier

@[simp] theorem ofSymbol?_symbol (m : Modifier) : ofSymbol? m.symbol = some m := by
  cases m <;> rfl

@[simp] theorem isKeyChar_symbol (m : Modifier) : Scan.isKeyChar m.symbol = true := by
  cases m <;> decide

theorem ofWord?_eq_of_mem {word : String} {m : Modifier}
    (h : (Text.asciiLower word, m) ∈ words) : ofWord? word = some m := by
  unfold ofWord?
  simp only [words, List.mem_cons, Prod.mk.injEq, List.not_mem_nil, or_false] at h
  rcases h with ⟨h, rfl⟩ | ⟨h, rfl⟩ | ⟨h, rfl⟩ | ⟨h, rfl⟩ | ⟨h, rfl⟩ | ⟨h, rfl⟩ <;> simp only [h]

@[simp] theorem Word.ofWord?_text (w : Word) : ofWord? w.text = some w.modifier :=
  ofWord?_eq_of_mem w.named

end Modifier

namespace Modifier.Word

open Scan

theorem isAlpha_of_mem (w : Word) {c : Char} (hc : c ∈ w.text.toList) : c.isAlpha = true := by
  have htable : ∀ entry ∈ words, entry.1.toList.all Char.isAlpha = true := by decide
  apply isAlpha_of_isAlpha_toLower
  refine List.all_eq_true.1 (htable _ w.named) _ ?_
  rw [Text.asciiLower, String.toList_ofList]
  exact List.mem_map_of_mem hc

theorem toList_ne_nil (w : Word) : w.text.toList ≠ [] := by
  have htable : ∀ entry ∈ words, entry.1.toList ≠ [] := by decide
  have hlower := htable _ w.named
  intro hnil
  rw [Text.asciiLower, String.toList_ofList, hnil] at hlower
  exact hlower rfl

end Modifier.Word

/-! ## Scanning a spelling -/

namespace Scan

theorem comboExtent_word {word : List Char} (h : ∀ c ∈ word, isWordChar c = true)
    (rest : List Char) :
    comboExtent true (word ++ rest) = word.length + comboExtent true rest := by
  induction word with
  | nil => simp
  | cons c word ih =>
      have hc := h c List.mem_cons_self
      rw [List.cons_append, comboExtent_cons, if_pos (by simpa using hc),
        ih fun d hd => h d (List.mem_cons_of_mem c hd), List.length_cons]
      omega

theorem comboExtent_plus (inWord : Bool) {d : Char} (hd : isWordChar d = true)
    (rest : List Char) :
    comboExtent inWord ('+' :: d :: rest) = 2 + comboExtent true rest := by
  have hplus : (inWord && isWordChar '+') = false := Bool.and_false inWord
  rw [comboExtent_cons, hplus]
  simp [isKeyChar_of_isWordChar hd, hd]

theorem comboExtent_blank (inWord : Bool) (rest : List Char) :
    comboExtent inWord (' ' :: rest) = 0 := by
  have hblank : (inWord && isWordChar ' ') = false := Bool.and_false inWord
  rw [comboExtent_cons, hblank]
  rfl

end Scan

namespace Spelling

open Scan

/-- A chain begins with a word character, and behind that it is a word that goes on as far as the
chain does. -/
theorem comboExtent_chain (words : List Modifier.Word) {key : List Char} (hne : key ≠ [])
    (hkey : ∀ c ∈ key, isWordChar c = true) :
    ∃ d more, chain words key = d :: more ∧ isWordChar d = true ∧
      ∀ rest, comboExtent true (more ++ ' ' :: rest) = more.length := by
  induction words with
  | nil =>
      obtain ⟨d, more, rfl⟩ := List.exists_cons_of_ne_nil hne
      refine ⟨d, more, rfl, hkey d List.mem_cons_self, ?_⟩
      intro rest
      rw [comboExtent_word fun c hc => hkey c (List.mem_cons_of_mem d hc), comboExtent_blank,
        Nat.add_zero]
  | cons w words ih =>
      obtain ⟨d, more, hchain, hd, hmore⟩ := ih
      obtain ⟨c, letters, hw⟩ := List.exists_cons_of_ne_nil w.toList_ne_nil
      have halpha : ∀ c ∈ w.text.toList, isWordChar c = true :=
        fun c hc => isWordChar_of_isAlpha (w.isAlpha_of_mem hc)
      rw [hw] at halpha
      refine ⟨c, letters ++ '+' :: d :: more, ?_, halpha c List.mem_cons_self, ?_⟩
      · rw [← hchain]
        simp [chain, hw]
      · intro rest
        rw [List.append_assoc, comboExtent_word fun e he => halpha e (List.mem_cons_of_mem c he),
          List.cons_append, List.cons_append, comboExtent_plus true hd, hmore]
        simp only [List.length_append, List.length_cons]
        omega

end Spelling

namespace Spelling

open Scan

variable {d : Char} {more : List Char}

theorem symbolicExtent_chars (hd : isWordChar d = true)
    (hmore : ∀ rest, comboExtent true (more ++ ' ' :: rest) = more.length)
    (symbols : List Modifier) (rest : List Char) :
    symbolicExtent (symbols.map Modifier.symbol ++ d :: (more ++ ' ' :: rest)) =
      symbols.length + 1 + more.length := by
  induction symbols with
  | nil =>
      have hsymbol : ((Modifier.ofSymbol? d).isSome && headIs isKeyChar (more ++ ' ' :: rest)) =
          false := by
        rw [ofSymbol?_of_isWordChar hd]
        rfl
      rw [List.map_nil, List.nil_append, symbolicExtent, hsymbol,
        if_pos (isKeyChar_of_isWordChar hd), hd, hmore]
      simp
  | cons m symbols ih =>
      have hhead : headIs isKeyChar
          (symbols.map Modifier.symbol ++ d :: (more ++ ' ' :: rest)) = true := by
        cases symbols with
        | nil => exact isKeyChar_of_isWordChar hd
        | cons m symbols => exact m.isKeyChar_symbol
      rw [List.map_cons, List.cons_append, symbolicExtent, hhead, ih]
      simp only [Modifier.ofSymbol?_symbol, Option.isSome_some, Bool.and_self, if_true,
        List.length_cons]
      omega

theorem cut_symbol (m : Modifier) {c : Char} {cs : List Char} (hc : isKeyChar c = true)
    (hne : c ≠ '=') :
    cut true m.symbol (c :: cs) =
      ⟨.word .hotkey, symbolicExtent (m.symbol :: c :: cs) - 1⟩ := by
  have hequals : headIs (· == '=') (c :: cs) = false := by simpa [headIs] using hne
  have hkey : headIs isKeyChar (c :: cs) = true := hc
  cases m with
  | ctrl => rfl
  | alt =>
      show (if headIs (· == '=') (c :: cs) then two .operator
        else if headIs isKeyChar (c :: cs) then symbolic '!' (c :: cs) else ⟨.stray, 0⟩) = _
      rw [hequals, hkey]
      rfl
  | shift =>
      show (if headIs isKeyChar (c :: cs) then symbolic '+' (c :: cs) else one .operator) = _
      rw [hkey]
      rfl
  | win => rfl

theorem takeWhile_isWordChar {word : List Char} (h : ∀ c ∈ word, isWordChar c = true) {c : Char}
    (hc : isWordChar c = false) (rest : List Char) :
    (word ++ c :: rest).takeWhile isWordChar = word := by
  rw [List.takeWhile_append_of_pos h, List.takeWhile_cons_of_neg (by simp [hc]), List.append_nil]

/-- A segment that begins with a word, in front of something else. -/
theorem cut_word {c : Char} {word : List Char} (hfirst : c.isAlpha = true ∨ c = '_')
    (hword : ∀ d ∈ word, isWordChar d = true) {e : Char} (he : isWordChar e = false)
    (rest : List Char) :
    cut true c (word ++ e :: rest) =
      ⟨.word (wordToken (c :: word) (e :: rest)).1,
        (wordToken (c :: word) (e :: rest)).2 - 1⟩ := by
  have hc : isWordChar c = true := by
    rcases hfirst with halpha | rfl
    · exact isWordChar_of_isAlpha halpha
    · decide
  have hdigit : c.isDigit = false := by
    rcases hfirst with halpha | rfl
    · exact isDigit_of_isAlpha halpha
    · decide
  have hextent : wordExtent (word ++ e :: rest) = word.length := by
    rw [wordExtent, takeWhile_isWordChar hword he]
  have hplain : c ≠ '\n' ∧ Text.isBlank c = false ∧ c ≠ '/' ∧ c ≠ '"' :=
    forall_isWordChar (P := fun c => c ≠ '\n' ∧ Text.isBlank c = false ∧ c ≠ '/' ∧ c ≠ '"')
      (by decide) hc
  obtain ⟨hnewline, hblank, hslash, hquote⟩ := hplain
  simp [cut, hnewline, hblank, hslash, hquote, hdigit, hc, hextent]

end Spelling

namespace Grammar

open Parse

/-- A number is an expression. -/
theorem expression_number {t : Token} {value : Float} (hkind : t.kind = .number)
    (hvalue : Decimal.read? t.text.toList = some value) :
    Expression [t] (.number value) [] := by
  have hcall : Call true [t] (.number value) false [] :=
    .plain (.number hkind hvalue) (.nil (by decide) fun h => absurd h.1 (by decide))
      (by simp [Expr.isCallablePath])
  have hunary : Unary true [t] (.number value) false [] := by
    refine .call ?_ hcall
    intro u hu
    cases hu
    simp [hkind]
  have hbinary : ∀ ops, Binary ops true [t] (.number value) false [] := by
    intro ops
    induction ops with
    | nil => exact .operand hunary
    | cons level ops ih => exact .level ih (.nil rfl)
  exact .stages (hbinary levels) (.nil rfl)

end Grammar

namespace Scan

/-- A modifier with a plus sign begins a hotkey. -/
theorem wordToken_modifier {word : List Char} {m : Modifier}
    (hword : Modifier.ofWord? (String.ofList word) = some m) {d : Char}
    (hd : isWordChar d = true) (rest : List Char) :
    wordToken word ('+' :: d :: rest) = (.hotkey, word.length + (2 + comboExtent true rest)) := by
  have hcombo := comboExtent_plus false hd rest
  have hcondition : ((Modifier.ofWord? (String.ofList word)).isSome &&
      decide (0 < comboExtent false ('+' :: d :: rest))) = true := by
    rw [hword, hcombo]
    exact decide_eq_true (Nat.lt_of_lt_of_le Nat.zero_lt_two (Nat.le_add_right 2 _))
  rw [wordToken, if_pos hcondition, hcombo]

/-- A word in front of an arrow is a hotkey unless it has a meaning of its own. -/
theorem wordToken_bare {word : List Char} (hfree : keyword? (String.ofList word) = none)
    {rest : List Char} (harrow : arrowFollows (' ' :: rest) = true) :
    wordToken word (' ' :: rest) = (.hotkey, word.length) := by
  unfold wordToken
  rw [comboExtent_blank, hfree, harrow]
  simp

theorem keyword?_eq_none {word : String} (h : word ∉ reservedWords) : keyword? word = none := by
  unfold keyword?
  split
  case h_10 => rfl
  all_goals exact absurd (by decide) h

end Scan

namespace Spelling

open Scan

variable {d : Char} {more : List Char}

theorem cut_symbols (m : Modifier) (symbols : List Modifier) (hd : isWordChar d = true)
    (hmore : ∀ rest, comboExtent true (more ++ ' ' :: rest) = more.length) (rest : List Char) :
    cut true m.symbol (symbols.map Modifier.symbol ++ d :: (more ++ ' ' :: rest)) =
      ⟨.word .hotkey, symbols.length + 1 + more.length⟩ := by
  have hextent := symbolicExtent_chars hd hmore (m :: symbols) rest
  rw [List.map_cons, List.cons_append] at hextent
  have hnext : ∃ c cs, symbols.map Modifier.symbol ++ d :: (more ++ ' ' :: rest) = c :: cs ∧
      isKeyChar c = true ∧ c ≠ '=' := by
    cases symbols with
    | nil =>
        refine ⟨d, _, rfl, isKeyChar_of_isWordChar hd, ?_⟩
        rintro rfl
        exact absurd hd (by decide)
    | cons m symbols =>
        refine ⟨m.symbol, _, rfl, m.isKeyChar_symbol, ?_⟩
        cases m <;> decide
  obtain ⟨c, cs, hcs, hc, hequals⟩ := hnext
  rw [hcs, cut_symbol m hc hequals, ← hcs, hextent, List.length_cons]
  simp only [Cut.mk.injEq, true_and]
  omega

/-- **A spelling in front of an arrow is one segment**, and that is a hotkey. -/
theorem cut_chars (s : Spelling) :
    ∃ c more, s.chars = c :: more ∧
      ∀ rest, arrowFollows (' ' :: rest) = true →
        cut true c (more ++ ' ' :: rest) = ⟨.word .hotkey, more.length⟩ := by
  obtain ⟨symbols, words, key, hne, hkey, hfirst, hfree⟩ := s
  have hne : key.toList ≠ [] := fun h => hne (String.toList_eq_nil_iff.1 h)
  cases symbols with
  | cons m symbols =>
      obtain ⟨d, more, hchain, hd, hmore⟩ := comboExtent_chain words hne hkey
      refine ⟨m.symbol, symbols.map Modifier.symbol ++ d :: more, ?_, ?_⟩
      · simp [chars, hchain]
      · intro rest _
        rw [List.append_assoc, List.cons_append, cut_symbols m symbols hd hmore]
        simp [Nat.add_comm, Nat.add_left_comm]
  | nil =>
      cases words with
      | cons w words =>
          obtain ⟨d, more, hchain, hd, hmore⟩ := comboExtent_chain words hne hkey
          obtain ⟨c, letters, hw⟩ := List.exists_cons_of_ne_nil w.toList_ne_nil
          have halpha : ∀ e ∈ c :: letters, e.isAlpha = true := by
            rw [← hw]
            exact fun e he => w.isAlpha_of_mem he
          have hletters : ∀ e ∈ letters, isWordChar e = true :=
            fun e he => isWordChar_of_isAlpha (halpha e (List.mem_cons_of_mem c he))
          have hword : Modifier.ofWord? (String.ofList (c :: letters)) = some w.modifier := by
            rw [← hw, String.ofList_toList]
            exact w.ofWord?_text
          refine ⟨c, letters ++ '+' :: d :: more, ?_, ?_⟩
          · rw [← hchain]
            simp [chars, chain, hw]
          · intro rest _
            rw [List.append_assoc, List.cons_append, List.cons_append,
              cut_word (Or.inl (halpha c List.mem_cons_self)) hletters (by decide),
              wordToken_modifier hword hd, hmore]
            simp only [List.length_append, List.length_cons, Cut.mk.injEq, true_and]
            omega
      | nil =>
          obtain ⟨c, word, hword⟩ := List.exists_cons_of_ne_nil hne
          have hc : c.isAlpha = true ∨ c = '_' := hfirst rfl rfl c (by simp [hword])
          have hchars : ∀ d ∈ word, isWordChar d = true :=
            fun d hd => hkey d (by rw [hword]; exact List.mem_cons_of_mem c hd)
          have hfree : keyword? (String.ofList (c :: word)) = none := by
            rw [← hword, String.ofList_toList]
            exact keyword?_eq_none (hfree rfl rfl)
          refine ⟨c, word, hword, ?_⟩
          intro rest harrow
          rw [cut_word hc hchars (by decide), wordToken_bare hfree harrow]
          rfl

/-- The tokens of a script that binds a spelling. -/
theorem wordsOf_source (s : Spelling) :
    ∃ p q, wordsOf s.source.toList =
      [⟨.hotkey, s.text, .start⟩, ⟨.arrow, "=>", p⟩, ⟨.number, "1", q⟩] := by
  obtain ⟨c, more, hchars, hcut⟩ := s.cut_chars
  have hsource : s.source.toList = c :: (more ++ [' ', '=', '>', ' ', '1']) := by
    rw [source, text, String.toList_append, String.toList_ofList, hchars]
    rfl
  rw [wordsOf, hsource, segments, segmentsFrom_cons, hcut _ (by decide)]
  simp only [List.take_left, List.drop_left, ← hchars, List.filterMap_cons]
  exact ⟨_, _, rfl⟩

theorem parseSource_source (s : Spelling) :
    parseSource s.source = .ok ⟨[.bind (.hotkey s.text) (.expr (.number (Float.ofNat 1))) 1]⟩ := by
  obtain ⟨p, q, hwords⟩ := s.wordsOf_source
  rw [parseSource_eq_ok_iff, hwords]
  have hnumber : Grammar.Expression [⟨.number, "1", q⟩] (.number (Float.ofNat 1)) [] := by
    refine Grammar.expression_number rfl ?_
    have htext : "1".toList = ['1'] := by decide
    show Decimal.read? "1".toList = _
    rw [htext]
    rfl
  have haction : Grammar.Statement [⟨.number, "1", q⟩] (.expr (.number (Float.ofNat 1))) [] :=
    .expr (show Kind.number ∉ Grammar.openings by decide) hnumber
  exact .cons (.bind rfl rfl haction) (by decide) .nil

end Spelling

/-! ## Normalizing a spelling -/

namespace Hotkey

open Scan

theorem takeSymbols_symbols (ms : Modifiers) (symbols : List Modifier) {d : Char}
    (hd : isWordChar d = true) (rest : List Char) :
    takeSymbols ms (symbols.map Modifier.symbol ++ d :: rest) =
      (symbols.foldl Modifiers.insert ms, d :: rest) := by
  induction symbols generalizing ms with
  | nil =>
      cases rest with
      | nil => rfl
      | cons e rest =>
          rw [List.map_nil, List.nil_append, takeSymbols, ofSymbol?_of_isWordChar hd]
          rfl
  | cons m symbols ih =>
      obtain ⟨c, cs, hcs⟩ : ∃ c cs, symbols.map Modifier.symbol ++ d :: rest = c :: cs :=
        List.exists_cons_of_ne_nil (by simp)
      have hstep := ih (ms.insert m)
      rw [hcs] at hstep
      rw [List.map_cons, List.cons_append, hcs, takeSymbols, Modifier.ofSymbol?_symbol]
      exact hstep

theorem takeWords_chain (ms : Modifiers) (words : List Modifier.Word) {key : List Char}
    (hne : key ≠ []) (hkey : ∀ c ∈ key, isWordChar c = true) :
    takeWords ms [] (Spelling.chain words key) =
      ((words.map (·.modifier)).foldl Modifiers.insert ms, key) := by
  induction words generalizing ms with
  | nil =>
      have hplus : '+' ∉ key := fun hmem => absurd (hkey _ hmem) (by decide)
      have hall := takeWords_append ms [] hplus []
      rw [List.append_nil] at hall
      simp [Spelling.chain, hall, takeWords]
  | cons w words ih =>
      obtain ⟨d, more, hchain, -, -⟩ := Spelling.comboExtent_chain words hne hkey
      have hplus : '+' ∉ w.text.toList := fun hmem => absurd (w.isAlpha_of_mem hmem) (by decide)
      have hsplit : Spelling.chain (w :: words) key = w.text.toList ++ '+' :: d :: more := by
        rw [← hchain]
        simp [Spelling.chain]
      have hstep := ih (ms.insert w.modifier)
      rw [hchain] at hstep
      rw [hsplit, takeWords_append ms [] hplus, takeWords]
      simp [w.toList_ne_nil, hstep]

end Hotkey

/-! ## The key that is bound -/

namespace Spelling

open Scan

theorem toList_key_ne_nil (s : Spelling) : s.key.toList ≠ [] :=
  fun h => s.key_ne (String.toList_eq_nil_iff.1 h)

theorem isBlank_of_mem_chars (s : Spelling) : ∀ c ∈ s.chars, Text.isBlank c = false := by
  intro c hc
  apply isBlank_of_isKeyChar
  simp only [chars, chain, List.mem_append, List.mem_map, List.mem_flatMap, List.mem_singleton]
    at hc
  rcases hc with ⟨m, -, rfl⟩ | ⟨w, -, hc | rfl⟩ | hc
  · exact m.isKeyChar_symbol
  · exact isKeyChar_of_isWordChar (isWordChar_of_isAlpha (w.isAlpha_of_mem hc))
  · decide
  · exact isKeyChar_of_isWordChar (s.key_chars c hc)

theorem parse_text (s : Spelling) :
    Hotkey.parse s.text =
      ⟨s.denoted.foldl Modifiers.insert .empty, String.ofList (canonicalKey s.key.toList)⟩ := by
  obtain ⟨d, more, hchain, hd, -⟩ := comboExtent_chain s.words s.toList_key_ne_nil s.key_chars
  have hsymbols : Hotkey.takeSymbols .empty s.chars =
      (s.symbols.foldl Modifiers.insert .empty, chain s.words s.key.toList) := by
    rw [chars, hchain]
    exact Hotkey.takeSymbols_symbols _ _ hd more
  unfold Hotkey.parse
  rw [text, String.toList_ofList, Text.trim_eq_self s.isBlank_of_mem_chars]
  simp only [hsymbols, Hotkey.takeWords_chain _ s.words s.toList_key_ne_nil s.key_chars]
  rw [denoted, List.foldl_append]

/-- The bound key names the denoted modifiers in canonical order and then the key. -/
theorem normalize_text (s : Spelling) : normalize s.text = "+".intercalate s.parts := by
  have hkey := (canonicalKey_of_isWordChar s.toList_key_ne_nil s.key_chars).1
  have hkept : (String.ofList (canonicalKey s.key.toList)).isEmpty = false := by
    simpa [String.isEmpty_iff, ← String.toList_eq_nil_iff] using hkey
  rw [normalize, parse_text, Hotkey.text]
  simp only [Modifiers.toList_foldl_insert, hkept]
  rfl

theorem plus_not_mem_parts (s : Spelling) : ∀ part ∈ s.parts.map String.toList, '+' ∉ part := by
  intro part hpart hplus
  obtain ⟨text, htext, rfl⟩ := List.mem_map.1 hpart
  rcases List.mem_append.1 htext with htext | htext
  · obtain ⟨m, -, rfl⟩ := List.mem_map.1 htext
    revert hplus
    cases m <;> decide
  · obtain rfl := List.mem_singleton.1 htext
    rw [String.toList_ofList] at hplus
    have hword := (canonicalKey_of_isWordChar s.toList_key_ne_nil s.key_chars).2 _ hplus
    exact absurd hword (by decide)

/-- The canonical text determines its parts: none of them has a plus sign. -/
theorem parts_eq_of_intercalate_eq {s t : Spelling}
    (h : "+".intercalate s.parts = "+".intercalate t.parts) : s.parts = t.parts := by
  have hlists := congrArg String.toList h
  rw [String.toList_intercalate, String.toList_intercalate] at hlists
  have hplus : "+".toList = ['+'] := by decide
  rw [hplus] at hlists
  have hsplit := congrArg (List.splitOn '+') hlists
  rw [List.splitOn_intercalate '+' s.plus_not_mem_parts (by simp [parts]),
    List.splitOn_intercalate '+' t.plus_not_mem_parts (by simp [parts])] at hsplit
  exact List.map_injective_iff.2 (fun _ _ => String.toList_inj.1) hsplit

theorem parts_eq_iff {s t : Spelling} :
    s.parts = t.parts ↔
      (∀ m, m ∈ s.denoted ↔ m ∈ t.denoted) ∧
        canonicalKey s.key.toList = canonicalKey t.key.toList := by
  constructor
  · intro h
    obtain ⟨hnames, hkeys⟩ := List.append_inj' h rfl
    have hname : Function.Injective Modifier.name := by
      intro m n
      cases m <;> cases n <;> decide
    have hfilter := List.map_injective_iff.2 hname hnames
    constructor
    · intro m
      have hall : m ∈ Modifier.all := by cases m <;> decide
      have hmem : m ∈ Modifier.all.filter (· ∈ s.denoted) ↔
          m ∈ Modifier.all.filter (· ∈ t.denoted) := by rw [hfilter]
      simpa [hall] using hmem
    · exact String.ofList_injective (List.singleton_inj.1 hkeys)
  · rintro ⟨hdenoted, hkeys⟩
    simp only [parts, hdenoted, hkeys]

end Spelling

theorem Table.keys_insert_empty {α : Type} (key : String) (value : α) :
    ((empty : Table α).insert key value).keys = [key] :=
  rfl

/-- A script of one binding binds its canonical hotkey in every mode. -/
theorem Engine.register_binding {σ : Type} (setup : Setup σ) (mode : Mode) (state : σ)
    {source text : String} {action : Stmt} {line : Nat}
    (hparse : Chord.parseSource source = .ok ⟨[.bind (.hotkey text) action line]⟩)
    (hcompiles : Compiles setup.registry action) :
    ∃ e, (start mode state).register setup source = (.ok [normalize text], e) ∧
      e.boundKeys = [normalize text] := by
  let p : Program := ⟨[.bind (.hotkey text) action line]⟩
  have hparse : Chord.parseSource source = .ok p := hparse
  have hcompile : ∀ hotkey action' line', Stmt.bind hotkey action' line' ∈ p.statements →
      Compiles setup.registry action' := by
    intro hotkey action' line' hmem
    cases List.mem_singleton.1 hmem
    exact hcompiles
  have hkeys : p.bindings.map Stmt.key = [normalize text] := rfl
  have hbindings : Outline.bindAll setup p.bindings ⟨state, .empty⟩ =
      Outline.bind setup text action ⟨state, .empty⟩ := rfl
  obtain ⟨e, hregister, hshows⟩ := register_shows mode state hparse hcompile
  rw [hkeys] at hregister
  rw [hbindings] at hshows
  exact ⟨e, hregister, hshows.boundKeys.trans (Table.keys_insert_empty _ _)⟩

/-- **Spelling and order of modifiers do not matter**: a spelling in front of an arrow is read as
one binding of that very text. In every mode the key it binds names the denoted modifiers in
canonical order and then the key. Two spellings bind the same key exactly if they denote the same
modifiers and the same key. -/
theorem Spelling.binds (s : Spelling) :
    parseSource s.source = .ok ⟨[.bind (.hotkey s.text) (.expr (.number (Float.ofNat 1))) 1]⟩ ∧
      normalize s.text = "+".intercalate s.parts ∧
      (∀ {σ : Type} (setup : Setup σ) (mode : Mode) (state : σ),
        ∃ e, (Engine.start mode state).register setup s.source = (.ok [normalize s.text], e) ∧
          e.boundKeys = [normalize s.text]) ∧
      ∀ t : Spelling, normalize s.text = normalize t.text ↔
        (∀ m, m ∈ s.denoted ↔ m ∈ t.denoted) ∧
          canonicalKey s.key.toList = canonicalKey t.key.toList := by
  refine ⟨s.parseSource_source, s.normalize_text, ?_, ?_⟩
  · intro σ setup mode state
    exact Engine.register_binding setup mode state s.parseSource_source ⟨_, rfl⟩
  · intro t
    rw [s.normalize_text, t.normalize_text, ← parts_eq_iff]
    constructor
    · exact parts_eq_of_intercalate_eq
    · exact congrArg _

example : ∃ s : Spelling, s.text = "^+ALT+ctrl+f5" ∧ s.parts = ["Ctrl", "Alt", "Shift", "F5"] :=
  ⟨⟨[.ctrl, .shift], [⟨"ALT", .alt, by decide⟩, ⟨"ctrl", .ctrl, by decide⟩], "f5", by decide,
    List.all_eq_true.1 (by decide), nofun, nofun⟩, by decide, by decide⟩

end Chord
