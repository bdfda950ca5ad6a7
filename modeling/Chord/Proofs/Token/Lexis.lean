import Chord.Proofs.Hotkey.Plain
import Chord.Proofs.Token.Wording

/-!
# The lexical grammar

**Input.** Any text, comments kept or not.

**Algorithm.** The tests of the scanner come in a fixed order: a digit is asked for before a word, a
modifier with a plus sign before a function key, and a function key before the words with a meaning
of their own. So each kind of token is looked at where it is cut off (`cut_isLexeme`).

**Results.** `Lexical` says what the text of a token can be, by its kind. This holds of every token
of a script (`lexical_of_mem_tokens`), and the number tokens of a script denote numbers
(`IsNumeral.read?_ne_none`).
-/

namespace Chord

/-! ## Kinds of texts -/

/-- A letter or an underscore, and letters, digits and underscores behind it. -/
def IsName (cs : List Char) : Prop :=
  ∃ c rest, cs = c :: rest ∧ (c.isAlpha = true ∨ c = '_') ∧
    ∀ d ∈ rest, d.isAlphanum = true ∨ d = '_'

/-- One or more digits. -/
def AreDigits (cs : List Char) : Prop :=
  cs ≠ [] ∧ ∀ c ∈ cs, c.isDigit = true

theorem AreDigits.cons {c : Char} {cs : List Char} (hc : c.isDigit = true)
    (h : ∀ d ∈ cs, d.isDigit = true) : AreDigits (c :: cs) :=
  ⟨List.cons_ne_nil c cs, List.forall_mem_cons.2 ⟨hc, h⟩⟩

/-- Digits with at most one point, which stands between digits. -/
def IsNumeral (cs : List Char) : Prop :=
  AreDigits cs ∨ ∃ whole fraction, cs = whole ++ '.' :: fraction ∧ AreDigits whole ∧
    AreDigits fraction

/-- What the text of a token can be. -/
structure Lexical (t : Token) : Prop where
  name : t.kind = .identifier → IsName t.text.toList ∧ t.text ∉ reservedWords ∧
    t.text.toList.map Char.toUpper ∉ functionKeys
  number : t.kind = .number → IsNumeral t.text.toList
  operator : t.kind = .operator → ∃ op, BinOp.ofSymbol? t.text = some op
  hotkey : t.kind = .hotkey → t.text ≠ "" ∧ ∀ c ∈ t.text.toList, Text.isBlank c = false
  line : t.kind ∈ [.string, .comment] → '\n' ∉ t.text.toList

namespace Scan

variable {c d : Char} {cs : List Char} {kind : Kind}

/-! ## Words -/

theorem isName_of_isWordChar (hc : isWordChar c = true) (hdigit : c.isDigit = false)
    (hcs : ∀ d ∈ cs, isWordChar d = true) : IsName (c :: cs) := by
  have hfirst : c.isAlpha = true ∨ c = '_' := by
    simpa [isWordChar, Char.isAlphanum, hdigit] using hc
  refine ⟨c, cs, rfl, hfirst, fun d hd => ?_⟩
  simpa [isWordChar] using hcs d hd

theorem notMem_reservedWords {word : String} (h : keyword? word = none) :
    word ∉ reservedWords := by
  have hall : ∀ word ∈ reservedWords, keyword? word ≠ none := by decide
  exact fun hmem => hall word hmem h

theorem notMem_functionKeys (h : isFunctionKey cs = false)
    (hcs : ∀ c ∈ cs, isWordChar c = true) : cs.map Char.toUpper ∉ functionKeys := by
  have hall : ∀ key ∈ functionKeys, isFunctionKey key = true := by decide +kernel
  have hascii : ∀ c ∈ cs, c.toNat < 128 := by
    intro c hc
    have hrange := toNat_of_isWordChar (hcs c hc)
    omega
  have hupper : ∀ c ∈ cs.map Char.toUpper, c.toNat < 128 := by
    intro d hd
    obtain ⟨c, hc, rfl⟩ := List.mem_map.1 hd
    exact Text.forall_ascii (P := fun c => c.toUpper.toNat < 128) (by decide) (hascii c hc)
  have hlower : (cs.map Char.toUpper).map Char.toLower = cs.map Char.toLower := by
    rw [List.map_map]
    exact List.map_congr_left fun c hc => toLower_toUpper (hascii c hc)
  intro hmem
  -- Letter case does not matter to function keys, so the word itself would be one.
  have hkey := hall _ hmem
  rw [← isFunctionKey_map_toLower hupper, hlower, isFunctionKey_map_toLower hascii, h] at hkey
  cases hkey

theorem exists_ofSymbol?_of_keyword {word : String} (h : keyword? word = some .operator) :
    ∃ op, BinOp.ofSymbol? word = some op := by
  unfold keyword? at h
  split at h <;> cases h
  · exact ⟨.and, rfl⟩
  · exact ⟨.or, rfl⟩

theorem keyword?_notMem {word : String} (h : keyword? word = some kind) :
    kind ∉ [.identifier, .number] := by
  unfold keyword? at h
  split at h <;> cases h <;> decide

/-! ## Numbers -/

theorem isDigit_of_mem_numberExtent (cs : List Char) :
    ∀ c ∈ cs.take (numberExtent true cs), c.isDigit = true := by
  induction cs with
  | nil => exact List.forall_mem_nil _
  | cons d ds ih =>
      unfold numberExtent
      split
      · rename_i hd
        rw [Nat.add_comm, List.take_succ_cons]
        exact List.forall_mem_cons.2 ⟨hd, ih⟩
      · rw [Bool.not_true, Bool.and_false, Bool.false_and, if_neg Bool.false_ne_true]
        exact List.forall_mem_nil _

/-- Digits behind a point. -/
theorem areDigits_numberExtent (h : headIs Char.isDigit cs = true) :
    AreDigits (cs.take (numberExtent true cs)) := by
  refine ⟨?_, isDigit_of_mem_numberExtent cs⟩
  obtain ⟨d, ds, rfl, hd⟩ := headIs_eq_true h
  rw [numberExtent, if_pos hd, Nat.add_comm, List.take_succ_cons]
  exact List.cons_ne_nil _ _

theorem numberExtent_isNumeral (hc : c.isDigit = true) (cs : List Char) :
    IsNumeral (c :: cs.take (numberExtent false cs)) := by
  induction cs generalizing c with
  | nil => exact .inl (.cons hc (List.forall_mem_nil _))
  | cons d ds ih =>
      unfold numberExtent
      split
      · rename_i hd
        rw [Nat.add_comm, List.take_succ_cons]
        rcases ih hd with hdigits | ⟨whole, fraction, hsplit, hwhole, hfraction⟩
        · exact .inl (.cons hc hdigits.2)
        · exact .inr ⟨c :: whole, fraction, by rw [hsplit, List.cons_append], .cons hc hwhole.2,
            hfraction⟩
      split
      · rename_i hpoint
        simp only [Bool.and_eq_true, beq_iff_eq] at hpoint
        obtain ⟨⟨rfl, -⟩, hnext⟩ := hpoint
        rw [Nat.add_comm, List.take_succ_cons]
        exact .inr ⟨[c], _, rfl, .cons hc (List.forall_mem_nil _), areDigits_numberExtent hnext⟩
      · exact .inl (.cons hc (List.forall_mem_nil _))

/-! ## Segments -/

/-- What the spelling of a name, a number or an operator can be. -/
structure Lexeme (kind : Kind) (lexeme : List Char) : Prop where
  name : kind = .identifier → IsName lexeme ∧ String.ofList lexeme ∉ reservedWords ∧
    lexeme.map Char.toUpper ∉ functionKeys
  number : kind = .number → IsNumeral lexeme
  operator : kind = .operator → ∃ op, BinOp.ofSymbol? (String.ofList lexeme) = some op

theorem Lexeme.of_notMem {lexeme : List Char} (h : kind ∉ [.identifier, .number, .operator]) :
    Lexeme kind lexeme where
  name := by
    rintro rfl
    exact absurd (by decide) h
  number := by
    rintro rfl
    exact absurd (by decide) h
  operator := by
    rintro rfl
    exact absurd (by decide) h

theorem Lexeme.of_ofSymbol? {lexeme : List Char} {op : BinOp} (hkind : kind = .operator)
    (h : BinOp.ofSymbol? (String.ofList lexeme) = some op) : Lexeme kind lexeme := by
  subst hkind
  exact ⟨nofun, nofun, fun _ => ⟨op, h⟩⟩

/-- The segment that begins with `c` is spelled as its kind asks for. -/
def Cut.IsLexeme (next : Cut) (c : Char) (cs : List Char) : Prop :=
  ∀ kind, next.sort = .word kind → Lexeme kind (c :: cs.take next.extra)

theorem isLexeme_of_notMem (h : kind ∉ [.identifier, .number, .operator]) (extra : Nat) :
    Cut.IsLexeme ⟨.word kind, extra⟩ c cs := by
  rintro _ ⟨⟩
  exact .of_notMem h

theorem isLexeme_stray : Cut.IsLexeme ⟨.stray, 0⟩ c cs :=
  nofun

theorem one_isLexeme (h : (BinOp.ofSymbol? (String.ofList [c])).isSome = true) :
    (one .operator).IsLexeme c cs := by
  rintro _ ⟨⟩
  obtain ⟨op, hop⟩ := Option.isSome_iff_exists.1 h
  exact .of_ofSymbol? rfl hop

theorem two_isLexeme (hnext : headIs (· == d) cs = true)
    (h : (BinOp.ofSymbol? (String.ofList [c, d])).isSome = true) :
    (two .operator).IsLexeme c cs := by
  rintro _ ⟨⟩
  obtain ⟨d', ds, rfl, hd⟩ := headIs_eq_true hnext
  obtain rfl : d' = d := by simpa using hd
  obtain ⟨op, hop⟩ := Option.isSome_iff_exists.1 h
  exact .of_ofSymbol? rfl hop

theorem marks_isLexeme (h : marks.lookup c = some kind) : (one kind).IsLexeme c cs := by
  have hall : ∀ entry ∈ marks, entry.2 ∉ [.identifier, .number, .operator] ∨
      entry.2 = .operator ∧ (BinOp.ofSymbol? (String.ofList [entry.1])).isSome = true := by decide
  obtain ⟨before, after, hmarks, -⟩ := List.lookup_eq_some_iff.1 h
  rcases hall (c, kind) (by rw [hmarks]; simp) with hkind | ⟨hkind, hop⟩
  · exact isLexeme_of_notMem hkind 0
  · obtain rfl : kind = .operator := hkind
    exact one_isLexeme hop

theorem symbol_isLexeme (fresh : Bool) : (symbol fresh c cs).IsLexeme c cs := by
  have hsymbolic : (symbolic c cs).IsLexeme c cs := isLexeme_of_notMem (by decide) _
  unfold symbol
  split
  · exact hsymbolic
  split
  · rename_i hc
    obtain rfl : c = '!' := by simpa using hc
    split
    · rename_i hnext
      exact two_isLexeme hnext (by decide)
    split
    · exact hsymbolic
    · exact isLexeme_stray
  split
  · rename_i hc
    obtain rfl : c = '+' := by simpa using hc
    split
    · exact hsymbolic
    · exact one_isLexeme (by decide)
  split
  · rename_i hc
    obtain rfl : c = '=' := by simpa using hc
    split
    · exact isLexeme_of_notMem (by decide) 1
    unfold oneOrTwo
    split
    · rename_i hnext
      exact two_isLexeme hnext (by decide)
    · exact isLexeme_of_notMem (by decide) 0
  split
  · rename_i hc
    have hboth : (BinOp.ofSymbol? (String.ofList [c])).isSome = true ∧
        (BinOp.ofSymbol? (String.ofList [c, '='])).isSome = true := by
      obtain rfl | rfl : c = '<' ∨ c = '>' := by simpa using hc
      · decide
      · decide
    unfold oneOrTwo
    split
    · rename_i hnext
      exact two_isLexeme hnext hboth.2
    · exact one_isLexeme hboth.1
  split
  · rename_i hc
    obtain rfl : c = '|' := by simpa using hc
    unfold oneOrTwo
    split
    · rename_i hnext
      exact two_isLexeme hnext (by decide)
    · exact isLexeme_of_notMem (by decide) 0
  split
  · rename_i hc
    obtain rfl : c = '&' := by simpa using hc
    split
    · rename_i hnext
      exact two_isLexeme hnext (by decide)
    · exact isLexeme_stray
  split
  · split
    · exact isLexeme_of_notMem (by decide) 1
    · exact isLexeme_stray
  split
  · rename_i hmark
    exact marks_isLexeme hmark
  · exact isLexeme_stray

theorem wordToken_lexeme (hc : isWordChar c = true) (hdigit : c.isDigit = false) {extent : Nat}
    (h : wordToken (c :: cs.take (wordExtent cs)) (cs.drop (wordExtent cs)) = (kind, extent)) :
    Lexeme kind (c :: cs.take (extent - 1)) := by
  have hcovers : Covers isWordChar (wordExtent cs) cs := covers_takeWhile isWordChar cs
  have hlength : (c :: cs.take (wordExtent cs)).length = wordExtent cs + 1 := by
    rw [List.length_cons, List.length_take, Nat.min_eq_left hcovers.1]
  unfold wordToken at h
  rw [hlength] at h
  split at h
  · cases h
    exact .of_notMem (by decide)
  split at h
  · cases h
    exact .of_notMem (by decide)
  rename_i hfunction
  split at h
  · rename_i hkeyword
    cases h
    refine ⟨?_, ?_, ?_⟩
    · rintro rfl
      exact absurd (by decide) (keyword?_notMem hkeyword)
    · rintro rfl
      exact absurd (by decide) (keyword?_notMem hkeyword)
    · rintro rfl
      exact exists_ofSymbol?_of_keyword hkeyword
  · rename_i hkeyword
    cases h
    rw [Nat.add_sub_cancel]
    have hwords : ∀ d ∈ c :: cs.take (wordExtent cs), isWordChar d = true :=
      List.forall_mem_cons.2 ⟨hc, hcovers.2⟩
    refine ⟨fun _ => ⟨isName_of_isWordChar hc hdigit hcovers.2, notMem_reservedWords hkeyword,
      notMem_functionKeys (Bool.eq_false_iff.2 hfunction) hwords⟩, ?_, ?_⟩
    · split <;> nofun
    · split <;> nofun

/-- Every segment is spelled as its kind asks for. -/
theorem cut_isLexeme (fresh : Bool) (c : Char) (cs : List Char) :
    (cut fresh c cs).IsLexeme c cs := by
  unfold cut
  split
  · exact isLexeme_of_notMem (by decide) 0
  split
  · exact nofun
  split
  · exact nofun
  split
  · dsimp only
    split <;> exact nofun
  split
  · rename_i hc
    rintro _ ⟨⟩
    exact ⟨nofun, fun _ => numberExtent_isNumeral hc cs, nofun⟩
  rename_i hdigit
  split
  · rename_i hword
    rcases hfound : wordToken (c :: cs.take (wordExtent cs)) (cs.drop (wordExtent cs)) with
      ⟨kind, extent⟩
    simp only [hfound]
    rintro _ ⟨⟩
    exact wordToken_lexeme hword (Bool.eq_false_iff.2 hdigit) hfound
  · exact symbol_isLexeme fresh

end Scan

/-! ## Tokens -/

theorem Scan.Lexeme.lexical {kind : Kind} {lexeme : List Char} (h : Lexeme kind lexeme)
    (hspells : Spells kind lexeme) (pos : Position) :
    Lexical ⟨kind, String.ofList lexeme, pos⟩ where
  name := by
    rw [String.toList_ofList]
    exact h.name
  number := by
    rw [String.toList_ofList]
    exact h.number
  operator := h.operator
  hotkey := by
    rintro rfl
    rw [String.toList_ofList]
    refine ⟨fun hempty => hspells.nonempty ?_, hspells.visible nofun⟩
    simpa using hempty
  line := by
    intro hline
    have hplain := hspells.plain
    obtain rfl | rfl := List.mem_pair.1 hline <;> exact absurd (by decide) hplain

/-- Of the texts of other tokens, only some are asked to stay on one line. -/
theorem lexical_of_notMem {kind : Kind} {text : String}
    (h : kind ∉ [.identifier, .number, .operator, .hotkey])
    (hline : kind ∈ [.string, .comment] → '\n' ∉ text.toList) (pos : Position) :
    Lexical ⟨kind, text, pos⟩ := by
  refine ⟨?_, ?_, ?_, ?_, hline⟩
  all_goals
    rintro rfl
    exact absurd (by decide) h

theorem lexical_of_line {kind : Kind} {text : List Char}
    (h : kind ∉ [.identifier, .number, .operator, .hotkey]) (htext : '\n' ∉ text)
    (pos : Position) : Lexical ⟨kind, String.ofList text, pos⟩ :=
  lexical_of_notMem h (fun _ => by rwa [String.toList_ofList]) pos

/-- **The lexical grammar**: the text of every token of a script is what its kind asks for. -/
theorem lexical_of_mem_tokens {keepComments : Bool} {source : String} {t : Token}
    (h : t ∈ tokens keepComments source) : Lexical t := by
  rcases List.mem_append.1 h with h | h
  · obtain ⟨s, hs, ht⟩ := List.mem_filterMap.1 h
    refine Scan.forall_mem_segmentsFrom_cut
      (P := fun s => ∀ t ∈ s.token? keepComments, Lexical t) ?_ _ _ _ _ s hs t ht
    intro fresh c cs pos t ht
    have hlexeme := Scan.cut_isLexeme fresh c cs
    have hfits := Scan.cut_fits fresh c cs
    generalize Scan.cut fresh c cs = next at *
    cases hfits with
    | newline hc =>
        cases ht
        exact lexical_of_notMem (by decide) (fun hline => absurd hline (by decide)) pos
    | word hplain hc hcovers =>
        cases ht
        exact (hlexeme _ rfl).lexical (hcovers.spells hc hplain) pos
    | @closed text rest hc hcs hquote hnewline =>
        have hinner : cs = (text ++ ['"']) ++ rest := by rw [hcs]; simp
        have hlength : (text ++ ['"']).length = text.length + 1 := by simp
        cases ht
        simp only [Segment.unquoted, List.drop_one, List.tail_cons, if_true]
        rw [hinner, List.take_left' hlength, List.dropLast_concat]
        exact lexical_of_line (by decide) hnewline pos
    | @unclosed text rest hc hcs hquote hnewline hend =>
        cases ht
        rw [hcs, List.take_left]
        exact lexical_of_line (by decide) hnewline pos
    | @comment text rest hc hcs hnewline hend =>
        have hlength : ('/' :: text).length = text.length + 1 := by simp
        rw [hc, hcs, List.take_left' hlength] at ht
        cases keepComments with
        | false => cases ht
        | true =>
            cases ht
            exact lexical_of_line (by decide) (by simp [hnewline]) pos
    | blank => cases ht
    | stray => cases ht
  · obtain rfl := List.mem_singleton.1 h
    exact lexical_of_notMem (by decide) (fun hline => absurd hline (by decide)) _

/-! ## Numerals -/

theorem splitSign_of_isDigit {c : Char} (hc : c.isDigit = true) (cs : List Char) :
    Decimal.splitSign (c :: cs) = (false, c :: cs) := by
  unfold Decimal.splitSign
  split
  · rename_i heq
    cases heq
    cases hc
  · rename_i heq
    cases heq
    cases hc
  · rfl

theorem toLower_of_isDigit {c : Char} (hc : c.isDigit = true) : c.toLower = c := by
  have hword : Scan.isWordChar c = true := by simp [Scan.isWordChar, Char.isAlphanum, hc]
  have hascii : c.toNat < 128 := by
    have hrange := Scan.toNat_of_isWordChar hword
    omega
  exact Text.forall_ascii (P := fun c => c.isDigit = true → c.toLower = c) (by decide) hascii hc

theorem AreDigits.magnitude?_ne_none {whole : List Char} (h : AreDigits whole) :
    Decimal.magnitude? whole ≠ none := by
  have htake : whole.takeWhile Char.isDigit = whole := List.takeWhile_eq_self_iff.2 h.2
  have hdrop : whole.dropWhile Char.isDigit = [] := List.dropWhile_eq_nil_iff.2 h.2
  unfold Decimal.magnitude?
  simp only [htake, hdrop, List.isEmpty_iff, h.1, Bool.and_eq_true, false_and, if_false]
  exact nofun

theorem AreDigits.magnitude?_point_ne_none {whole fraction : List Char} (hwhole : AreDigits whole)
    (hfraction : AreDigits fraction) : Decimal.magnitude? (whole ++ '.' :: fraction) ≠ none := by
  have htake : (whole ++ '.' :: fraction).takeWhile Char.isDigit = whole := by
    rw [List.takeWhile_append_of_pos hwhole.2, List.takeWhile_cons_of_neg (by decide),
      List.append_nil]
  have hdrop : (whole ++ '.' :: fraction).dropWhile Char.isDigit = '.' :: fraction := by
    rw [List.dropWhile_append_of_pos hwhole.2, List.dropWhile_cons_of_neg (by decide)]
  have hend : fraction.dropWhile Char.isDigit = [] := List.dropWhile_eq_nil_iff.2 hfraction.2
  unfold Decimal.magnitude?
  simp only [htake, hdrop, hend, List.isEmpty_iff, hwhole.1, Bool.and_eq_true, false_and, if_false]
  exact nofun

theorem IsNumeral.magnitude?_ne_none {cs : List Char} (h : IsNumeral cs) :
    Decimal.magnitude? cs ≠ none := by
  obtain hdigits | ⟨whole, fraction, rfl, hwhole, hfraction⟩ := h
  · exact hdigits.magnitude?_ne_none
  · exact hwhole.magnitude?_point_ne_none hfraction

theorem IsNumeral.exists_isDigit {cs : List Char} (h : IsNumeral cs) :
    ∃ c rest, cs = c :: rest ∧ c.isDigit = true := by
  obtain ⟨hne, hdigits⟩ | ⟨whole, fraction, rfl, ⟨hne, hdigits⟩, -⟩ := h
  · obtain ⟨c, rest, rfl⟩ := List.exists_cons_of_ne_nil hne
    exact ⟨c, rest, rfl, hdigits c List.mem_cons_self⟩
  · obtain ⟨c, rest, rfl⟩ := List.exists_cons_of_ne_nil hne
    exact ⟨c, rest ++ '.' :: fraction, rfl, hdigits c List.mem_cons_self⟩

/-- **Numerals denote numbers.** -/
theorem IsNumeral.read?_ne_none {cs : List Char} (h : IsNumeral cs) :
    Decimal.read? cs ≠ none := by
  obtain ⟨c, rest, rfl, hc⟩ := h.exists_isDigit
  -- The texts with a meaning of their own begin with a letter.
  have hletter : ∀ word : String, word.toList.head?.any Char.isDigit = false →
      String.ofList ((c :: rest).map Char.toLower) ≠ word := by
    rintro _ hword rfl
    rw [String.toList_ofList, List.map_cons, List.head?_cons, Option.any_some,
      toLower_of_isDigit hc, hc] at hword
    cases hword
  unfold Decimal.read?
  rw [splitSign_of_isDigit hc]
  rw [ne_eq, Option.map_eq_none_iff]
  split
  · exact absurd ‹_› (hletter _ (by decide))
  · exact absurd ‹_› (hletter _ (by decide))
  · exact absurd ‹_› (hletter _ (by decide))
  · exact h.magnitude?_ne_none

end Chord
