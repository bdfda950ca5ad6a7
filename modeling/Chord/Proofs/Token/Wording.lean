import Chord.Proofs.Token.Joining
import Mathlib.Data.List.Chain

/-!
# How names and hotkeys are spelled

**Input.** The tokens of a script.

**Results.** A name is a word. A hotkey has no blanks, and within it a closing parenthesis is a key
of its own, so that nothing but a plus sign can follow it. `legible_of_mem_wordsOf` says this of
every token of a script.
-/

namespace Chord
namespace Scan

/-! ## Closing parentheses in hotkeys -/

/-- Nothing but a plus sign follows a closing parenthesis. -/
def Clasped (cs : List Char) : Prop :=
  cs.IsChain fun c d => c = ')' → d = '+'

variable {c : Char} {cs ds : List Char} {kind : Kind}

theorem Clasped.cons (hc : c ≠ ')') (h : Clasped cs) : Clasped (c :: cs) :=
  List.isChain_cons.2 ⟨fun _ _ hparen => absurd hparen hc, h⟩

theorem Clasped.append (hcs : ')' ∉ cs) (h : Clasped ds) : Clasped (cs ++ ds) := by
  induction cs with
  | nil => exact h
  | cons c cs ih =>
      obtain ⟨hc, hcs⟩ := not_or.1 (mt List.mem_cons.2 hcs)
      exact (ih hcs).cons (Ne.symm hc)

theorem Clasped.head?_of_paren (h : Clasped (cs ++ ')' :: ds)) : ∀ d ∈ ds.head?, d = '+' := by
  intro d hd
  exact (List.isChain_cons.1 (List.isChain_append.1 h).2.1).1 d hd rfl

theorem ne_paren_of_isWordChar (h : isWordChar c = true) : c ≠ ')' := by
  rintro rfl
  cases h

/-- The plus signs of a combination and the keys between them, behind the key `c`. -/
theorem comboExtent_clasped (inWord : Bool) (cs : List Char) (h : inWord = true → c ≠ ')') :
    Clasped (c :: cs.take (comboExtent inWord cs)) := by
  fun_induction comboExtent inWord cs generalizing c with
  | case1 => exact .singleton _
  | case2 inWord d ds hword ih =>
      obtain ⟨hin, hd⟩ := Bool.and_eq_true_iff.1 hword
      rw [Nat.add_comm, List.take_succ_cons]
      exact (ih fun _ => ne_paren_of_isWordChar hd).cons (h hin)
  | case3 => exact .singleton _
  | case4 inWord d hword hplus k ks hkey ih =>
      obtain rfl : d = '+' := by simpa using hplus
      rw [Nat.add_comm, List.take_succ_cons, List.take_succ_cons]
      exact List.isChain_cons_cons.2 ⟨fun _ => rfl, (ih ne_paren_of_isWordChar).cons (by decide)⟩
  | case5 => exact .singleton _
  | case6 => exact .singleton _

theorem symbolicExtent_clasped (cs : List Char) : Clasped (cs.take (symbolicExtent cs)) := by
  induction cs with
  | nil => exact .nil
  | cons c cs ih =>
      unfold symbolicExtent
      split
      · rename_i hsymbol
        have hc : c ≠ ')' := by
          rintro rfl
          cases hsymbol
        rw [Nat.add_comm, List.take_succ_cons]
        exact ih.cons hc
      · split
        · rw [Nat.add_comm, List.take_succ_cons]
          exact comboExtent_clasped _ cs ne_paren_of_isWordChar
        · exact .nil

/-! ## Segments -/

/-- What is special in the spelling of names and hotkeys. -/
structure Worded (kind : Kind) (lexeme : List Char) : Prop where
  name : kind = .identifier → ∀ c ∈ lexeme, isWordChar c = true
  key : kind = .hotkey → Clasped lexeme

theorem Worded.of_notMem {lexeme : List Char} (h : kind ∉ [.identifier, .hotkey]) :
    Worded kind lexeme where
  name := fun hname => absurd (by simp [hname]) h
  key := fun hkey => absurd (by simp [hkey]) h

theorem Worded.of_isWordChar {lexeme : List Char} (h : ∀ c ∈ lexeme, isWordChar c = true) :
    Worded kind lexeme where
  name := fun _ => h
  key := fun _ => by
    rw [← List.append_nil lexeme]
    exact .append (fun hparen => ne_paren_of_isWordChar (h _ hparen) rfl) .nil

/-- The segment that begins with `c` is worded if it is a token. -/
def Cut.IsWorded (next : Cut) (c : Char) (cs : List Char) : Prop :=
  ∀ kind, next.sort = .word kind → Worded kind (c :: cs.take next.extra)

theorem isWorded_of_notMem (h : kind ∉ [.identifier, .hotkey]) (extra : Nat) :
    Cut.IsWorded ⟨.word kind, extra⟩ c cs := by
  rintro _ ⟨⟩
  exact .of_notMem h

theorem isWorded_stray : Cut.IsWorded ⟨.stray, 0⟩ c cs :=
  nofun

theorem oneOrTwo_isWorded {double : Kind} {d : Char} (h : kind ∉ [.identifier, .hotkey])
    (hdouble : double ∉ [.identifier, .hotkey]) : (oneOrTwo kind d double cs).IsWorded c cs := by
  unfold oneOrTwo
  split
  · exact isWorded_of_notMem hdouble 1
  · exact isWorded_of_notMem h 0

theorem symbolic_isWorded : (symbolic c cs).IsWorded c cs := by
  rintro _ ⟨⟩
  refine ⟨nofun, fun _ => ?_⟩
  have hclasped := symbolicExtent_clasped (c :: cs)
  rw [symbolic]
  cases hextent : symbolicExtent (c :: cs) with
  | zero => exact .singleton c
  | succ n => rwa [hextent, List.take_succ_cons] at hclasped

theorem notMem_of_marks (h : marks.lookup c = some kind) : kind ∉ [.identifier, .hotkey] := by
  have hall : ∀ entry ∈ marks, entry.2 ∉ [.identifier, .hotkey] := by decide
  obtain ⟨before, after, hmarks, -⟩ := List.lookup_eq_some_iff.1 h
  exact hall (c, kind) (by rw [hmarks]; simp)

theorem symbol_isWorded (fresh : Bool) : (symbol fresh c cs).IsWorded c cs := by
  unfold symbol
  split
  · exact symbolic_isWorded
  split
  · split
    · exact isWorded_of_notMem (by decide) 1
    split
    · exact symbolic_isWorded
    · exact isWorded_stray
  split
  · split
    · exact symbolic_isWorded
    · exact isWorded_of_notMem (by decide) 0
  split
  · split
    · exact isWorded_of_notMem (by decide) 1
    · exact oneOrTwo_isWorded (by decide) (by decide)
  split
  · exact oneOrTwo_isWorded (by decide) (by decide)
  split
  · exact oneOrTwo_isWorded (by decide) (by decide)
  split
  · split
    · exact isWorded_of_notMem (by decide) 1
    · exact isWorded_stray
  split
  · split
    · exact isWorded_of_notMem (by decide) 1
    · exact isWorded_stray
  split
  · rename_i hmark
    exact isWorded_of_notMem (notMem_of_marks hmark) 0
  · exact isWorded_stray

theorem wordToken_worded (hc : isWordChar c = true) {extent : Nat}
    (h : wordToken (c :: cs.take (wordExtent cs)) (cs.drop (wordExtent cs)) = (kind, extent)) :
    Worded kind (c :: cs.take (extent - 1)) := by
  have hcovers : Covers isWordChar (wordExtent cs) cs := covers_takeWhile isWordChar cs
  have hword : ∀ d ∈ c :: cs.take (wordExtent cs), isWordChar d = true :=
    List.forall_mem_cons.2 ⟨hc, hcovers.2⟩
  have hlength : (c :: cs.take (wordExtent cs)).length = wordExtent cs + 1 := by
    rw [List.length_cons, List.length_take, Nat.min_eq_left hcovers.1]
  unfold wordToken at h
  rw [hlength] at h
  split at h
  · cases h
    refine ⟨nofun, fun _ => ?_⟩
    rw [Nat.add_right_comm, Nat.add_sub_cancel, List.take_add, ← List.cons_append]
    refine .append (fun hparen => ne_paren_of_isWordChar (hword _ hparen) rfl) ?_
    exact (comboExtent_clasped (c := '+') false _ nofun).tail
  split at h
  · cases h
    exact .of_isWordChar hword
  split at h <;> cases h
  · exact .of_isWordChar hword
  · exact .of_isWordChar hword

/-- Every token is worded as its kind asks for. -/
theorem cut_isWorded (fresh : Bool) (c : Char) (cs : List Char) :
    (cut fresh c cs).IsWorded c cs := by
  unfold cut
  split
  · exact isWorded_of_notMem (by decide) 0
  split
  · exact nofun
  split
  · exact nofun
  split
  · dsimp only
    split <;> exact nofun
  split
  · exact isWorded_of_notMem (by decide) _
  split
  · rename_i hword
    rcases hfound : wordToken (c :: cs.take (wordExtent cs)) (cs.drop (wordExtent cs)) with
      ⟨kind, extent⟩
    simp only [hfound]
    rintro _ ⟨⟩
    exact wordToken_worded hword hfound
  · exact symbol_isWorded fresh

end Scan

/-! ## Tokens -/

/-- Names that are words, and hotkeys without blanks in which only a plus sign follows a closing
parenthesis. -/
inductive Legible : Kind → String → Prop
  | name {text : String} :
      text.toList ≠ [] → (∀ c ∈ text.toList, Scan.isWordChar c = true) → Legible .identifier text
  | key {text : String} :
      (∀ c ∈ text.toList, Text.isBlank c = false) → Scan.Clasped text.toList → Legible .hotkey text

theorem Scan.Worded.legible {kind : Kind} {lexeme : List Char} (h : Worded kind lexeme)
    (hspells : Spells kind lexeme) (hkind : kind ∈ [.identifier, .hotkey]) :
    Legible kind (String.ofList lexeme) := by
  obtain rfl | rfl := List.mem_pair.1 hkind
  · refine .name ?_ ?_
    · rw [String.toList_ofList]
      exact hspells.nonempty
    · rw [String.toList_ofList]
      exact h.name rfl
  · refine .key ?_ ?_
    · rw [String.toList_ofList]
      exact hspells.visible nofun
    · rw [String.toList_ofList]
      exact h.key rfl

/-- **Names and hotkeys of a script are legible.** -/
theorem legible_of_mem_wordsOf {cs : List Char} {t : Token} (h : t ∈ wordsOf cs)
    (hkind : t.kind ∈ [.identifier, .hotkey]) : Legible t.kind t.text := by
  obtain ⟨s, hs, ht⟩ := List.mem_filterMap.1 h
  refine Scan.forall_mem_segmentsFrom_cut (P := fun s => ∀ t ∈ s.token? false,
    t.kind ∈ [.identifier, .hotkey] → Legible t.kind t.text) ?_ _ _ _ _ s hs t ht hkind
  intro fresh c cs pos t ht hkind
  have hworded := Scan.cut_isWorded fresh c cs
  have hfits := Scan.cut_fits fresh c cs
  generalize Scan.cut fresh c cs = next at *
  cases hfits with
  | word hplain hc hcovers =>
      cases ht
      exact (hworded _ rfl).legible (hcovers.spells hc hplain) hkind
  | newline =>
      cases ht
      simp at hkind
  | closed =>
      cases ht
      simp at hkind
  | unclosed =>
      cases ht
      simp at hkind
  | comment => cases ht
  | blank => cases ht
  | stray => cases ht

end Chord
