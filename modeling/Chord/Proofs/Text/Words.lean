import Chord.Proofs.Text.Case
import Mathlib.Data.List.Chain

/-!
# Sanitized texts

**Input.** Any text.

**Algorithm.** A text is cut into blanks and words by `Runs`, which says nothing of how the words
are found. Collapsing writes each word after the one before with a single space between them, and
trimming takes off what is in front of the first word and behind the last one.

**Results.** `runs_iff`: the runs of a text are its `words`. `sanitize_runs`: a sanitized text is
the runs of the visible part of a text with single spaces between them. Such a text is `Clean`, and
sanitizing it again changes nothing.
-/

namespace Chord
namespace Text

variable {c : Char} {cs front back gap rest word : List Char} {ws : List (List Char)}

/-! ## Runs -/

/-- The maximal runs of characters that are not blank, in order. Nothing but blanks stands in front
of the first run, and what is behind a run begins with a blank or is empty. -/
inductive Runs : List Char → List (List Char) → Prop
  | done {gap : List Char} : (∀ c ∈ gap, isBlank c = true) → Runs gap []
  | run {gap run rest : List Char} {runs : List (List Char)} :
      (∀ c ∈ gap, isBlank c = true) → run ≠ [] → (∀ c ∈ run, isBlank c = false) →
      (∀ c ∈ rest.head?, isBlank c = true) → Runs rest runs →
      Runs (gap ++ run ++ rest) (run :: runs)

/-- Words: neither empty nor with a blank in them. -/
def AreWords (ws : List (List Char)) : Prop :=
  ∀ w ∈ ws, w ≠ [] ∧ ∀ c ∈ w, isBlank c = false

theorem areWords_cons :
    AreWords (word :: ws) ↔ (word ≠ [] ∧ ∀ c ∈ word, isBlank c = false) ∧ AreWords ws :=
  List.forall_mem_cons

theorem Runs.areWords (h : Runs cs ws) : AreWords ws := by
  induction h with
  | done _ => exact List.forall_mem_nil _
  | run _ hne hrun _ _ ih => exact areWords_cons.2 ⟨⟨hne, hrun⟩, ih⟩

theorem Runs.mem (h : Runs cs ws) : ∀ w ∈ ws, ∀ c ∈ w, c ∈ cs := by
  induction h with
  | done _ => exact List.forall_mem_nil _
  | run _ _ _ _ _ ih =>
      refine List.forall_mem_cons.2 ⟨fun c hc => by simp [hc], fun w hw c hc => ?_⟩
      exact List.mem_append_right _ (ih w hw c hc)

theorem Runs.cons_blank (hc : isBlank c = true) (h : Runs cs ws) : Runs (c :: cs) ws := by
  cases h with
  | done hgap => exact .done (List.forall_mem_cons.2 ⟨hc, hgap⟩)
  | run hgap hne hrun hhead hrest =>
      exact @Runs.run (c :: _) _ _ _ (List.forall_mem_cons.2 ⟨hc, hgap⟩) hne hrun hhead hrest

/-- A run at the front of a text. -/
theorem Runs.run_of_ne_nil (hne : word ≠ []) (hword : ∀ c ∈ word, isBlank c = false)
    (hhead : ∀ c ∈ rest.head?, isBlank c = true) (h : Runs rest ws) :
    Runs (word ++ rest) (word :: ws) :=
  @Runs.run [] word rest ws (List.forall_mem_nil _) hne hword hhead h

/-! ## The words of a text -/

theorem runs_wordsAfter (cs : List Char) (hword : ∀ c ∈ word, isBlank c = false) :
    Runs (word ++ cs) (wordsAfter word cs) := by
  induction cs generalizing word with
  | nil =>
      rw [wordsAfter]
      split
      · rename_i hempty
        rw [List.isEmpty_iff.1 hempty]
        exact .done (List.forall_mem_nil _)
      · rename_i hne
        exact .run_of_ne_nil (mt List.isEmpty_iff.2 hne) hword nofun (.done (List.forall_mem_nil _))
  | cons c cs ih =>
      rw [wordsAfter]
      split
      · rename_i hc
        have hlater : Runs (c :: cs) (wordsAfter [] cs) :=
          (ih (List.forall_mem_nil _)).cons_blank hc
        split
        · rename_i hempty
          rw [List.isEmpty_iff.1 hempty]
          exact hlater
        · rename_i hne
          refine .run_of_ne_nil (mt List.isEmpty_iff.2 hne) hword ?_ hlater
          rintro _ ⟨⟩
          exact hc
      · rename_i hc
        have hlonger : ∀ d ∈ word ++ [c], isBlank d = false :=
          List.forall_mem_append.2 ⟨hword, List.forall_mem_singleton.2 (Bool.eq_false_iff.2 hc)⟩
        have hruns := ih hlonger
        rwa [List.append_assoc] at hruns

theorem wordsAfter_append (cs : List Char) (hword : ∀ c ∈ word, isBlank c = false) :
    wordsAfter front (word ++ cs) = wordsAfter (front ++ word) cs := by
  induction word generalizing front with
  | nil => rw [List.append_nil, List.nil_append]
  | cons c word ih =>
      obtain ⟨hc, hword⟩ := List.forall_mem_cons.1 hword
      rw [List.cons_append, wordsAfter, hc, if_neg Bool.false_ne_true, ih hword, List.append_assoc,
        List.singleton_append]

theorem words_cons_blank (hc : isBlank c = true) (cs : List Char) : words (c :: cs) = words cs := by
  rw [words, wordsAfter, if_pos hc]
  rfl

theorem words_append_blanks (hgap : ∀ c ∈ gap, isBlank c = true) (cs : List Char) :
    words (gap ++ cs) = words cs := by
  induction gap with
  | nil => rfl
  | cons c gap ih =>
      obtain ⟨hc, hgap⟩ := List.forall_mem_cons.1 hgap
      rw [List.cons_append, words_cons_blank hc, ih hgap]

/-- A word is finished by a blank or by the end of the text. -/
theorem wordsAfter_eq_cons (hne : word ≠ []) (hhead : ∀ c ∈ rest.head?, isBlank c = true) :
    wordsAfter word rest = word :: words rest := by
  have hkept : ¬word.isEmpty = true := mt List.isEmpty_iff.1 hne
  cases rest with
  | nil =>
      rw [wordsAfter, if_neg hkept]
      rfl
  | cons c rest =>
      have hc := hhead c rfl
      rw [wordsAfter, if_pos hc, if_neg hkept, words_cons_blank hc]
      rfl

/-- **Every text has one list of runs**: its words. -/
theorem runs_iff : Runs cs ws ↔ words cs = ws := by
  constructor
  · intro h
    induction h with
    | @done gap hgap =>
        rw [← List.append_nil gap, words_append_blanks hgap]
        rfl
    | @run gap run rest runs hgap hne hrun hhead _ ih =>
        rw [List.append_assoc, words_append_blanks hgap, words, wordsAfter_append rest hrun,
          List.nil_append, wordsAfter_eq_cons hne hhead, ih]
  · rintro rfl
    exact runs_wordsAfter cs (List.forall_mem_nil _)

/-! ## Words with spaces between them -/

/-- Words with single spaces between them. -/
def spaced (ws : List (List Char)) : List Char :=
  [' '].intercalate ws

theorem spaced_cons (hws : ws ≠ []) : spaced (word :: ws) = word ++ ' ' :: spaced ws := by
  rw [spaced, List.intercalate_cons_of_ne_nil hws, List.append_assoc]
  rfl

theorem mem_spaced (hc : c ∈ spaced ws) : c = ' ' ∨ ∃ w ∈ ws, c ∈ w := by
  induction ws with
  | nil => cases hc
  | cons w ws ih =>
      rcases eq_or_ne ws [] with rfl | hws
      · exact .inr ⟨w, List.mem_singleton_self w, by simpa [spaced] using hc⟩
      · rw [spaced_cons hws, List.mem_append, List.mem_cons] at hc
        rcases hc with hc | rfl | hc
        · exact .inr ⟨w, List.mem_cons_self, hc⟩
        · exact .inl rfl
        · rcases ih hc with hc | ⟨v, hv, hc⟩
          · exact .inl hc
          · exact .inr ⟨v, List.mem_cons_of_mem w hv, hc⟩

theorem AreWords.runs_spaced (h : AreWords ws) : Runs (spaced ws) ws := by
  induction ws with
  | nil => exact .done (List.forall_mem_nil _)
  | cons w ws ih =>
      obtain ⟨⟨hne, hw⟩, hmore⟩ := areWords_cons.1 h
      rcases eq_or_ne ws [] with rfl | hws
      · have hrun : Runs (w ++ []) [w] := .run_of_ne_nil hne hw nofun (ih hmore)
        simpa [spaced] using hrun
      · rw [spaced_cons hws]
        refine .run_of_ne_nil hne hw ?_ ((ih hmore).cons_blank (by decide))
        rintro _ ⟨⟩
        decide

theorem AreWords.tight_spaced (h : AreWords ws) : Tight (spaced ws) := by
  induction ws with
  | nil => exact ⟨nofun, nofun⟩
  | cons w ws ih =>
      obtain ⟨⟨hne, hw⟩, hmore⟩ := areWords_cons.1 h
      obtain ⟨c, cs, rfl⟩ := List.exists_cons_of_ne_nil hne
      rcases eq_or_ne ws [] with rfl | hws
      · have hall : ∀ d ∈ spaced [c :: cs], isBlank d = false := by simpa [spaced] using hw
        exact ⟨fun d hd => hall d (List.mem_of_head? hd),
          fun d hd => hall d (List.mem_of_getLast? hd)⟩
      · rw [spaced_cons hws]
        refine ⟨?_, fun d hd => (ih hmore).last d ?_⟩
        · rintro _ ⟨⟩
          exact hw c List.mem_cons_self
        · have hsome : spaced ws ≠ [] := by
            obtain ⟨v, vs, rfl⟩ := List.exists_cons_of_ne_nil hws
            intro hnil
            cases (runs_iff.1 hmore.runs_spaced).symm.trans (congrArg words hnil)
          rw [List.append_cons, List.getLast?_append_of_ne_nil _ hsome] at hd
          exact hd

/-! ## Collapsing and trimming -/

theorem collapse_append (hword : ∀ c ∈ word, isBlank c = false) (cs : List Char) :
    collapse (word ++ cs) = word ++ collapse cs := by
  induction word with
  | nil => rfl
  | cons c word ih =>
      obtain ⟨hc, hword⟩ := List.forall_mem_cons.1 hword
      rw [List.cons_append, collapse.eq_def]
      simp only [hc, Bool.false_eq_true, if_false, ih hword, List.cons_append]

/-- Blanks in front become one space. -/
theorem collapse_cons_blank (hc : isBlank c = true) (cs : List Char) :
    collapse (c :: cs) = ' ' :: collapse (cs.dropWhile isBlank) := by
  induction cs generalizing c with
  | nil => rw [collapse, if_pos hc]; rfl
  | cons d cs ih =>
      rw [collapse, if_pos hc]
      by_cases hd : isBlank d = true
      · simp only [hd, if_true, ih hd, List.dropWhile_cons_of_pos]
      · simp only [hd, Bool.false_eq_true, if_false, List.dropWhile_cons_of_neg, not_false_eq_true]

theorem isBlank_of_mem_collapse (hgap : ∀ c ∈ gap, isBlank c = true) :
    ∀ c ∈ collapse gap, isBlank c = true := by
  cases gap with
  | nil => exact List.forall_mem_nil _
  | cons d gap =>
      obtain ⟨hd, hgap⟩ := List.forall_mem_cons.1 hgap
      rw [collapse_cons_blank hd, List.dropWhile_eq_nil_iff.2 hgap]
      exact List.forall_mem_singleton.2 (by decide)

/-- Collapsed from the first word on, a text is its words with single spaces between them, and
blanks behind them. -/
theorem Runs.collapse_dropWhile (h : Runs cs ws) :
    ∃ back, collapse (cs.dropWhile isBlank) = spaced ws ++ back ∧ ∀ c ∈ back, isBlank c = true := by
  induction h with
  | done hgap => exact ⟨[], by rw [List.dropWhile_eq_nil_iff.2 hgap]; rfl, List.forall_mem_nil _⟩
  | @run gap run rest runs hgap hne hrun hhead hrest ih =>
      obtain ⟨c, cs, rfl⟩ := List.exists_cons_of_ne_nil hne
      have hdrop : (gap ++ c :: cs ++ rest).dropWhile isBlank = c :: cs ++ rest := by
        rw [List.append_assoc, List.dropWhile_append_of_pos hgap, List.cons_append,
          List.dropWhile_cons_of_neg (by rw [hrun c List.mem_cons_self]; exact Bool.false_ne_true)]
      rw [hdrop, collapse_append hrun]
      rcases eq_or_ne runs [] with rfl | hruns
      · -- Only blanks are left: they collapse to blanks behind the last word.
        refine ⟨collapse rest, by simp [spaced], ?_⟩
        cases hrest with
        | done hrest => exact isBlank_of_mem_collapse hrest
      · obtain ⟨back, hback, hblank⟩ := ih
        refine ⟨back, ?_, hblank⟩
        cases rest with
        | nil => exact absurd (runs_iff.1 hrest).symm hruns
        | cons d rest =>
            have hd := hhead d rfl
            rw [List.dropWhile_cons_of_pos hd] at hback
            rw [collapse_cons_blank hd, hback, spaced_cons hruns, List.append_assoc]
            rfl

theorem Tight.trim_between (h : Tight cs) (hfront : ∀ c ∈ front, isBlank c = true)
    (hback : ∀ c ∈ back, isBlank c = true) : trim (front ++ (cs ++ back)) = cs := by
  have hend : trimEnd (cs ++ back) = trimEnd cs := by
    unfold trimEnd
    rw [List.reverse_append,
      List.dropWhile_append_of_pos fun c hc => hback c (List.mem_reverse.1 hc)]
  rw [trim, List.dropWhile_append_of_pos hfront]
  cases cs with
  | nil =>
      rw [List.nil_append, List.dropWhile_eq_nil_iff.2 hback]
      rfl
  | cons c cs =>
      have hc : ¬isBlank c = true := by
        rw [h.first c rfl]
        exact Bool.false_ne_true
      rw [List.cons_append, List.dropWhile_cons_of_neg hc, ← List.cons_append, hend]
      have htrim := h.trim_eq
      rwa [trim, List.dropWhile_cons_of_neg hc] at htrim

/-- **Collapsing and trimming** leave the runs of a text with single spaces between them. -/
theorem Runs.trim_collapse (h : Runs cs ws) : trim (collapse cs) = spaced ws := by
  have htight := h.areWords.tight_spaced
  obtain ⟨back, hback, hblank⟩ := h.collapse_dropWhile
  cases cs with
  | nil =>
      rw [← runs_iff.1 h]
      rfl
  | cons c cs =>
      by_cases hc : isBlank c = true
      · rw [List.dropWhile_cons_of_pos hc] at hback
        rw [collapse_cons_blank hc, hback]
        show trim ([' '] ++ (spaced ws ++ back)) = spaced ws
        exact htight.trim_between (List.forall_mem_singleton.2 (by decide)) hblank
      · rw [List.dropWhile_cons_of_neg hc] at hback
        rw [hback]
        show trim ([] ++ (spaced ws ++ back)) = spaced ws
        exact htight.trim_between (List.forall_mem_nil _) hblank

/-! ## Sanitized texts -/

/-- Neither control characters nor blanks other than single spaces between other characters. -/
structure Clean (cs : List Char) : Prop where
  control : ∀ c ∈ cs, isControl c = false
  blank : ∀ c ∈ cs, isBlank c = true → c = ' '
  single : cs.IsChain fun c d => ¬(c = ' ' ∧ d = ' ')
  first : cs.head? ≠ some ' '
  last : cs.getLast? ≠ some ' '

theorem isChain_word_append (hword : ∀ c ∈ word, isBlank c = false)
    (h : cs.IsChain fun c d => ¬(c = ' ' ∧ d = ' ')) :
    (word ++ cs).IsChain fun c d => ¬(c = ' ' ∧ d = ' ') := by
  induction word with
  | nil => exact h
  | cons c word ih =>
      obtain ⟨hc, hword⟩ := List.forall_mem_cons.1 hword
      refine List.isChain_cons.2 ⟨?_, ih hword⟩
      rintro d - ⟨rfl, -⟩
      cases hc

theorem AreWords.single_spaced (h : AreWords ws) :
    (spaced ws).IsChain fun c d => ¬(c = ' ' ∧ d = ' ') := by
  induction ws with
  | nil => exact .nil
  | cons w ws ih =>
      obtain ⟨⟨-, hw⟩, hmore⟩ := areWords_cons.1 h
      rcases eq_or_ne ws [] with rfl | hws
      · have hchain := isChain_word_append hw List.IsChain.nil
        simpa [spaced] using hchain
      · rw [spaced_cons hws]
        refine isChain_word_append hw (List.isChain_cons.2 ⟨?_, ih hmore⟩)
        rintro d hd ⟨-, rfl⟩
        cases hmore.tight_spaced.first ' ' hd

theorem AreWords.clean_spaced (h : AreWords ws) (hseen : ∀ w ∈ ws, ∀ c ∈ w, isControl c = false) :
    Clean (spaced ws) where
  control := by
    intro c hc
    rcases mem_spaced hc with rfl | ⟨w, hw, hc⟩
    · decide
    · exact hseen w hw c hc
  blank := by
    intro c hc hblank
    rcases mem_spaced hc with rfl | ⟨w, hw, hc⟩
    · rfl
    · rw [(h w hw).2 c hc] at hblank
      cases hblank
  single := h.single_spaced
  first := fun hspace => by cases h.tight_spaced.first ' ' hspace
  last := fun hspace => by cases h.tight_spaced.last ' ' hspace

theorem Clean.visible_eq (h : Clean cs) : visible cs = cs :=
  List.filter_eq_self.2 fun c hc => by rw [h.control c hc, Bool.not_false, Bool.or_true]

/-- Deleting the control characters that are not blank leaves the visible part. -/
theorem filter_eq_visible (cs : List Char) :
    (cs.filter fun c => !(isControl c && !isBlank c)) = visible cs := by
  unfold visible
  congr 1
  funext c
  rw [Bool.not_and, Bool.not_not, Bool.or_comm]

theorem isControl_of_mem_words (hword : word ∈ words (visible cs)) :
    ∀ c ∈ word, isControl c = false := by
  intro c hc
  have hruns : Runs (visible cs) (words (visible cs)) := runs_iff.2 rfl
  have hseen := (List.mem_filter.1 (hruns.mem word hword c hc)).2
  rw [(hruns.areWords word hword).2 c hc, Bool.false_or] at hseen
  simpa using hseen

/-- **Sanitized texts** are the maximal runs without blanks, in order and with single spaces between
them, of what is left when the control characters that are not blank are deleted. So they are clean,
and sanitizing them again changes nothing. -/
theorem sanitize_runs (s : String) :
    ∃ runs, Runs (s.toList.filter fun c => !(isControl c && !isBlank c)) runs ∧
      (∀ other, Runs (s.toList.filter fun c => !(isControl c && !isBlank c)) other → other = runs) ∧
      sanitize s = " ".intercalate (runs.map String.ofList) ∧
      Clean (sanitize s).toList ∧ sanitize (sanitize s) = sanitize s := by
  rw [filter_eq_visible]
  generalize hwords : words (visible s.toList) = ws
  have hruns : Runs (visible s.toList) ws := runs_iff.2 hwords
  have htidy : tidy s.toList = spaced ws := hruns.trim_collapse
  have hclean : Clean (spaced ws) :=
    hruns.areWords.clean_spaced fun w hw => isControl_of_mem_words (hwords ▸ hw)
  have hagain : tidy (spaced ws) = spaced ws := by
    rw [tidy, hclean.visible_eq]
    exact hruns.areWords.runs_spaced.trim_collapse
  have hsanitize : (sanitize s).toList = spaced ws := by
    rw [sanitize, String.toList_ofList, htidy]
  refine ⟨ws, hruns, fun other hother => (runs_iff.1 hother).symm.trans hwords, ?_, ?_, ?_⟩
  · rw [← String.toList_inj, hsanitize, String.toList_intercalate, List.map_map]
    simp [spaced]
  · rw [hsanitize]
    exact hclean
  · rw [← String.toList_inj, sanitize, String.toList_ofList, hsanitize, hagain]

end Text
end Chord
