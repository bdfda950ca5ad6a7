import Chord.Proofs.Token.Extents

/-!
# Scanning loses nothing

**Input.** Any text.

**Results.** `Splitting before rest tokens complaints` says that `rest`, which stands after
`before`, consists of pieces one after another: spellings of tokens, blanks, comments and characters
that are passed over, and which tokens and complaints these pieces give. The place of each of them
is found by counting in what stands before its piece.

`tokenize_splitting`: the tokens of a script and the complaints about it are those of such a
splitting, and there are as many line ends among the tokens as in the script.
-/

namespace Chord

/-! ## Places -/

/-- The place after a text: its line ends are counted, and the characters since the last one. -/
def place (before : List Char) : Position :=
  ⟨1 + before.count '\n', 1 + (before.reverse.takeWhile fun c => c != '\n').length⟩

theorem place_append_singleton (before : List Char) (c : Char) :
    place (before ++ [c]) = (place before).next c := by
  unfold place Position.next
  by_cases hc : c = '\n'
  · subst hc
    simp [Nat.add_assoc]
  · simp [hc]
    omega

theorem Position.after_append (p : Position) (cs ds : List Char) :
    p.after (cs ++ ds) = (p.after cs).after ds :=
  List.foldl_append

theorem after_place (before cs : List Char) : (place before).after cs = place (before ++ cs) := by
  induction cs generalizing before with
  | nil => rw [List.append_nil]; rfl
  | cons c cs ih =>
      show ((place before).next c).after cs = _
      rw [← place_append_singleton, ih, List.append_assoc, List.singleton_append]

/-! ## Pieces of a text -/

/-- Tokens that are spelled as they are: line ends, and all others without blanks. -/
structure Spells (kind : Kind) (lexeme : List Char) : Prop where
  nonempty : lexeme ≠ []
  plain : kind ∉ [.string, .comment, .eof]
  newline : kind = .newline → lexeme = ['\n']
  visible : kind ≠ .newline → ∀ c ∈ lexeme, Text.isBlank c = false

/-- A text after another one as consecutive pieces, with the tokens and complaints they give. -/
inductive Splitting : List Char → List Char → List Token → List Complaint → Prop
  | done {before} : Splitting before [] [⟨.eof, "", place before⟩] []
  | word {before kind lexeme rest tokens complaints} :
      Spells kind lexeme → Splitting (before ++ lexeme) rest tokens complaints →
      Splitting before (lexeme ++ rest) (⟨kind, String.ofList lexeme, place before⟩ :: tokens)
        complaints
  | closedString {before text rest tokens complaints} :
      '"' ∉ text → '\n' ∉ text →
      Splitting (before ++ ('"' :: text ++ ['"'])) rest tokens complaints →
      Splitting before ('"' :: text ++ ['"'] ++ rest)
        (⟨.string, String.ofList text, place before⟩ :: tokens) complaints
  | unclosedString {before text rest tokens complaints} :
      '"' ∉ text → '\n' ∉ text → Scan.AtLineEnd rest →
      Splitting (before ++ '"' :: text) rest tokens complaints →
      Splitting before ('"' :: text ++ rest)
        (⟨.string, String.ofList text, place before⟩ :: tokens)
        (⟨.unclosedString, place before⟩ :: complaints)
  | blank {before blanks rest tokens complaints} :
      blanks ≠ [] → (∀ c ∈ blanks, Text.isBlank c = true ∧ c ≠ '\n') →
      Splitting (before ++ blanks) rest tokens complaints →
      Splitting before (blanks ++ rest) tokens complaints
  | comment {before text rest tokens complaints} :
      '\n' ∉ text → Scan.AtLineEnd rest →
      Splitting (before ++ '/' :: '/' :: text) rest tokens complaints →
      Splitting before ('/' :: '/' :: text ++ rest) tokens complaints
  | skipped {before c rest tokens complaints} :
      Text.isBlank c = false → Scan.isWordChar c = false → c ≠ '"' →
      Splitting (before ++ [c]) rest tokens complaints →
      Splitting before ([c] ++ rest) tokens (⟨.stray c, place before⟩ :: complaints)

/-! ## Segments -/

namespace Scan

theorem segmentsFrom_covered (fresh : Bool) (pos : Position) (covered : Nat) (cs : List Char) :
    segmentsFrom fresh pos covered cs =
      segmentsFrom fresh (pos.after (cs.take covered)) 0 (cs.drop covered) := by
  induction cs generalizing pos covered with
  | nil => simp [segmentsFrom]
  | cons c cs ih =>
      cases covered with
      | zero => rfl
      | succ covered => exact ih (pos.next c) covered

/-- The first segment and the segments after it. -/
theorem segmentsFrom_cons (fresh : Bool) (pos : Position) (c : Char) (cs : List Char) :
    segmentsFrom fresh pos 0 (c :: cs) =
      let next := cut fresh c cs
      ⟨next.sort, c :: cs.take next.extra, pos⟩
        :: segmentsFrom (freshAfter fresh next.sort) (pos.after (c :: cs.take next.extra)) 0
          (cs.drop next.extra) := by
  rw [segmentsFrom]
  simp only [segmentsFrom_covered _ (pos.next c)]
  rfl

theorem isBlank_of_isKeyChar {c : Char} (h : isKeyChar c = true) : Text.isBlank c = false := by
  simpa [isKeyChar] using h

theorem Covers.spells {kind : Kind} {extra : Nat} {c : Char} {cs : List Char}
    (h : Covers isKeyChar extra cs) (hc : isKeyChar c = true) (hkind : Plain kind) :
    Spells kind (c :: cs.take extra) where
  nonempty := List.cons_ne_nil _ _
  plain := fun hmem => hkind (List.mem_cons_of_mem _ hmem)
  newline := fun hnewline => absurd (hnewline ▸ List.mem_cons_self) hkind
  visible := by
    intro _ d hd
    rcases List.mem_cons.1 hd with rfl | hd
    · exact isBlank_of_isKeyChar hc
    · exact isBlank_of_isKeyChar (h.2 d hd)

/-- **One segment** gives the token and the complaint of its piece. -/
theorem Fits.splitting {c : Char} {cs before : List Char} {next : Cut} {tokens : List Token}
    {complaints : List Complaint} (h : Fits c cs next)
    (hrest : Splitting (before ++ c :: cs.take next.extra) (cs.drop next.extra) tokens complaints) :
    let s : Segment := ⟨next.sort, c :: cs.take next.extra, place before⟩
    Splitting before (c :: cs) ((s.token? false).toList ++ tokens)
      (s.complaint?.toList ++ complaints) := by
  have hsplit : c :: cs = (c :: cs.take next.extra) ++ cs.drop next.extra := by
    rw [List.cons_append, List.take_append_drop]
  cases h with
  | newline hc =>
      subst hc
      have hspells : Spells .newline ['\n'] :=
        ⟨by decide, by decide, fun _ => rfl, fun hne => absurd rfl hne⟩
      exact .word hspells hrest
  | word hkind hc hcovers =>
      rw [hsplit]
      exact .word (hcovers.spells hc hkind) hrest
  | @closed text rest hc hcs hquote hnewline =>
      have hinner : cs = (text ++ ['"']) ++ rest := by rw [hcs]; simp
      have hlength : (text ++ ['"']).length = text.length + 1 := by simp
      subst hc
      rw [hinner, List.take_left' hlength, List.drop_left' hlength] at hrest
      rw [hinner, List.take_left' hlength]
      have htext : (text ++ ['"']).dropLast = text := List.dropLast_concat
      simp only [Segment.token?, Segment.unquoted, List.drop_one, List.tail_cons, if_true, htext]
      exact .closedString hquote hnewline hrest
  | @unclosed text rest hc hcs hquote hnewline hend =>
      subst hc hcs
      rw [List.take_left, List.drop_left] at hrest
      rw [List.take_left]
      exact .unclosedString hquote hnewline hend hrest
  | @comment text rest hc hcs hnewline hend =>
      have hlength : ('/' :: text).length = text.length + 1 := by simp
      subst hc hcs
      rw [List.take_left' hlength, List.drop_left' hlength] at hrest
      exact .comment hnewline hend hrest
  | @blank extra hc hne hcovers =>
      rw [hsplit]
      refine .blank nofun ?_ hrest
      intro d hd
      rcases List.mem_cons.1 hd with rfl | hd
      · exact ⟨hc, hne⟩
      · simpa using hcovers.2 d hd
  | stray hc hword hquote =>
      exact .skipped (isBlank_of_isKeyChar hc) hword hquote hrest

theorem filterMap_cons_toList {α β : Type} (f : α → Option β) (a : α) (as : List α) :
    (a :: as).filterMap f = (f a).toList ++ as.filterMap f := by
  cases h : f a <;> simp [h]

/-- **All segments**: those of a text are its splitting, whether or not a statement begins in front
of it. -/
theorem segments_splitting (fresh : Bool) (before : List Char) : (rest : List Char) →
    Splitting before rest
      ((segmentsFrom fresh (place before) 0 rest).filterMap (Segment.token? false)
        ++ [⟨.eof, "", place (before ++ rest)⟩])
      ((segmentsFrom fresh (place before) 0 rest).filterMap Segment.complaint?)
  | [] => by
      rw [List.append_nil]
      exact .done
  | c :: cs => by
      have hfits := cut_fits fresh c cs
      rw [segmentsFrom_cons, filterMap_cons_toList, filterMap_cons_toList, List.append_assoc]
      refine hfits.splitting ?_
      have hrest := segments_splitting (freshAfter fresh (cut fresh c cs).sort)
        (before ++ c :: cs.take (cut fresh c cs).extra) (cs.drop (cut fresh c cs).extra)
      rw [List.append_assoc, List.cons_append, List.take_append_drop] at hrest
      rw [after_place]
      exact hrest
termination_by rest => rest.length
decreasing_by
  rw [List.length_drop, List.length_cons]
  omega

end Scan

/-! ## Line ends -/

theorem Spells.count_newline {kind : Kind} {lexeme : List Char} (h : Spells kind lexeme) :
    lexeme.count '\n' = if kind = .newline then 1 else 0 := by
  split
  · rename_i hkind
    rw [h.newline hkind]
    rfl
  · rename_i hkind
    refine List.count_eq_zero.2 ?_
    intro hmem
    exact absurd (h.visible hkind '\n' hmem) (by decide)

/-- Line ends among the tokens are those of the text. -/
theorem Splitting.countP_newline {before rest : List Char} {tokens : List Token}
    {complaints : List Complaint} (h : Splitting before rest tokens complaints) :
    tokens.countP (fun t => t.kind == .newline) = rest.count '\n' := by
  induction h with
  | done => rfl
  | @word before kind lexeme rest tokens complaints hspells _ ih =>
      rw [List.countP_cons, List.count_append, hspells.count_newline, ih]
      simp only [beq_iff_eq]
      omega
  | closedString hquote hnewline _ ih => simp [ih, List.count_eq_zero.2 hnewline]
  | unclosedString hquote hnewline _ _ ih => simp [ih, List.count_eq_zero.2 hnewline]
  | @blank before blanks rest tokens complaints _ hblanks _ ih =>
      rw [List.count_append, ih, List.count_eq_zero.2 fun hmem => (hblanks _ hmem).2 rfl,
        Nat.zero_add]
  | comment hnewline _ _ ih => simp [ih, List.count_eq_zero.2 hnewline]
  | @skipped before c rest tokens complaints hblank _ _ _ ih =>
      have hne : c ≠ '\n' := by
        rintro rfl
        cases hblank
      simp [ih, hne]

/-- **Scanning loses nothing and places are exact**: a script splits into pieces, one after another,
which give its tokens and the complaints about it at the places found by counting; and each line end
gives one token. -/
theorem tokenize_splitting (source : String) :
    Splitting [] source.toList (tokenize source) (complaints source) ∧
      (tokenize source).countP (fun t => t.kind == .newline) = source.toList.count '\n' := by
  have hsplitting : Splitting [] source.toList (tokenize source) (complaints source) := by
    have hall := Scan.segments_splitting true [] source.toList
    rw [← after_place] at hall
    exact hall
  exact ⟨hsplitting, hsplitting.countP_newline⟩

end Chord
