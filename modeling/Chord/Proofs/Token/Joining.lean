import Chord.Proofs.Token.Splitting
import Chord.Script.Parse

/-!
# Tokens of joined texts

**Input.** Two texts with a line end between them.

**Results.** `wordsOf_joined`: the tokens that a parser sees of the joined text are those of the
first text, a line end, and those of the second text moved down by as many lines as come before it.
-/

namespace Chord

/-! ## Moving down -/

/-- The place some lines further down. -/
def Position.moved (lines : Nat) (p : Position) : Position :=
  ⟨p.line + lines, p.column⟩

/-- A segment some lines further down. -/
def Segment.moved (lines : Nat) (s : Segment) : Segment :=
  { s with pos := s.pos.moved lines }

/-- A token some lines further down. -/
def Token.moved (lines : Nat) (t : Token) : Token :=
  { t with pos := t.pos.moved lines }

theorem Token.moved_zero (t : Token) : t.moved 0 = t :=
  rfl

theorem Position.next_moved (lines : Nat) (p : Position) (c : Char) :
    (p.moved lines).next c = (p.next c).moved lines := by
  unfold Position.next
  split
  · simp only [Position.moved, Position.mk.injEq, and_true]
    omega
  · rfl

theorem Segment.token?_moved (lines : Nat) (s : Segment) :
    (s.moved lines).token? false = (s.token? false).map (Token.moved lines) := by
  unfold Segment.token? Segment.moved
  cases s.sort <;> rfl

namespace Scan

theorem segmentsFrom_moved (lines : Nat) (fresh : Bool) (pos : Position) (covered : Nat)
    (cs : List Char) :
    segmentsFrom fresh (pos.moved lines) covered cs =
      (segmentsFrom fresh pos covered cs).map (Segment.moved lines) := by
  induction cs generalizing fresh pos covered with
  | nil => simp [segmentsFrom]
  | cons c cs ih =>
      cases covered with
      | zero =>
          simp only [segmentsFrom, Position.next_moved, ih, List.map_cons]
          rfl
      | succ covered =>
          simp only [segmentsFrom, Position.next_moved, ih]

/-! ## Joined texts -/

theorem Fits.extra_le {c : Char} {cs : List Char} {next : Cut} (h : Fits c cs next) :
    next.extra ≤ cs.length := by
  cases h with
  | newline => exact Nat.zero_le _
  | word _ _ hcovers => exact hcovers.1
  | closed _ hcs =>
      rw [hcs]
      simp
  | unclosed _ hcs =>
      rw [hcs]
      simp
  | comment _ hcs =>
      rw [hcs]
      simp
  | blank _ _ hcovers => exact hcovers.1
  | stray => exact Nat.zero_le _

theorem cut_newline (fresh : Bool) (cs : List Char) : cut fresh '\n' cs = one .newline :=
  rfl

/-- The segments of joined texts. Both the first text and the second one begin a statement. -/
theorem segmentsFrom_joined (fresh : Bool) (pos : Position) (ds : List Char) :
    (cs : List Char) → segmentsFrom fresh pos 0 (cs ++ '\n' :: ds) =
      segmentsFrom fresh pos 0 cs ++ ⟨.word .newline, ['\n'], pos.after cs⟩
        :: segmentsFrom true ((pos.after cs).next '\n') 0 ds
  | [] => by
      rw [List.nil_append, segmentsFrom_cons, cut_newline]
      rfl
  | c :: cs => by
      have hle := (cut_fits fresh c cs).extra_le
      rw [List.cons_append, segmentsFrom_cons, segmentsFrom_cons, cut_append_newline]
      simp only [List.take_append_of_le_length hle, List.drop_append_of_le_length hle]
      rw [segmentsFrom_joined _ _ ds (cs.drop (cut fresh c cs).extra), ← Position.after_append,
        List.cons_append, List.take_append_drop]
      rfl
termination_by cs => cs.length
decreasing_by
  rw [List.length_drop, List.length_cons]
  omega

end Scan

/-! ## What a parser sees -/

/-- The tokens of a text without the end token. -/
def wordsOf (cs : List Char) : List Token :=
  (Scan.segments cs).filterMap (Segment.token? false)

theorem Scan.forall_mem_segmentsFrom_cut {P : Segment → Prop}
    (h : ∀ (fresh : Bool) (c : Char) (cs : List Char) (pos : Position),
      P ⟨(cut fresh c cs).sort, c :: cs.take (cut fresh c cs).extra, pos⟩)
    (fresh : Bool) (pos : Position) (covered : Nat) (cs : List Char) :
    ∀ s ∈ segmentsFrom fresh pos covered cs, P s := by
  induction cs generalizing fresh pos covered with
  | nil => simp [segmentsFrom]
  | cons c cs ih =>
      cases covered with
      | zero =>
          intro s hs
          rw [segmentsFrom] at hs
          rcases List.mem_cons.1 hs with rfl | hs
          · exact h fresh c cs pos
          · exact ih _ _ _ s hs
      | succ covered => exact ih fresh (pos.next c) covered

theorem Scan.forall_mem_segmentsFrom {P : Segment → Prop}
    (h : ∀ (c : Char) (cs : List Char) (next : Cut) (pos : Position), Fits c cs next →
      P ⟨next.sort, c :: cs.take next.extra, pos⟩)
    (fresh : Bool) (pos : Position) (covered : Nat) (cs : List Char) :
    ∀ s ∈ segmentsFrom fresh pos covered cs, P s :=
  forall_mem_segmentsFrom_cut (fun fresh c cs pos => h c cs _ pos (cut_fits fresh c cs)) fresh pos
    covered cs

theorem kind_of_mem_wordsOf {cs : List Char} {t : Token} (h : t ∈ wordsOf cs) :
    t.kind ≠ .comment ∧ t.kind ≠ .eof := by
  obtain ⟨s, hs, ht⟩ := List.mem_filterMap.1 h
  refine Scan.forall_mem_segmentsFrom
    (P := fun s => ∀ t ∈ s.token? false, t.kind ≠ .comment ∧ t.kind ≠ .eof) ?_ _ _ _ _ s hs t ht
  intro c cs next pos hfits t ht
  cases hfits with
  | newline =>
      cases ht
      exact ⟨nofun, nofun⟩
  | word hkind =>
      cases ht
      constructor
      · rintro rfl
        exact hkind (by decide)
      · rintro rfl
        exact hkind (by decide)
  | closed =>
      cases ht
      exact ⟨nofun, nofun⟩
  | unclosed =>
      cases ht
      exact ⟨nofun, nofun⟩
  | comment => cases ht
  | blank => cases ht
  | stray => cases ht

theorem ofTokens_tokenize (source : String) :
    (Stream.ofTokens (tokenize source)).tokens = wordsOf source.toList := by
  have hcomment : ∀ t ∈ wordsOf source.toList, (t.kind != .comment) = true :=
    fun t ht => bne_iff_ne.2 (kind_of_mem_wordsOf ht).1
  have heof : ∀ t ∈ wordsOf source.toList, (t.kind != .eof) = true :=
    fun t ht => bne_iff_ne.2 (kind_of_mem_wordsOf ht).2
  show ((wordsOf source.toList ++ [_]).filter _).takeWhile _ = _
  rw [List.filter_append, List.filter_eq_self.2 hcomment, List.takeWhile_append_of_pos heof]
  exact List.append_nil _

theorem next_newline_after_start (cs : List Char) :
    (Position.start.after cs).next '\n' = Position.start.moved (1 + cs.count '\n') := by
  have hplace : Position.start.after cs = place cs := after_place [] cs
  rw [hplace]
  simp only [place, Position.next, Position.moved, Position.start, beq_self_eq_true, if_true,
    Position.mk.injEq, and_true]
  omega

/-- **Tokens of joined texts**: those of the second text are moved down. -/
theorem wordsOf_joined (cs ds : List Char) :
    wordsOf (cs ++ '\n' :: ds) =
      wordsOf cs ++ ⟨.newline, "\n", Position.start.after cs⟩
        :: (wordsOf ds).map (Token.moved (1 + cs.count '\n')) := by
  have hmoved : (Scan.segmentsFrom true ((Position.start.after cs).next '\n') 0 ds).filterMap
      (Segment.token? false) = (wordsOf ds).map (Token.moved (1 + cs.count '\n')) := by
    rw [next_newline_after_start, Scan.segmentsFrom_moved, List.filterMap_map, wordsOf,
      List.map_filterMap]
    congr 1
    funext s
    exact Segment.token?_moved _ s
  unfold wordsOf Scan.segments at *
  rw [Scan.segmentsFrom_joined, List.filterMap_append, ← hmoved]
  rfl

end Chord
