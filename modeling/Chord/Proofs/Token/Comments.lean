import Chord.Proofs.Token.Joining
import Mathlib.Data.List.Basic

/-!
# Comments are transparent

Tokens can be asked for one by one. Then a comment that is kept ends the search for the next token,
and a comment that is not kept is passed over in the middle of it.

**Input.** A script, and whether its comments are kept.

**Algorithm.** A `Scanner` holds the rest of the script, its place, whether a statement begins there
and the complaints so far. `Scanner.next` takes segments off until one of them is a token;
`Scanner.run` asks for tokens up to the end.

**Results.** Whatever is kept, a scanner passes over the same segments (`Scanner.next_passes`), so
that it finds the tokens and complaints of the script (`Scanner.run_start`). `comments_transparent`:
without the comments among them, the tokens are those of a scanner that keeps none, and they are
read alike.
-/

namespace Chord

open Scan

/-! ## One token after another -/

/-- A scanner in the middle of a script. -/
structure Scanner where
  rest : List Char
  pos : Position
  /-- Whether a statement begins here. -/
  fresh : Bool
  /-- The complaints about what has been passed. -/
  complaints : List Complaint

namespace Scanner

/-- A scanner in front of a script. -/
def start (source : String) : Scanner :=
  ⟨source.toList, .start, true, []⟩

/-- The next segment, where the characters `c :: cs` are left. -/
def segment (s : Scanner) (c : Char) (cs : List Char) : Segment :=
  ⟨(cut s.fresh c cs).sort, c :: cs.take (cut s.fresh c cs).extra, s.pos⟩

/-- The scanner after the next segment. -/
def passed (s : Scanner) (c : Char) (cs : List Char) : Scanner where
  rest := cs.drop (cut s.fresh c cs).extra
  pos := s.pos.after (s.segment c cs).lexeme
  fresh := freshAfter s.fresh (cut s.fresh c cs).sort
  complaints := s.complaints ++ (s.segment c cs).complaint?.toList

/-- The next token and the scanner behind it. At the end of the script there is none. -/
def next (keepComments : Bool) : Scanner → Option Token × Scanner
  | ⟨[], pos, fresh, complaints⟩ => (none, ⟨[], pos, fresh, complaints⟩)
  | ⟨c :: cs, pos, fresh, complaints⟩ =>
      let s : Scanner := ⟨c :: cs, pos, fresh, complaints⟩
      match (s.segment c cs).token? keepComments with
      | some t => (some t, s.passed c cs)
      | none => next keepComments (s.passed c cs)
termination_by s => s.rest.length
decreasing_by
  simp only [passed, List.length_drop, List.length_cons]
  omega

/-! ## Segments that are passed -/

/-- The segments in front of a scanner. -/
def segments (s : Scanner) : List Segment :=
  segmentsFrom s.fresh s.pos 0 s.rest

/-- Between two scanners lie some segments. -/
structure Passes (s s' : Scanner) (front : List Segment) : Prop where
  segments : s.segments = front ++ s'.segments
  complaints : s'.complaints = s.complaints ++ front.filterMap Segment.complaint?
  stop : s.pos.after s.rest = s'.pos.after s'.rest
  length : s'.rest.length ≤ s.rest.length

theorem Passes.refl (s : Scanner) : Passes s s [] :=
  ⟨rfl, (List.append_nil _).symm, rfl, Nat.le_refl _⟩

theorem Passes.trans {s s' s'' : Scanner} {front front' : List Segment} (h : Passes s s' front)
    (h' : Passes s' s'' front') : Passes s s'' (front ++ front') where
  segments := by rw [h.segments, h'.segments, List.append_assoc]
  complaints := by rw [h'.complaints, h.complaints, List.filterMap_append, List.append_assoc]
  stop := h.stop.trans h'.stop
  length := Nat.le_trans h'.length h.length

variable {c : Char} {cs : List Char}

theorem passes_segment (s : Scanner) (h : s.rest = c :: cs) :
    Passes s (s.passed c cs) [s.segment c cs] where
  segments := by
    rw [segments, h, segmentsFrom_cons]
    rfl
  complaints := by
    rw [filterMap_cons_toList, List.filterMap_nil, List.append_nil]
    rfl
  stop := by
    rw [h, passed, ← Position.after_append]
    simp only [segment, List.cons_append, List.take_append_drop]
  length := by
    rw [h, passed, List.length_drop, List.length_cons]
    omega

/-- What lies in front of the next token is no token, whichever comments are kept. -/
theorem next_passes (keepComments : Bool) (s : Scanner) :
    ∃ front, Passes s (s.next keepComments).2 front ∧
      front.filterMap (Segment.token? keepComments) = (s.next keepComments).1.toList ∧
      ((s.next keepComments).1 = none → (s.next keepComments).2.rest = []) ∧
      ((s.next keepComments).1 ≠ none →
        (s.next keepComments).2.rest.length < s.rest.length) := by
  fun_induction next keepComments s with
  | case1 pos fresh complaints => exact ⟨[], .refl _, rfl, fun _ => rfl, fun h => absurd rfl h⟩
  | case2 c cs pos fresh complaints s t ht =>
      refine ⟨_, passes_segment s rfl, ?_, nofun, fun _ => ?_⟩
      · rw [filterMap_cons_toList, ht]
        rfl
      · simp only [s, passed, List.length_drop, List.length_cons]
        omega
  | case3 c cs pos fresh complaints s ht ih =>
      obtain ⟨front, hpasses, htokens, hend, hlength⟩ := ih
      refine ⟨_, (passes_segment s rfl).trans hpasses, ?_, hend, fun hsome => ?_⟩
      · rw [List.singleton_append, List.filterMap_cons_none ht, htokens]
      · exact Nat.lt_of_lt_of_le (hlength hsome) (passes_segment s rfl).length

/-! ## All tokens -/

/-- The tokens from here to the end of the script, and all complaints. -/
def run (keepComments : Bool) (s : Scanner) : List Token × List Complaint :=
  match _hnext : s.next keepComments with
  | (none, s') => ([⟨.eof, "", s'.pos⟩], s'.complaints)
  | (some t, s') => (t :: (run keepComments s').1, (run keepComments s').2)
termination_by s.rest.length
decreasing_by
  all_goals
    obtain ⟨_, -, -, -, hlength⟩ := next_passes keepComments s
    rw [_hnext] at hlength
    exact hlength nofun

/-- **A scanner finds what the segments spell**, whether or not it stops at comments. -/
theorem run_eq (keepComments : Bool) (s : Scanner) :
    s.run keepComments =
      (s.segments.filterMap (Segment.token? keepComments) ++ [⟨.eof, "", s.pos.after s.rest⟩],
        s.complaints ++ s.segments.filterMap Segment.complaint?) := by
  fun_induction run keepComments s with
  | case1 s s' h =>
      obtain ⟨front, hpasses, htokens, hend, -⟩ := next_passes keepComments s
      rw [h] at hpasses htokens hend
      have hrest : s'.rest = [] := hend rfl
      have hfront : s.segments = front := by
        rw [hpasses.segments, segments, hrest, segmentsFrom, List.append_nil]
      rw [hfront, htokens, hpasses.stop, hrest, hpasses.complaints]
      rfl
  | case2 s t s' h ih =>
      obtain ⟨front, hpasses, htokens, -, -⟩ := next_passes keepComments s
      rw [h] at hpasses htokens
      rw [ih, hpasses.segments, hpasses.stop, hpasses.complaints, List.filterMap_append,
        List.filterMap_append, htokens, List.append_assoc]
      rfl

theorem run_start (keepComments : Bool) (source : String) :
    (start source).run keepComments = (tokens keepComments source, Chord.complaints source) :=
  run_eq keepComments (start source)

end Scanner

/-! ## Without the comments -/

/-- Only a comment is a token that depends on what is kept. -/
theorem Scan.Fits.filter_token? {c : Char} {cs : List Char} {next : Cut} (h : Fits c cs next)
    (pos : Position) :
    let s : Segment := ⟨next.sort, c :: cs.take next.extra, pos⟩
    (s.token? true).filter (fun t => t.kind != .comment) = s.token? false := by
  cases h with
  | word hkind =>
      refine Option.filter_some_pos (bne_iff_ne.2 ?_)
      rintro rfl
      exact hkind (by decide)
  | newline => rfl
  | closed => rfl
  | unclosed => rfl
  | comment => rfl
  | blank => rfl
  | stray => rfl

theorem filter_tokens (source : String) :
    (tokens true source).filter (fun t => t.kind != .comment) = tokens false source := by
  have hsegments := Scan.forall_mem_segmentsFrom
    (P := fun s => (s.token? true).filter (fun t => t.kind != .comment) = s.token? false)
    (fun _ _ _ pos hfits => hfits.filter_token? pos) true .start 0 source.toList
  rw [tokens, tokens, List.filter_append, List.filter_filterMap]
  congr 1
  exact List.filterMap_congr hsegments

/-- The tokens that a parser sees do not depend on the comments that are kept. -/
theorem ofTokens_tokens (source : String) :
    Stream.ofTokens (tokens true source) = Stream.ofTokens (tokens false source) := by
  have hkept : (tokens true source).filter (fun t => t.kind != .comment) =
      (tokens false source).filter fun t => t.kind != .comment := by
    rw [← filter_tokens, List.filter_filter]
    simp only [Bool.and_self]
  rw [Stream.ofTokens, Stream.ofTokens, hkept]

/-- **Comments are transparent**: whether or not a scanner keeps them, it finds the same other
tokens at the same places and has the same complaints, and what is read from its tokens is the same
program or the same error. These tokens and complaints are those of the script. -/
theorem comments_transparent (source : String) :
    let kept := (Scanner.start source).run true
    let dropped := (Scanner.start source).run false
    kept.1.filter (fun t => t.kind != .comment) = dropped.1 ∧ kept.2 = dropped.2 ∧
      parse kept.1 = parse dropped.1 ∧
      kept = (tokens true source, complaints source) ∧
      dropped = (tokenize source, complaints source) := by
  intro kept dropped
  have hkept : kept = (tokens true source, complaints source) := Scanner.run_start true source
  have hdropped : dropped = (tokenize source, complaints source) := Scanner.run_start false source
  rw [hkept, hdropped]
  refine ⟨filter_tokens source, rfl, ?_, rfl, rfl⟩
  rw [parse, parse, ofTokens_tokens, tokenize]

end Chord
