import Chord.Token.Scan

/-!
# What a segment covers

**Input.** The character at which a segment begins, and those behind it.

**Results.** `cut_fits` says for every sort of segment which characters it covers. Among them is a
line end only if the segment is that line end itself. `cut_append_newline`: for the segment it makes
no difference whether the text stops or a line end follows.
-/

namespace Chord
namespace Scan

/-! ## Characters -/

theorem toNat_of_isWordChar {c : Char} (h : isWordChar c = true) :
    0x30 ≤ c.toNat ∧ c.toNat ≤ 0x7A := by
  have hupper : c.isUpper = decide ('A'.val ≤ c.val ∧ c.val ≤ 'Z'.val) := rfl
  have hlower : c.isLower = (decide ('a'.val ≤ c.val) && decide (c.val ≤ 'z'.val)) := rfl
  have hdigit : c.isDigit = (decide ('0'.val ≤ c.val) && decide (c.val ≤ '9'.val)) := rfl
  have hword : isWordChar c = (c.isUpper || c.isLower || c.isDigit || c == '_') := rfl
  rw [hword, hupper, hlower, hdigit] at h
  simp only [Bool.or_eq_true, Bool.and_eq_true, decide_eq_true_eq, UInt32.le_iff_toNat_le,
    beq_iff_eq] at h
  rcases h with ((h | h) | h) | rfl
  · exact ⟨Nat.le_trans (by decide) h.1, Nat.le_trans h.2 (by decide)⟩
  · exact ⟨Nat.le_trans (by decide) h.1, Nat.le_trans h.2 (by decide)⟩
  · exact ⟨Nat.le_trans (by decide) h.1, Nat.le_trans h.2 (by decide)⟩
  · decide

theorem isKeyChar_of_isWordChar {c : Char} (h : isWordChar c = true) : isKeyChar c = true := by
  have hrange := toNat_of_isWordChar h
  simp only [isKeyChar, Text.isBlank, Bool.not_eq_true', Bool.or_eq_false_iff,
    Bool.and_eq_false_iff, decide_eq_false_iff_not, beq_eq_false_iff_ne]
  omega

theorem isKeyChar_of_isDigit {c : Char} (h : c.isDigit = true) : isKeyChar c = true := by
  apply isKeyChar_of_isWordChar
  simp [isWordChar, Char.isAlphanum, h]

theorem isKeyChar_of_ofSymbol {c : Char} (h : (Modifier.ofSymbol? c).isSome = true) :
    isKeyChar c = true := by
  unfold Modifier.ofSymbol? at h
  split at h
  · rfl
  · rfl
  · rfl
  · rfl
  · cases h

/-! ## Extents -/

/-- The first characters, so many of them, are there and pass a test. -/
def Covers (p : Char → Bool) (n : Nat) (cs : List Char) : Prop :=
  n ≤ cs.length ∧ ∀ c ∈ cs.take n, p c = true

section Covers

variable {p q : Char → Bool} {n : Nat} {c : Char} {cs : List Char}

theorem covers_zero (p : Char → Bool) (cs : List Char) : Covers p 0 cs :=
  ⟨Nat.zero_le _, by simp⟩

theorem Covers.cons (h : Covers p n cs) (hc : p c = true) : Covers p (1 + n) (c :: cs) := by
  obtain ⟨hle, hall⟩ := h
  rw [Nat.add_comm]
  refine ⟨Nat.succ_le_succ hle, ?_⟩
  intro d hd
  rw [List.take_succ_cons] at hd
  rcases List.mem_cons.1 hd with rfl | hd
  · exact hc
  · exact hall d hd

theorem Covers.mono (h : Covers p n cs) (hpq : ∀ c, p c = true → q c = true) : Covers q n cs :=
  ⟨h.1, fun c hc => hpq c (h.2 c hc)⟩

theorem Covers.tail (h : Covers p n (c :: cs)) : Covers p (n - 1) cs := by
  cases n with
  | zero => exact covers_zero p cs
  | succ n =>
      refine ⟨Nat.le_of_succ_le_succ h.1, ?_⟩
      intro d hd
      exact h.2 d (by rw [List.take_succ_cons]; exact List.mem_cons_of_mem c hd)

theorem Covers.append {m : Nat} (h : Covers p n cs) (h' : Covers p m (cs.drop n)) :
    Covers p (n + m) cs := by
  have hle := h'.1
  rw [List.length_drop] at hle
  have hle' := h.1
  refine ⟨by omega, ?_⟩
  intro d hd
  rw [List.take_add] at hd
  rcases List.mem_append.1 hd with hd | hd
  · exact h.2 d hd
  · exact h'.2 d hd

theorem covers_takeWhile (p : Char → Bool) (cs : List Char) :
    Covers p (cs.takeWhile p).length cs := by
  induction cs with
  | nil => exact covers_zero p []
  | cons c cs ih =>
      rw [List.takeWhile_cons]
      split
      · rename_i hc
        rw [List.length_cons, Nat.add_comm]
        exact ih.cons hc
      · exact covers_zero p _

theorem numberExtent_covers (pointSeen : Bool) (cs : List Char) :
    Covers isKeyChar (numberExtent pointSeen cs) cs := by
  induction cs generalizing pointSeen with
  | nil => exact covers_zero _ _
  | cons c cs ih =>
      unfold numberExtent
      split
      · rename_i hdigit
        exact (ih pointSeen).cons (isKeyChar_of_isDigit hdigit)
      · split
        · rename_i hpoint
          have hc : c = '.' := by simp_all
          exact (ih true).cons (by rw [hc]; rfl)
        · exact covers_zero _ _

theorem comboExtent_covers (inWord : Bool) (cs : List Char) :
    Covers isKeyChar (comboExtent inWord cs) cs := by
  fun_induction comboExtent inWord cs with
  | case1 => exact covers_zero _ _
  | case2 inWord c cs hword ih =>
      have hc : isWordChar c = true := by simp_all
      exact ih.cons (isKeyChar_of_isWordChar hc)
  | case3 => exact covers_zero _ _
  | case4 inWord c hword hplus d ds hkey ih =>
      have hc : c = '+' := by simpa using hplus
      rw [show 2 + comboExtent (isWordChar d) ds = 1 + (1 + comboExtent (isWordChar d) ds) by omega]
      exact (ih.cons hkey).cons (by rw [hc]; rfl)
  | case5 => exact covers_zero _ _
  | case6 => exact covers_zero _ _

theorem symbolicExtent_covers (cs : List Char) : Covers isKeyChar (symbolicExtent cs) cs := by
  induction cs with
  | nil => exact covers_zero _ _
  | cons c cs ih =>
      unfold symbolicExtent
      split
      · rename_i hsymbol
        have hc : (Modifier.ofSymbol? c).isSome = true := by simp_all
        exact ih.cons (isKeyChar_of_ofSymbol hc)
      · split
        · rename_i hkey
          exact (comboExtent_covers _ cs).cons hkey
        · exact covers_zero _ _

end Covers

/-! ## Segments -/

/-- A line or the text ends here. -/
def AtLineEnd (cs : List Char) : Prop :=
  ∀ c ∈ cs.head?, c = '\n'

/-- What the characters of a segment are that begins with `c`, before the characters `cs`. -/
inductive Fits (c : Char) (cs : List Char) : Cut → Prop
  | newline : c = '\n' → Fits c cs ⟨.word .newline, 0⟩
  | word {kind : Kind} {extra : Nat} :
      kind ∉ [.newline, .string, .comment, .eof] → isKeyChar c = true →
      Covers isKeyChar extra cs → Fits c cs ⟨.word kind, extra⟩
  | closed {text rest : List Char} :
      c = '"' → cs = text ++ '"' :: rest → '"' ∉ text → '\n' ∉ text →
      Fits c cs ⟨.string true, text.length + 1⟩
  | unclosed {text rest : List Char} :
      c = '"' → cs = text ++ rest → '"' ∉ text → '\n' ∉ text → AtLineEnd rest →
      Fits c cs ⟨.string false, text.length⟩
  | comment {text rest : List Char} :
      c = '/' → cs = '/' :: text ++ rest → '\n' ∉ text → AtLineEnd rest →
      Fits c cs ⟨.comment, text.length + 1⟩
  | blank {extra : Nat} :
      Text.isBlank c = true → c ≠ '\n' →
      Covers (fun d => Text.isBlank d && d != '\n') extra cs → Fits c cs ⟨.blank, extra⟩
  | stray :
      isKeyChar c = true → isWordChar c = false → c ≠ '"' → Fits c cs ⟨.stray, 0⟩

section Fits

variable {c d : Char} {cs : List Char} {kind : Kind}

/-- The kinds of token that are spelled as they are and are no line ends. -/
def Plain (kind : Kind) : Prop :=
  kind ∉ [.newline, .string, .comment, .eof]

instance : Decidable (Plain kind) :=
  inferInstanceAs (Decidable (_ ∉ _))

theorem headIs_eq_true {p : Char → Bool} (h : headIs p cs = true) :
    ∃ d ds, cs = d :: ds ∧ p d = true := by
  cases cs with
  | nil => cases h
  | cons d ds => exact ⟨d, ds, rfl, h⟩

theorem one_fits (hkind : Plain kind) (hc : isKeyChar c = true) : Fits c cs (one kind) :=
  .word hkind hc (covers_zero _ _)

theorem two_fits (h : headIs (· == d) cs = true) (hkind : Plain kind) (hc : isKeyChar c = true)
    (hd : isKeyChar d = true) : Fits c cs (two kind) := by
  obtain ⟨d', ds, rfl, hd'⟩ := headIs_eq_true h
  obtain rfl : d' = d := by simpa using hd'
  exact .word hkind hc ((covers_zero _ ds).cons hd)

theorem oneOrTwo_fits {double : Kind} (hkind : Plain kind) (hdouble : Plain double)
    (hc : isKeyChar c = true) (hd : isKeyChar d = true) :
    Fits c cs (oneOrTwo kind d double cs) := by
  unfold oneOrTwo
  split
  · exact two_fits ‹_› hdouble hc hd
  · exact one_fits hkind hc

theorem symbolic_fits (hc : isKeyChar c = true) : Fits c cs (symbolic c cs) :=
  .word (by decide) hc (symbolicExtent_covers (c :: cs)).tail

theorem plain_of_marks (h : marks.lookup c = some kind) : Plain kind := by
  have hall : ∀ entry ∈ marks, Plain entry.2 := by decide
  obtain ⟨before, after, hmarks, -⟩ := List.lookup_eq_some_iff.1 h
  exact hall (c, kind) (by rw [hmarks]; simp)

theorem symbol_fits (fresh : Bool) (hc : isKeyChar c = true) (hword : isWordChar c = false)
    (hquote : c ≠ '"') : Fits c cs (symbol fresh c cs) := by
  have hstray : Fits c cs ⟨.stray, 0⟩ := .stray hc hword hquote
  unfold symbol
  split
  · exact symbolic_fits hc
  split
  · split
    · rename_i hnext
      exact two_fits hnext (by decide) hc (by decide)
    split
    · exact symbolic_fits hc
    · exact hstray
  split
  · split
    · exact symbolic_fits hc
    · exact one_fits (by decide) hc
  split
  · split
    · rename_i hnext
      exact two_fits hnext (by decide) hc (by decide)
    · exact oneOrTwo_fits (by decide) (by decide) hc (by decide)
  split
  · exact oneOrTwo_fits (by decide) (by decide) hc (by decide)
  split
  · exact oneOrTwo_fits (by decide) (by decide) hc (by decide)
  split
  · split
    · rename_i hnext
      exact two_fits hnext (by decide) hc (by decide)
    · exact hstray
  split
  · split
    · rename_i hnext
      exact two_fits hnext (by decide) hc (by decide)
    · exact hstray
  split
  · rename_i hmark
    exact one_fits (plain_of_marks hmark) hc
  · exact hstray

theorem plain_of_keyword {word : String} (h : keyword? word = some kind) : Plain kind := by
  unfold keyword? at h
  split at h <;> cases h <;> decide

theorem wordToken_fits (hc : isWordChar c = true) {extent : Nat}
    (h : wordToken (c :: cs.take (wordExtent cs)) (cs.drop (wordExtent cs)) = (kind, extent)) :
    Fits c cs ⟨.word kind, extent - 1⟩ := by
  have hkey := isKeyChar_of_isWordChar hc
  have hcovers : Covers isKeyChar (wordExtent cs) cs :=
    (covers_takeWhile isWordChar cs).mono fun _ => isKeyChar_of_isWordChar
  have hlength : (c :: cs.take (wordExtent cs)).length = wordExtent cs + 1 := by
    rw [List.length_cons, List.length_take, Nat.min_eq_left hcovers.1]
  unfold wordToken at h
  rw [hlength] at h
  split at h
  · cases h
    refine .word (by decide) hkey ?_
    rw [Nat.add_right_comm, Nat.add_sub_cancel]
    exact hcovers.append (comboExtent_covers _ _)
  split at h
  · cases h
    exact .word (by decide) hkey hcovers
  split at h
  · rename_i hkeyword
    cases h
    exact .word (plain_of_keyword hkeyword) hkey hcovers
  · cases h
    refine .word ?_ hkey hcovers
    split <;> decide

theorem drop_length_takeWhile (p : Char → Bool) (cs : List Char) :
    cs.drop (cs.takeWhile p).length = cs.dropWhile p := by
  calc cs.drop (cs.takeWhile p).length
      = (cs.takeWhile p ++ cs.dropWhile p).drop (cs.takeWhile p).length := by
        rw [List.takeWhile_append_dropWhile]
    _ = cs.dropWhile p := List.drop_left

theorem not_mem_takeWhile {p : Char → Bool} (h : p d = false) (cs : List Char) :
    d ∉ cs.takeWhile p := by
  intro hd
  have hall := List.all_eq_true.1 (List.all_takeWhile (p := p) (l := cs)) d hd
  rw [h] at hall
  cases hall

theorem atLineEnd_dropWhile (cs : List Char) : AtLineEnd (cs.dropWhile fun d => d != '\n') := by
  intro d hd
  have hfirst := List.head?_dropWhile_not (fun d => d != '\n') cs
  rw [hd] at hfirst
  simpa using hfirst

theorem comment_fits (hc : c = '/') (h : headIs (· == '/') cs = true) :
    Fits c cs ⟨.comment, (cs.takeWhile fun d => d != '\n').length⟩ := by
  obtain ⟨d, ds, rfl, hd⟩ := headIs_eq_true h
  obtain rfl : d = '/' := by simpa using hd
  refine .comment hc ?_ ?_ (atLineEnd_dropWhile ds)
  · rw [List.cons_append, List.takeWhile_append_dropWhile]
  · exact not_mem_takeWhile rfl ds

theorem string_fits (hc : c = '"') :
    Fits c cs (if headIs (· == '"') (cs.drop (stringExtent cs)) then
        ⟨.string true, stringExtent cs + 1⟩
      else ⟨.string false, stringExtent cs⟩) := by
  let inside : Char → Bool := fun d => d != '"' && d != '\n'
  have hsplit : cs.takeWhile inside ++ cs.dropWhile inside = cs :=
    List.takeWhile_append_dropWhile
  have hquote : '"' ∉ cs.takeWhile inside := not_mem_takeWhile rfl cs
  have hnewline : '\n' ∉ cs.takeWhile inside := not_mem_takeWhile rfl cs
  have hdrop : cs.drop (stringExtent cs) = cs.dropWhile inside := drop_length_takeWhile inside cs
  rw [hdrop]
  split
  · rename_i hclosed
    obtain ⟨d, ds, hrest, hd⟩ := headIs_eq_true hclosed
    obtain rfl : d = '"' := by simpa using hd
    rw [hrest] at hsplit
    exact .closed hc hsplit.symm hquote hnewline
  · rename_i hopen
    refine .unclosed hc hsplit.symm hquote hnewline ?_
    intro d hd
    have hfirst := List.head?_dropWhile_not inside cs
    rw [hd] at hfirst
    obtain ⟨ds, hrest⟩ := List.head?_eq_some_iff.1 hd
    rw [hrest] at hopen
    simp_all [headIs, inside]

/-- Every segment consists of what its sort says. -/
theorem cut_fits (fresh : Bool) (c : Char) (cs : List Char) : Fits c cs (cut fresh c cs) := by
  unfold cut
  split
  · rename_i hc
    exact .newline (by simpa using hc)
  rename_i hnewline
  split
  · rename_i hblank
    exact .blank hblank (by simpa using hnewline) (covers_takeWhile _ _)
  rename_i hblank
  have hkey : isKeyChar c = true := by simpa [isKeyChar] using hblank
  split
  · rename_i hcomment
    have hcomment : c = '/' ∧ headIs (· == '/') cs = true := by simpa using hcomment
    exact comment_fits hcomment.1 hcomment.2
  split
  · rename_i hquote
    exact string_fits (by simpa using hquote)
  rename_i hquote
  split
  · exact .word (by decide) hkey (numberExtent_covers _ _)
  split
  · rename_i hword
    rcases hfound : wordToken (c :: cs.take (wordExtent cs)) (cs.drop (wordExtent cs)) with
      ⟨kind, extent⟩
    simp only [hfound]
    exact wordToken_fits hword hfound
  · rename_i hword
    exact symbol_fits fresh hkey (by simpa using hword) (by simpa using hquote)

end Fits

/-! ## Line ends -/

section LineEnd

variable (cs ds : List Char)

theorem headIs_append_newline {p : Char → Bool} (hp : p '\n' = false) :
    headIs p (cs ++ '\n' :: ds) = headIs p cs := by
  cases cs with
  | nil => exact hp
  | cons c cs => rfl

theorem takeWhile_append_newline {p : Char → Bool} (hp : p '\n' = false) :
    (cs ++ '\n' :: ds).takeWhile p = cs.takeWhile p := by
  induction cs with
  | nil => simp [hp]
  | cons c cs ih => rw [List.cons_append, List.takeWhile_cons, List.takeWhile_cons, ih]

theorem dropWhile_append_newline {p : Char → Bool} (hp : p '\n' = false) :
    (cs ++ '\n' :: ds).dropWhile p = cs.dropWhile p ++ '\n' :: ds := by
  induction cs with
  | nil => simp [hp]
  | cons c cs ih =>
      rw [List.cons_append, List.dropWhile_cons, List.dropWhile_cons, ih]
      split <;> rfl

theorem numberExtent_append_newline (pointSeen : Bool) :
    numberExtent pointSeen (cs ++ '\n' :: ds) = numberExtent pointSeen cs := by
  induction cs generalizing pointSeen with
  | nil => rfl
  | cons c cs ih =>
      have hhead := headIs_append_newline cs ds (p := Char.isDigit) rfl
      simp only [List.cons_append, numberExtent, ih, hhead]

theorem comboExtent_cons (inWord : Bool) (c : Char) (cs : List Char) :
    comboExtent inWord (c :: cs) =
      if inWord && isWordChar c then 1 + comboExtent true cs
      else if c == '+' then
        match cs with
        | [] => 0
        | d :: ds => if isKeyChar d then 2 + comboExtent (isWordChar d) ds else 0
      else 0 := by
  cases cs <;> rfl

theorem comboExtent_append_newline (inWord : Bool) :
    comboExtent inWord (cs ++ '\n' :: ds) = comboExtent inWord cs := by
  fun_induction comboExtent inWord cs with
  | case1 inWord =>
      have hword : (inWord && isWordChar '\n') = false := Bool.and_false inWord
      rw [List.nil_append, comboExtent_cons, hword]
      rfl
  | case2 inWord c cs hword ih =>
      rw [List.cons_append, comboExtent_cons, if_pos hword, ih]
  | case3 inWord c hword hplus =>
      rw [List.cons_append, comboExtent_cons, if_neg hword, if_pos hplus]
      rfl
  | case4 inWord c hword hplus d rest hkey ih =>
      rw [List.cons_append, comboExtent_cons, if_neg hword, if_pos hplus]
      simp only [List.cons_append, hkey, if_true, ih]
  | case5 inWord c hword hplus d rest hkey =>
      rw [List.cons_append, comboExtent_cons, if_neg hword, if_pos hplus]
      simp only [List.cons_append, if_neg hkey]
  | case6 inWord c cs hword hplus =>
      rw [List.cons_append, comboExtent_cons, if_neg hword, if_neg hplus]

theorem symbolicExtent_append_newline :
    symbolicExtent (cs ++ '\n' :: ds) = symbolicExtent cs := by
  induction cs with
  | nil => rfl
  | cons c cs ih =>
      have hhead := headIs_append_newline cs ds (p := isKeyChar) rfl
      simp only [List.cons_append, symbolicExtent, ih, hhead, comboExtent_append_newline]

theorem arrowFollows_append_newline : arrowFollows (cs ++ '\n' :: ds) = arrowFollows cs := by
  unfold arrowFollows
  rw [dropWhile_append_newline cs ds rfl]
  rcases cs.dropWhile fun c => c == ' ' || c == '\t' with _ | ⟨a, _ | ⟨b, rest⟩⟩
  · rfl
  · simp
  · by_cases harrow : a = '=' ∧ b = '>'
    · obtain ⟨rfl, rfl⟩ := harrow
      rfl
    · simp_all

theorem wordToken_append_newline (word : List Char) :
    wordToken word (cs ++ '\n' :: ds) = wordToken word cs := by
  unfold wordToken
  rw [comboExtent_append_newline, arrowFollows_append_newline]

theorem oneOrTwo_append_newline {second : Char} (hsecond : second ≠ '\n') (single double : Kind) :
    oneOrTwo single second double (cs ++ '\n' :: ds) = oneOrTwo single second double cs := by
  unfold oneOrTwo
  rw [headIs_append_newline cs ds (by simpa using hsecond.symm)]

theorem symbol_append_newline (fresh : Bool) (c : Char) :
    symbol fresh c (cs ++ '\n' :: ds) = symbol fresh c cs := by
  have hsymbolic : symbolic c (cs ++ '\n' :: ds) = symbolic c cs := by
    unfold symbolic
    rw [← List.cons_append, symbolicExtent_append_newline]
  have hkey := headIs_append_newline cs ds (p := isKeyChar) rfl
  have hequals := headIs_append_newline cs ds (p := (· == '=')) rfl
  have hgreater := headIs_append_newline cs ds (p := (· == '>')) rfl
  have hand := headIs_append_newline cs ds (p := (· == '&')) rfl
  have hcolon := headIs_append_newline cs ds (p := (· == ':')) rfl
  have hdouble := oneOrTwo_append_newline cs ds (show '=' ≠ '\n' by decide)
  have hbar := oneOrTwo_append_newline cs ds (show '|' ≠ '\n' by decide)
  simp only [symbol, hsymbolic, hkey, hequals, hgreater, hand, hcolon, hdouble, hbar]

/-- **A line end is like the end of the text** for the segment before it. -/
theorem cut_append_newline (fresh : Bool) (c : Char) :
    cut fresh c (cs ++ '\n' :: ds) = cut fresh c cs := by
  have hslash := headIs_append_newline cs ds (p := (· == '/')) rfl
  have hstring : stringExtent (cs ++ '\n' :: ds) = stringExtent cs := by
    unfold stringExtent
    rw [takeWhile_append_newline cs ds rfl]
  have hword : wordExtent (cs ++ '\n' :: ds) = wordExtent cs := by
    unfold wordExtent
    rw [takeWhile_append_newline cs ds rfl]
  have hle : stringExtent cs ≤ cs.length := (covers_takeWhile _ cs).1
  have hclosing : headIs (· == '"') ((cs ++ '\n' :: ds).drop (stringExtent cs)) =
      headIs (· == '"') (cs.drop (stringExtent cs)) := by
    rw [List.drop_append_of_le_length hle, headIs_append_newline _ ds rfl]
  have htake : (cs ++ '\n' :: ds).take (wordExtent cs) = cs.take (wordExtent cs) :=
    List.take_append_of_le_length (covers_takeWhile _ cs).1
  have hdrop : (cs ++ '\n' :: ds).drop (wordExtent cs) = cs.drop (wordExtent cs) ++ '\n' :: ds :=
    List.drop_append_of_le_length (covers_takeWhile _ cs).1
  have hblank := takeWhile_append_newline cs ds (p := fun d => Text.isBlank d && d != '\n') rfl
  have hcomment := takeWhile_append_newline cs ds (p := fun d => d != '\n') rfl
  simp only [cut, hslash, hstring, hword, hclosing, htake, hdrop, hblank, hcomment,
    numberExtent_append_newline, wordToken_append_newline, symbol_append_newline]

end LineEnd

end Scan
end Chord
