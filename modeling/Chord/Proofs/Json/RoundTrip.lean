import Chord.Json.Read
import Chord.Json.Write
import Mathlib.Data.List.DropRight

/-!
# Reading what was written

**Input.** A JSON tree of texts and natural numbers of 64 bits: a `Plain` one.

**Algorithm.** The proof follows the writer. Each part of a text is read back in front of whatever
comes behind it, as long as that cannot be taken for the rest of a number.

**Results.** `parse?_pretty`: the tree is read back from its lines. The texts may hold any
characters: `stringRest_escaped` reads back each of them.
-/

namespace Chord
namespace Json

/-! ## Blanks -/

/-- Characters that the writer puts between the parts of a text. -/
def Blanks (cs : List Char) : Prop :=
  ∀ c ∈ cs, c = ' ' ∨ c = '\n'

theorem blanks_indent (depth : Nat) : Blanks (indent depth).toList := by
  intro c hc
  rw [indent, String.toList_ofList] at hc
  exact Or.inl (List.eq_of_mem_replicate hc)

theorem Blanks.newline {cs : List Char} (h : Blanks cs) : Blanks ('\n' :: cs) := by
  intro c hc
  rcases List.mem_cons.1 hc with rfl | hc
  · exact Or.inr rfl
  · exact h c hc

theorem skipBlanks_append {blanks : List Char} (h : Blanks blanks) (cs : List Char) :
    skipBlanks (blanks ++ cs) = skipBlanks cs := by
  refine List.dropWhile_append_of_pos ?_
  intro c hc
  rcases h c hc with rfl | rfl
  · rfl
  · rfl

theorem skipBlanks_space (cs : List Char) : skipBlanks (' ' :: cs) = skipBlanks cs :=
  rfl

theorem skipBlanks_newline (cs : List Char) : skipBlanks ('\n' :: cs) = skipBlanks cs :=
  rfl

theorem skipBlanks_skipBlanks (cs : List Char) : skipBlanks (skipBlanks cs) = skipBlanks cs :=
  List.dropWhile_idempotent _ cs

section Congr

variable {cs ds : List Char} (h : skipBlanks cs = skipBlanks ds) (fuel : Nat)
include h

theorem valueFrom_congr : valueFrom fuel cs = valueFrom fuel ds := by
  cases fuel with
  | zero => rfl
  | succ fuel => rw [valueFrom, valueFrom, h]

theorem itemsFrom_congr : itemsFrom fuel cs = itemsFrom fuel ds := by
  cases fuel with
  | zero => rfl
  | succ fuel => rw [itemsFrom, itemsFrom, valueFrom_congr h]

theorem fieldsFrom_congr : fieldsFrom fuel cs = fieldsFrom fuel ds := by
  cases fuel with
  | zero => rfl
  | succ fuel => rw [fieldsFrom, fieldsFrom, h]

end Congr

/-! ## Strings -/

theorem hexDigit?_digitChar : ∀ d < 16, hexDigit? (Nat.digitChar d) = some d := by
  decide

/-- A control character in base sixteen. -/
theorem hexFour?_digitChar {n : Nat} (h : n < 0x20) (rest : List Char) :
    hexFour? ('0' :: '0' :: Nat.digitChar (n / 16) :: Nat.digitChar (n % 16) :: rest) =
      some (n, rest) := by
  have hzero : hexDigit? '0' = some 0 := by decide
  have hhigh := hexDigit?_digitChar (n / 16) (by omega)
  have hlow := hexDigit?_digitChar (n % 16) (by omega)
  have hn : ((0 * 16 + 0) * 16 + n / 16) * 16 + n % 16 = n := by omega
  simp only [hexFour?, hzero, hhigh, hlow, Option.bind_eq_bind, Option.bind_some, hn]
  rfl

/-- Characters with an escape of one letter. -/
def shortEscaped : List Char :=
  ['"', '\\', '\x08', '\t', '\n', '\x0c', '\r']

/-- **Every character is read back**, whichever way it was written. -/
theorem stringRest_escaped (fuel : Nat) (acc : List Char) (c : Char) (cs : List Char) :
    stringRest (fuel + 1) (some acc) (escaped c ++ cs) = stringRest fuel (some (c :: acc)) cs := by
  by_cases hshort : c ∈ shortEscaped
  · simp only [shortEscaped, List.mem_cons, List.not_mem_nil, or_false] at hshort
    rcases hshort with rfl | rfl | rfl | rfl | rfl | rfl | rfl <;> rfl
  · simp only [shortEscaped, List.mem_cons, List.not_mem_nil, or_false, not_or] at hshort
    by_cases hcontrol : c.toNat < 0x20
    · have hescaped : escaped c =
          ['\\', 'u', '0', '0', Nat.digitChar (c.toNat / 16), Nat.digitChar (c.toNat % 16)] := by
        simp [escaped, hshort, hcontrol]
      have hhigh : ¬ 0xD800 ≤ c.toNat := by omega
      have hlow : ¬ 0xDC00 ≤ c.toNat := by omega
      rw [hescaped]
      simp [stringRest, hexFour?_digitChar hcontrol, hhigh, hlow, Char.ofNat_toNat]
    · have hescaped : escaped c = [c] := by
        simp [escaped, hshort, hcontrol]
      rw [hescaped]
      simp [stringRest, hshort, hcontrol]

theorem stringRest_quoted (rest : List Char) : (s acc : List Char) → {fuel : Nat} →
    s.length < fuel → stringRest fuel (some acc) (s.flatMap escaped ++ '"' :: rest) =
      some (some (String.ofList (acc.reverse ++ s)), rest)
  | [], acc, fuel + 1, _ => by
      rw [List.append_nil]
      rfl
  | c :: s, acc, fuel + 1, h => by
      rw [List.flatMap_cons, List.append_assoc, stringRest_escaped,
        stringRest_quoted rest s (c :: acc) (Nat.lt_of_succ_lt_succ h), List.reverse_cons,
        List.append_assoc]
      rfl

theorem length_le_escaped (s : List Char) : s.length ≤ (s.flatMap escaped).length := by
  induction s with
  | nil => exact Nat.le_refl 0
  | cons c s ih =>
      have hc : 1 ≤ (escaped c).length := by
        unfold escaped
        split_ifs <;> simp
      rw [List.flatMap_cons, List.length_append, List.length_cons]
      omega

theorem toList_quote (s : String) : (quote s).toList = '"' :: s.toList.flatMap escaped ++ ['"'] :=
  String.toList_ofList

/-- A string is read back after its opening quote. -/
theorem stringRest_quote (s : String) (rest : List Char) :
    ∃ body, (quote s).toList ++ rest = '"' :: body ∧
      stringRest (body.length + 1) (some []) body = some (some s, rest) := by
  have hlength := length_le_escaped s.toList
  refine ⟨s.toList.flatMap escaped ++ '"' :: rest, ?_, ?_⟩
  · rw [toList_quote, List.append_assoc]
    rfl
  · rw [stringRest_quoted rest s.toList []]
    · simp
    · rw [List.length_append]
      omega

/-! ## Numbers -/

/-- What the writer puts behind a value: nothing, or a comma, or a line end. -/
inductive Boundary : List Char → Prop
  | nil : Boundary []
  | comma (rest : List Char) : Boundary (',' :: rest)
  | newline (rest : List Char) : Boundary ('\n' :: rest)

theorem Boundary.splitDigits {rest : List Char} (h : Boundary rest) {digits : List Char}
    (hdigits : ∀ c ∈ digits, c.isDigit = true) : splitDigits (digits ++ rest) = (digits, rest) := by
  have hrest : rest.takeWhile Char.isDigit = [] ∧ rest.dropWhile Char.isDigit = rest := by
    cases h <;> exact ⟨rfl, rfl⟩
  rw [Json.splitDigits, List.takeWhile_append_of_pos hdigits, List.dropWhile_append_of_pos hdigits,
    hrest.1, hrest.2, List.append_nil]

/-- The digits of a number that fits in 64 bits are collected to that number. -/
theorem collect_toDigits (ds : List Char) (n : Nat) (h : n < 0x10000000000000000) :
    collect 0 (Nat.toDigits 10 n ++ ds) = collect n ds := by
  induction n using Nat.strongRecOn generalizing ds with
  | ind n ih =>
      by_cases hn : n < 10
      · have hvalue : 10 * 0 + ((Nat.digitChar n).toNat - '0'.toNat) = n := by
          have hdigit := Nat.toNat_digitChar_sub_48_of_lt_ten hn
          simpa using hdigit
        rw [Nat.toDigits_of_lt_base hn, List.singleton_append, collect, hvalue, if_pos h]
      · have hdigit := Nat.toNat_digitChar_sub_48_of_lt_ten (Nat.mod_lt n (by omega : 0 < 10))
        have hvalue : 10 * (n / 10) + ((Nat.digitChar (n % 10)).toNat - '0'.toNat) = n := by
          show 10 * (n / 10) + ((Nat.digitChar (n % 10)).toNat - 48) = n
          omega
        rw [Nat.toDigits_of_base_le (by omega) (by omega), List.append_assoc,
          ih (n / 10) (by omega) _ (by omega), List.singleton_append, collect, hvalue, if_pos h]

/-- Only zero begins with the digit zero. -/
theorem toDigits_zero_head {n : Nat} {ds : List Char} (h : Nat.toDigits 10 n = '0' :: ds) :
    ds = [] := by
  induction n using Nat.strongRecOn generalizing ds with
  | ind n ih =>
      by_cases hn : n < 10
      · rw [Nat.toDigits_of_lt_base hn] at h
        exact (List.cons.inj h).2.symm
      · rw [Nat.toDigits_of_base_le (by omega) (by omega)] at h
        cases hfront : Nat.toDigits 10 (n / 10) with
        | nil => exact absurd hfront Nat.toDigits_ne_nil
        | cons d front =>
            rw [hfront, List.cons_append] at h
            obtain ⟨rfl, -⟩ := List.cons.inj h
            obtain rfl := ih (n / 10) (by omega) hfront
            -- The number without its last digit would be zero.
            have hzero : n / 10 = 0 := by
              have hback := Nat.ofDigitChars_ten_toDigits (n := n / 10)
              rw [hfront] at hback
              exact hback.symm
            omega

theorem unsignedNumber_toDigits {n : Nat} (h : n < 0x10000000000000000) {rest : List Char}
    (hrest : Boundary rest) :
    unsignedNumber false (Nat.toDigits 10 n ++ rest) = some (.int n, rest) := by
  have hdigits : ∀ c ∈ Nat.toDigits 10 n, c.isDigit = true :=
    fun c hc => Nat.isDigit_of_mem_toDigits (by omega) (by omega) hc
  have hcollect : collect 0 (Nat.toDigits 10 n) = (n, []) := by
    have hall := collect_toDigits [] n h
    rwa [List.append_nil] at hall
  have hsplit := hrest.splitDigits hdigits
  cases hn : Nat.toDigits 10 n with
  | nil => exact absurd hn Nat.toDigits_ne_nil
  | cons d more =>
      have hzero : (d == '0' && !more.isEmpty) = false := by
        by_cases hd : d = '0'
        · subst hd
          rw [toDigits_zero_head hn]
          rfl
        · simp [hd]
      have hvalue : Pieces.value? ⟨false, d :: more, none, none⟩ = some (.integer n) := by
        rw [hn] at hcollect
        simp [Pieces.value?, hcollect]
      rw [hn] at hsplit
      cases hrest <;>
        simp only [unsignedNumber, hsplit, hzero, Bool.false_eq_true, if_false] <;>
        exact congrArg (fun value => some (Json.number value, _)) hvalue

theorem valueFrom_digit {d : Char} (hd : d.isDigit = true) (fuel : Nat) (cs : List Char) :
    valueFrom (fuel + 1) (d :: cs) = unsignedNumber false (d :: cs) := by
  have hne : ∀ c : Char, c.isDigit = false → d ≠ c := by
    rintro c hc rfl
    rw [hd] at hc
    cases hc
  have hskip : skipBlanks (d :: cs) = d :: cs := by
    simp [skipBlanks, hne ' ' rfl, hne '\n' rfl, hne '\t' rfl, hne '\r' rfl]
  simp [valueFrom, hskip, hne '"' rfl, hne '-' rfl, hd]

theorem valueFrom_toDigits {n : Nat} (h : n < 0x10000000000000000) {fuel : Nat}
    {rest : List Char} (hrest : Boundary rest) :
    valueFrom (fuel + 1) ((toString (n : Int)).toList ++ rest) = some (.int n, rest) := by
  have hnumber := unsignedNumber_toDigits h hrest
  have htext : (toString (n : Int)).toList = Nat.toDigits 10 n := by
    show (toString n).toList = _
    rw [Nat.toString_eq_ofList_toDigits, String.toList_ofList]
  rw [htext]
  cases hn : Nat.toDigits 10 n with
  | nil => exact absurd hn Nat.toDigits_ne_nil
  | cons d more =>
      have hmem : d ∈ Nat.toDigits 10 n := by
        rw [hn]
        exact List.mem_cons_self
      have hd : d.isDigit = true := Nat.isDigit_of_mem_toDigits (by omega) (by omega) hmem
      rw [hn] at hnumber
      rw [List.cons_append, valueFrom_digit hd]
      exact hnumber

/-! ## Trees -/

mutual

/-- Every leaf is a text, a natural number of 64 bits or a word. -/
def Plain : Json → Prop
  | .number n => ∃ m : Nat, m < 0x10000000000000000 ∧ n = some (.integer m)
  | .string s => ∃ text, s = some text
  | .array items => AllPlain items
  | .object fields => FieldsPlain fields
  | _ => True

/-- Every item is plain. -/
def AllPlain : List Json → Prop
  | [] => True
  | j :: js => j.Plain ∧ AllPlain js

/-- The value of every field is plain. -/
def FieldsPlain : List (String × Json) → Prop
  | [] => True
  | (_, j) :: fs => j.Plain ∧ FieldsPlain fs

end

/-- The lines between two brackets. -/
def inner (depth : Nat) (texts : List String) : List Char :=
  (",\n".intercalate (texts.map (indent depth ++ ·))).toList

theorem inner_singleton (depth : Nat) (text : String) :
    inner depth [text] = (indent depth).toList ++ text.toList := by
  rw [inner, List.map_singleton, String.intercalate_singleton, String.toList_append]

theorem inner_cons_cons (depth : Nat) (text next : String) (texts : List String) :
    inner depth (text :: next :: texts) =
      (indent depth).toList ++ (text.toList ++ ',' :: '\n' :: inner depth (next :: texts)) := by
  rw [inner, List.map_cons, List.map_cons, String.intercalate_cons_cons, String.toList_append,
    String.toList_append, String.toList_append, List.append_assoc, List.append_assoc]
  rfl

theorem toList_field (key text : String) :
    (quote key ++ ": " ++ text).toList = (quote key).toList ++ ':' :: ' ' :: text.toList := by
  rw [String.toList_append, String.toList_append, List.append_assoc]
  rfl

theorem toList_lines_nil (left right : String) (depth : Nat) :
    (lines left right depth []).toList = left.toList ++ right.toList :=
  String.toList_append

theorem toList_lines (left right : String) (depth : Nat) {texts : List String}
    (h : texts ≠ []) : (lines left right depth texts).toList = left.toList ++
      '\n' :: (inner (depth + 1) texts ++ '\n' :: ((indent depth).toList ++ right.toList)) := by
  have hempty : texts.isEmpty = false := by
    simpa using h
  simp only [lines, hempty, Bool.false_eq_true, if_false, String.toList_append, inner]
  simp

/-! ### Single steps of reading -/

section Steps

variable {fuel : Nat} {cs tail more rest : List Char} {item value : Json} {items : List Json}
  {fields : List (String × Json)}

theorem itemsFrom_last (hitem : valueFrom fuel cs = some (item, tail))
    (htail : skipBlanks tail = ']' :: rest) : itemsFrom (fuel + 1) cs = some ([item], rest) := by
  simp [itemsFrom, hitem, htail]

theorem itemsFrom_next (hitem : valueFrom fuel cs = some (item, ',' :: more))
    (hitems : itemsFrom fuel more = some (items, rest)) :
    itemsFrom (fuel + 1) cs = some (item :: items, rest) := by
  have hskip : skipBlanks (',' :: more) = ',' :: more := rfl
  simp [itemsFrom, hitem, hskip, hitems]

theorem fieldsFrom_last (key : String) (hvalue : valueFrom fuel more = some (value, tail))
    (htail : skipBlanks tail = '\x7d' :: rest) :
    fieldsFrom (fuel + 1) ((quote key).toList ++ ':' :: more) = some ([(key, value)], rest) := by
  obtain ⟨body, htext, hkey⟩ := stringRest_quote key (':' :: more)
  have hquote : skipBlanks ('"' :: body) = '"' :: body := rfl
  have hcolon : skipBlanks (':' :: more) = ':' :: more := rfl
  rw [htext]
  simp [fieldsFrom, hquote, hkey, hcolon, hvalue, htail]

theorem fieldsFrom_next (key : String) {next : List Char}
    (hvalue : valueFrom fuel more = some (value, ',' :: next))
    (hfields : fieldsFrom fuel next = some (fields, rest)) :
    fieldsFrom (fuel + 1) ((quote key).toList ++ ':' :: more) =
      some ((key, value) :: fields, rest) := by
  obtain ⟨body, htext, hkey⟩ := stringRest_quote key (':' :: more)
  have hquote : skipBlanks ('"' :: body) = '"' :: body := rfl
  have hcolon : skipBlanks (':' :: more) = ':' :: more := rfl
  have hcomma : skipBlanks (',' :: next) = ',' :: next := rfl
  rw [htext]
  simp [fieldsFrom, hquote, hkey, hcolon, hvalue, hcomma, hfields]

/-- No item begins with the closing bracket, so one that was read tells an array from the empty
one. -/
theorem valueFrom_array (h : itemsFrom fuel cs = some (items, rest)) :
    valueFrom (fuel + 1) ('[' :: cs) = some (.array items, rest) := by
  have hclosing : ∀ more, skipBlanks cs ≠ ']' :: more := by
    intro more hcs
    have hcongr : skipBlanks cs = skipBlanks (']' :: more) := hcs
    rw [itemsFrom_congr hcongr] at h
    rcases fuel with _ | _ | fuel <;> cases h
  have hskip : skipBlanks ('[' :: cs) = '[' :: cs := rfl
  rw [← itemsFrom_congr (skipBlanks_skipBlanks cs)] at h
  -- `hclosing` leaves only the second branch.
  simp [valueFrom, hskip, h]

theorem valueFrom_object (h : fieldsFrom fuel cs = some (fields, rest)) :
    valueFrom (fuel + 1) ('\x7b' :: cs) = some (.object fields, rest) := by
  have hclosing : ∀ more, skipBlanks cs ≠ '\x7d' :: more := by
    intro more hcs
    have hcongr : skipBlanks cs = skipBlanks ('\x7d' :: more) := hcs
    rw [fieldsFrom_congr hcongr] at h
    rcases fuel with _ | fuel <;> cases h
  have hskip : skipBlanks ('\x7b' :: cs) = '\x7b' :: cs := rfl
  rw [← fieldsFrom_congr (skipBlanks_skipBlanks cs)] at h
  -- `hclosing` leaves only the second branch.
  simp [valueFrom, hskip, h]

end Steps

/-! ### Reading back what was written -/

/-- A tree is read back from its lines, whatever the writer puts behind them. -/
def ReadsBack (j : Json) : Prop :=
  ∀ (depth fuel : Nat), 2 * (j.prettyAt depth).toList.length ≤ fuel →
    ∀ rest, Boundary rest →
      valueFrom (fuel + 1) ((j.prettyAt depth).toList ++ rest) = some (j, rest)

/-- The items of an array are read back from their lines. -/
def ItemsReadBack (js : List Json) : Prop :=
  ∀ (depth fuel : Nat), 2 * (inner depth (prettyAll depth js)).length + 2 ≤ fuel →
    ∀ tail rest, Boundary tail → skipBlanks tail = ']' :: rest →
      itemsFrom fuel (inner depth (prettyAll depth js) ++ tail) = some (js, rest)

/-- The fields of an object are read back from their lines. -/
def FieldsReadBack (fs : List (String × Json)) : Prop :=
  ∀ (depth fuel : Nat), 2 * (inner depth (prettyFields depth fs)).length + 2 ≤ fuel →
    ∀ tail rest, Boundary tail → skipBlanks tail = '\x7d' :: rest →
      fieldsFrom fuel (inner depth (prettyFields depth fs) ++ tail) = some (fs, rest)

theorem readsBack_null : ReadsBack .null := by
  intro depth fuel _ rest _
  rw [prettyAt]
  rfl

theorem readsBack_boolean (b : Bool) : ReadsBack (.boolean b) := by
  intro depth fuel _ rest _
  rw [prettyAt]
  cases b <;> rfl

theorem readsBack_text (s : String) : ReadsBack (.text s) := by
  intro depth fuel _ rest _
  obtain ⟨body, htext, hbody⟩ := stringRest_quote s rest
  have hquote : skipBlanks ('"' :: body) = '"' :: body := rfl
  rw [text, prettyAt, stringText, htext]
  simp [valueFrom, hquote, hbody]

theorem readsBack_int {n : Nat} (h : n < 0x10000000000000000) : ReadsBack (.int n) := by
  intro depth fuel _ rest hrest
  rw [int, prettyAt]
  exact valueFrom_toDigits h hrest

theorem readsBack_array_nil : ReadsBack (.array []) := by
  intro depth fuel _ rest _
  rw [prettyAt, prettyAll, toList_lines_nil]
  rfl

theorem ItemsReadBack.array {j : Json} {js : List Json} (h : ItemsReadBack (j :: js)) :
    ReadsBack (.array (j :: js)) := by
  intro depth fuel hfuel rest _
  have hne : prettyAll (depth + 1) (j :: js) ≠ [] := by
    rw [prettyAll]
    exact List.cons_ne_nil _ _
  have hclose : skipBlanks ('\n' :: ((indent depth).toList ++ ']' :: rest)) = ']' :: rest :=
    skipBlanks_append (blanks_indent depth).newline (']' :: rest)
  rw [prettyAt, toList_lines "[" "]" depth hne] at hfuel ⊢
  simp only [List.length_append, List.length_cons] at hfuel
  have hitems := h (depth + 1) fuel (by omega) _ _ (.newline _) hclose
  rw [← itemsFrom_congr (skipBlanks_newline _)] at hitems
  simp only [List.append_assoc, List.cons_append]
  exact valueFrom_array hitems

theorem ReadsBack.singleton {j : Json} (hj : ReadsBack j) : ItemsReadBack [j] := by
  intro depth fuel hfuel tail rest htail hskip
  obtain ⟨fuel, rfl⟩ := Nat.exists_eq_add_of_le' (Nat.le_trans (Nat.le_add_left 2 _) hfuel)
  rw [prettyAll, prettyAll, inner_singleton] at hfuel ⊢
  rw [List.length_append] at hfuel
  rw [List.append_assoc, itemsFrom_congr (skipBlanks_append (blanks_indent depth) _)]
  exact itemsFrom_last (hj depth fuel (by omega) tail htail) hskip

theorem ItemsReadBack.cons {j next : Json} {js : List Json} (hj : ReadsBack j)
    (hjs : ItemsReadBack (next :: js)) : ItemsReadBack (j :: next :: js) := by
  intro depth fuel hfuel tail rest htail hskip
  obtain ⟨fuel, rfl⟩ := Nat.exists_eq_add_of_le' (Nat.le_trans (Nat.le_add_left 2 _) hfuel)
  have hnext : prettyAll depth (next :: js) = next.prettyAt depth :: prettyAll depth js := by
    rw [prettyAll]
  rw [prettyAll, hnext, inner_cons_cons, ← hnext] at hfuel ⊢
  simp only [List.length_append, List.length_cons] at hfuel
  rw [List.append_assoc, itemsFrom_congr (skipBlanks_append (blanks_indent depth) _),
    List.append_assoc]
  refine itemsFrom_next (hj depth fuel (by omega) _ (.comma _)) ?_
  refine (itemsFrom_congr (skipBlanks_newline _) (fuel + 1)).trans ?_
  exact hjs depth (fuel + 1) (by omega) tail rest htail hskip

theorem readsBack_object_nil : ReadsBack (.object []) := by
  intro depth fuel _ rest _
  rw [prettyAt, prettyFields, toList_lines_nil]
  rfl

theorem FieldsReadBack.object {k : String} {j : Json} {fs : List (String × Json)}
    (h : FieldsReadBack ((k, j) :: fs)) : ReadsBack (.object ((k, j) :: fs)) := by
  intro depth fuel hfuel rest _
  have hne : prettyFields (depth + 1) ((k, j) :: fs) ≠ [] := by
    rw [prettyFields]
    exact List.cons_ne_nil _ _
  have hclose : skipBlanks ('\n' :: ((indent depth).toList ++ '\x7d' :: rest)) = '\x7d' :: rest :=
    skipBlanks_append (blanks_indent depth).newline ('\x7d' :: rest)
  rw [prettyAt, toList_lines "\x7b" "\x7d" depth hne] at hfuel ⊢
  simp only [List.length_append, List.length_cons] at hfuel
  have hfields := h (depth + 1) fuel (by omega) _ _ (.newline _) hclose
  rw [← fieldsFrom_congr (skipBlanks_newline _)] at hfields
  simp only [List.append_assoc, List.cons_append]
  exact valueFrom_object hfields

theorem ReadsBack.field (k : String) {j : Json} (hj : ReadsBack j) : FieldsReadBack [(k, j)] := by
  intro depth fuel hfuel tail rest htail hskip
  obtain ⟨fuel, rfl⟩ := Nat.exists_eq_add_of_le' (Nat.le_trans (Nat.le_add_left 2 _) hfuel)
  rw [prettyFields, prettyFields, inner_singleton, toList_field] at hfuel ⊢
  simp only [List.length_append, List.length_cons] at hfuel
  rw [List.append_assoc, fieldsFrom_congr (skipBlanks_append (blanks_indent depth) _),
    List.append_assoc]
  refine fieldsFrom_last k ?_ hskip
  exact (valueFrom_congr (skipBlanks_space _) (fuel + 1)).trans
    (hj depth fuel (by omega) tail htail)

theorem FieldsReadBack.cons (k : String) {j value : Json} {next : String}
    {fs : List (String × Json)} (hj : ReadsBack j) (hfs : FieldsReadBack ((next, value) :: fs)) :
    FieldsReadBack ((k, j) :: (next, value) :: fs) := by
  intro depth fuel hfuel tail rest htail hskip
  obtain ⟨fuel, rfl⟩ := Nat.exists_eq_add_of_le' (Nat.le_trans (Nat.le_add_left 2 _) hfuel)
  have hnext : prettyFields depth ((next, value) :: fs) =
      (quote next ++ ": " ++ value.prettyAt depth) :: prettyFields depth fs := by
    rw [prettyFields]
  rw [prettyFields, hnext, inner_cons_cons, ← hnext, toList_field] at hfuel ⊢
  simp only [List.length_append, List.length_cons] at hfuel
  rw [List.append_assoc, fieldsFrom_congr (skipBlanks_append (blanks_indent depth) _),
    List.append_assoc, List.append_assoc]
  refine fieldsFrom_next k ((valueFrom_congr (skipBlanks_space _) (fuel + 1)).trans
    (hj depth fuel (by omega) _ (.comma _))) ?_
  refine (fieldsFrom_congr (skipBlanks_newline _) (fuel + 1)).trans ?_
  exact hfs depth (fuel + 1) (by omega) tail rest htail hskip

mutual

theorem Plain.readsBack : (j : Json) → j.Plain → ReadsBack j
  | .null, _ => readsBack_null
  | .boolean b, _ => readsBack_boolean b
  | .string _, ⟨s, rfl⟩ => readsBack_text s
  | .number _, ⟨_, hn, rfl⟩ => readsBack_int hn
  | .array [], _ => readsBack_array_nil
  | .array (j :: js), ⟨hj, hjs⟩ =>
      (AllPlain.readBack (j :: js) (List.cons_ne_nil _ _) ⟨hj, hjs⟩).array
  | .object [], _ => readsBack_object_nil
  | .object ((k, j) :: fs), ⟨hj, hfs⟩ =>
      (FieldsPlain.readBack ((k, j) :: fs) (List.cons_ne_nil _ _) ⟨hj, hfs⟩).object

theorem AllPlain.readBack : (js : List Json) → js ≠ [] → AllPlain js → ItemsReadBack js
  | [], hne, _ => absurd rfl hne
  | [j], _, ⟨hj, _⟩ => (Plain.readsBack j hj).singleton
  | j :: next :: js, _, ⟨hj, hjs⟩ =>
      .cons (Plain.readsBack j hj) (AllPlain.readBack (next :: js) (List.cons_ne_nil _ _) hjs)

theorem FieldsPlain.readBack : (fs : List (String × Json)) → fs ≠ [] → FieldsPlain fs →
    FieldsReadBack fs
  | [], hne, _ => absurd rfl hne
  | [(k, j)], _, ⟨hj, _⟩ => (Plain.readsBack j hj).field k
  | (k, j) :: (next, value) :: fs, _, ⟨hj, hfs⟩ =>
      .cons k (Plain.readsBack j hj)
        (FieldsPlain.readBack ((next, value) :: fs) (List.cons_ne_nil _ _) hfs)

end

/-- **A plain tree is read back from its lines.** -/
theorem parse?_pretty {j : Json} (h : j.Plain) : parse? j.pretty = some j := by
  have hvalue := Plain.readsBack j h 0 _ (Nat.le_refl _) [] .nil
  rw [List.append_nil] at hvalue
  simp [parse?, pretty, hvalue, skipBlanks]

end Json
end Chord
