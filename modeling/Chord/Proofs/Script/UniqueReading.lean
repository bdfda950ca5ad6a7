import Chord.Proofs.Script.Layout
import Chord.Proofs.Script.Renumbering

/-!
# Printed trees determine their scripts

**Input.** Scripts that can be read.

**Algorithm.** The compact text of a tree is written in front of what follows it (`Expr.write`,
`Stmt.write`). Two texts are compared from left to right.

**Results.** Hotkeys are printed as they are, and `^` and `^)` are both hotkeys: a hotkey in
parentheses does not show whether the last one but one belongs to it. `Reads` allows for one such
parenthesis. What follows a tree settles this everywhere but in the last part of a tree
(`Expr.tellsApart`, `Stmt.WellFormed.resolves`), and for the last parts the end of the list settles
it around them (`writeItems_inj_of_tellsApart`). Hence scripts with the same compact text are equal
up to the lines of their bindings (`render_compact_injective`).
-/

namespace Chord

/-! ## Texts in front of what follows -/

/-- The other elements of a list, up to its end. -/
def writeMore (close : Char) : List (List Char → List Char) → List Char → List Char
  | [], rest => close :: rest
  | item :: items, rest => ',' :: ' ' :: item (writeMore close items rest)

/-- The elements of a list, up to its end. -/
def writeItems (close : Char) : List (List Char → List Char) → List Char → List Char
  | [], rest => close :: rest
  | item :: items, rest => item (writeMore close items rest)

/-- The compact text of an expression in front of what follows it. -/
def Expr.write : Expr → List Char → List Char
  | .identifier name, rest => "Identifier(".toList ++ (name.toList ++ ')' :: rest)
  | .number value, rest => "Number(".toList ++ ((Decimal.text value).toList ++ ')' :: rest)
  | .string value, rest => "String(".toList ++ ((Text.quoted value).toList ++ ')' :: rest)
  | .hotkey text, rest => "Hotkey(".toList ++ (text.toList ++ ')' :: rest)
  | .binary left op right, rest =>
      "Binary(".toList ++
        left.write (' ' :: (op.symbol.toList ++ ' ' :: right.write (')' :: rest)))
  | .call callee args, rest =>
      "Call(".toList ++
        callee.write (", [".toList ++ writeItems ']' (args.map fun arg => arg.write) (')' :: rest))
  | .member object property, rest =>
      "Member(".toList ++ object.write ('.' :: property.write (')' :: rest))
  | .pipeline stages, rest =>
      "Pipeline([".toList ++ writeItems ']' (stages.map fun stage => stage.write) (')' :: rest)

/-- The compact text of a statement in front of what follows it. -/
def Stmt.write : Stmt → List Char → List Char
  | .bind hotkey action _, rest =>
      "HotkeyBinding(".toList ++ hotkey.write (" => ".toList ++ action.write (')' :: rest))
  | .block body, rest =>
      "Block([".toList ++ writeItems ']' (body.map fun s => s.write) (')' :: rest)
  | .expr value, rest => "ExpressionStatement(".toList ++ value.write (')' :: rest)
  | .assign name none, rest => "Let(".toList ++ (name.toList ++ ')' :: rest)
  | .assign name (some value), rest =>
      "Let(".toList ++ (name.toList ++ ' ' :: ("= ".toList ++ value.write (')' :: rest)))
  | .branch condition consequence none, rest =>
      "If(".toList ++ condition.write (", ".toList ++ consequence.write (')' :: rest))
  | .branch condition consequence (some alternative), rest =>
      "If(".toList ++ condition.write (", ".toList ++
        consequence.write (',' :: (" else ".toList ++ alternative.write (')' :: rest))))
  | .loop condition body, rest =>
      "While(".toList ++ condition.write (", ".toList ++ body.write (')' :: rest))
  | .leave none, rest => "Return(".toList ++ ')' :: rest
  | .leave (some value), rest => "Return(".toList ++ value.write (')' :: rest)
  | .function name params body, rest =>
      "Function(".toList ++ (name.toList ++ ('(' ::
        writeItems ')' (params.map fun param rest => param.toList ++ rest)
          (", ".toList ++ body.write (')' :: rest))))

theorem flatMap_append_write (close : Char) (texts : List String) (rest : List Char) :
    (texts.flatMap fun text => ", ".toList ++ text.toList) ++ close :: rest =
      writeMore close (texts.map fun text rest => text.toList ++ rest) rest := by
  induction texts with
  | nil => rfl
  | cons text texts ih =>
      rw [List.flatMap_cons, List.append_assoc, List.append_assoc, ih, List.map_cons, writeMore]
      rfl

theorem intercalate_append_write (close : Char) (texts : List String) (rest : List Char) :
    (", ".intercalate texts).toList ++ close :: rest =
      writeItems close (texts.map fun text rest => text.toList ++ rest) rest := by
  cases texts with
  | nil => rfl
  | cons text texts =>
      rw [toList_intercalate_cons, List.append_assoc, flatMap_append_write, List.map_cons,
        writeItems]

/-- A list in brackets is written element by element. -/
theorem bracket_append_write {α : Type} {render : α → String} {write : α → List Char → List Char}
    {as : List α} (h : ∀ a ∈ as, ∀ rest, (render a).toList ++ rest = write a rest) (depth : Nat)
    (rest : List Char) :
    (Style.compact.bracket depth (as.map render)).toList ++ rest =
      '[' :: writeItems ']' (as.map write) rest := by
  have hbracket : Style.compact.bracket depth (as.map render) =
      "[" ++ ", ".intercalate (as.map render) ++ "]" := by
    cases as with
    | nil => rfl
    | cons a as => rfl
  have hwrite : (as.map render).map (fun text rest => text.toList ++ rest) = as.map write := by
    rw [List.map_map]
    exact List.map_congr_left fun a ha => funext (h a ha)
  rw [hbracket, String.toList_append, String.toList_append, List.append_assoc, List.append_assoc,
    ← hwrite, ← intercalate_append_write]
  rfl

theorem Expr.render_append_write (e : Expr) (depth : Nat) (rest : List Char) :
    (e.render .compact depth).toList ++ rest = e.write rest := by
  induction e using Expr.nested generalizing depth rest with
  | identifier name =>
      rw [write, render.eq_def]
      simp only [String.toList_append, List.append_assoc]
      rfl
  | number value =>
      rw [write, render.eq_def]
      simp only [String.toList_append, List.append_assoc]
      rfl
  | string value =>
      rw [write, render.eq_def]
      simp only [String.toList_append, List.append_assoc]
      rfl
  | hotkey text =>
      rw [write, render.eq_def]
      simp only [String.toList_append, List.append_assoc]
      rfl
  | binary left op right ihleft ihright =>
      rw [write, ← ihleft depth, ← ihright depth, render.eq_def]
      simp only [String.toList_append, List.append_assoc]
      rfl
  | call callee args ihcallee ihargs =>
      have hlist := bracket_append_write (fun arg harg => ihargs arg harg (depth + 1)) depth
      rw [write, ← ihcallee depth, render.eq_def]
      simp only [String.toList_append, List.append_assoc]
      rw [renderAll_eq_map, hlist]
      rfl
  | member object property ihobject ihproperty =>
      rw [write, ← ihobject depth, ← ihproperty depth, render.eq_def]
      simp only [String.toList_append, List.append_assoc]
      rfl
  | pipeline stages ih =>
      have hlist := bracket_append_write (fun stage hstage => ih stage hstage (depth + 1)) depth
      rw [write, render.eq_def]
      simp only [String.toList_append, List.append_assoc]
      rw [renderAll_eq_map, hlist]
      rfl

theorem Stmt.render_append_write (s : Stmt) (depth : Nat) (rest : List Char) :
    (s.render .compact depth).toList ++ rest = s.write rest := by
  induction s using Stmt.nested generalizing depth rest with
  | bind hotkey action line ih =>
      rw [write, ← hotkey.render_append_write depth, ← ih depth, render.eq_def]
      simp only [String.toList_append, List.append_assoc]
      rfl
  | block body ih =>
      have hlist := bracket_append_write (fun s hs => ih s hs (depth + 1)) depth
      rw [write, render.eq_def]
      simp only [String.toList_append, List.append_assoc]
      rw [renderAll_eq_map, hlist]
      rfl
  | expr value =>
      rw [write, ← value.render_append_write depth, render.eq_def]
      simp only [String.toList_append, List.append_assoc]
      rfl
  | assign name value =>
      cases value with
      | none =>
          rw [write, render.eq_def]
          simp only [String.toList_append, List.append_assoc]
          rfl
      | some value =>
          rw [write, ← value.render_append_write depth, render.eq_def]
          simp only [String.toList_append, List.append_assoc]
          rfl
  | branch condition consequence alternative ih ih' =>
      cases alternative with
      | none =>
          rw [write, ← condition.render_append_write depth, ← ih depth, render.eq_def]
          simp only [String.toList_append, List.append_assoc]
          rfl
      | some alternative =>
          rw [write, ← condition.render_append_write depth, ← ih depth,
            ← ih' alternative rfl depth, render.eq_def]
          simp only [String.toList_append, List.append_assoc]
          rfl
  | loop condition body ih =>
      rw [write, ← condition.render_append_write depth, ← ih depth, render.eq_def]
      simp only [String.toList_append, List.append_assoc]
      rfl
  | leave value =>
      cases value with
      | none =>
          have hreturn : "Return()".toList = "Return(".toList ++ [')'] := by decide
          rw [write, ← List.singleton_append, ← List.append_assoc, ← hreturn, render.eq_def]
      | some value =>
          rw [write, ← value.render_append_write depth, render.eq_def]
          simp only [String.toList_append, List.append_assoc]
          rfl
  | function name params body ih =>
      rw [write, ← ih depth, ← intercalate_append_write, render.eq_def]
      simp only [String.toList_append, List.append_assoc]
      rfl

/-- The compact text of a tree in front of what follows it. -/
def Node.write : Node → List Char → List Char
  | .expr e => e.write
  | .stmt s => s.write

theorem Node.render_append_write (depth : Nat) (n : Node) (rest : List Char) :
    (n.render .compact depth).toList ++ rest = n.write rest := by
  cases n with
  | expr e => exact e.render_append_write depth rest
  | stmt s => exact s.render_append_write depth rest

theorem Node.exists_cons_write (n : Node) (rest : List Char) :
    ∃ cs, n.write rest = n.initial :: cs := by
  obtain ⟨cs, hcs⟩ := n.exists_cons_render .compact 0
  refine ⟨cs ++ rest, ?_⟩
  rw [← n.render_append_write 0, hcs, List.cons_append]

theorem Node.exists_cons_ne_write (n : Node) (rest : List Char) :
    ∃ c cs, n.write rest = c :: cs ∧ c ≠ ']' := by
  obtain ⟨cs, hcs⟩ := n.exists_cons_write rest
  exact ⟨n.initial, cs, hcs, n.initial_ne⟩

/-- The first letter shows the kind of a tree. -/
theorem Node.initial_eq_of_write_eq (n n' : Node) {rest rest' : List Char}
    (h : n.write rest = n'.write rest') : n.initial = n'.initial := by
  obtain ⟨cs, hcs⟩ := n.exists_cons_write rest
  obtain ⟨cs', hcs'⟩ := n'.exists_cons_write rest'
  rw [hcs, hcs'] at h
  exact (List.cons.inj h).1

/-! ## Where texts end -/

/-- Two trees have been read, and `rest` and `rest'` follow them: the trees are as `P` says, or a
parenthesis more has been taken for a part of one of them. -/
def Reads (P : Prop) (rest rest' : List Char) : Prop :=
  P ∧ rest = rest' ∨ rest = ')' :: rest' ∨ rest' = ')' :: rest

/-- What can follow a hotkey without being a part of it. -/
def Follows (rest : List Char) : Prop :=
  ∀ c ∈ rest.head?, c ≠ '+'

/-- What settles where a tree ends. -/
def Settles (rest : List Char) : Prop :=
  ∃ c cs, rest = c :: cs ∧ c ≠ '+' ∧ c ≠ ')'

theorem Settles.cons {c : Char} (hplus : c ≠ '+') (hparen : c ≠ ')') (cs : List Char) :
    Settles (c :: cs) :=
  ⟨c, cs, rfl, hplus, hparen⟩

theorem Settles.literal (text : String) (rest : List Char)
    (h : (text.toList.head?.any fun c => c != '+' && c != ')') = true := by rfl) :
    Settles (text.toList ++ rest) := by
  obtain ⟨c, hhead, hc⟩ := (Option.any_eq_true _ _).1 h
  obtain ⟨cs, hcs⟩ := List.head?_eq_some_iff.1 hhead
  obtain ⟨hplus, hparen⟩ := Bool.and_eq_true_iff.1 hc
  exact ⟨c, cs ++ rest, by rw [hcs, List.cons_append], bne_iff_ne.1 hplus, bne_iff_ne.1 hparen⟩

theorem Settles.follows {rest : List Char} (h : Settles rest) : Follows rest := by
  obtain ⟨c, cs, rfl, hplus, -⟩ := h
  intro d hd
  rwa [← Option.some.inj hd]

theorem follows_paren (rest : List Char) : Follows (')' :: rest) := by
  rintro c ⟨⟩
  decide

namespace Reads

variable {P Q : Prop} {rest rest' : List Char}

theorem intro (h : P) : Reads P rest rest :=
  .inl ⟨h, rfl⟩

theorem imp (h : Reads P rest rest') (hPQ : P → Q) : Reads Q rest rest' :=
  Or.imp_left (And.imp_left hPQ) h

theorem settled (h : Reads P rest rest') (hrest : Settles rest) (hrest' : Settles rest') :
    P ∧ rest = rest' := by
  obtain ⟨c, cs, rfl, -, hc⟩ := hrest
  obtain ⟨c', cs', rfl, -, hc'⟩ := hrest'
  rcases h with h | h | h
  · exact h
  · exact absurd (List.cons.inj h).1 hc
  · exact absurd (List.cons.inj h).1 hc'

/-- A parenthesis that closes both. -/
theorem close (h : Reads P (')' :: rest) (')' :: rest')) : Reads P rest rest' := by
  rcases h with ⟨hP, h⟩ | h | h
  · exact .inl ⟨hP, (List.cons.inj h).2⟩
  · exact .inr (.inl (List.cons.inj h).2)
  · exact .inr (.inr (List.cons.inj h).2)

end Reads

/-- Texts of one class of characters end where a character of another class stands. -/
theorem append_cons_inj_of_forall {α : Type} {p : α → Bool} {as as' : List α} {c c' : α}
    {r r' : List α} (has : ∀ a ∈ as, p a = true) (has' : ∀ a ∈ as', p a = true) (hc : p c = false)
    (hc' : p c' = false) (h : as ++ c :: r = as' ++ c' :: r') : as = as' ∧ c :: r = c' :: r' := by
  have htake := congrArg (List.takeWhile p) h
  rw [List.takeWhile_append_of_pos has, List.takeWhile_append_of_pos has',
    List.takeWhile_cons_of_neg (by simp [hc]), List.takeWhile_cons_of_neg (by simp [hc']),
    List.append_nil, List.append_nil] at htake
  subst htake
  exact ⟨rfl, List.append_cancel_left h⟩

/-- Only one parenthesis can be taken for a part of a hotkey. -/
theorem Scan.Clasped.eq_nil_or {cs ds rest rest' : List Char} (h : Clasped (cs ++ ds))
    (hrest : Follows rest) (heq : ')' :: rest = ds ++ ')' :: rest') :
    ds = [] ∧ rest = rest' ∨ rest = ')' :: rest' := by
  cases ds with
  | nil => exact .inl ⟨rfl, (List.cons.inj heq).2⟩
  | cons d ds =>
      obtain ⟨rfl, rfl⟩ := List.cons.inj heq
      cases ds with
      | nil => exact .inr rfl
      | cons e ds => exact absurd (h.head?_of_paren e rfl) (hrest e rfl)

/-- Hotkeys in parentheses are told apart up to one parenthesis. -/
theorem Scan.Clasped.reads {cs cs' rest rest' : List Char} (hcs : Clasped cs) (hcs' : Clasped cs')
    (hrest : Follows rest) (hrest' : Follows rest')
    (h : cs ++ ')' :: rest = cs' ++ ')' :: rest') : Reads (cs = cs') rest rest' := by
  rcases List.append_eq_append_iff.1 h with ⟨ds, rfl, heq⟩ | ⟨ds, rfl, heq⟩
  · rcases hcs'.eq_nil_or hrest heq with ⟨rfl, rfl⟩ | hmore
    · exact .intro (List.append_nil cs).symm
    · exact .inr (.inl hmore)
  · rcases hcs.eq_nil_or hrest' heq with ⟨rfl, rfl⟩ | hmore
    · exact .intro (List.append_nil cs')
    · exact .inr (.inr hmore)

/-! ## Lists -/

/-- What can follow an element of a list. -/
def Separates (close : Char) (rest : List Char) : Prop :=
  ∃ c ∈ [',', close], ∃ cs, rest = c :: cs

theorem writeMore_separates (close : Char) (items : List (List Char → List Char))
    (rest : List Char) : Separates close (writeMore close items rest) := by
  cases items with
  | nil => exact ⟨close, by simp, rest, rfl⟩
  | cons item items => exact ⟨',', by simp, _, rfl⟩

section Lists

variable {α β : Type} {close : Char} {write : α → List Char → List Char} {f : α → β}

/-- Elements of two lists can be told apart if a comma or the end of the list follows. -/
def Distinct (close : Char) (write : α → List Char → List Char) (f : α → β) (as as' : List α) :
    Prop :=
  ∀ a ∈ as, ∀ a' ∈ as', ∀ rest rest', Separates close rest → Separates close rest' →
    write a rest = write a' rest' → f a = f a' ∧ rest = rest'

theorem Distinct.tail {a a' : α} {as as' : List α}
    (h : Distinct close write f (a :: as) (a' :: as')) : Distinct close write f as as' :=
  fun b hb b' hb' => h b (List.mem_cons_of_mem a hb) b' (List.mem_cons_of_mem a' hb')

theorem Distinct.head {a a' : α} {as as' : List α}
    (h : Distinct close write f (a :: as) (a' :: as')) {items items' : List (List Char → List Char)}
    {rest rest' : List Char}
    (heq : write a (writeMore close items rest) = write a' (writeMore close items' rest')) :
    f a = f a' ∧ writeMore close items rest = writeMore close items' rest' :=
  h a List.mem_cons_self a' List.mem_cons_self _ _ (writeMore_separates close items rest)
    (writeMore_separates close items' rest') heq

theorem writeMore_inj (hclose : close ≠ ',') {rest rest' : List Char} : {as as' : List α} →
    Distinct close write f as as' →
    writeMore close (as.map write) rest = writeMore close (as'.map write) rest' →
    as.map f = as'.map f ∧ rest = rest'
  | [], [], _, h => ⟨rfl, (List.cons.inj h).2⟩
  | [], a' :: as', _, h => absurd (List.cons.inj h).1 hclose
  | a :: as, [], _, h => absurd (List.cons.inj h).1.symm hclose
  | a :: as, a' :: as', hdistinct, h => by
      obtain ⟨ha, hmore⟩ := hdistinct.head (List.cons.inj (List.cons.inj h).2).2
      obtain ⟨has, hrest⟩ := writeMore_inj hclose hdistinct.tail hmore
      exact ⟨by rw [List.map_cons, List.map_cons, ha, has], hrest⟩

/-- **A list is determined by its text** and its end, if its elements are and none of them begins
with the end of the list. -/
theorem writeItems_inj (hclose : close ≠ ',') {rest rest' : List Char} {as as' : List α}
    (hdistinct : Distinct close write f as as')
    (hhead : ∀ a ∈ as ++ as', ∀ rest, ∃ c cs, write a rest = c :: cs ∧ c ≠ close)
    (h : writeItems close (as.map write) rest = writeItems close (as'.map write) rest') :
    as.map f = as'.map f ∧ rest = rest' := by
  cases as with
  | nil =>
      cases as' with
      | nil => exact ⟨rfl, (List.cons.inj h).2⟩
      | cons a' as' =>
          obtain ⟨c, cs, hwrite, hc⟩ := hhead a' (by simp) (writeMore close (as'.map write) rest')
          rw [List.map_cons, writeItems, hwrite] at h
          exact absurd (List.cons.inj h).1.symm hc
  | cons a as =>
      cases as' with
      | nil =>
          obtain ⟨c, cs, hwrite, hc⟩ := hhead a (by simp) (writeMore close (as.map write) rest)
          rw [List.map_cons, writeItems, hwrite] at h
          exact absurd (List.cons.inj h).1 hc
      | cons a' as' =>
          obtain ⟨ha, hmore⟩ := hdistinct.head h
          obtain ⟨has, hrest⟩ := writeMore_inj hclose hdistinct.tail hmore
          exact ⟨by rw [List.map_cons, List.map_cons, ha, has], hrest⟩

/-- The texts of `a` and `a'` can only be the same if `f` does not distinguish them, a parenthesis
at the end aside. -/
def TellsApart (write : α → List Char → List Char) (f : α → β) (a a' : α) : Prop :=
  ∀ rest rest', Follows rest → Follows rest' → write a rest = write a' rest' →
    Reads (f a = f a') rest rest'

theorem TellsApart.settled {a a' : α} (h : TellsApart write f a a') {rest rest' : List Char}
    (hrest : Settles rest) (hrest' : Settles rest') (heq : write a rest = write a' rest') :
    f a = f a' ∧ rest = rest' :=
  (h rest rest' hrest.follows hrest'.follows heq).settled hrest hrest'

/-- The last part of a tree. -/
theorem TellsApart.last {a a' : α} (h : TellsApart write f a a') {rest rest' : List Char}
    (heq : write a (')' :: rest) = write a' (')' :: rest')) : Reads (f a = f a') rest rest' :=
  (h _ _ (follows_paren rest) (follows_paren rest') heq).close

theorem Separates.settles {rest : List Char} (h : Separates ']' rest) : Settles rest := by
  obtain ⟨c, hc, cs, rfl⟩ := h
  obtain rfl | rfl := List.mem_pair.1 hc
  · exact .cons (by decide) (by decide) cs
  · exact .cons (by decide) (by decide) cs

/-- Lists in brackets are determined by their texts if trees in them are told apart. -/
theorem writeItems_inj_of_tellsApart {as as' : List α}
    (h : ∀ a ∈ as, ∀ a' ∈ as', TellsApart write f a a')
    (hhead : ∀ a rest, ∃ c cs, write a rest = c :: cs ∧ c ≠ ']') {rest rest' : List Char}
    (heq : writeItems ']' (as.map write) rest = writeItems ']' (as'.map write) rest') :
    as.map f = as'.map f ∧ rest = rest' :=
  writeItems_inj (by decide)
    (fun a ha a' ha' _ _ hrest hrest' hwrite =>
      (h a ha a' ha').settled hrest.settles hrest'.settles hwrite)
    (fun a _ => hhead a) heq

end Lists

/-! ## Expressions -/

/-- Names and hotkeys as scripts spell them. -/
def AllLegible (xs : List (Kind × String)) : Prop :=
  ∀ x ∈ xs, Legible x.1 x.2

theorem AllLegible.head {x : Kind × String} {xs : List (Kind × String)} (h : AllLegible (x :: xs)) :
    Legible x.1 x.2 :=
  h x List.mem_cons_self

theorem Legible.isWordChar {name : String} (h : Legible .identifier name) :
    ∀ c ∈ name.toList, Scan.isWordChar c = true := by
  cases h with
  | name _ hword => exact hword

theorem Legible.ne_nil {name : String} (h : Legible .identifier name) : name.toList ≠ [] := by
  cases h with
  | name hne _ => exact hne

theorem Legible.clasped {text : String} (h : Legible .hotkey text) : Scan.Clasped text.toList := by
  cases h with
  | key _ hclasped => exact hclasped

theorem name_append_inj {name name' : String} {c c' : Char} {rest rest' : List Char}
    (hname : Legible .identifier name) (hname' : Legible .identifier name')
    (hc : Scan.isWordChar c = false) (hc' : Scan.isWordChar c' = false)
    (h : name.toList ++ c :: rest = name'.toList ++ c' :: rest') :
    name = name' ∧ c :: rest = c' :: rest' := by
  obtain ⟨hlists, hrest⟩ :=
    append_cons_inj_of_forall hname.isWordChar hname'.isWordChar hc hc' h
  exact ⟨String.toList_inj.1 hlists, hrest⟩

theorem text_append_inj {x x' : Float} {rest rest' : List Char}
    (h : (Decimal.text x).toList ++ ')' :: rest = (Decimal.text x').toList ++ ')' :: rest') :
    x = x' ∧ rest = rest' := by
  have hparen (x : Float) : ∀ c ∈ (Decimal.text x).toList, (c != ')') = true := by
    intro c hc
    refine bne_iff_ne.2 fun heq => ?_
    exact absurd (Decimal.isNumeric_of_mem_text (heq ▸ hc)) (by decide)
  obtain ⟨hlists, hrest⟩ := append_cons_inj_of_forall (hparen x) (hparen x') rfl rfl h
  exact ⟨Decimal.text_injective (String.toList_inj.1 hlists), (List.cons.inj hrest).2⟩

theorem symbol_append_inj {op op' : BinOp} {rest rest' : List Char}
    (h : op.symbol.toList ++ ' ' :: rest = op'.symbol.toList ++ ' ' :: rest') :
    op = op' ∧ rest = rest' := by
  have hblank (op : BinOp) : op.symbol.toList.all (· != ' ') = true := by
    cases op <;> rfl
  obtain ⟨hlists, hrest⟩ := append_cons_inj_of_forall (List.all_eq_true.1 (hblank op))
    (List.all_eq_true.1 (hblank op')) rfl rfl h
  have hsymbol := congrArg BinOp.ofSymbol? (String.toList_inj.1 hlists)
  rw [BinOp.ofSymbol?_symbol, BinOp.ofSymbol?_symbol] at hsymbol
  exact ⟨Option.some.inj hsymbol, (List.cons.inj hrest).2⟩

theorem Expr.paren_ne_write (e : Expr) (rest rest' : List Char) : ')' :: rest ≠ e.write rest' := by
  obtain ⟨cs, hcs⟩ := (Node.expr e).exists_cons_write rest'
  intro h
  exact absurd (List.cons.inj (h.trans hcs)).1.symm (Node.expr e).initial_ne

/-- Expressions that are told apart by their texts. -/
def Expr.TellApart (e e' : Expr) : Prop :=
  TellsApart Expr.write (fun e => e) e e'

/-- Expressions of two kinds begin with two letters. -/
theorem Expr.TellApart.of_initial_ne {e e' : Expr}
    (h : ((Node.expr e).initial == (Node.expr e').initial) = false) : e.TellApart e' := by
  intro rest rest' _ _ hwrite
  exact absurd (Node.initial_eq_of_write_eq (.expr e) (.expr e') hwrite) (beq_eq_false_iff_ne.1 h)

theorem Expr.TellApart.identifier {name name' : String} (hname : Legible .identifier name)
    (hname' : Legible .identifier name') :
    (Expr.identifier name).TellApart (.identifier name') := by
  intro rest rest' _ _ h
  rw [write, write] at h
  obtain ⟨rfl, hrest⟩ := name_append_inj hname hname' rfl rfl (List.append_cancel_left h)
  exact .inl ⟨rfl, (List.cons.inj hrest).2⟩

theorem Expr.TellApart.number (value value' : Float) :
    (Expr.number value).TellApart (.number value') := by
  intro rest rest' _ _ h
  rw [write, write] at h
  obtain ⟨rfl, rfl⟩ := text_append_inj (List.append_cancel_left h)
  exact .intro rfl

theorem Expr.TellApart.string (value value' : String) :
    (Expr.string value).TellApart (.string value') := by
  intro rest rest' _ _ h
  rw [write, write] at h
  obtain ⟨rfl, hrest⟩ := Text.quoted_append_inj (List.append_cancel_left h)
  exact .inl ⟨rfl, (List.cons.inj hrest).2⟩

theorem Expr.TellApart.hotkey {text text' : String} (htext : Legible .hotkey text)
    (htext' : Legible .hotkey text') : (Expr.hotkey text).TellApart (.hotkey text') := by
  intro rest rest' hrest hrest' h
  rw [write, write] at h
  have hreads : Reads (text.toList = text'.toList) rest rest' :=
    htext.clasped.reads htext'.clasped hrest hrest' (List.append_cancel_left h)
  exact hreads.imp fun htext => by rw [String.toList_inj.1 htext]

/-- A space follows the left operands and settles where they end. -/
theorem Expr.TellApart.binary {left left' right right' : Expr} {op op' : BinOp}
    (hleft : left.TellApart left') (hright : right.TellApart right') :
    (Expr.binary left op right).TellApart (.binary left' op' right') := by
  intro rest rest' _ _ h
  rw [write, write] at h
  obtain ⟨rfl, hop⟩ := hleft.settled (.cons (by decide) (by decide) _)
    (.cons (by decide) (by decide) _) (List.append_cancel_left h)
  obtain ⟨rfl, hwrite⟩ := symbol_append_inj (List.cons.inj hop).2
  exact (hright.last hwrite).imp fun heq => by rw [heq]

/-- Lists of expressions, up to their brackets. -/
theorem Expr.writeItems_inj {es es' : List Expr}
    (hes : ∀ e ∈ es, ∀ e' ∈ es', e.TellApart e') {rest rest' : List Char}
    (h : writeItems ']' (es.map fun e => e.write) (')' :: rest) =
      writeItems ']' (es'.map fun e => e.write) (')' :: rest')) : es = es' ∧ rest = rest' := by
  obtain ⟨hmap, hrest⟩ :=
    writeItems_inj_of_tellsApart hes (fun e => (Node.expr e).exists_cons_ne_write) h
  rw [List.map_id', List.map_id'] at hmap
  exact ⟨hmap, (List.cons.inj hrest).2⟩

theorem Expr.TellApart.call {callee callee' : Expr} {args args' : List Expr}
    (hcallee : callee.TellApart callee')
    (hargs : ∀ arg ∈ args, ∀ arg' ∈ args', arg.TellApart arg') :
    (Expr.call callee args).TellApart (.call callee' args') := by
  intro rest rest' _ _ h
  rw [write, write] at h
  obtain ⟨rfl, hlist⟩ := hcallee.settled (.literal ", [" _) (.literal ", [" _)
    (List.append_cancel_left h)
  obtain ⟨rfl, rfl⟩ := writeItems_inj hargs (List.append_cancel_left hlist)
  exact .intro rfl

theorem Expr.TellApart.member {object object' property property' : Expr}
    (hobject : object.TellApart object') (hproperty : property.TellApart property') :
    (Expr.member object property).TellApart (.member object' property') := by
  intro rest rest' _ _ h
  rw [write, write] at h
  obtain ⟨rfl, hwrite⟩ := hobject.settled (.cons (by decide) (by decide) _)
    (.cons (by decide) (by decide) _) (List.append_cancel_left h)
  exact (hproperty.last (List.cons.inj hwrite).2).imp fun heq => by rw [heq]

theorem Expr.TellApart.pipeline {stages stages' : List Expr}
    (hstages : ∀ stage ∈ stages, ∀ stage' ∈ stages', stage.TellApart stage') :
    (Expr.pipeline stages).TellApart (.pipeline stages') := by
  intro rest rest' _ _ h
  rw [write, write] at h
  obtain ⟨rfl, rfl⟩ := writeItems_inj hstages (List.append_cancel_left h)
  exact .intro rfl

/-- **Expressions are told apart by their texts.** The induction is on the first of them; a
parenthesis that is in doubt is passed on by the last part of a tree only. -/
theorem Expr.tellsApart (e e' : Expr) (hlegible : AllLegible e.spellings)
    (hlegible' : AllLegible e'.spellings) : e.TellApart e' := by
  induction e using Expr.nested generalizing e' with
  | identifier name =>
      cases e' with
      | identifier name' =>
          rw [spellings] at hlegible hlegible'
          exact .identifier hlegible.head hlegible'.head
      | _ => exact .of_initial_ne rfl
  | number value =>
      cases e' with
      | number value' => exact .number value value'
      | _ => exact .of_initial_ne rfl
  | string value =>
      cases e' with
      | string value' => exact .string value value'
      | _ => exact .of_initial_ne rfl
  | hotkey text =>
      cases e' with
      | hotkey text' =>
          rw [spellings] at hlegible hlegible'
          exact .hotkey hlegible.head hlegible'.head
      | _ => exact .of_initial_ne rfl
  | binary left op right ihleft ihright =>
      cases e' with
      | binary left' op' right' =>
          rw [spellings] at hlegible hlegible'
          obtain ⟨hleft, hright⟩ := List.forall_mem_append.1 hlegible
          obtain ⟨hleft', hright'⟩ := List.forall_mem_append.1 hlegible'
          exact .binary (ihleft left' hleft hleft') (ihright right' hright hright')
      | _ => exact .of_initial_ne rfl
  | call callee args ihcallee ihargs =>
      cases e' with
      | call callee' args' =>
          rw [spellings] at hlegible hlegible'
          obtain ⟨hcallee, hargs⟩ := List.forall_mem_append.1 hlegible
          obtain ⟨hcallee', hargs'⟩ := List.forall_mem_append.1 hlegible'
          exact .call (ihcallee callee' hcallee hcallee') fun arg harg arg' harg' =>
            ihargs arg harg arg' (List.forall_mem_flatMap.1 hargs arg harg)
              (List.forall_mem_flatMap.1 hargs' arg' harg')
      | _ => exact .of_initial_ne rfl
  | member object property ihobject ihproperty =>
      cases e' with
      | member object' property' =>
          rw [spellings] at hlegible hlegible'
          obtain ⟨hobject, hproperty⟩ := List.forall_mem_append.1 hlegible
          obtain ⟨hobject', hproperty'⟩ := List.forall_mem_append.1 hlegible'
          exact .member (ihobject object' hobject hobject')
            (ihproperty property' hproperty hproperty')
      | _ => exact .of_initial_ne rfl
  | pipeline stages ih =>
      cases e' with
      | pipeline stages' =>
          rw [spellings] at hlegible hlegible'
          exact .pipeline fun stage hstage stage' hstage' => ih stage hstage stage'
            (List.forall_mem_flatMap.1 hlegible stage hstage)
            (List.forall_mem_flatMap.1 hlegible' stage' hstage')
      | _ => exact .of_initial_ne rfl

/-! ## Statements -/

theorem isWordChar_of_separates {rest : List Char} (h : Separates ')' rest) :
    ∃ c cs, rest = c :: cs ∧ Scan.isWordChar c = false := by
  obtain ⟨c, hc, cs, rfl⟩ := h
  refine ⟨c, cs, rfl, ?_⟩
  obtain rfl | rfl := List.mem_pair.1 hc
  · rfl
  · rfl

/-- The parameters of a function are words with commas between them. -/
theorem params_inj {params params' : List String}
    (hparams : ∀ param ∈ params, Legible .identifier param)
    (hparams' : ∀ param ∈ params', Legible .identifier param) {rest rest' : List Char}
    (h : writeItems ')' (params.map fun param rest => param.toList ++ rest) rest =
      writeItems ')' (params'.map fun param rest => param.toList ++ rest) rest') :
    params = params' ∧ rest = rest' := by
  have hdistinct : Distinct ')' (fun (param : String) rest => param.toList ++ rest)
      (fun param => param) params params' := by
    intro param hparam param' hparam' rest rest' hrest hrest' hwrite
    obtain ⟨c, cs, rfl, hc⟩ := isWordChar_of_separates hrest
    obtain ⟨c', cs', rfl, hc'⟩ := isWordChar_of_separates hrest'
    exact name_append_inj (hparams param hparam) (hparams' param' hparam') hc hc' hwrite
  have hhead : ∀ param ∈ params ++ params', ∀ rest : List Char,
      ∃ c cs, param.toList ++ rest = c :: cs ∧ c ≠ ')' := by
    intro param hparam rest
    have hlegible : Legible .identifier param :=
      (List.mem_append.1 hparam).elim (hparams param) (hparams' param)
    cases hname : param.toList with
    | nil => exact absurd hname hlegible.ne_nil
    | cons c cs =>
        refine ⟨c, cs ++ rest, rfl, Scan.ne_paren_of_isWordChar (hlegible.isWordChar c ?_)⟩
        rw [hname]
        exact List.mem_cons_self
  obtain ⟨hmap, hrest⟩ := writeItems_inj (by decide) hdistinct hhead h
  rw [List.map_id', List.map_id'] at hmap
  exact ⟨hmap, hrest⟩

/-- Statements whose texts are told apart, blocks even without looking at what follows. -/
structure Stmt.Resolves (s s' : Stmt) : Prop where
  tellsApart : TellsApart Stmt.write Stmt.unlined s s'
  settled : s.isBlock = true → s'.isBlock = true → ∀ {rest rest' : List Char},
    s.write rest = s'.write rest' → s.unlined = s'.unlined ∧ rest = rest'

theorem Stmt.Resolves.of_tellsApart {s s' : Stmt} (hblock : (s.isBlock && s'.isBlock) = false)
    (h : TellsApart Stmt.write Stmt.unlined s s') : s.Resolves s' where
  tellsApart := h
  settled := fun hs hs' => by
    rw [hs, hs'] at hblock
    cases hblock

/-- The brackets of a block settle where it ends. -/
theorem Stmt.Resolves.block {body body' : List Stmt}
    (h : ∀ s ∈ body, ∀ s' ∈ body', s.Resolves s') : (Stmt.block body).Resolves (.block body') := by
  have hsettled {rest rest' : List Char}
      (heq : (Stmt.block body).write rest = (Stmt.block body').write rest') :
      (Stmt.block body).unlined = (Stmt.block body').unlined ∧ rest = rest' := by
    rw [write, write] at heq
    obtain ⟨hmap, hrest⟩ := writeItems_inj_of_tellsApart
      (fun s hs s' hs' => (h s hs s' hs').tellsApart)
      (fun s => (Node.stmt s).exists_cons_ne_write) (List.append_cancel_left heq)
    refine ⟨?_, (List.cons.inj hrest).2⟩
    rw [unlined, unlined, renumbered, renumbered]
    exact congrArg Stmt.block hmap
  exact ⟨fun _ _ _ _ heq => .inl (hsettled heq), fun _ _ _ _ heq => hsettled heq⟩

/-! ### Constructors -/

/-- Statements of two kinds begin with two letters. -/
theorem Stmt.Resolves.of_initial_ne {s s' : Stmt}
    (h : ((Node.stmt s).initial == (Node.stmt s').initial) = false) : s.Resolves s' := by
  refine .of_tellsApart ?_ fun rest rest' _ _ hwrite => ?_
  · cases s with
    | block body =>
        cases s' with
        | block body' => cases h
        | _ => rfl
    | _ => rfl
  · exact absurd (Node.initial_eq_of_write_eq (.stmt s) (.stmt s') hwrite) (beq_eq_false_iff_ne.1 h)

theorem Stmt.Resolves.bind {text text' : String} {action action' : Stmt} {line line' : Nat}
    (hlegible : AllLegible (Stmt.bind (.hotkey text) action line).spellings)
    (hlegible' : AllLegible (Stmt.bind (.hotkey text') action' line').spellings)
    (haction : AllLegible action.spellings → AllLegible action'.spellings →
      action.Resolves action') :
    (Stmt.bind (.hotkey text) action line).Resolves (.bind (.hotkey text') action' line') := by
  refine .of_tellsApart rfl fun rest rest' _ _ h => ?_
  rw [spellings] at hlegible hlegible'
  obtain ⟨hlhotkey, hlaction⟩ := List.forall_mem_append.1 hlegible
  obtain ⟨hlhotkey', hlaction'⟩ := List.forall_mem_append.1 hlegible'
  rw [write, write] at h
  obtain ⟨hhotkey, hwrite⟩ := (Expr.tellsApart _ _ hlhotkey hlhotkey').settled
    (.literal " => " _) (.literal " => " _) (List.append_cancel_left h)
  refine (haction hlaction hlaction').tellsApart.last
    (List.append_cancel_left hwrite) |>.imp fun heq => ?_
  rw [unlined, unlined, renumbered, renumbered, hhotkey]
  exact congrArg (Stmt.bind _ · 0) heq

theorem Stmt.Resolves.expr {value value' : Expr}
    (hlegible : AllLegible (Stmt.expr value).spellings)
    (hlegible' : AllLegible (Stmt.expr value').spellings) :
    (Stmt.expr value).Resolves (.expr value') := by
  refine .of_tellsApart rfl fun rest rest' _ _ h => ?_
  rw [spellings] at hlegible hlegible'
  rw [write, write] at h
  exact (value.tellsApart value' hlegible hlegible').last (List.append_cancel_left h)
    |>.imp fun heq => by rw [heq]

theorem Stmt.legible_of_assign {name : String} {value : Option Expr}
    (h : AllLegible (Stmt.assign name value).spellings) : Legible .identifier name := by
  cases value with
  | none =>
      rw [spellings] at h
      exact h.head
  | some value =>
      rw [spellings] at h
      exact h.head

/-- What is written behind the name of an assignment. -/
def Stmt.writeValue : Option Expr → List Char → List Char
  | none, rest => ')' :: rest
  | some value, rest => ' ' :: ("= ".toList ++ value.write (')' :: rest))

theorem Stmt.assign_inj {name name' : String} {value value' : Option Expr}
    (hlegible : AllLegible (Stmt.assign name value).spellings)
    (hlegible' : AllLegible (Stmt.assign name' value').spellings) {rest rest' : List Char}
    (h : (Stmt.assign name value).write rest = (Stmt.assign name' value').write rest') :
    name = name' ∧ writeValue value rest = writeValue value' rest' := by
  have hname := legible_of_assign hlegible
  have hname' := legible_of_assign hlegible'
  cases value <;> cases value' <;> rw [write, write] at h <;>
    exact name_append_inj hname hname' rfl rfl (List.append_cancel_left h)

theorem Stmt.Resolves.assign {name name' : String} {value value' : Option Expr}
    (hlegible : AllLegible (Stmt.assign name value).spellings)
    (hlegible' : AllLegible (Stmt.assign name' value').spellings) :
    (Stmt.assign name value).Resolves (.assign name' value') := by
  refine .of_tellsApart rfl fun rest rest' _ _ h => ?_
  obtain ⟨rfl, hwrite⟩ := assign_inj hlegible hlegible' h
  match value, value' with
  | none, none => exact .inl ⟨rfl, (List.cons.inj hwrite).2⟩
  | none, some _ => exact absurd (List.cons.inj hwrite).1 (by decide)
  | some _, none => exact absurd (List.cons.inj hwrite).1 (by decide)
  | some value, some value' =>
      rw [spellings] at hlegible hlegible'
      exact (value.tellsApart value' (List.forall_mem_cons.1 hlegible).2
        (List.forall_mem_cons.1 hlegible').2).last
        (List.append_cancel_left (List.cons.inj hwrite).2) |>.imp fun heq => by rw [heq]

/-- What is written behind the first block of a branch. -/
def Stmt.writeElse : Option Stmt → List Char → List Char
  | none, rest => ')' :: rest
  | some alternative, rest => ',' :: (" else ".toList ++ alternative.write (')' :: rest))

theorem Stmt.write_branch (condition : Expr) (consequence : Stmt) (alternative : Option Stmt)
    (rest : List Char) : (Stmt.branch condition consequence alternative).write rest =
      "If(".toList ++
        condition.write (", ".toList ++ consequence.write (writeElse alternative rest)) := by
  cases alternative <;> rw [write, writeElse]

theorem Stmt.spellings_branch (condition : Expr) (consequence : Stmt) (alternative : Option Stmt) :
    (Stmt.branch condition consequence alternative).spellings =
      condition.spellings ++ (consequence.spellings ++ alternative.elim [] Stmt.spellings) := by
  cases alternative with
  | none => rw [spellings, Option.elim_none, List.append_nil]
  | some alternative => rw [spellings, Option.elim_some]

theorem Stmt.unlined_branch (condition : Expr) (consequence : Stmt) (alternative : Option Stmt) :
    (Stmt.branch condition consequence alternative).unlined =
      .branch condition consequence.unlined (alternative.map unlined) := by
  cases alternative <;> rw [unlined, renumbered] <;> rfl

/-- A branch is settled up to the end of its first block. -/
theorem Stmt.branch_inj {condition condition' : Expr} {consequence consequence' : Stmt}
    {alternative alternative' : Option Stmt}
    (hlegible : AllLegible (Stmt.branch condition consequence alternative).spellings)
    (hlegible' : AllLegible (Stmt.branch condition' consequence' alternative').spellings)
    (hblock : consequence.isBlock = true) (hblock' : consequence'.isBlock = true)
    (hconsequence : AllLegible consequence.spellings → AllLegible consequence'.spellings →
      consequence.Resolves consequence') {rest rest' : List Char}
    (h : (Stmt.branch condition consequence alternative).write rest =
      (Stmt.branch condition' consequence' alternative').write rest') :
    condition = condition' ∧ consequence.unlined = consequence'.unlined ∧
      writeElse alternative rest = writeElse alternative' rest' := by
  rw [spellings_branch] at hlegible hlegible'
  obtain ⟨hlcondition, hlmore⟩ := List.forall_mem_append.1 hlegible
  obtain ⟨hlcondition', hlmore'⟩ := List.forall_mem_append.1 hlegible'
  rw [write_branch, write_branch] at h
  obtain ⟨hcondition, hwrite⟩ := (condition.tellsApart condition' hlcondition hlcondition').settled
    (.literal ", " _) (.literal ", " _) (List.append_cancel_left h)
  have hresolves := hconsequence (List.forall_mem_append.1 hlmore).1
    (List.forall_mem_append.1 hlmore').1
  exact ⟨hcondition, hresolves.settled hblock hblock' (List.append_cancel_left hwrite)⟩

theorem Stmt.Resolves.branch {condition condition' : Expr} {consequence consequence' : Stmt}
    {alternative alternative' : Option Stmt}
    (hlegible : AllLegible (Stmt.branch condition consequence alternative).spellings)
    (hlegible' : AllLegible (Stmt.branch condition' consequence' alternative').spellings)
    (hblock : consequence.isBlock = true) (hblock' : consequence'.isBlock = true)
    (hconsequence : AllLegible consequence.spellings → AllLegible consequence'.spellings →
      consequence.Resolves consequence')
    (halternative : ∀ s ∈ alternative, ∀ s' ∈ alternative',
      AllLegible s.spellings → AllLegible s'.spellings → s.Resolves s') :
    (Stmt.branch condition consequence alternative).Resolves
      (.branch condition' consequence' alternative') := by
  refine .of_tellsApart rfl fun rest rest' _ _ h => ?_
  obtain ⟨rfl, hblocks, hwrite⟩ := branch_inj hlegible hlegible' hblock hblock' hconsequence h
  rw [unlined_branch, unlined_branch, hblocks]
  match alternative, alternative' with
  | none, none => exact .inl ⟨rfl, (List.cons.inj hwrite).2⟩
  -- A parenthesis closes one of the branches where the other one goes on with a comma.
  | none, some _ => exact absurd (List.cons.inj hwrite).1 (by decide)
  | some _, none => exact absurd (List.cons.inj hwrite).1 (by decide)
  | some s, some s' =>
      rw [spellings_branch, ← List.append_assoc] at hlegible hlegible'
      refine (halternative s rfl s' rfl (List.forall_mem_append.1 hlegible).2
        (List.forall_mem_append.1 hlegible').2).tellsApart.last
        (List.append_cancel_left (List.cons.inj hwrite).2) |>.imp fun heq => ?_
      rw [Option.map_some, Option.map_some, heq]

theorem Stmt.Resolves.loop {condition condition' : Expr} {body body' : Stmt}
    (hlegible : AllLegible (Stmt.loop condition body).spellings)
    (hlegible' : AllLegible (Stmt.loop condition' body').spellings)
    (hbody : AllLegible body.spellings → AllLegible body'.spellings → body.Resolves body') :
    (Stmt.loop condition body).Resolves (.loop condition' body') := by
  refine .of_tellsApart rfl fun rest rest' _ _ h => ?_
  rw [spellings] at hlegible hlegible'
  obtain ⟨hlcondition, hlbody⟩ := List.forall_mem_append.1 hlegible
  obtain ⟨hlcondition', hlbody'⟩ := List.forall_mem_append.1 hlegible'
  rw [write, write] at h
  obtain ⟨hcondition, hwrite⟩ := (Expr.tellsApart _ _ hlcondition hlcondition').settled
    (.literal ", " _) (.literal ", " _) (List.append_cancel_left h)
  refine (hbody hlbody hlbody').tellsApart.last
    (List.append_cancel_left hwrite) |>.imp fun heq => ?_
  rw [unlined, unlined, renumbered, renumbered, hcondition]
  exact congrArg (Stmt.loop _) heq

theorem Stmt.Resolves.leave {value value' : Option Expr}
    (hlegible : AllLegible (Stmt.leave value).spellings)
    (hlegible' : AllLegible (Stmt.leave value').spellings) :
    (Stmt.leave value).Resolves (.leave value') := by
  refine .of_tellsApart rfl fun rest rest' _ _ h => ?_
  match value, value' with
  | none, none =>
      rw [write, write] at h
      exact .inl ⟨rfl, (List.cons.inj (List.append_cancel_left h)).2⟩
  | none, some value' =>
      rw [write, write] at h
      exact absurd (List.append_cancel_left h) (value'.paren_ne_write _ _)
  | some value, none =>
      rw [write, write] at h
      exact absurd (List.append_cancel_left h).symm (value.paren_ne_write _ _)
  | some value, some value' =>
      rw [spellings] at hlegible hlegible'
      rw [write, write] at h
      exact (value.tellsApart value' hlegible hlegible').last (List.append_cancel_left h)
        |>.imp fun heq => by rw [heq]

theorem Stmt.Resolves.function {name name' : String} {params params' : List String}
    {body body' : Stmt} (hlegible : AllLegible (Stmt.function name params body).spellings)
    (hlegible' : AllLegible (Stmt.function name' params' body').spellings)
    (hbody : AllLegible body.spellings → AllLegible body'.spellings → body.Resolves body') :
    (Stmt.function name params body).Resolves (.function name' params' body') := by
  refine .of_tellsApart rfl fun rest rest' _ _ h => ?_
  rw [spellings] at hlegible hlegible'
  obtain ⟨hname, hmore⟩ := List.forall_mem_cons.1 hlegible
  obtain ⟨hname', hmore'⟩ := List.forall_mem_cons.1 hlegible'
  obtain ⟨hparams, hlbody⟩ := List.forall_mem_append.1 hmore
  obtain ⟨hparams', hlbody'⟩ := List.forall_mem_append.1 hmore'
  rw [write, write] at h
  obtain ⟨rfl, hopen⟩ := name_append_inj hname hname' rfl rfl (List.append_cancel_left h)
  obtain ⟨rfl, hwrite⟩ := params_inj
    (fun param hparam => hparams _ (List.mem_map_of_mem hparam))
    (fun param hparam => hparams' _ (List.mem_map_of_mem hparam)) (List.cons.inj hopen).2
  refine (hbody hlbody hlbody').tellsApart.last
    (List.append_cancel_left hwrite) |>.imp fun heq => ?_
  rw [unlined, unlined, renumbered, renumbered]
  exact congrArg (Stmt.function _ _) heq

/-- **Statements are told apart by their texts**, if scripts can spell them: since the first part of
a branch is a block, a branch is kept apart from one with an alternative. -/
theorem Stmt.WellFormed.resolves {Key Key' : String → Nat → Prop} {s : Stmt}
    (hshape : s.WellFormed Key) : ∀ {s' : Stmt}, s'.WellFormed Key' →
    AllLegible s.spellings → AllLegible s'.spellings → s.Resolves s' := by
  induction hshape with
  | bind _ _ ih =>
      intro s' hshape' hlegible hlegible'
      cases hshape' with
      | bind _ haction' => exact .bind hlegible hlegible' (ih haction')
      | _ => exact .of_initial_ne rfl
  | block _ ih =>
      intro s' hshape' hlegible hlegible'
      cases hshape' with
      | block hbody' =>
          rw [spellings] at hlegible hlegible'
          exact .block fun s hs s' hs' => ih s hs (hbody' s' hs')
            (List.forall_mem_flatMap.1 hlegible s hs) (List.forall_mem_flatMap.1 hlegible' s' hs')
      | _ => exact .of_initial_ne rfl
  | expr _ =>
      intro s' hshape' hlegible hlegible'
      cases hshape' with
      | expr _ => exact .expr hlegible hlegible'
      | _ => exact .of_initial_ne rfl
  | declare name =>
      intro s' hshape' hlegible hlegible'
      cases hshape' with
      | declare name' => exact .assign hlegible hlegible'
      | assign name' _ => exact .assign hlegible hlegible'
      | _ => exact .of_initial_ne rfl
  | assign name _ =>
      intro s' hshape' hlegible hlegible'
      cases hshape' with
      | declare name' => exact .assign hlegible hlegible'
      | assign name' _ => exact .assign hlegible hlegible'
      | _ => exact .of_initial_ne rfl
  | branch _ hblock _ ih =>
      intro s' hshape' hlegible hlegible'
      cases hshape' with
      | branch _ hblock' hconsequence' =>
          exact .branch hlegible hlegible' hblock hblock' (ih hconsequence') nofun
      | otherwise _ hblock' hconsequence' _ _ =>
          exact .branch hlegible hlegible' hblock hblock' (ih hconsequence') nofun
      | _ => exact .of_initial_ne rfl
  | otherwise _ hblock _ _ _ ih ih' =>
      intro s' hshape' hlegible hlegible'
      cases hshape' with
      | branch _ hblock' hconsequence' =>
          exact .branch hlegible hlegible' hblock hblock' (ih hconsequence') nofun
      | otherwise _ hblock' hconsequence' _ halternative' =>
          refine .branch hlegible hlegible' hblock hblock' (ih hconsequence') ?_
          rintro s ⟨⟩ s' ⟨⟩
          exact ih' halternative'
      | _ => exact .of_initial_ne rfl
  | loop _ _ _ ih =>
      intro s' hshape' hlegible hlegible'
      cases hshape' with
      | loop _ _ hbody' => exact .loop hlegible hlegible' (ih hbody')
      | _ => exact .of_initial_ne rfl
  | leaveNull =>
      intro s' hshape' hlegible hlegible'
      cases hshape' with
      | leaveNull => exact .leave hlegible hlegible'
      | leave _ => exact .leave hlegible hlegible'
      | _ => exact .of_initial_ne rfl
  | leave _ =>
      intro s' hshape' hlegible hlegible'
      cases hshape' with
      | leaveNull => exact .leave hlegible hlegible'
      | leave _ => exact .leave hlegible hlegible'
      | _ => exact .of_initial_ne rfl
  | function name params _ _ ih =>
      intro s' hshape' hlegible hlegible'
      cases hshape' with
      | function name' params' _ hbody' =>
          exact .function hlegible hlegible' (ih hbody')
      | _ => exact .of_initial_ne rfl

/-! ## Scripts -/

theorem Program.render_append_write (p : Program) (rest : List Char) :
    (p.render .compact).toList ++ rest =
      "Program([".toList ++ writeItems ']' (p.statements.map Stmt.write) (')' :: rest) := by
  have hlist := bracket_append_write
    (fun s (_ : s ∈ p.statements) => s.render_append_write 1) 0
  unfold render
  simp only [String.toList_append, List.append_assoc]
  rw [Stmt.renderAll_eq_map, hlist]
  rfl

/-- **The compact text of a script determines it**, apart from the lines of its bindings. -/
theorem render_compact_injective {source source' : String} {p p' : Program}
    (h : parseSource source = .ok p) (h' : parseSource source' = .ok p')
    (htext : p.render .compact = p'.render .compact) :
    p.statements.map Stmt.unlined = p'.statements.map Stmt.unlined := by
  have hlegible := parseSource_legible h
  have hlegible' := parseSource_legible h'
  have hshape := (parseSource_eq_ok_iff.1 h).wellFormed
  have hshape' := (parseSource_eq_ok_iff.1 h').wellFormed
  have hwrite := congrArg (·.toList ++ []) htext
  simp only [Program.render_append_write] at hwrite
  have htellsApart : ∀ s ∈ p.statements, ∀ s' ∈ p'.statements,
      TellsApart Stmt.write Stmt.unlined s s' := fun s hs s' hs' =>
    ((hshape s hs).resolves (hshape' s' hs') (List.forall_mem_flatMap.1 hlegible s hs)
      (List.forall_mem_flatMap.1 hlegible' s' hs')).tellsApart
  exact (writeItems_inj_of_tellsApart htellsApart
    (fun s => (Node.stmt s).exists_cons_ne_write) (List.append_cancel_left hwrite)).1

/-- A script whose hotkeys end in a parenthesis, with a binding on the given line. -/
def claspedProgram (line : Nat) : Program where
  statements := [
    .assign "a" (some (.hotkey "^)")),
    .bind (.hotkey "^)") (.expr (.identifier "f")) line]

theorem render_compact_injective_clasped :
    parseSource "let a = ^)\n^) => f" = .ok (claspedProgram 2) ∧
      parseSource "let a = ^)\n\n^) => f" = .ok (claspedProgram 3) ∧
      (claspedProgram 2).render .compact = (claspedProgram 3).render .compact ∧
      (claspedProgram 2).statements.map Stmt.unlined =
        (claspedProgram 3).statements.map Stmt.unlined := by
  have htokens : tokenize "let a = ^)\n^) => f" = [
      ⟨.letWord, "let", ⟨1, 1⟩⟩, ⟨.identifier, "a", ⟨1, 5⟩⟩, ⟨.assign, "=", ⟨1, 7⟩⟩,
      ⟨.hotkey, "^)", ⟨1, 9⟩⟩, ⟨.newline, "\n", ⟨1, 11⟩⟩, ⟨.hotkey, "^)", ⟨2, 1⟩⟩,
      ⟨.arrow, "=>", ⟨2, 4⟩⟩, ⟨.identifier, "f", ⟨2, 7⟩⟩, ⟨.eof, "", ⟨2, 8⟩⟩] := by
    decide +kernel
  have htokens' : tokenize "let a = ^)\n\n^) => f" = [
      ⟨.letWord, "let", ⟨1, 1⟩⟩, ⟨.identifier, "a", ⟨1, 5⟩⟩, ⟨.assign, "=", ⟨1, 7⟩⟩,
      ⟨.hotkey, "^)", ⟨1, 9⟩⟩, ⟨.newline, "\n", ⟨1, 11⟩⟩, ⟨.newline, "\n", ⟨2, 1⟩⟩,
      ⟨.hotkey, "^)", ⟨3, 1⟩⟩, ⟨.arrow, "=>", ⟨3, 4⟩⟩, ⟨.identifier, "f", ⟨3, 7⟩⟩,
      ⟨.eof, "", ⟨3, 8⟩⟩] := by
    decide +kernel
  have h : parseSource "let a = ^)\n^) => f" = .ok (claspedProgram 2) := by
    unfold parseSource
    rw [htokens]
    rfl
  have h' : parseSource "let a = ^)\n\n^) => f" = .ok (claspedProgram 3) := by
    unfold parseSource
    rw [htokens']
    rfl
  have htext : (claspedProgram 2).render .compact = (claspedProgram 3).render .compact := rfl
  exact ⟨h, h', htext, render_compact_injective h h' htext⟩

end Chord
