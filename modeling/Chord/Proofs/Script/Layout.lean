import Chord.Proofs.Decimal.Layout
import Chord.Proofs.Script.Spellings
import Chord.Proofs.Text.Quoted
import Chord.Script.Render

/-!
# The two layouts of a printed tree

**Input.** A script that can be read.

**Algorithm.** A text on several lines is put on one line by taking out each line end with the
spaces behind it; a comma in front of it leaves one space (`joined`).

**Results.** `Laid` relates a text on several lines to one on a single line and to the list elements
that begin its lines. It holds of the pieces that trees are printed from and is kept when pieces are
put together, for every expression and every statement (`Expr.laid`, `Stmt.laid`). So the two
layouts of a script differ by line ends and spaces only, and each list element begins a line with
two spaces for each list around it (`render_pretty_layout`).
-/

namespace Chord

/-! ## Lines -/

namespace Style

/-- A text put on one line: a line end with the spaces behind it becomes a space if there is a comma
in front of it, and nothing otherwise. The flag tells whether a comma stands before the text. -/
def joined (comma : Bool) : List Char → List Char
  | [] => []
  | c :: cs =>
      if c = '\n' then (if comma then [' '] else []) ++ joined false (cs.dropWhile (· == ' '))
      else c :: joined (c == ',') cs
termination_by cs => cs.length
decreasing_by
  · exact Nat.lt_succ_of_le (List.dropWhile_sublist _).length_le
  · exact Nat.lt_succ_self _

/-- What begins behind the line ends of a text that `rest` follows. -/
def lineStarts (rest : List Char) : List Char → List (List Char)
  | [] => []
  | c :: cs => if c = '\n' then (cs ++ rest) :: lineStarts rest cs else lineStarts rest cs

/-- Lines that do not only close a list. -/
def isContent (line : List Char) : Bool :=
  (line.dropWhile (· == ' ')).head? != some ']'

end Style

/-! ## Elements of lists -/

/-- Trees that stand in lists. -/
inductive Node where
  | expr (e : Expr)
  | stmt (s : Stmt)

/-- The text of a tree inside `depth` lists. -/
def Node.render (style : Style) (depth : Nat) : Node → String
  | .expr e => e.render style depth
  | .stmt s => s.render style depth

/-- A tree that is an element of a list, and the number of lists around it. -/
structure Element where
  depth : Nat
  node : Node

/-- The elements of the lists in an expression that is itself inside `depth` lists. -/
def Expr.elements (depth : Nat) : Expr → List Element
  | .identifier _ => []
  | .number _ => []
  | .string _ => []
  | .hotkey _ => []
  | .binary left _ right => left.elements depth ++ right.elements depth
  | .call callee args =>
      callee.elements depth ++
        args.flatMap fun arg => ⟨depth + 1, .expr arg⟩ :: arg.elements (depth + 1)
  | .member object property => object.elements depth ++ property.elements depth
  | .pipeline stages =>
      stages.flatMap fun stage => ⟨depth + 1, .expr stage⟩ :: stage.elements (depth + 1)

/-- The elements of the lists in a statement that is itself inside `depth` lists. -/
def Stmt.elements (depth : Nat) : Stmt → List Element
  | .bind hotkey action _ => hotkey.elements depth ++ action.elements depth
  | .block body => body.flatMap fun s => ⟨depth + 1, .stmt s⟩ :: s.elements (depth + 1)
  | .expr value => value.elements depth
  | .assign _ none => []
  | .assign _ (some value) => value.elements depth
  | .branch condition consequence none => condition.elements depth ++ consequence.elements depth
  | .branch condition consequence (some alternative) =>
      condition.elements depth ++ (consequence.elements depth ++ alternative.elements depth)
  | .loop condition body => condition.elements depth ++ body.elements depth
  | .leave none => []
  | .leave (some value) => value.elements depth
  | .function _ _ body => body.elements depth

/-- The elements of the lists in a tree that is itself inside `depth` lists. -/
def Node.elements (depth : Nat) : Node → List Element
  | .expr e => e.elements depth
  | .stmt s => s.elements depth

/-- All list elements of a program, in the order of their texts. -/
def Program.elements (p : Program) : List Element :=
  p.statements.flatMap fun s => ⟨1, .stmt s⟩ :: s.elements 1

/-- An element begins a line, with two spaces for each list around it. -/
def Element.Begins (x : Element) (line : List Char) : Prop :=
  line.takeWhile (· == ' ') = List.replicate (2 * x.depth) ' ' ∧
    (x.node.render .pretty x.depth).toList <+: line.dropWhile (· == ' ')

/-! ## Layouts -/

open Style

/-- A text on several lines in which `elements` begin the lines, and the same text on one line. -/
structure Laid (pretty compact : List Char) (elements : List Element) : Prop where
  joined : ∀ rest, joined false (pretty ++ rest) = compact ++ joined false rest
  lines : ∀ rest, List.Forall₂ Element.Begins elements ((lineStarts rest pretty).filter isContent)

theorem takeWhile_spaces (n : Nat) {c : Char} (hc : c ≠ ' ') (cs : List Char) :
    (List.replicate n ' ' ++ c :: cs).takeWhile (· == ' ') = List.replicate n ' ' := by
  rw [List.takeWhile_append_of_pos (by simp), List.takeWhile_cons_of_neg (by simpa using hc),
    List.append_nil]

theorem dropWhile_spaces (n : Nat) {c : Char} (hc : c ≠ ' ') (cs : List Char) :
    (List.replicate n ' ' ++ c :: cs).dropWhile (· == ' ') = c :: cs := by
  rw [List.dropWhile_append_of_pos (by simp), List.dropWhile_cons_of_neg (by simpa using hc)]

theorem Style.joined_break (comma : Bool) (n : Nat) {c : Char} (hc : c ≠ ' ') (cs : List Char) :
    Style.joined comma ('\n' :: (List.replicate n ' ' ++ c :: cs)) =
      (if comma then [' '] else []) ++ Style.joined false (c :: cs) := by
  rw [Style.joined, if_pos rfl, dropWhile_spaces n hc]

theorem Style.joined_cons {c : Char} (hc : c ≠ '\n') (comma : Bool) (cs : List Char) :
    Style.joined comma (c :: cs) = c :: Style.joined (c == ',') cs := by
  rw [Style.joined, if_neg hc]

theorem Style.lineStarts_append (rest cs ds : List Char) :
    lineStarts rest (cs ++ ds) = lineStarts (ds ++ rest) cs ++ lineStarts rest ds := by
  induction cs with
  | nil => rfl
  | cons c cs ih =>
      rw [List.cons_append, lineStarts, lineStarts]
      split
      · rw [ih, List.append_assoc, List.cons_append]
      · exact ih

theorem Style.lineStarts_of_notMem (rest : List Char) {cs : List Char} (h : '\n' ∉ cs) :
    lineStarts rest cs = [] := by
  induction cs with
  | nil => rfl
  | cons c cs ih =>
      obtain ⟨hc, hcs⟩ := not_or.1 (mt List.mem_cons.2 h)
      rw [lineStarts, if_neg (Ne.symm hc), ih hcs]

namespace Laid

variable {cs ds cs' ds' : List Char} {xs ys : List Element}

theorem append (h : Laid cs cs' xs) (h' : Laid ds ds' ys) :
    Laid (cs ++ ds) (cs' ++ ds') (xs ++ ys) where
  joined := fun rest => by
    rw [List.append_assoc, h.joined, h'.joined, List.append_assoc]
  lines := fun rest => by
    rw [lineStarts_append, List.filter_append]
    exact List.rel_append (h.lines _) (h'.lines rest)

/-- Text without line ends stays as it is, and does not take part in what is behind it unless it
ends in a comma. -/
theorem plain {c : Char} (h : '\n' ∉ cs) (hlast : cs.getLast? = some c) (hc : c ≠ ',') :
    Laid cs cs [] where
  joined := by
    have hjoined : ∀ comma rest,
        Style.joined comma (cs ++ rest) = cs ++ Style.joined false rest := by
      induction cs with
      | nil => cases hlast
      | cons d cs ih =>
          obtain ⟨hd, hcs⟩ := not_or.1 (mt List.mem_cons.2 h)
          intro comma rest
          rw [List.cons_append, joined_cons (Ne.symm hd), List.cons_append]
          cases cs with
          | nil =>
              obtain rfl : d = c := by simpa using hlast
              rw [beq_false_of_ne hc]
              rfl
          | cons e cs => rw [ih hcs (by simpa using hlast)]
    exact hjoined false
  lines := fun rest => by
    rw [lineStarts_of_notMem rest h]
    exact .nil

/-- The end of a list begins a line that is not counted. -/
theorem closing (n : Nat) : Laid ('\n' :: (List.replicate n ' ' ++ [']'])) [']'] [] where
  joined := fun rest => by
    rw [List.cons_append, List.append_assoc, List.singleton_append,
      joined_break false n (by decide), joined_cons (by decide)]
    rfl
  lines := fun rest => by
    have hspaces : lineStarts rest (List.replicate n ' ' ++ [']']) = [] :=
      lineStarts_of_notMem rest (by simp)
    have hcontent : isContent (List.replicate n ' ' ++ [']'] ++ rest) = false := by
      rw [isContent, List.append_assoc, List.singleton_append, dropWhile_spaces n (by decide)]
      rfl
    rw [lineStarts, if_pos rfl, hspaces, List.filter_cons, hcontent]
    exact .nil

end Laid

namespace Node

/-- The first letter of a tree. -/
def initial : Node → Char
  | .expr (.identifier _) => 'I'
  | .expr (.number _) => 'N'
  | .expr (.string _) => 'S'
  | .expr (.hotkey _) => 'H'
  | .expr (.binary _ _ _) => 'B'
  | .expr (.call _ _) => 'C'
  | .expr (.member _ _) => 'M'
  | .expr (.pipeline _) => 'P'
  | .stmt (.bind _ _ _) => 'H'
  | .stmt (.block _) => 'B'
  | .stmt (.expr _) => 'E'
  | .stmt (.assign _ _) => 'L'
  | .stmt (.branch _ _ _) => 'I'
  | .stmt (.loop _ _) => 'W'
  | .stmt (.leave _) => 'R'
  | .stmt (.function _ _ _) => 'F'

theorem head?_render (style : Style) (depth : Nat) (n : Node) :
    (n.render style depth).toList.head? = some n.initial := by
  match n with
  | .expr e =>
      rw [render]
      fun_cases Expr.render style depth e <;>
        simp only [String.toList_append, List.append_assoc, List.head?_append] <;> rfl
  | .stmt s =>
      rw [render]
      fun_cases Stmt.render style depth s
      case case10 => rfl
      all_goals
        simp only [String.toList_append, List.append_assoc, List.head?_append]
        rfl

/-- The layouts of a tree inside `depth` lists. -/
def Laid (depth : Nat) (n : Node) : Prop :=
  Chord.Laid (n.render .pretty depth).toList (n.render .compact depth).toList (n.elements depth)

theorem exists_cons_render (style : Style) (depth : Nat) (n : Node) :
    ∃ cs, (n.render style depth).toList = n.initial :: cs := by
  have hhead := n.head?_render style depth
  cases hrender : (n.render style depth).toList with
  | nil => simp [hrender] at hhead
  | cons c cs =>
      rw [hrender, List.head?_cons, Option.some.injEq] at hhead
      exact ⟨cs, by rw [hhead]⟩

theorem initial_ne (n : Node) {c : Char} (hc : c.isUpper = false := by rfl) : n.initial ≠ c := by
  have hupper : n.initial.isUpper = true := by
    fun_cases initial n <;> rfl
  rintro rfl
  rw [hupper] at hc
  cases hc

/-- An element on a new line, behind a bracket or a comma. -/
theorem Laid.item {c : Char} (hc : c ≠ '\n') {depth : Nat} {n : Node} (h : n.Laid depth) :
    Chord.Laid (c :: '\n' :: (List.replicate (2 * depth) ' ' ++ (n.render .pretty depth).toList))
      (c :: ((if c == ',' then [' '] else []) ++ (n.render .compact depth).toList))
      (⟨depth, n⟩ :: n.elements depth) where
  joined := fun rest => by
    obtain ⟨cs, hcs⟩ := n.exists_cons_render .pretty depth
    have hjoined := h.joined rest
    rw [hcs, List.cons_append] at hjoined
    rw [List.cons_append, List.cons_append, joined_cons hc, List.append_assoc, hcs,
      List.cons_append, joined_break _ _ n.initial_ne, hjoined]
    simp only [List.cons_append, List.append_assoc]
  lines := fun rest => by
    obtain ⟨cs, hcs⟩ := n.exists_cons_render .pretty depth
    have hlines := h.lines rest
    have hspaces : lineStarts rest (List.replicate (2 * depth) ' ' ++ n.initial :: cs) =
        lineStarts rest (n.initial :: cs) := by
      rw [lineStarts_append, lineStarts_of_notMem _ (by simp), List.nil_append]
    have hbegins : Element.Begins ⟨depth, n⟩
        (List.replicate (2 * depth) ' ' ++ n.initial :: (cs ++ rest)) := by
      refine ⟨takeWhile_spaces _ n.initial_ne _, ?_⟩
      rw [dropWhile_spaces _ n.initial_ne, hcs]
      exact List.prefix_append _ rest
    have hcontent :
        isContent (List.replicate (2 * depth) ' ' ++ n.initial :: (cs ++ rest)) = true := by
      rw [isContent, dropWhile_spaces _ n.initial_ne]
      simpa using n.initial_ne
    rw [hcs] at hlines
    rw [hcs, lineStarts, if_neg hc, lineStarts, if_pos rfl, hspaces, List.append_assoc,
      List.cons_append, List.filter_cons_of_pos hcontent]
    exact .cons hbegins hlines

end Node

/-! ## Lists -/

theorem toList_intercalate_cons (separator first : String) (more : List String) :
    (separator.intercalate (first :: more)).toList =
      first.toList ++ more.flatMap fun text => separator.toList ++ text.toList := by
  induction more generalizing first with
  | nil => rw [String.intercalate_singleton, List.flatMap_nil, List.append_nil]
  | cons second more ih =>
      rw [String.intercalate_cons_cons, String.toList_append, String.toList_append, ih,
        List.flatMap_cons, List.append_assoc, List.append_assoc]

theorem toList_bracket_compact (depth : Nat) (first : String) (more : List String) :
    (Style.compact.bracket depth (first :: more)).toList =
      '[' :: (first.toList ++ (more.flatMap fun text => ',' :: ' ' :: text.toList) ++ [']']) := by
  have happend : (Style.compact.bracket depth (first :: more)).toList =
      "[".toList ++ (", ".intercalate (first :: more)).toList ++ "]".toList := by
    simp only [Style.bracket, List.isEmpty_cons, Bool.false_eq_true, if_false,
      String.toList_append]
  rw [happend, toList_intercalate_cons]
  rfl

theorem toList_bracket_pretty (depth : Nat) (first : String) (more : List String) :
    (Style.pretty.bracket depth (first :: more)).toList =
      '[' :: '\n' :: (List.replicate (2 * (depth + 1)) ' ' ++ first.toList ++
        (more.flatMap fun text =>
          ',' :: '\n' :: (List.replicate (2 * (depth + 1)) ' ' ++ text.toList)) ++
        '\n' :: (List.replicate (2 * depth) ' ' ++ [']'])) := by
  have happend : (Style.pretty.bracket depth (first :: more)).toList =
      "[\n".toList ++ (",\n".intercalate ((first :: more).map (indent (depth + 1) ++ ·))).toList ++
        "\n".toList ++ (indent depth).toList ++ "]".toList := by
    simp only [Style.bracket, List.isEmpty_cons, Bool.false_eq_true, if_false,
      String.toList_append]
  rw [happend, List.map_cons, toList_intercalate_cons, List.flatMap_map]
  simp [indent]

/-- The elements of a list that is inside `depth` lists, and those of the lists in them. -/
def Node.listed (depth : Nat) (ns : List Node) : List Element :=
  ns.flatMap fun n => ⟨depth + 1, n⟩ :: n.elements (depth + 1)

/-- The elements of a list behind its first one. -/
theorem Laid.items {depth : Nat} {ns : List Node} (h : ∀ n ∈ ns, n.Laid (depth + 1)) :
    Laid
      (ns.flatMap fun n => ',' :: '\n' ::
        (List.replicate (2 * (depth + 1)) ' ' ++ (n.render .pretty (depth + 1)).toList))
      (ns.flatMap fun n => ',' :: ' ' :: (n.render .compact (depth + 1)).toList)
      (Node.listed depth ns) := by
  induction ns with
  | nil => exact ⟨fun _ => rfl, fun _ => .nil⟩
  | cons n ns ih =>
      obtain ⟨hn, hns⟩ := List.forall_mem_cons.1 h
      rw [Node.listed, List.flatMap_cons, List.flatMap_cons, List.flatMap_cons]
      exact (hn.item (c := ',') (by decide)).append (ih hns)

theorem Laid.bracket {depth : Nat} {ns : List Node} (h : ∀ n ∈ ns, n.Laid (depth + 1)) :
    Laid (Style.pretty.bracket depth (ns.map (Node.render .pretty (depth + 1)))).toList
      (Style.compact.bracket depth (ns.map (Node.render .compact (depth + 1)))).toList
      (Node.listed depth ns) := by
  cases ns with
  | nil =>
      have hempty : Laid "[]".toList "[]".toList [] :=
        .plain (by decide) rfl (by decide : ']' ≠ ',')
      exact hempty
  | cons n ns =>
      obtain ⟨hn, hns⟩ := List.forall_mem_cons.1 h
      have hitems := ((hn.item (c := '[') (by decide)).append (items hns)).append
        (closing (2 * depth))
      rw [List.append_nil] at hitems
      rw [List.map_cons, List.map_cons, toList_bracket_pretty, toList_bracket_compact,
        List.flatMap_map, List.flatMap_map]
      exact hitems

/-! ## Texts in a line -/

/-- Texts that stay on their line and do not take part in what is behind them. -/
structure Settled (text : String) : Prop where
  unbroken : '\n' ∉ text.toList
  last : ∃ c ∈ text.toList.getLast?, c ≠ ','

theorem Settled.of_literal {text : String}
    (h : (text.toList.all (· != '\n') && text.toList.getLast?.any (· != ',')) = true := by rfl) :
    Settled text := by
  obtain ⟨hunbroken, hlast⟩ := Bool.and_eq_true_iff.1 h
  refine ⟨fun hmem => ?_, ?_⟩
  · exact absurd (List.all_eq_true.1 hunbroken _ hmem) (by decide)
  · obtain ⟨c, hc, hne⟩ := (Option.any_eq_true _ _).1 hlast
    exact ⟨c, hc, bne_iff_ne.1 hne⟩

theorem Settled.append {front back : String} (hfront : '\n' ∉ front.toList)
    (hback : Settled back) : Settled (front ++ back) where
  unbroken := by
    rw [String.toList_append, List.mem_append]
    exact not_or.2 ⟨hfront, hback.unbroken⟩
  last := by
    obtain ⟨c, hlast, hc⟩ := hback.last
    refine ⟨c, ?_, hc⟩
    rw [String.toList_append, List.getLast?_append, Option.mem_def.1 hlast]
    rfl

/-- A text that is closed on its line, such as a name in parentheses. -/
theorem Settled.enclose {front text back : String} (htext : '\n' ∉ text.toList)
    (hback : Settled back) (hfront : '\n' ∉ front.toList := by decide) :
    Settled (front ++ text ++ back) := by
  refine append ?_ hback
  rw [String.toList_append, List.mem_append]
  exact not_or.2 ⟨hfront, htext⟩

theorem settled_symbol (op : BinOp) : Settled op.symbol := by
  cases op <;> exact .of_literal

theorem newline_notMem_text (x : Float) : '\n' ∉ (Decimal.text x).toList := fun h =>
  absurd (Decimal.isNumeric_of_mem_text h) (by decide)

theorem newline_notMem_intercalate {separator : String} (hseparator : '\n' ∉ separator.toList)
    {texts : List String} (h : ∀ text ∈ texts, '\n' ∉ text.toList) :
    '\n' ∉ (separator.intercalate texts).toList := by
  cases texts with
  | nil => exact List.not_mem_nil
  | cons first more =>
      obtain ⟨hfirst, hmore⟩ := List.forall_mem_cons.1 h
      rw [toList_intercalate_cons]
      simp only [List.mem_append, List.mem_flatMap, not_or, not_exists, not_and]
      exact ⟨hfirst, fun text htext => ⟨hseparator, hmore text htext⟩⟩

namespace Laid

variable {text text' more more' : String} {xs ys : List Element}

theorem settled (h : Settled text) : Laid text.toList text.toList [] := by
  obtain ⟨c, hlast, hc⟩ := h.last
  exact plain h.unbroken hlast hc

theorem and (h : Laid text.toList text'.toList xs) (hmore : Laid more.toList more'.toList ys) :
    Laid (text ++ more).toList (text' ++ more').toList (xs ++ ys) := by
  rw [String.toList_append, String.toList_append]
  exact h.append hmore

theorem behind (h : Laid text.toList text'.toList xs) (hmore : Settled more) :
    Laid (more ++ text).toList (more ++ text').toList xs :=
  (settled hmore).and h

theorem before (h : Laid text.toList text'.toList xs) (hmore : Settled more) :
    Laid (text ++ more).toList (text' ++ more).toList xs := by
  have happend := h.and (settled hmore)
  rwa [List.append_nil] at happend

end Laid

/-! ## Trees -/

/-- Induction over expressions with what holds of all expressions in a list. -/
theorem Expr.nested {P : Expr → Prop} (identifier : ∀ name, P (.identifier name))
    (number : ∀ value, P (.number value)) (string : ∀ value, P (.string value))
    (hotkey : ∀ text, P (.hotkey text))
    (binary : ∀ left op right, P left → P right → P (.binary left op right))
    (call : ∀ callee args, P callee → (∀ arg ∈ args, P arg) → P (.call callee args))
    (member : ∀ object property, P object → P property → P (.member object property))
    (pipeline : ∀ stages, (∀ stage ∈ stages, P stage) → P (.pipeline stages)) (e : Expr) : P e :=
  @Expr.rec P (fun es => ∀ e ∈ es, P e) identifier number string hotkey binary call member pipeline
    (List.forall_mem_nil P) (fun _ _ he hes => List.forall_mem_cons.2 ⟨he, hes⟩) e

/-- Induction over statements with what holds of all statements in a list or an option. -/
theorem Stmt.nested {P : Stmt → Prop}
    (bind : ∀ hotkey action line, P action → P (.bind hotkey action line))
    (block : ∀ body, (∀ s ∈ body, P s) → P (.block body)) (expr : ∀ value, P (.expr value))
    (assign : ∀ name value, P (.assign name value))
    (branch : ∀ condition consequence alternative, P consequence → (∀ s ∈ alternative, P s) →
      P (.branch condition consequence alternative))
    (loop : ∀ condition body, P body → P (.loop condition body)) (leave : ∀ value, P (.leave value))
    (function : ∀ name params body, P body → P (.function name params body)) (s : Stmt) : P s :=
  @Stmt.rec P (fun ss => ∀ s ∈ ss, P s) (fun o => ∀ s ∈ o, P s) bind block expr assign branch loop
    leave function (List.forall_mem_nil P) (fun _ _ hs hss => List.forall_mem_cons.2 ⟨hs, hss⟩)
    (fun _ hs => absurd hs (Option.not_mem_none _)) (fun _ hs _ hmem => Option.some.inj hmem ▸ hs) s

/-- Names and hotkeys that stay on their line. -/
def Unbroken (xs : List (Kind × String)) : Prop :=
  ∀ x ∈ xs, '\n' ∉ x.2.toList

theorem Unbroken.head {x : Kind × String} {xs : List (Kind × String)} (h : Unbroken (x :: xs)) :
    '\n' ∉ x.2.toList :=
  h x List.mem_cons_self

theorem Expr.renderAll_eq_map (style : Style) (depth : Nat) (es : List Expr) :
    Expr.renderAll style depth es = es.map (Expr.render style depth) := by
  induction es with
  | nil => rfl
  | cons e es ih => rw [Expr.renderAll, ih, List.map_cons]

theorem Stmt.renderAll_eq_map (style : Style) (depth : Nat) (ss : List Stmt) :
    Stmt.renderAll style depth ss = ss.map (Stmt.render style depth) := by
  induction ss with
  | nil => rfl
  | cons s ss ih => rw [Stmt.renderAll, ih, List.map_cons]

theorem Laid.exprs {depth : Nat} {es : List Expr} (h : ∀ e ∈ es, (Node.expr e).Laid (depth + 1)) :
    Laid (Style.pretty.bracket depth (Expr.renderAll .pretty (depth + 1) es)).toList
      (Style.compact.bracket depth (Expr.renderAll .compact (depth + 1) es)).toList
      (es.flatMap fun e => ⟨depth + 1, .expr e⟩ :: e.elements (depth + 1)) := by
  have hbracket := Laid.bracket (List.forall_mem_map.2 h)
  rw [List.map_map, List.map_map, Node.listed, List.flatMap_map] at hbracket
  rw [Expr.renderAll_eq_map, Expr.renderAll_eq_map]
  exact hbracket

theorem Laid.stmts {depth : Nat} {ss : List Stmt} (h : ∀ s ∈ ss, (Node.stmt s).Laid (depth + 1)) :
    Laid (Style.pretty.bracket depth (Stmt.renderAll .pretty (depth + 1) ss)).toList
      (Style.compact.bracket depth (Stmt.renderAll .compact (depth + 1) ss)).toList
      (ss.flatMap fun s => ⟨depth + 1, .stmt s⟩ :: s.elements (depth + 1)) := by
  have hbracket := Laid.bracket (List.forall_mem_map.2 h)
  rw [List.map_map, List.map_map, Node.listed, List.flatMap_map] at hbracket
  rw [Stmt.renderAll_eq_map, Stmt.renderAll_eq_map]
  exact hbracket

theorem Expr.laid (e : Expr) (depth : Nat) (h : Unbroken e.spellings) :
    Laid (e.render .pretty depth).toList (e.render .compact depth).toList (e.elements depth) := by
  induction e using Expr.nested generalizing depth with
  | identifier name =>
      rw [spellings] at h
      have hname : '\n' ∉ name.toList := h.head
      rw [elements]
      exact .settled (.enclose hname .of_literal)
  | number value =>
      rw [elements]
      exact .settled (.enclose (newline_notMem_text value) .of_literal)
  | string value =>
      rw [elements]
      exact .settled (.enclose (Text.newline_notMem_quoted value) .of_literal)
  | hotkey text =>
      rw [spellings] at h
      have htext : '\n' ∉ text.toList := h.head
      rw [elements]
      exact .settled (.enclose htext .of_literal)
  | binary left op right ihleft ihright =>
      rw [spellings] at h
      obtain ⟨hleft, hright⟩ := List.forall_mem_append.1 h
      rw [elements]
      exact (((((ihleft depth hleft).behind .of_literal).before .of_literal).before
        (settled_symbol op)).before .of_literal).and (ihright depth hright) |>.before .of_literal
  | call callee args ihcallee ihargs =>
      rw [spellings] at h
      obtain ⟨hcallee, hargs⟩ := List.forall_mem_append.1 h
      have hlist := Laid.exprs fun arg harg =>
        ihargs arg harg (depth + 1) (List.forall_mem_flatMap.1 hargs arg harg)
      rw [elements]
      exact (((ihcallee depth hcallee).behind .of_literal).before .of_literal).and hlist
        |>.before .of_literal
  | member object property ihobject ihproperty =>
      rw [spellings] at h
      obtain ⟨hobject, hproperty⟩ := List.forall_mem_append.1 h
      rw [elements]
      exact (((ihobject depth hobject).behind .of_literal).before .of_literal).and
        (ihproperty depth hproperty) |>.before .of_literal
  | pipeline stages ih =>
      rw [spellings] at h
      have hlist := Laid.exprs fun stage hstage =>
        ih stage hstage (depth + 1) (List.forall_mem_flatMap.1 h stage hstage)
      rw [elements]
      exact (hlist.behind .of_literal).before .of_literal

theorem Stmt.laid (s : Stmt) (depth : Nat) (h : Unbroken s.spellings) :
    Laid (s.render .pretty depth).toList (s.render .compact depth).toList (s.elements depth) := by
  induction s using Stmt.nested generalizing depth with
  | bind hotkey action line ih =>
      rw [spellings] at h
      obtain ⟨hhotkey, haction⟩ := List.forall_mem_append.1 h
      rw [elements]
      exact (((hotkey.laid depth hhotkey).behind .of_literal).before .of_literal).and
        (ih depth haction) |>.before .of_literal
  | block body ih =>
      rw [spellings] at h
      have hlist := Laid.stmts fun s hs =>
        ih s hs (depth + 1) (List.forall_mem_flatMap.1 h s hs)
      rw [elements]
      exact (hlist.behind .of_literal).before .of_literal
  | expr value =>
      rw [spellings] at h
      rw [elements]
      exact ((value.laid depth h).behind .of_literal).before .of_literal
  | assign name value =>
      cases value with
      | none =>
          rw [spellings] at h
          have hname : '\n' ∉ name.toList := h.head
          rw [elements]
          exact .settled (.enclose hname .of_literal)
      | some value =>
          rw [spellings] at h
          obtain ⟨hname, hvalue⟩ := List.forall_mem_cons.1 h
          rw [elements]
          exact ((value.laid depth hvalue).behind (.enclose hname .of_literal)).before .of_literal
  | branch condition consequence alternative ih ih' =>
      cases alternative with
      | none =>
          rw [spellings] at h
          obtain ⟨hcondition, hconsequence⟩ := List.forall_mem_append.1 h
          rw [elements]
          exact (((condition.laid depth hcondition).behind .of_literal).before .of_literal).and
            (ih depth hconsequence) |>.before .of_literal
      | some alternative =>
          rw [spellings] at h
          obtain ⟨hcondition, hrest⟩ := List.forall_mem_append.1 h
          obtain ⟨hconsequence, halternative⟩ := List.forall_mem_append.1 hrest
          rw [elements, ← List.append_assoc]
          exact ((((condition.laid depth hcondition).behind .of_literal).before .of_literal).and
            (ih depth hconsequence) |>.before .of_literal).and
            (ih' alternative rfl depth halternative) |>.before .of_literal
  | loop condition body ih =>
      rw [spellings] at h
      obtain ⟨hcondition, hbody⟩ := List.forall_mem_append.1 h
      rw [elements]
      exact (((condition.laid depth hcondition).behind .of_literal).before .of_literal).and
        (ih depth hbody) |>.before .of_literal
  | leave value =>
      cases value with
      | none =>
          have hreturn : Settled "Return()" := .of_literal
          rw [elements]
          exact .settled hreturn
      | some value =>
          rw [spellings] at h
          rw [elements]
          exact ((value.laid depth h).behind .of_literal).before .of_literal
  | function name params body ih =>
      rw [spellings] at h
      obtain ⟨hname, hrest⟩ := List.forall_mem_cons.1 h
      obtain ⟨hparams, hbody⟩ := List.forall_mem_append.1 hrest
      have hnames : ∀ param ∈ params, '\n' ∉ param.toList := fun param hparam =>
        hparams _ (List.mem_map_of_mem hparam)
      have hhead : Settled ("Function(" ++ name ++ "(" ++ ", ".intercalate params ++ "), ") :=
        .enclose (newline_notMem_intercalate (by decide) hnames)
          .of_literal (Settled.enclose hname .of_literal).unbroken
      rw [elements]
      exact ((ih depth hbody).behind hhead).before .of_literal

/-! ## Scripts -/

theorem Legible.unbroken {kind : Kind} {text : String} (h : Legible kind text) :
    '\n' ∉ text.toList := by
  intro hmem
  cases h with
  | name _ hword => exact absurd (hword _ hmem) (by decide)
  | key hblank _ => exact absurd (hblank _ hmem) (by decide)

theorem Program.laid {p : Program} (h : Unbroken p.spellings) :
    Laid (p.render .pretty).toList (p.render .compact).toList p.elements := by
  have hlist := Laid.stmts fun s hs =>
    s.laid 1 (List.forall_mem_flatMap.1 h s hs)
  exact (hlist.behind .of_literal).before .of_literal

/-- **The two layouts of a script differ in line ends and spaces only.** Put on one line, the pretty
text is the compact one. The lines of the pretty text that do not close a list begin with the list
elements of the script, one for each, and an element inside `d` lists is indented by `2 * d`
spaces. -/
theorem render_pretty_layout {source : String} {p : Program} (h : parseSource source = .ok p) :
    joined false (p.render .pretty).toList = (p.render .compact).toList ∧
      List.Forall₂ Element.Begins p.elements
        ((lineStarts [] (p.render .pretty).toList).filter isContent) := by
  have hlaid : Laid (p.render .pretty).toList (p.render .compact).toList p.elements :=
    Program.laid fun x hx => (parseSource_legible h x hx).unbroken
  have hjoined := hlaid.joined []
  rw [List.append_nil, Style.joined, List.append_nil] at hjoined
  exact ⟨hjoined, hlaid.lines []⟩

/-- Lists inside lists, and texts that look like their ends. -/
def nestedSource : String :=
  "^, => \x7b f(\"],\", a) \x7d"

/-- The program of `nestedSource`. -/
def nestedProgram : Program where
  statements := [
    .bind (.hotkey "^,") (.block [
      .expr (.call (.identifier "f") [.string "],", .identifier "a"])]) 1]

theorem render_pretty_layout_nested :
    parseSource nestedSource = .ok nestedProgram ∧
      joined false (nestedProgram.render .pretty).toList =
        ("Program([HotkeyBinding(Hotkey(^,) => Block([ExpressionStatement(" ++
          "Call(Identifier(f), [String(\"],\"), Identifier(a)]))]))])").toList ∧
      nestedProgram.elements.map Element.depth = [1, 2, 3, 3] ∧
      List.Forall₂ Element.Begins nestedProgram.elements
        ((lineStarts [] (nestedProgram.render .pretty).toList).filter isContent) := by
  have htokens : tokenize nestedSource = [
      ⟨.hotkey, "^,", ⟨1, 1⟩⟩, ⟨.arrow, "=>", ⟨1, 4⟩⟩, ⟨.leftBrace, "\x7b", ⟨1, 7⟩⟩,
      ⟨.identifier, "f", ⟨1, 9⟩⟩, ⟨.leftParen, "(", ⟨1, 10⟩⟩, ⟨.string, "],", ⟨1, 11⟩⟩,
      ⟨.comma, ",", ⟨1, 15⟩⟩, ⟨.identifier, "a", ⟨1, 17⟩⟩, ⟨.rightParen, ")", ⟨1, 18⟩⟩,
      ⟨.rightBrace, "\x7d", ⟨1, 20⟩⟩, ⟨.eof, "", ⟨1, 21⟩⟩] := by decide +kernel
  have hparse : parseSource nestedSource = .ok nestedProgram := by
    unfold parseSource
    rw [htokens]
    rfl
  have htext : nestedProgram.render .compact =
      "Program([HotkeyBinding(Hotkey(^,) => Block([ExpressionStatement(" ++
        "Call(Identifier(f), [String(\"],\"), Identifier(a)]))]))])" := by decide +kernel
  have hdepths : nestedProgram.elements.map Element.depth = [1, 2, 3, 3] := by
    simp [nestedProgram, Program.elements, Stmt.elements, Expr.elements]
  obtain ⟨hjoined, hlines⟩ := render_pretty_layout hparse
  rw [htext] at hjoined
  exact ⟨hparse, hjoined, hdepths, hlines⟩

end Chord
