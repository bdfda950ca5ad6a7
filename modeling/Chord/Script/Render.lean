import Chord.Decimal.Layout
import Chord.Script.Basic
import Chord.Text.Quoted

/-!
# Printed trees

The structure of a script as text, on one line or with a line for each element of a list.

**Input.** Expressions, statements and programs.

**Results.** `render` writes a tree in one of two styles; lists are the only place where the styles
differ.
-/

namespace Chord

/-- How lists are set out. -/
inductive Style where
  | compact
  /-- Each element on a line of its own, two spaces deeper than the list. -/
  | pretty
deriving DecidableEq, Repr

namespace Style

/-- The indentation of a depth. -/
def indent (depth : Nat) : String :=
  String.ofList (List.replicate (2 * depth) ' ')

/-- A list of texts in brackets. The elements stand one level deeper than `depth`. -/
def bracket (style : Style) (depth : Nat) (items : List String) : String :=
  if items.isEmpty then "[]"
  else
    match style with
    | .compact => "[" ++ ", ".intercalate items ++ "]"
    | .pretty =>
        "[\n" ++ ",\n".intercalate (items.map (indent (depth + 1) ++ ·))
          ++ "\n" ++ indent depth ++ "]"

end Style

mutual

/-- The text of an expression inside `depth` lists. -/
def Expr.render (style : Style) (depth : Nat) : Expr → String
  | .identifier name => "Identifier(" ++ name ++ ")"
  | .number value => "Number(" ++ Decimal.text value ++ ")"
  | .string value => "String(" ++ Text.quoted value ++ ")"
  | .hotkey text => "Hotkey(" ++ text ++ ")"
  | .binary left op right =>
      "Binary(" ++ left.render style depth ++ " " ++ op.symbol ++ " "
        ++ right.render style depth ++ ")"
  | .call callee args =>
      "Call(" ++ callee.render style depth ++ ", "
        ++ style.bracket depth (Expr.renderAll style (depth + 1) args) ++ ")"
  | .member object property =>
      "Member(" ++ object.render style depth ++ "." ++ property.render style depth ++ ")"
  | .pipeline stages =>
      "Pipeline(" ++ style.bracket depth (Expr.renderAll style (depth + 1) stages) ++ ")"

/-- The texts of the elements of a list. -/
def Expr.renderAll (style : Style) (depth : Nat) : List Expr → List String
  | [] => []
  | e :: es => e.render style depth :: Expr.renderAll style depth es

end

mutual

/-- The text of a statement inside `depth` lists. -/
def Stmt.render (style : Style) (depth : Nat) : Stmt → String
  | .bind hotkey action _ =>
      "HotkeyBinding(" ++ hotkey.render style depth ++ " => " ++ action.render style depth ++ ")"
  | .block body => "Block(" ++ style.bracket depth (Stmt.renderAll style (depth + 1) body) ++ ")"
  | .expr value => "ExpressionStatement(" ++ value.render style depth ++ ")"
  | .assign name (some value) => "Let(" ++ name ++ " = " ++ value.render style depth ++ ")"
  | .assign name none => "Let(" ++ name ++ ")"
  | .branch condition consequence (some alternative) =>
      "If(" ++ condition.render style depth ++ ", " ++ consequence.render style depth ++ ", else "
        ++ alternative.render style depth ++ ")"
  | .branch condition consequence none =>
      "If(" ++ condition.render style depth ++ ", " ++ consequence.render style depth ++ ")"
  | .loop condition body =>
      "While(" ++ condition.render style depth ++ ", " ++ body.render style depth ++ ")"
  | .leave (some value) => "Return(" ++ value.render style depth ++ ")"
  | .leave none => "Return()"
  | .function name params body =>
      "Function(" ++ name ++ "(" ++ ", ".intercalate params ++ "), "
        ++ body.render style depth ++ ")"

/-- The texts of the elements of a list. -/
def Stmt.renderAll (style : Style) (depth : Nat) : List Stmt → List String
  | [] => []
  | s :: ss => s.render style depth :: Stmt.renderAll style depth ss

end

/-- An expression on one line. -/
def Expr.text (e : Expr) : String :=
  e.render .compact 0

/-- A statement on one line. -/
def Stmt.text (s : Stmt) : String :=
  s.render .compact 0

/-- The text of a program. -/
def Program.render (style : Style) (p : Program) : String :=
  "Program(" ++ style.bracket 0 (Stmt.renderAll style 1 p.statements) ++ ")"

end Chord
