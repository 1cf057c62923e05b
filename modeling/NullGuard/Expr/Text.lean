import NullGuard.Decimal.Layout
import NullGuard.Expr.Children
import NullGuard.Ty.Text

/-!
Expressions as text. Operators and conditions are always in parentheses, so no rule of precedence
is needed. A bound value has no text of its own: it is written as an assignment where its
variable first appears, as in `(((_a = order.Customer) == null) ? null : _a.Name)`.
-/

namespace NullGuard

/-- Quotes, backslashes and line ends are written with a backslash, all else as it is. -/
def Literal.quoted (s : String) : String :=
  let escaped := s.toList.flatMap fun
    | '"' => ['\\', '"']
    | '\\' => ['\\', '\\']
    | '\n' => ['\\', 'n']
    | c => [c]
  String.ofList (['"'] ++ escaped ++ ['"'])

def Literal.text : Literal → String
  | .null => "null"
  | .bool value => if value then "true" else "false"
  | .int value => toString value.toInt
  | .double value => Decimal.display.text value
  | .string value => quoted value

namespace Expr

/-- A part of the text that is still to be written. -/
inductive Piece where
  | text (s : String)
  | expr (e : Expr)

namespace Piece

/-- Expressions with commas between them. -/
def commas : List Expr → List Piece
  | [] => []
  | [e] => [.expr e]
  | e :: es => .expr e :: .text ", " :: commas es

end Piece

open Piece in
/-- The pieces of a node. Parameters and bound values need the bindings around them and are
written by `write`. -/
def pieces (defs : Definitions) : Expr → List Piece
  | param _ name => [text name]
  | literal _ value => [text value.text]
  | default ty => [text ("default(" ++ ty.text defs ++ ")")]
  | member _ target name _ => [expr target, text ("." ++ name)]
  | staticMember _ name declaring => [text (declaring.text defs ++ "." ++ name)]
  | call _ object method args =>
    [expr object, text ("." ++ method.name ++ "(")] ++ commas args ++ [text ")"]
  | freeCall _ method args =>
    let owner := match method.owner with
      | some owner => owner ++ "."
      | none => ""
    [text (owner ++ method.name ++ "(")] ++ commas args ++ [text ")"]
  | lambda _ params body =>
    let names := match params with
      | [only] => only.name
      | params => "(" ++ ", ".intercalate (params.map (·.name)) ++ ")"
    [text (names ++ " => "), expr body]
  | binary _ op left right =>
    [text "(", expr left, text (" " ++ op.symbol ++ " "), expr right, text ")"]
  | unary _ op operand => [text op.symbol, expr operand]
  | coalesce _ left right => [text "(", expr left, text " ?? ", expr right, text ")"]
  | cond _ test ifTrue ifFalse =>
    [text "(", expr test, text " ? ", expr ifTrue, text " : ", expr ifFalse, text ")"]
  | convert ty operand => [text ("((" ++ ty.text defs ++ ")"), expr operand, text ")"]
  | construct ty args => [text ("new " ++ ty.text defs ++ "(")] ++ commas args ++ [text ")"]
  | newArray ty elements =>
    let element := (ty.element?.getD ty).text defs
    if elements.isEmpty then [text ("new " ++ element ++ "[0]")]
    else [text ("new " ++ element ++ "[] \x7b")] ++ commas elements ++ [text "\x7d"]
  | index _ target position => [expr target, text "[", expr position, text "]"]
  | bind _ _ value body => [expr value, expr body]

/-! ### Weights, by which writing ends -/

/-- More than all pieces of the node weigh together, and enough for the two texts around a value
that is written as an assignment. -/
def weight : Expr → Nat :=
  fold fun _ weights => total (weights.map (· + 3)) + 5

theorem weight_eq (e : Expr) : e.weight = total ((e.children.map weight).map (· + 3)) + 5 :=
  fold_eq _ e

def Piece.weight : Piece → Nat
  | .text _ => 1
  | .expr e => e.weight

def totalWeight (pieces : List Piece) : Nat :=
  total (pieces.map Piece.weight)

def bindingsWeight (bindings : List (String × Expr)) : Nat :=
  total (bindings.map fun binding => binding.2.weight + 2)

theorem totalWeight_append (ps qs : List Piece) :
    totalWeight (ps ++ qs) = totalWeight ps + totalWeight qs := by
  simp [totalWeight]

theorem totalWeight_commas (es : List Expr) :
    totalWeight (Piece.commas es) ≤ total ((es.map weight).map (· + 3)) := by
  induction es using Piece.commas.induct with
  | case1 => simp [Piece.commas, totalWeight]
  | case2 e => simp [Piece.commas, totalWeight, Piece.weight]
  | case3 e es _ ih =>
    simp only [totalWeight, Piece.commas, List.map_cons, total_cons, Piece.weight] at ih ⊢
    omega

theorem totalWeight_pieces_lt (defs : Definitions) (e : Expr) :
    totalWeight (e.pieces defs) < e.weight := by
  rw [weight_eq]
  cases e with
  | call _ object method args =>
    have := totalWeight_commas args
    simp only [pieces, totalWeight_append, children]
    simp only [totalWeight, List.map_cons, List.map_nil, total_cons, total_nil,
      Piece.weight] at this ⊢
    omega
  | freeCall _ method args =>
    have := totalWeight_commas args
    simp only [pieces, totalWeight_append, children]
    simp only [totalWeight, List.map_cons, List.map_nil, total_cons, total_nil,
      Piece.weight] at this ⊢
    omega
  | construct _ args =>
    have := totalWeight_commas args
    simp only [pieces, totalWeight_append, children]
    simp only [totalWeight, List.map_cons, List.map_nil, total_cons, total_nil,
      Piece.weight] at this ⊢
    omega
  | newArray _ elements =>
    have := totalWeight_commas elements
    simp only [pieces, children]
    split
    · simp [totalWeight, Piece.weight]
    · simp only [totalWeight_append]
      simp only [totalWeight, List.map_cons, List.map_nil, total_cons, total_nil,
        Piece.weight] at this ⊢
      omega
  | _ =>
    simp only [pieces, totalWeight, children, List.map_cons, List.map_nil, total_cons,
      total_nil, Piece.weight]
    omega

/-! ### Writing -/

/-- The innermost binding of a name that has not been written yet, and the others. -/
def takeBinding (name : String) : List (String × Expr) → Option (Expr × List (String × Expr))
  | [] => none
  | (other, value) :: bindings =>
    if other = name then some (value, bindings)
    else (takeBinding name bindings).map fun (found, rest) => (found, (other, value) :: rest)

theorem bindingsWeight_takeBinding {name : String} {bindings rest : List (String × Expr)}
    {value : Expr} (h : takeBinding name bindings = some (value, rest)) :
    bindingsWeight rest + (value.weight + 2) = bindingsWeight bindings := by
  induction bindings generalizing rest with
  | nil => simp [takeBinding] at h
  | cons binding bindings ih =>
    obtain ⟨other, bound⟩ := binding
    unfold takeBinding at h
    split at h
    · simp only [Option.some.injEq, Prod.mk.injEq] at h
      obtain ⟨rfl, rfl⟩ := h
      simp only [bindingsWeight, List.map_cons, total_cons]
      omega
    · obtain ⟨⟨found, others⟩, htake, heq⟩ := Option.map_eq_some_iff.mp h
      simp only [Prod.mk.injEq] at heq
      obtain ⟨rfl, rfl⟩ := heq
      have := ih htake
      simp only [bindingsWeight, List.map_cons, total_cons] at this ⊢
      omega

/-- Writes the pieces in order. `bindings` are the bound values that have not been written yet,
the innermost first. A value whose variable does not appear is written before its body. -/
def write (defs : Definitions) (bindings : List (String × Expr)) : List Piece → List String
  | [] => []
  | .text s :: rest => s :: write defs bindings rest
  | .expr (param _ name) :: rest =>
    match _taken : takeBinding name bindings with
    | some (value, bindings') =>
      ("(" ++ name ++ " = ") :: write defs bindings' (.expr value :: .text ")" :: rest)
    | none => name :: write defs bindings rest
  | .expr (bind _ var value body) :: rest =>
    if body.mentions var.name then
      write defs ((var.name, value) :: bindings) (.expr body :: rest)
    else
      ("(" ++ var.name ++ " = ") ::
        write defs bindings (.expr value :: .text ", " :: .expr body :: .text ")" :: rest)
  | .expr e :: rest => write defs bindings (e.pieces defs ++ rest)
termination_by pieces => totalWeight pieces + bindingsWeight bindings
decreasing_by
  · simp only [totalWeight, List.map_cons, total_cons, Piece.weight]
    omega
  · have := bindingsWeight_takeBinding _taken
    simp only [totalWeight, List.map_cons, total_cons, Piece.weight, weight_eq (param _ _),
      children, List.map_nil, total_nil]
    omega
  · simp only [totalWeight, List.map_cons, total_cons, Piece.weight, weight_eq (param _ _),
      children, List.map_nil, total_nil]
    omega
  · simp only [totalWeight, bindingsWeight, List.map_cons, total_cons, Piece.weight,
      weight_eq (bind _ _ _ _), children, List.map_nil, total_nil]
    omega
  · simp only [totalWeight, List.map_cons, total_cons, Piece.weight,
      weight_eq (bind _ _ _ _), children, List.map_nil, total_nil]
    omega
  · have := totalWeight_pieces_lt defs e
    rw [totalWeight_append]
    simp only [totalWeight, List.map_cons, total_cons, Piece.weight] at this ⊢
    omega

/-- The text of an expression. -/
def text (defs : Definitions) (e : Expr) : String :=
  String.join (write defs [] [.expr e])

end Expr

end NullGuard
