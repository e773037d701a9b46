import RelQuery.Value.Basic

/-!
# Expressions

Expressions of conditions, select lists, groupings and orders. Values are always bound and never
written into the text.
-/

namespace RelQuery

set_option autoImplicit false

inductive BinaryOp where
  | eq | ne | lt | le | gt | ge
  | and | or
  | add | sub | mul | div
  | concat
deriving DecidableEq, Repr

namespace BinaryOp

def symbol : BinaryOp → String
  | .eq => "="
  | .ne => "<>"
  | .lt => "<"
  | .le => "<="
  | .gt => ">"
  | .ge => ">="
  | .and => "AND"
  | .or => "OR"
  | .add => "+"
  | .sub => "-"
  | .mul => "*"
  | .div => "/"
  | .concat => "||"

/-- How strongly the operator binds. An operand that binds less is put in parentheses. -/
def precedence : BinaryOp → Nat
  | .or => 1
  | .and => 2
  | .eq | .ne | .lt | .le | .gt | .ge => 3
  | .add | .sub | .concat => 4
  | .mul | .div => 5

def all : List BinaryOp :=
  [.eq, .ne, .lt, .le, .gt, .ge, .and, .or, .add, .sub, .mul, .div, .concat]

end BinaryOp

inductive UnaryOp where
  | not
  | neg
deriving DecidableEq, Repr

inductive Expr where
  /-- A column; without a qualifier it belongs to the root of the level. -/
  | column (table : Option String) (name : String)
  | literal (v : Value)
  | binary (op : BinaryOp) (left right : Expr)
  | unary (op : UnaryOp) (operand : Expr)
  | call (function : String) (args : List Expr)
  | isIn (operand : Expr) (values : List Expr) (negated : Bool)
  | between (operand low high : Expr) (negated : Bool)
  | isNull (operand : Expr) (negated : Bool)
  | like (operand : Expr) (pattern : String) (negated caseless : Bool)
  /-- SQL text with a value for each `?` outside of its string literals. -/
  | raw (sql : String) (values : List Value)
  | paren (inner : Expr)
  | countStar

namespace Expr

def splitFirstDot (s : String) : Option (String × String) :=
  match s.toList.dropWhile (· != '.') with
  | [] => none
  | _ :: rest => some (String.ofList (s.toList.takeWhile (· != '.')), String.ofList rest)

def col (name : String) : Expr :=
  match splitFirstDot name with
  | some (table, rest) => .column (some table) rest
  | none => .column none name

def and (left right : Expr) : Expr := .binary .and left right

def eq (left right : Expr) : Expr := .binary .eq left right

/-- The conditions that a conjunction is made of. Parentheses directly around a conjunction are
opened. -/
def conjuncts : Expr → List Expr
  | .binary .and left right => left.conjuncts ++ right.conjuncts
  | .paren (.binary .and left right) => left.conjuncts ++ right.conjuncts
  | e => [e]

@[simp] theorem conjuncts_and (left right : Expr) :
    (left.and right).conjuncts = left.conjuncts ++ right.conjuncts := by
  simp [and, conjuncts]

end Expr

end RelQuery
