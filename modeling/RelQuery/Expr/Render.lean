import RelQuery.Expr.Basic
import RelQuery.Fragment
import RelQuery.Aliases
import RelQuery.Dialect

/-!
# Expressions as SQL

The fragment of an expression in a style and a scope.
-/

namespace RelQuery

set_option autoImplicit false

def unaryPrecedence : Nat := 255

namespace Expr

/-- Puts the fragment of an operand in parentheses when its operator binds less than `parent`. -/
def grouped (parent : Nat) : Expr → Fragment → Fragment
  | .binary op _ _, f => if op.precedence < parent then f.paren else f
  | _, f => f

def notWord (negated : Bool) : String := if negated then "NOT " else ""

open Fragment (ofText)

mutual

def fragment (style : Style) (scope : Scope) : Expr → Fragment
  | .column table name => ofText (style.qualified (scope.resolve table) name)
  | .literal v => [.bind style.dialect v]
  | .binary op left right =>
    let lhs := grouped op.precedence left (left.fragment style scope)
    let rhs := grouped (op.precedence + 1) right (right.fragment style scope)
    match op, style.dialect with
    | .concat, .mysql => ofText "CONCAT(" ++ lhs ++ ofText ", " ++ rhs ++ ofText ")"
    | _, _ => lhs ++ ofText (" " ++ op.symbol ++ " ") ++ rhs
  | .unary op operand =>
    let f := grouped unaryPrecedence operand (operand.fragment style scope)
    match op with
    | .not => ofText "NOT " ++ f
    | .neg => ofText "-" ++ f
  | .call function args =>
    ofText (function ++ "(") ++ Fragment.join ", " (fragments style scope args) ++ ofText ")"
  | .isIn operand values negated =>
    operand.fragment style scope ++ ofText (" " ++ notWord negated ++ "IN (") ++
      Fragment.join ", " (fragments style scope values) ++ ofText ")"
  | .between operand low high negated =>
    operand.fragment style scope ++ ofText (" " ++ notWord negated ++ "BETWEEN ") ++
      low.fragment style scope ++ ofText " AND " ++ high.fragment style scope
  | .isNull operand negated =>
    operand.fragment style scope ++ ofText (" IS " ++ notWord negated ++ "NULL")
  | .like operand pattern negated caseless =>
    let f := operand.fragment style scope
    let p := [Piece.bind style.dialect (.text pattern)]
    if !caseless then f ++ ofText (" " ++ notWord negated ++ "LIKE ") ++ p
    else if style.dialect.supportsIlike then f ++ ofText (" " ++ notWord negated ++ "ILIKE ") ++ p
    else
      ofText "LOWER(" ++ f ++ ofText (") " ++ notWord negated ++ "LIKE LOWER(") ++ p ++ ofText ")"
  | .raw sql values => Fragment.raw style.dialect sql values
  | .paren inner => (inner.fragment style scope).paren
  | .countStar => ofText "COUNT(*)"

def fragments (style : Style) (scope : Scope) : List Expr → List Fragment
  | [] => []
  | e :: rest => e.fragment style scope :: fragments style scope rest

end

theorem fragments_eq_map (style : Style) (scope : Scope) (es : List Expr) :
    fragments style scope es = es.map (fragment style scope) := by
  induction es with
  | nil => rfl
  | cons e es ih => simp [fragments, ih]

/-- The expression on its own: in the root scope, in the default style, with nothing bound
before. -/
def toSql (e : Expr) : String × List Value := (e.fragment {} Scope.top).write []

end Expr

end RelQuery
