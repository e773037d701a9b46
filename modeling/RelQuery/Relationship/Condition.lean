import RelQuery.Text.Identifier
import RelQuery.Value.Basic

/-!
# Join conditions

A relationship joins its declaring source to a related one, either on pairs of columns or on SQL
that a procedure supplies for the aliases of a statement.
-/

namespace RelQuery

set_option autoImplicit false

/-- An equality between a column of the related source and one of the declaring source. -/
structure ColumnPair where
  foreign : String
  own : String
deriving DecidableEq, Repr

/-- What a procedural condition is told: the aliases of both sides and the relationship joined. -/
structure JoinAliases where
  foreign : String
  own : String
  relationship : String
deriving DecidableEq, Repr

/-- A procedure that supplies SQL, with a value for each `?` outside of its string literals. -/
abbrev Procedure := JoinAliases → String × List Value

inductive JoinCondition where
  | pairs (pairs : List ColumnPair)
  | procedural (procedure : Procedure)

namespace ColumnPair

def qualified (p : ColumnPair) : String × String :=
  (Side.foreign.qualify p.foreign, Side.self.qualify p.own)

end ColumnPair

namespace JoinCondition

def isDeclarative : JoinCondition → Bool
  | .pairs _ => true
  | .procedural _ => false

def pairs? : JoinCondition → Option (List ColumnPair)
  | .pairs ps => some ps
  | .procedural _ => none

def qualifiedPairs (c : JoinCondition) : List (String × String) :=
  (c.pairs?.getD []).map ColumnPair.qualified

def text (c : JoinCondition) : String :=
  if c.isDeclarative then
    let entries := c.qualifiedPairs.map fun (foreign, own) => foreign ++ " => " ++ own
    "\x7b" ++ String.intercalate ", " entries ++ "\x7d"
  else "\x7bprocedural\x7d"

end JoinCondition

end RelQuery
