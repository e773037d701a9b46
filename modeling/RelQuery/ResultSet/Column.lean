import RelQuery.ResultSet.Execution

/-!
# Columns of result sets

Handles on one selected column of a result set.
-/

namespace RelQuery

set_option autoImplicit false

variable {σ : Type}

structure ColumnSet where
  rows : ResultSet
  entry : SelectEntry

/-- The first entry of a name in the select list of a set, before the hook. -/
def ResultSet.column (rs : ResultSet) (name : String) : Except Error ColumnSet := do
  let entries ← rs.query.selectList
  match entries.find? (·.name = name) with
  | some entry => return ⟨rs, entry⟩
  | none => .error ((Projection.ofEntries entries).missing name)

def ResultSet.getColumn (rs : ResultSet) (name : String) : Guarded (Option ColumnSet) :=
  rs.guard none ((rs.column name).map some)

namespace ColumnSet

/-- The set that selects one expression under the name of the column. -/
def selecting (c : ColumnSet) (e : Expr) : ResultSet :=
  c.rows.search none (some { select := some [e], selectAs := some [c.entry.name] })

def alone (c : ColumnSet) : ResultSet := c.selecting c.entry.expr

def asQuery (c : ColumnSet) : Guarded Statement := c.alone.asQuery

def firstValues (rows : List Row) : List Value := rows.filterMap (·.values.head?)

def all (c : ColumnSet) (storage : Storage σ) : StateM σ (Guarded (List Value)) := do
  return (← c.alone.all storage).map firstValues

def firstValue (row : Option Row) : Option Value := row.bind (·.values.head?)

def first (c : ColumnSet) (storage : Storage σ) : StateM σ (Guarded (Option Value)) := do
  return (← c.alone.first storage).map firstValue

def func (c : ColumnSet) (storage : Storage σ) (function : String) :
    StateM σ (Guarded (Option Value)) := do
  return (← (c.selecting (.call function [c.entry.expr])).first storage).map firstValue

end ColumnSet

end RelQuery
