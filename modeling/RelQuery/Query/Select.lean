import RelQuery.Query.SelectList
import RelQuery.Query.Plan
import RelQuery.Storage.Script

/-!
# Select statements

The SELECT statement of a query, clause by clause. The statement is first made for queries whose
sub-selects are statements already; result sets are then compiled from the inside out, under the
hook of their schema.
-/

namespace RelQuery

set_option autoImplicit false

open Fragment (ofText)

/-- A sub-select that has been compiled, or the reason why it cannot be. -/
abbrev Subselect := Except Error Fragment

/-- A variation of the statement of a query. -/
structure Shape where
  count : Bool := false
  dropOrder : Bool := false
  /-- A bound on top of the query's own limit. -/
  atMost : Option UInt64 := none

structure Prepared where
  statement : Statement
  projection : Projection

def Fragment.statement (f : Fragment) : Statement := ⟨f.sql 0, f.binds⟩

namespace PlannedJoin

def on {σ : Type} (style : Style) (j : PlannedJoin σ) : Fragment :=
  match j.condition with
  | .pairs pairs =>
    Fragment.join " AND " (pairs.map fun p =>
      ofText (style.qualified j.aliases.foreign p.foreign ++ " = " ++
        style.qualified j.aliases.own p.own))
  | .procedural procedure =>
    let (sql, values) := procedure j.aliases
    Fragment.raw style.dialect sql values

def targetFragment (style : Style) (j : PlannedJoin Subselect) : Except Error Fragment :=
  match j.target with
  | .table name => .ok (ofText (style.ident name))
  | .derived inner => inner.map Fragment.paren

def fragment (style : Style) (j : PlannedJoin Subselect) : Except Error Fragment := do
  let target ← j.targetFragment style
  return ofText (" " ++ j.joinType.keyword ++ " ") ++ target ++
    ofText (" " ++ style.ident j.name ++ " ON ") ++ j.on style

end PlannedJoin

def clause (keyword separator : String) (parts : List Fragment) : Fragment :=
  if parts.isEmpty then [] else ofText keyword ++ Fragment.join separator parts

/-- Whether a condition may bind less than the AND around it. -/
def Expr.isLoose : Expr → Bool
  | .binary .or _ _ => true
  | .raw _ _ => true
  | _ => false

def conjunct (style : Style) (among : Bool) (e : Expr) (scope : Scope) : Fragment :=
  let f := e.fragment style scope
  if among && e.isLoose then f.paren else f

def whereClause (style : Style) (conditions : List (Expr × Scope)) : Fragment :=
  clause " WHERE " " AND "
    (conditions.map fun (e, scope) => conjunct style (1 < conditions.length) e scope)

def Window.fragment (w : Window) : Fragment :=
  let limit := match w.limit with
    | some n => " LIMIT " ++ toString n.toNat
    | none => ""
  let offset := match w.offset with
    | some n => " OFFSET " ++ toString n.toNat
    | none => ""
  ofText (limit ++ offset)

def Window.bound (w : Window) (atMost : Option UInt64) : Window :=
  match atMost, w.limit with
  | some n, some m => { w with limit := some (min n m) }
  | some n, none => { w with limit := some n }
  | none, _ => w

def Plan.conditions {σ : Type} (plan : Plan σ) (own : List Expr) : List (Expr × Scope) :=
  own.map (·, plan.scope) ++ plan.levels.flatMap fun l => l.conditions.map (·, l.scope)

namespace Query

def fromFragment (q : Query Subselect) : Except Error Fragment :=
  match q.attrs.origin with
  | none => .ok (ofText (q.style.ident q.source.table ++ " " ++ q.style.ident rootAlias))
  | some (.raw sql values) => .ok (Fragment.raw q.style.dialect sql values)
  | some (.subselect inner) =>
    inner.map fun f => f.paren ++ ofText (" " ++ q.style.ident rootAlias)

def headFragment (q : Query Subselect) (shape : Shape) (scope : Scope)
    (entries : List SelectEntry) : Fragment :=
  if shape.count then ofText "COUNT(*)"
  else
    ofText (if q.attrs.isDistinct then "DISTINCT " else "") ++
      Fragment.join ", " (entries.map (·.expr.fragment q.style scope))

def tailFragment (q : Query Subselect) (shape : Shape) (scope : Scope) : Fragment :=
  clause " GROUP BY " ", " ((q.attrs.groupBy.getD []).map (·.fragment q.style scope)) ++
    clause " HAVING " "" (q.attrs.having.toList.map (·.fragment q.style scope)) ++
    if shape.count || shape.dropOrder then []
    else clause " ORDER BY " ", " ((q.attrs.orderBy.getD []).map (·.fragment q.style scope))

def select (q : Query Subselect) (shape : Shape) : Except Error (Fragment × Projection) := do
  let entries ← q.selectList
  let plan ← q.plan
  let origin ← q.fromFragment
  let joins ← plan.joins.mapM (·.fragment q.style)
  let window ← q.attrs.window
  let fragment := ofText "SELECT " ++ q.headFragment shape plan.scope entries ++
    ofText " FROM " ++ origin ++ joins.flatten ++
    whereClause q.style (plan.conditions q.conditions) ++ q.tailFragment shape plan.scope ++
    (window.bound shape.atMost).fragment
  return (fragment, if shape.count then ⟨["count"]⟩ else .ofEntries entries)

/-- Whether counting the rows needs a derived table: the rows are bounded, grouped or distinct. -/
def countsDerived {σ : Type} (q : Query σ) (window : Window) : Bool :=
  window.limit.isSome || window.offset.isSome || q.attrs.groupBy.isSome ||
    q.attrs.having.isSome || q.attrs.isDistinct

def selectCount (q : Query Subselect) : Except Error Fragment := do
  let window ← q.attrs.window
  if q.countsDerived window then
    let (inner, _) ← q.select { dropOrder := true }
    return ofText "SELECT COUNT(*) FROM " ++ inner.paren ++
      ofText (" " ++ q.style.ident "count_subq")
  else
    let (f, _) ← q.select { count := true, dropOrder := true }
    return f

end Query

def ResultSet.listing : ResultSet → Subselect := ResultSet.fold fun q => (q.select {}).map (·.1)

namespace ResultSet

/-- The query of a set whose sub-selects are compiled. -/
def compiled (rs : ResultSet) : Query Subselect := rs.query.map ResultSet.listing

theorem listing_eq (rs : ResultSet) : rs.listing = (rs.compiled.select {}).map (·.1) :=
  rs.fold_eq _

def prepare (rs : ResultSet) (shape : Shape) : Except Error Prepared :=
  (rs.compiled.select shape).map fun (f, projection) => ⟨f.statement, projection⟩

def prepareCount (rs : ResultSet) : Except Error Statement :=
  rs.compiled.selectCount.map Fragment.statement

end ResultSet

def Statement.empty : Statement := ⟨"", []⟩

def Prepared.empty : Prepared := ⟨Statement.empty, {}⟩

namespace ResultSet

def guard {α : Type} (rs : ResultSet) (fallback : α) (result : Except Error α) : Guarded α :=
  rs.query.schema.guard fallback result

theorem guard_of_none {α : Type} {rs : ResultSet} (noHook : rs.query.schema.config.hook = none)
    (fallback : α) (result : Except Error α) : rs.guard fallback result = ⟨result, []⟩ :=
  Schema.guard_of_none noHook fallback result

def compile (rs : ResultSet) : Guarded Prepared := rs.guard .empty (rs.prepare {})

def asQuery (rs : ResultSet) : Guarded Statement := rs.compile.map (·.statement)

def projection (rs : ResultSet) : Guarded Projection := rs.compile.map (·.projection)

def countQuery (rs : ResultSet) : Guarded Statement := rs.guard .empty rs.prepareCount

end ResultSet

end RelQuery
