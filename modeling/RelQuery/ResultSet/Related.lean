import RelQuery.Query.SelectList
import RelQuery.Row

/-!
# Related sets

The rows related to those of a set, and the rows related to one record.
-/

namespace RelQuery

set_option autoImplicit false

namespace ResultSet

/-- The columns of its own side that a relationship is joined on. A procedure may read all of
them. -/
def joinColumns (rs : ResultSet) (r : Relationship) : List String :=
  match r.condition.pairs? with
  | some pairs => pairs.map (·.own)
  | none => rs.query.source.columns

def keyedFor (rs : ResultSet) (r : Relationship) : Except Error ResultSet := do
  let entries ← rs.query.selectList
  let missing := (rs.joinColumns r).filter fun c => !entries.any (·.name = c)
  if missing.isEmpty then return rs
  else return rs.search none (some { plusColumns := missing.map (rootAlias ++ "." ++ ·) })

/-- The root that a set becomes for the sets reached from it: a derived table when its rows are
restricted, and otherwise its table with its conditions, joins and roots. -/
def asPrevious (rs : ResultSet) (r : Relationship) :
    Except Error (List (PreviousRoot ResultSet)) := do
  if rs.query.attrs.restrictsRows then
    let keyed ← rs.keyedFor r
    return [⟨rs.query.source, r, [], .none, some keyed⟩]
  else
    return ⟨rs.query.source, r, rs.query.conditions, rs.query.attrs.join, none⟩ ::
      rs.query.previous

def related (rs : ResultSet) (name : String) : Except Error ResultSet := do
  let r ← rs.query.relationship name
  let target ← (rs.query.schema.source r.target).mapError .configuration
  let previous ← rs.asPrevious r
  return ⟨{ schema := rs.query.schema, source := target, previous }⟩

def searchRelated (rs : ResultSet) (name : String) (condition : Option Expr)
    (attrs : Option (Attributes ResultSet)) : Guarded (Option ResultSet) :=
  rs.query.schema.guard none ((rs.related name).map fun related =>
    some (related.search condition attrs))

/-- The conditions that the rows related to a record meet, pair by pair; none when a NULL stands
for no related row. -/
def keyConditions (record : Record) (noneOnNull : Bool) :
    List ColumnPair → Except Error (Option (List Expr))
  | [] => .ok (some [])
  | p :: rest => do
    let v ← record.getColumn p.own
    let column := Expr.column (some rootAlias) p.foreign
    if v.isNull && noneOnNull then return none
    else
      let term := if v.isNull then .isNull column false else column.eq (.literal v)
      return (← keyConditions record noneOnNull rest).map (term :: ·)

def conjunction : List Expr → Option Expr
  | [] => none
  | e :: rest => some (rest.foldl Expr.and e)

def proceduralCondition (name : String) : Error :=
  .compilation ⟨.proceduralCondition,
    "relationship '" ++ name ++ "' has a procedural condition and cannot be resolved from a row"⟩

def relatedTo (rs : ResultSet) (record : Record) (name : String) :
    Except Error (Option ResultSet) := do
  let r ← rs.query.relationship name
  let pairs ← match r.condition.pairs? with
    | some pairs => Except.ok pairs
    | none => .error (proceduralCondition name)
  match ← keyConditions record r.noneOnNull pairs with
  | none => return none
  | some conditions =>
    let related ← (rs.query.schema.resultSet r.target).mapError .configuration
    return some (related.search (conjunction conditions) none)

/-- The set of the rows related to a record; none when a key column is NULL and that means no
related row, or when the hook suppresses a failure. -/
def relatedResultSet (rs : ResultSet) (record : Record) (name : String) :
    Guarded (Option ResultSet) :=
  rs.query.schema.guard none (rs.relatedTo record name)

end ResultSet

end RelQuery
