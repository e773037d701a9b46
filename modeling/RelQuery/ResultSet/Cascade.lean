import RelQuery.Query.Select
import RelQuery.ResultSet.Related

/-!
# Cascading deletes

The DELETE statements of a result set. The rows that depend on it, through relationships whose rows
are deleted together with those of the source, are deleted first. A walk along such relationships
follows no relationship twice, so that it ends in every schema.
-/

namespace RelQuery

set_option autoImplicit false

abbrev Edge := String × String

/-- The relationships that a delete follows: those with column pairs among the cascading ones. -/
def Source.followedDeletes (s : Source) : List Relationship :=
  s.cascadingDeletes.filter (·.condition.isDeclarative)

def Schema.deleteEdges (schema : Schema) : Nat :=
  (schema.sources.flatMap Source.followedDeletes).length

namespace ResultSet

def keys (rs : ResultSet) (key : String) : ResultSet :=
  rs.search none (some { columns := some [rootAlias ++ "." ++ key] })

/-- The statement that deletes the rows of a set by their primary keys. The order of the rows is
kept only where a window depends on it. -/
def deletion (rs : ResultSet) : Except Error Statement := do
  let s := rs.query.source
  let key ← match s.soleKey? with
    | some key => Except.ok key
    | none => .error (.compilation ⟨.unsupported,
        "cannot delete from '" ++ s.name ++ "' without a single-column primary key"⟩)
  let keys := rs.keys key
  let window ← keys.query.attrs.window
  let unbounded := window.limit.isNone && window.offset.isNone
  let (inner, _) ← keys.compiled.select { dropOrder := unbounded }
  let style := rs.query.style
  let head := "DELETE FROM " ++ style.ident s.table ++ " WHERE " ++ style.ident key ++ " IN "
  return (Fragment.ofText head ++ inner.paren).statement

/-- The deletes of a set and of what depends on it, behind a walk along the edges `walked`, with at
most `n` more edges on each walk. -/
def deletions : Nat → List Edge → ResultSet → Except Error (List Statement)
  | 0, _, rs => do
    return [← rs.deletion]
  | n + 1, walked, rs => do
    let s := rs.query.source
    let followed := s.followedDeletes.filter fun r => !walked.contains (s.name, r.name)
    let dependents ← followed.mapM fun r => do
      deletions n (walked ++ [(s.name, r.name)]) (← rs.related r.name)
    return dependents.flatten ++ [← rs.deletion]

/-- The deletes of a set and of what depends on it, before the hook. No walk is longer than the
number of relationships there are to follow. -/
def planDelete (rs : ResultSet) : Except Error (List Statement) :=
  deletions (rs.query.source.followedDeletes.length + rs.query.schema.deleteEdges) [] rs

def deleteStatements (rs : ResultSet) : Guarded (List Statement) := rs.guard [] rs.planDelete

end ResultSet

end RelQuery
