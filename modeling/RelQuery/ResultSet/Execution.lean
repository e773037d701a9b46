import RelQuery.ResultSet.Cascade

/-!
# Executing result sets

Each operation compiles first, sends its statements to the storage, and turns the answer into what
the caller asked for. A failure on the way goes to the hook of the schema once.
-/

namespace RelQuery

set_option autoImplicit false

variable {σ α : Type}

def StorageM.ofResult (result : Except Error α) : StorageM σ α := fun state => (result, state)

def ResultSet.guardRun (rs : ResultSet) (fallback : α) (computation : StorageM σ α) :
    StateM σ (Guarded α) := fun state =>
  let (result, state) := computation state
  (rs.guard fallback result, state)

/-- The rows of an executed statement that have not been read yet, to be turned into `α`. -/
structure Cursor (α : Type) where
  rows : List Row := []
  projection : Projection := {}

namespace Cursor

def remaining (c : Cursor α) : Nat := c.rows.length

def next? [Inflate α] (c : Cursor α) : Option (Except Error α × Cursor α) :=
  match c.rows with
  | [] => none
  | row :: rest => some (Inflate.inflate c.projection row, { c with rows := rest })

end Cursor

namespace ResultSet

def inflateAll [Inflate α] (projection : Projection) (rows : List Row) : Except Error (List α) :=
  rows.mapM (Inflate.inflate projection)

def inflateFirst [Inflate α] (projection : Projection) (rows : List Row) :
    Except Error (Option α) :=
  match rows with
  | [] => .ok none
  | row :: _ => (Inflate.inflate projection row).map some

def notACount (v : Value) : Error := .type ⟨"non-negative row count", v.typeName, some "count"⟩

def rowCount (rows : List Row) : Except Error UInt64 :=
  let v := (rows.head?.bind (·.get? 0)).getD .null
  match v.asInt64? with
  | some n => if 0 ≤ n then .ok n.toUInt64 else .error (notACount v)
  | none => .error (notACount v)

def fetchFirst [Inflate α] (rs : ResultSet) (storage : Storage σ) : StorageM σ (Option α) := do
  let p ← StorageM.ofResult (rs.prepare { atMost := some 1 })
  let rows ← storage.query p.statement
  StorageM.ofResult (inflateFirst p.projection rows)

def cursor (rs : ResultSet) (storage : Storage σ) : StateM σ (Guarded (Cursor α)) :=
  rs.guardRun {} do
    let p ← StorageM.ofResult (rs.prepare {})
    let rows ← storage.query p.statement
    return ⟨rows, p.projection⟩

def all [Inflate α] (rs : ResultSet) (storage : Storage σ) : StateM σ (Guarded (List α)) :=
  rs.guardRun [] do
    let p ← StorageM.ofResult (rs.prepare {})
    let rows ← storage.query p.statement
    StorageM.ofResult (inflateAll p.projection rows)

def first [Inflate α] (rs : ResultSet) (storage : Storage σ) : StateM σ (Guarded (Option α)) :=
  rs.guardRun none (rs.fetchFirst storage)

def count (rs : ResultSet) (storage : Storage σ) : StateM σ (Guarded UInt64) :=
  rs.guardRun 0 do
    let statement ← StorageM.ofResult rs.prepareCount
    let rows ← storage.query statement
    StorageM.ofResult (rowCount rows)

def withKey (rs : ResultSet) (key : Value) : Except Error ResultSet := do
  let column ← rs.query.source.soleKey.mapError .configuration
  return rs.search (some ((Expr.column (some rootAlias) column).eq (.literal key))) none

def find [Inflate α] (rs : ResultSet) (storage : Storage σ) (key : Value) :
    StateM σ (Guarded (Option α)) :=
  rs.guardRun none do
    let found ← StorageM.ofResult (rs.withKey key)
    found.fetchFirst storage

/-- Deletes the rows of a set and those that depend on them. The whole plan is made before the
first statement is sent. The result is the number of rows removed. -/
def delete (rs : ResultSet) (storage : Storage σ) : StateM σ (Guarded UInt64) :=
  rs.guardRun 0 do
    let statements ← StorageM.ofResult rs.planDelete
    let removed ← storage.batch statements
    return removed.foldl (· + ·) 0

end ResultSet

end RelQuery
