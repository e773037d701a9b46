import RelQuery.Row

/-!
# Storage

What executes statements. A storage is described by what each request answers and by the state it
leaves behind. One storage answers from a script: every query gives the same rows, and executions
give the scripted numbers one after the other.
-/

namespace RelQuery

set_option autoImplicit false

/-- A statement with its values in the order of their placeholders. -/
structure Statement where
  sql : String
  binds : List Value

abbrev StorageM (σ : Type) := ExceptT Error (StateM σ)

structure Storage (σ : Type) where
  query : Statement → StorageM σ (List Row)
  execute : Statement → StorageM σ UInt64
  /-- How several statements are executed, where the storage has a way of its own. -/
  ownBatch : Option (List Statement → StorageM σ (List UInt64)) := none

variable {σ : Type}

def inOrder (execute : Statement → StorageM σ UInt64) : List Statement → StorageM σ (List UInt64)
  | [] => return []
  | statement :: rest => do
    let n ← execute statement
    return n :: (← inOrder execute rest)

namespace Storage

def batch (s : Storage σ) : List Statement → StorageM σ (List UInt64) :=
  match s.ownBatch with
  | some run => run
  | none => inOrder s.execute

/-- The storage that also notes every statement it is sent, failed ones included. -/
def logged (s : Storage σ) : Storage (σ × List Statement) where
  query statement := fun (state, log) =>
    let (result, state) := s.query statement state
    (result, state, log ++ [statement])
  execute statement := fun (state, log) =>
    let (result, state) := s.execute statement state
    (result, state, log ++ [statement])
  ownBatch := s.ownBatch.map fun run statements (state, log) =>
    let (result, state) := run statements state
    (result, state, log ++ statements)

end Storage

structure Script where
  rows : List (List Value) := []
  labels : Option (List String) := none
  /-- The numbers of changed rows, by the position of the statement; 1 behind the last. -/
  affected : List UInt64 := []
  failQuery : Option String := none
  failAt : Option Nat := none

namespace Script

/-- The storage of a script. Its state is the number of statements it was sent. -/
def storage (s : Script) : Storage Nat where
  query statement := fun sent =>
    match s.failQuery with
    | some message => (.error (.storage ⟨message, some statement.sql⟩), sent + 1)
    | none => (.ok (s.rows.map fun values => ⟨values, s.labels.map Projection.mk⟩), sent + 1)
  execute statement := fun sent =>
    if s.failAt = some sent then
      (.error (.storage ⟨"refused", some statement.sql⟩), sent + 1)
    else (.ok (s.affected[sent]?.getD 1), sent + 1)

end Script

end RelQuery
