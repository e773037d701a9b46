import RelQuery.Query.Select
import RelQuery.Proofs.Outcomes

/-!
# The clauses of a statement

The parts that a SELECT statement is put together from. They are found out before anything is
written, and whether they can be found does not depend on the shape of the statement.
-/

namespace RelQuery

set_option autoImplicit false

open Fragment (ofText)

structure Clauses where
  entries : List SelectEntry
  plan : Plan Subselect
  origin : Fragment
  joins : List Fragment
  window : Window

namespace Clauses

variable (c : Clauses) (q : Query Subselect)

/-- The conditions of the WHERE clause, each with the scope it is read in. -/
def conditions : List (Expr × Scope) := c.plan.conditions q.conditions

def front (shape : Shape) : Fragment :=
  ofText "SELECT " ++ q.headFragment shape c.plan.scope c.entries ++ ofText " FROM " ++ c.origin ++
    c.joins.flatten

def back (shape : Shape) : Fragment :=
  q.tailFragment shape c.plan.scope ++ (c.window.bound shape.atMost).fragment

def fragment (shape : Shape) : Fragment :=
  c.front q shape ++ whereClause q.style (c.conditions q) ++ c.back q shape

def projection (shape : Shape) : Projection :=
  if shape.count then ⟨["count"]⟩ else .ofEntries c.entries

end Clauses

namespace Query

variable {q : Query Subselect}

def clauses (q : Query Subselect) : Except Error Clauses := do
  let entries ← q.selectList
  let plan ← q.plan
  let origin ← q.fromFragment
  let joins ← plan.joins.mapM (·.fragment q.style)
  let window ← q.attrs.window
  return ⟨entries, plan, origin, joins, window⟩

/-- In every shape a statement is put together from the same parts, and fails with them. -/
theorem select_eq_clauses (q : Query Subselect) (shape : Shape) :
    q.select shape = q.clauses.map fun c => (c.fragment q shape, c.projection shape) := by
  unfold select clauses
  cases q.selectList with
  | error e => rfl
  | ok entries =>
    cases q.plan with
    | error e => rfl
    | ok plan =>
      cases q.fromFragment with
      | error e => rfl
      | ok origin =>
        simp only [bind, Except.bind]
        cases plan.joins.mapM (·.fragment q.style) with
        | error e => rfl
        | ok joins =>
          cases q.attrs.window with
          | error e => rfl
          | ok window =>
            simp [Except.map, pure, Except.pure, Clauses.fragment, Clauses.front, Clauses.back,
              Clauses.conditions, Clauses.projection, List.append_assoc]

theorem clauses_eq_ok {c : Clauses} :
    q.clauses = .ok c ↔ q.selectList = .ok c.entries ∧ q.plan = .ok c.plan ∧
      q.fromFragment = .ok c.origin ∧
      List.Forall₂ (fun j f => j.fragment q.style = .ok f) c.plan.joins c.joins ∧
      q.attrs.window = .ok c.window := by
  unfold clauses
  constructor
  · intro h
    obtain ⟨entries, hentries, h⟩ := bind_eq_ok.mp h
    obtain ⟨plan, hplan, h⟩ := bind_eq_ok.mp h
    obtain ⟨origin, horigin, h⟩ := bind_eq_ok.mp h
    obtain ⟨joins, hjoins, h⟩ := bind_eq_ok.mp h
    obtain ⟨window, hwindow, h⟩ := bind_eq_ok.mp h
    rw [← pure_eq_ok.mp h]
    exact ⟨hentries, hplan, horigin, mapM_eq_ok.mp hjoins, hwindow⟩
  · rintro ⟨hentries, hplan, horigin, hjoins, hwindow⟩
    rw [hentries, hplan, horigin, hwindow]
    exact bind_eq_ok.mpr ⟨_, rfl, bind_eq_ok.mpr ⟨_, rfl, bind_eq_ok.mpr ⟨_, rfl,
      bind_eq_ok.mpr ⟨_, mapM_eq_ok.mpr hjoins, rfl⟩⟩⟩⟩

end Query

theorem ResultSet.listing_eq_ok {rs : ResultSet} {f : Fragment} :
    rs.listing = .ok f ↔ ∃ c, rs.compiled.clauses = .ok c ∧ c.fragment rs.compiled {} = f := by
  rw [rs.listing_eq, Query.select_eq_clauses, map_eq_ok]
  constructor
  · rintro ⟨r, hr, rfl⟩
    obtain ⟨c, hc, rfl⟩ := map_eq_ok.mp hr
    exact ⟨c, hc, rfl⟩
  · rintro ⟨c, hc, rfl⟩
    exact ⟨_, map_eq_ok.mpr ⟨c, hc, rfl⟩, rfl⟩

theorem ResultSet.prepare_eq_ok {rs : ResultSet} {shape : Shape} {p : Prepared} :
    rs.prepare shape = .ok p ↔ ∃ c, rs.compiled.clauses = .ok c ∧
      ⟨(c.fragment rs.compiled shape).statement, c.projection shape⟩ = p := by
  unfold ResultSet.prepare
  rw [Query.select_eq_clauses, map_eq_ok]
  constructor
  · rintro ⟨r, hr, rfl⟩
    obtain ⟨c, hc, rfl⟩ := map_eq_ok.mp hr
    exact ⟨c, hc, rfl⟩
  · rintro ⟨c, hc, rfl⟩
    exact ⟨_, map_eq_ok.mpr ⟨c, hc, rfl⟩, rfl⟩

end RelQuery
