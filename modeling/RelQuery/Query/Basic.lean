import RelQuery.Query.Attributes
import RelQuery.Schema.Basic

/-!
# Queries

A query over one source: the conditions searched for, the attributes, and the roots it was reached
from. `Query σ` leaves open what its sub-selects are. A result set is a query whose sub-selects are
result sets.
-/

namespace RelQuery

set_option autoImplicit false

/-- A root that a query was reached from, through one of its relationships. -/
structure PreviousRoot (σ : Type) where
  source : Source
  relationship : Relationship
  conditions : List Expr
  join : JoinTree
  derived : Option σ

structure Query (σ : Type) where
  schema : Schema
  source : Source
  conditions : List Expr := []
  attrs : Attributes σ := {}
  /-- The nearest root first. -/
  previous : List (PreviousRoot σ) := []

structure ResultSet where
  query : Query ResultSet

def PreviousRoot.map {σ τ : Type} (f : σ → τ) (root : PreviousRoot σ) : PreviousRoot τ :=
  ⟨root.source, root.relationship, root.conditions, root.join, root.derived.map f⟩

namespace Query

variable {σ τ : Type}

def map (f : σ → τ) (q : Query σ) : Query τ :=
  ⟨q.schema, q.source, q.conditions, q.attrs.map f, q.previous.map (PreviousRoot.map f)⟩

def style (q : Query σ) : Style := q.schema.config.style

/-- Adds a condition, split into what it is a conjunction of, and merges attributes over those of
the query. -/
def search (q : Query σ) (condition : Option Expr) (attrs : Option (Attributes σ)) : Query σ :=
  { q with
    conditions := q.conditions ++ (condition.map Expr.conjuncts).getD []
    attrs := match attrs with
      | some attrs => q.attrs.merge attrs
      | none => q.attrs }

def relationship (q : Query σ) (name : String) : Except Error Relationship :=
  match q.source.relationship? name with
  | some r => .ok r
  | none => .error (.unknownRelationship name q.source.name)

def subselects (q : Query σ) : List σ :=
  (q.attrs.origin.bind Origin.subselect?).toList ++ q.previous.filterMap (·.derived)

end Query

mutual

/-- What `step` makes of the query of a set, once it has been used on all of its sub-selects. -/
def ResultSet.fold {α : Type} (step : Query α → α) : ResultSet → α
  | ⟨q⟩ => step (foldQuery step q)

def foldQuery {α : Type} (step : Query α → α) : Query ResultSet → Query α
  | ⟨schema, source, conditions, attrs, previous⟩ =>
    ⟨schema, source, conditions, foldAttrs step attrs, foldRoots step previous⟩

def foldAttrs {α : Type} (step : Query α → α) : Attributes ResultSet → Attributes α
  | ⟨columns, plusColumns, select, selectAs, plusSelect, plusAs, join, orderBy, groupBy, having,
      limit, offset, rows, page, distinct, origin⟩ =>
    ⟨columns, plusColumns, select, selectAs, plusSelect, plusAs, join, orderBy, groupBy, having,
      limit, offset, rows, page, distinct, foldOption step origin⟩

def foldOption {α : Type} (step : Query α → α) : Option (Origin ResultSet) → Option (Origin α)
  | none => none
  | some origin => some (foldOrigin step origin)

def foldOrigin {α : Type} (step : Query α → α) : Origin ResultSet → Origin α
  | .raw sql values => .raw sql values
  | .subselect inner => .subselect (inner.fold step)

def foldRoots {α : Type} (step : Query α → α) :
    List (PreviousRoot ResultSet) → List (PreviousRoot α)
  | [] => []
  | root :: rest => foldRoot step root :: foldRoots step rest

def foldRoot {α : Type} (step : Query α → α) : PreviousRoot ResultSet → PreviousRoot α
  | ⟨source, relationship, conditions, join, derived⟩ =>
    ⟨source, relationship, conditions, join, foldDerived step derived⟩

def foldDerived {α : Type} (step : Query α → α) : Option ResultSet → Option α
  | none => none
  | some inner => some (inner.fold step)

end

section Fold

variable {α : Type} (step : Query α → α)

theorem foldAttrs_eq_map (a : Attributes ResultSet) :
    foldAttrs step a = a.map (ResultSet.fold step) := by
  rcases a with ⟨_, _, _, _, _, _, _, _, _, _, _, _, _, _, _, _ | _ | _⟩ <;>
    simp [foldAttrs, foldOption, foldOrigin, Attributes.map, Origin.map]

theorem foldRoot_eq_map (root : PreviousRoot ResultSet) :
    foldRoot step root = root.map (ResultSet.fold step) := by
  rcases root with ⟨_, _, _, _, _ | _⟩ <;> simp [foldRoot, foldDerived, PreviousRoot.map]

theorem foldRoots_eq_map (roots : List (PreviousRoot ResultSet)) :
    foldRoots step roots = roots.map (PreviousRoot.map (ResultSet.fold step)) := by
  induction roots with
  | nil => rfl
  | cons root roots ih => simp [foldRoots, ih, foldRoot_eq_map]

theorem foldQuery_eq_map (q : Query ResultSet) :
    foldQuery step q = q.map (ResultSet.fold step) := by
  cases q
  simp [foldQuery, Query.map, foldAttrs_eq_map, foldRoots_eq_map]

end Fold

namespace ResultSet

@[elab_as_elim]
theorem induction {P : ResultSet → Prop}
    (step : ∀ q : Query ResultSet, (∀ rs ∈ q.subselects, P rs) → P ⟨q⟩) (rs : ResultSet) :
    P rs := by
  refine @ResultSet.rec P (fun q => ∀ r ∈ q.subselects, P r)
    (fun a => ∀ r, a.origin.bind Origin.subselect? = some r → P r)
    (fun roots => ∀ r ∈ roots.filterMap (·.derived), P r)
    (fun o => ∀ r, o.bind Origin.subselect? = some r → P r)
    (fun root => ∀ r, root.derived = some r → P r)
    (fun o => ∀ r, o.subselect? = some r → P r)
    (fun d => ∀ r, d = some r → P r)
    step ?query (fun _ _ _ _ _ _ _ _ _ _ _ _ _ _ _ _ h => h) ?nil ?cons ?none (fun _ h => h)
    (fun _ _ _ _ _ h => h) ?raw ?subselect ?no ?one rs
  case query =>
    intro _ _ _ attrs previous hattrs hroots r hr
    rcases List.mem_append.1 hr with hr | hr
    · exact hattrs r (Option.mem_toList.1 hr)
    · exact hroots r hr
  case nil => simp
  case cons =>
    intro root roots hroot hroots r hr
    obtain ⟨other, hother, hderived⟩ := List.mem_filterMap.1 hr
    rcases List.mem_cons.1 hother with rfl | hrest
    · exact hroot r hderived
    · exact hroots r (List.mem_filterMap.2 ⟨other, hrest, hderived⟩)
  case none => simp
  case raw => simp [Origin.subselect?]
  case subselect =>
    intro inner hinner r hr
    cases hr
    exact hinner
  case no => simp
  case one =>
    intro inner hinner r hr
    cases hr
    exact hinner

theorem fold_eq {α : Type} (step : Query α → α) (rs : ResultSet) :
    rs.fold step = step (rs.query.map (fold step)) := by
  cases rs
  simp [fold, foldQuery_eq_map]

def ofSource (schema : Schema) (s : Source) : ResultSet := ⟨{ schema, source := s }⟩

def search (rs : ResultSet) (condition : Option Expr) (attrs : Option (Attributes ResultSet)) :
    ResultSet :=
  ⟨rs.query.search condition attrs⟩

/-- The set over the same source that reads from this one as a derived table. -/
def asSubselect (rs : ResultSet) : ResultSet :=
  ⟨{ schema := rs.query.schema
     source := rs.query.source
     attrs := { origin := some (.subselect rs) } }⟩

end ResultSet

def Schema.resultSet (schema : Schema) (name : String) : Except ConfigurationError ResultSet :=
  (schema.source name).map (ResultSet.ofSource schema)

end RelQuery
