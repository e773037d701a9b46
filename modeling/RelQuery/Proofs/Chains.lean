import RelQuery.ResultSet.Related
import RelQuery.Proofs.JoinTrees
import RelQuery.Proofs.SchemaSteps

/-!
# Chains of result sets

The sets that are reached from the sources of a schema, and what following a relationship makes of a
set. Each previous root of such a set declares the relationship that leads to the root before it.
-/

namespace RelQuery

set_option autoImplicit false

theorem guarded_eq_some {α : Type} {hook : Option Hook} {result : Except Error (Option α)} {a : α} :
    (guarded hook none result).outcome = .ok (some a) ↔ result = .ok (some a) := by
  cases result with
  | ok b => rfl
  | error e =>
    unfold guarded
    dsimp only
    split <;> simp

theorem guarded_error_eq_ok {α : Type} {hook : Option Hook} {fallback a : α} {e : Error}
    (h : (guarded hook fallback (.error e)).outcome = .ok a) :
    guarded hook fallback (.error e) = ⟨.ok fallback, [e]⟩ := by
  cases hook with
  | none => cases h
  | some hook =>
    unfold guarded Error.through at h ⊢
    dsimp only at h ⊢
    cases haction : hook e with
    | raise e =>
      rw [haction] at h
      cases h
    | suppress => rfl

theorem map_guarded {α β : Type} (f : α → β) (hook : Option Hook) (fallback : α)
    (result : Except Error α) :
    (guarded hook fallback result).map f = guarded hook (f fallback) (result.map f) := by
  cases result with
  | ok a => rfl
  | error e =>
    unfold guarded Guarded.map Except.map
    dsimp only
    cases e.through hook with
    | none => rfl
    | some e => rfl

namespace ResultSet

variable {rs next : ResultSet} {name : String} {r : Relationship}

theorem asPrevious_of_restricts (h : rs.query.attrs.restrictsRows = true)
    {previous : List (PreviousRoot ResultSet)} :
    rs.asPrevious r = .ok previous ↔ ∃ keyed, rs.keyedFor r = .ok keyed ∧
      previous = [⟨rs.query.source, r, [], .none, some keyed⟩] := by
  unfold asPrevious
  rw [if_pos h, bind_eq_ok]
  constructor
  · rintro ⟨keyed, hkeyed, hprevious⟩
    exact ⟨keyed, hkeyed, (pure_eq_ok.mp hprevious).symm⟩
  · rintro ⟨keyed, hkeyed, rfl⟩
    exact ⟨keyed, hkeyed, rfl⟩

theorem asPrevious_of_not_restricts (h : rs.query.attrs.restrictsRows = false) :
    rs.asPrevious r = .ok (⟨rs.query.source, r, rs.query.conditions, rs.query.attrs.join, none⟩ ::
      rs.query.previous) := by
  unfold asPrevious
  rw [h]
  rfl

theorem relationship_eq_ok {σ : Type} {q : Query σ} :
    q.relationship name = .ok r ↔ q.source.relationship? name = some r := by
  unfold Query.relationship
  cases q.source.relationship? name with
  | none => simp
  | some s => simp

theorem related_eq_ok : rs.related name = .ok next ↔ ∃ r target previous,
    rs.query.source.relationship? name = some r ∧
    rs.query.schema.source r.target = .ok target ∧ rs.asPrevious r = .ok previous ∧
    next = ⟨{ schema := rs.query.schema, source := target, previous }⟩ := by
  unfold related
  simp only [bind_eq_ok, mapError_eq_ok, relationship_eq_ok, pure_eq_ok]
  constructor
  · rintro ⟨r, hr, target, htarget, previous, hprevious, rfl⟩
    exact ⟨r, target, previous, hr, htarget, hprevious, rfl⟩
  · rintro ⟨r, target, previous, hr, htarget, hprevious, rfl⟩
    exact ⟨r, hr, target, htarget, previous, hprevious, rfl⟩

theorem searchRelated_eq_some {condition : Option Expr} {attrs : Option (Attributes ResultSet)} :
    (rs.searchRelated name condition attrs).outcome = .ok (some next) ↔
      ∃ related, rs.related name = .ok related ∧ next = related.search condition attrs := by
  refine guarded_eq_some.trans ?_
  rw [map_eq_ok]
  simp only [Option.some.injEq, eq_comm]

end ResultSet

/-- The sets that are reached from the sources of a schema. -/
inductive Reached (schema : Schema) : ResultSet → Prop where
  | all {name : String} {rs : ResultSet} (found : schema.resultSet name = .ok rs) :
    Reached schema rs
  | search {rs : ResultSet} (condition : Option Expr) (attrs : Option (Attributes ResultSet))
    (built : ∀ a ∈ attrs, a.join.Built) (reached : Reached schema rs) :
    Reached schema (rs.search condition attrs)
  | related {rs next : ResultSet} (name : String) (condition : Option Expr)
    (attrs : Option (Attributes ResultSet)) (built : ∀ a ∈ attrs, a.join.Built)
    (reached : Reached schema rs)
    (found : (rs.searchRelated name condition attrs).outcome = .ok (some next)) :
    Reached schema next
  | asSubselect {rs : ResultSet} (reached : Reached schema rs) : Reached schema rs.asSubselect

/-- Each root declares its relationship, which leads to the source of the root before it. -/
def Linked {σ : Type} (schema : Schema) : Source → List (PreviousRoot σ) → Prop
  | _, [] => True
  | child, root :: rest =>
    root.source.relationship? root.relationship.name = some root.relationship ∧
    schema.source root.relationship.target = .ok child ∧ root.join.Distinct ∧
    Linked schema root.source rest

section Linked

variable {σ : Type} {schema : Schema} {child : Source} {roots : List (PreviousRoot σ)}

theorem Linked.distinct (h : Linked schema child roots) : ∀ root ∈ roots, root.join.Distinct := by
  induction roots generalizing child with
  | nil => exact fun _ hroot => absurd hroot List.not_mem_nil
  | cons root rest ih =>
    obtain ⟨_, _, hroot, hrest⟩ := h
    exact List.forall_mem_cons.mpr ⟨hroot, ih hrest⟩

theorem Linked.declared (h : Linked schema child roots) {level : Nat} {root : PreviousRoot σ}
    (found : roots[level]? = some root) :
    root.source.relationship? root.relationship.name = some root.relationship ∧
      ∃ s, (child :: roots.map (·.source))[level]? = some s ∧
        schema.source root.relationship.target = .ok s := by
  induction roots generalizing child level with
  | nil => exact absurd found (by simp)
  | cons first rest ih =>
    obtain ⟨hdeclared, htarget, _, hrest⟩ := h
    cases level with
    | zero =>
      cases found
      exact ⟨hdeclared, child, rfl, htarget⟩
    | succ level => exact ih hrest found

theorem Linked.map {τ : Type} (h : Linked schema child roots) (f : σ → τ) :
    Linked schema child (roots.map (PreviousRoot.map f)) := by
  induction roots generalizing child with
  | nil => exact trivial
  | cons root rest ih =>
    obtain ⟨hdeclared, htarget, hroot, hrest⟩ := h
    exact ⟨hdeclared, htarget, hroot, ih hrest⟩

end Linked

namespace Query

variable {σ : Type}

/-- What a query of a schema is made of belongs together. -/
structure Coherent (schema : Schema) (q : Query σ) : Prop where
  schema_eq : q.schema = schema
  registered : schema.source q.source.name = .ok q.source
  distinct : q.attrs.join.Distinct
  linked : Linked schema q.source q.previous

variable {schema : Schema} {q : Query σ}

theorem Coherent.search (h : q.Coherent schema) (condition : Option Expr)
    {attrs : Option (Attributes σ)} (built : ∀ a ∈ attrs, a.join.Built) :
    (q.search condition attrs).Coherent schema := by
  refine ⟨h.schema_eq, h.registered, ?_, h.linked⟩
  unfold Query.search
  cases attrs with
  | none => exact h.distinct
  | some a => exact JoinTree.distinct_merge h.distinct (built a rfl).distinct

theorem Coherent.map {τ : Type} (h : q.Coherent schema) (f : σ → τ) : (q.map f).Coherent schema :=
  ⟨h.schema_eq, h.registered, h.distinct, h.linked.map f⟩

end Query

theorem ResultSet.coherent_related {schema : Schema} {rs next : ResultSet} {name : String}
    (h : rs.query.Coherent schema) (found : rs.related name = .ok next) :
    next.query.Coherent schema := by
  obtain ⟨r, target, previous, hr, htarget, hprevious, rfl⟩ := related_eq_ok.mp found
  have hdeclared : rs.query.source.relationship? r.name = some r := by
    rw [Source.name_of_relationship? hr]
    exact hr
  rw [h.schema_eq] at htarget
  refine ⟨h.schema_eq, ?_, trivial, ?_⟩
  · rw [Schema.name_of_source htarget]
    exact htarget
  · cases hrestricts : rs.query.attrs.restrictsRows with
    | true =>
      obtain ⟨keyed, _, rfl⟩ := (asPrevious_of_restricts hrestricts).mp hprevious
      exact ⟨hdeclared, htarget, trivial, trivial⟩
    | false =>
      rw [asPrevious_of_not_restricts hrestricts] at hprevious
      cases hprevious
      exact ⟨hdeclared, htarget, h.distinct, h.linked⟩

theorem Schema.coherent_resultSet {schema : Schema} {name : String} {rs : ResultSet}
    (found : schema.resultSet name = .ok rs) : rs.query.Coherent schema := by
  obtain ⟨s, hs, rfl⟩ := map_eq_ok.mp found
  refine ⟨rfl, ?_, trivial, trivial⟩
  rw [← name_of_source hs] at hs
  exact hs

theorem Reached.coherent {schema : Schema} {rs : ResultSet} (h : Reached schema rs) :
    rs.query.Coherent schema := by
  induction h with
  | all found => exact Schema.coherent_resultSet found
  | search condition attrs built _ ih => exact ih.search condition built
  | related name condition attrs built _ found ih =>
    obtain ⟨related, hrelated, rfl⟩ := ResultSet.searchRelated_eq_some.mp found
    exact (ResultSet.coherent_related ih hrelated).search condition built
  | asSubselect _ ih => exact ⟨ih.schema_eq, ih.registered, trivial, trivial⟩

end RelQuery
