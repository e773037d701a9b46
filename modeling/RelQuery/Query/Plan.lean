import RelQuery.Query.Basic
import RelQuery.Aliases

/-!
# Join plans

The joins of a statement with their aliases, and the scope of each level. The relationships to join
come first, parents before children; then each previous root is joined to the one it leads to,
followed by the joins of its own level.
-/

namespace RelQuery

set_option autoImplicit false

inductive JoinTarget (σ : Type) where
  | table (name : String)
  | derived (inner : σ)

structure PlannedJoin (σ : Type) where
  joinType : JoinType
  target : JoinTarget σ
  name : String
  condition : JoinCondition
  aliases : JoinAliases

structure Level where
  scope : Scope
  conditions : List Expr

/-- The joins of a statement, the scope of its root and the levels of its previous roots. -/
structure Plan (σ : Type) where
  scope : Scope := Scope.top
  joins : List (PlannedJoin σ) := []
  levels : List Level := []

structure Planning (σ : Type) where
  aliases : Aliases := Aliases.start
  joins : List (PlannedJoin σ) := []

namespace Planning

variable {σ : Type}

/-- Plans the joins of a tree below the alias `parent` of `source`, where `outer` tells whether
`parent` is itself joined by an outer join. -/
def joinTree (schema : Schema) (source : Source) (parent : String) (outer : Bool) :
    JoinTree → Planning σ → Scope → Except Error (Planning σ × Scope)
  | .none, p, scope => .ok (p, scope)
  | .join name below rest, p, scope => do
    let r ← match source.relationship? name with
      | some r => Except.ok r
      | none => .error (.unknownRelationship name source.name)
    let target ← (schema.source r.target).mapError .configuration
    let (joined, fresh, aliases) := p.aliases.join parent name
    let joinType := r.joinType.below outer
    let join : PlannedJoin σ := ⟨joinType, .table target.table, joined, r.condition,
      ⟨joined, parent, name⟩⟩
    let p := ⟨aliases, if fresh then p.joins ++ [join] else p.joins⟩
    let (p, scope) ←
      joinTree schema target joined joinType.isOuter below p (scope.rename name joined)
    joinTree schema source parent outer rest p scope

/-- Plans the joins of the previous roots, the first of which leads to the alias `child`. -/
def joinRoots (schema : Schema) (child : String) :
    List (PreviousRoot σ) → Planning σ → Except Error (Planning σ × List Level)
  | [], p => .ok (p, [])
  | root :: rest, p => do
    let (joined, aliases) := p.aliases.reserve (lowercase root.source.name)
    let target := match root.derived with
      | some inner => .derived inner
      | none => .table root.source.table
    let join : PlannedJoin σ := ⟨.inner, target, joined, root.relationship.condition,
      ⟨child, joined, root.relationship.name⟩⟩
    let (p, scope) ← joinTree schema root.source joined false root.join
      ⟨aliases, p.joins ++ [join]⟩ (Scope.ofRoot joined)
    let (p, levels) ← joinRoots schema joined rest p
    return (p, ⟨scope, root.conditions⟩ :: levels)

end Planning

/-- The join plan of a query. Raw SQL in place of the table takes no joins. -/
def Query.plan {σ : Type} (q : Query σ) : Except Error (Plan σ) :=
  match q.attrs.origin with
  | some (.raw _ _) => .ok {}
  | _ => do
    let (p, scope) ← Planning.joinTree q.schema q.source rootAlias false q.attrs.join {} Scope.top
    let (p, levels) ← Planning.joinRoots q.schema rootAlias q.previous p
    return ⟨scope, p.joins, levels⟩

end RelQuery
