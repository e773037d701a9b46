import RelQuery.Query.Plan
import RelQuery.Proofs.Outcomes

/-!
# Sub-selects

Properties that hold of a result set and of all sub-selects in it, and the plan of a query, which is
made without looking into the sub-selects: it changes with them and in nothing else.
-/

namespace RelQuery

set_option autoImplicit false

variable {σ τ : Type}

/-- Holds of the query of a set and of those of all sub-selects in it, however deep. -/
inductive ResultSet.Everywhere (P : Query ResultSet → Prop) : ResultSet → Prop where
  | intro {q : Query ResultSet} (here : P q) (inside : ∀ rs ∈ q.subselects, rs.Everywhere P) :
    ResultSet.Everywhere P ⟨q⟩

theorem ResultSet.everywhere_iff {P : Query ResultSet → Prop} {rs : ResultSet} :
    rs.Everywhere P ↔ P rs.query ∧ ∀ s ∈ rs.query.subselects, s.Everywhere P := by
  constructor
  · rintro ⟨here, inside⟩
    exact ⟨here, inside⟩
  · rintro ⟨here, inside⟩
    cases rs
    exact .intro here inside

theorem ResultSet.Everywhere.mono {P Q : Query ResultSet → Prop} {rs : ResultSet}
    (h : rs.Everywhere P) (hpq : ∀ q, P q → Q q) : rs.Everywhere Q := by
  induction h with
  | intro here _ ih => exact .intro (hpq _ here) ih

def JoinTarget.map (f : σ → τ) : JoinTarget σ → JoinTarget τ
  | .table name => .table name
  | .derived inner => .derived (f inner)

def PlannedJoin.map (f : σ → τ) (j : PlannedJoin σ) : PlannedJoin τ :=
  ⟨j.joinType, j.target.map f, j.name, j.condition, j.aliases⟩

def Plan.map (f : σ → τ) (plan : Plan σ) : Plan τ :=
  ⟨plan.scope, plan.joins.map (PlannedJoin.map f), plan.levels⟩

namespace Planning

def map (f : σ → τ) (p : Planning σ) : Planning τ := ⟨p.aliases, p.joins.map (PlannedJoin.map f)⟩

def pathAlias (p : Planning σ) (parent name : String) : String := (p.aliases.join parent name).1

def addPath (p : Planning σ) (parent name : String) (outer : Bool) (r : Relationship)
    (target : Source) : Planning σ :=
  ⟨(p.aliases.join parent name).2.2,
    if (p.aliases.join parent name).2.1 then
      p.joins ++ [⟨r.joinType.below outer, .table target.table, p.pathAlias parent name,
        r.condition, ⟨p.pathAlias parent name, parent, name⟩⟩]
    else p.joins⟩

def rootAliasOf (p : Planning σ) (root : PreviousRoot σ) : String :=
  (p.aliases.reserve (lowercase root.source.name)).1

def rootTarget (root : PreviousRoot σ) : JoinTarget σ :=
  match root.derived with
  | some inner => .derived inner
  | none => .table root.source.table

def addRoot (p : Planning σ) (child : String) (root : PreviousRoot σ) : Planning σ :=
  ⟨(p.aliases.reserve (lowercase root.source.name)).2,
    p.joins ++ [⟨.inner, rootTarget root, p.rootAliasOf root, root.relationship.condition,
      ⟨child, p.rootAliasOf root, root.relationship.name⟩⟩]⟩

/-- A relationship of a tree is joined first, then what is below it, then its later siblings. -/
theorem joinTree_join (schema : Schema) (source : Source) (parent : String) (outer : Bool)
    (name : String) (below rest : JoinTree) (p : Planning σ) (scope : Scope) :
    joinTree schema source parent outer (.join name below rest) p scope =
      match source.relationship? name with
      | none => .error (.unknownRelationship name source.name)
      | some r => (do
        let target ← (schema.source r.target).mapError .configuration
        let mid ← joinTree schema target (p.pathAlias parent name)
          (r.joinType.below outer).isOuter below (p.addPath parent name outer r target)
          (scope.rename name (p.pathAlias parent name))
        joinTree schema source parent outer rest mid.1 mid.2) := by
  rw [joinTree]
  cases source.relationship? name with
  | none => rfl
  | some r => rfl

theorem joinRoots_cons (schema : Schema) (child : String) (root : PreviousRoot σ)
    (rest : List (PreviousRoot σ)) (p : Planning σ) :
    joinRoots schema child (root :: rest) p = (do
      let mid ← joinTree schema root.source (p.rootAliasOf root) false root.join
        (p.addRoot child root) (Scope.ofRoot (p.rootAliasOf root))
      let last ← joinRoots schema (p.rootAliasOf root) rest mid.1
      return (last.1, ⟨mid.2, root.conditions⟩ :: last.2)) := rfl

theorem joinTree_join_eq_ok {schema : Schema} {source : Source} {parent : String} {outer : Bool}
    {name : String} {below rest : JoinTree} {p : Planning σ} {scope : Scope}
    {out : Planning σ × Scope} :
    joinTree schema source parent outer (.join name below rest) p scope = .ok out ↔
      ∃ r target mid, source.relationship? name = some r ∧ schema.source r.target = .ok target ∧
        joinTree schema target (p.pathAlias parent name) (r.joinType.below outer).isOuter below
          (p.addPath parent name outer r target) (scope.rename name (p.pathAlias parent name)) =
            .ok mid ∧
        joinTree schema source parent outer rest mid.1 mid.2 = .ok out := by
  rw [joinTree_join]
  cases source.relationship? name with
  | none => simp
  | some r =>
    simp only [bind_eq_ok, mapError_eq_ok]
    constructor
    · rintro ⟨target, htarget, mid, hmid, h⟩
      exact ⟨r, target, mid, rfl, htarget, hmid, h⟩
    · rintro ⟨r', target, mid, hr, htarget, hmid, h⟩
      cases hr
      exact ⟨target, htarget, mid, hmid, h⟩

theorem joinRoots_cons_eq_ok {schema : Schema} {child : String} {root : PreviousRoot σ}
    {rest : List (PreviousRoot σ)} {p : Planning σ} {out : Planning σ × List Level} :
    joinRoots schema child (root :: rest) p = .ok out ↔
      ∃ mid last, joinTree schema root.source (p.rootAliasOf root) false root.join
          (p.addRoot child root) (Scope.ofRoot (p.rootAliasOf root)) = .ok mid ∧
        joinRoots schema (p.rootAliasOf root) rest mid.1 = .ok last ∧
        (last.1, ⟨mid.2, root.conditions⟩ :: last.2) = out := by
  simp only [joinRoots_cons, bind_eq_ok, pure_eq_ok]
  constructor
  · rintro ⟨mid, hmid, last, hlast, h⟩
    exact ⟨mid, last, hmid, hlast, h⟩
  · rintro ⟨mid, last, hmid, hlast, h⟩
    exact ⟨mid, hmid, last, hlast, h⟩

theorem mem_addPath {p : Planning σ} {parent name : String} {outer : Bool} {r : Relationship}
    {target : Source} {j : PlannedJoin σ} (h : j ∈ (p.addPath parent name outer r target).joins) :
    j ∈ p.joins ∨ j.target = .table target.table := by
  unfold addPath at h
  dsimp only at h
  split at h
  · rcases List.mem_append.mp h with h | h
    · exact .inl h
    · rw [List.mem_singleton.mp h]
      exact .inr rfl
  · exact .inl h

@[simp] theorem addPath_map (f : σ → τ) (p : Planning σ) (parent name : String) (outer : Bool)
    (r : Relationship) (target : Source) :
    (p.map f).addPath parent name outer r target =
      (p.addPath parent name outer r target).map f := by
  by_cases h : (p.aliases.join parent name).2.1
  · simp [addPath, map, pathAlias, h, PlannedJoin.map, JoinTarget.map]
  · simp [addPath, map, h]

theorem rootTarget_map (f : σ → τ) (root : PreviousRoot σ) :
    rootTarget (root.map f) = (rootTarget root).map f := by
  rcases root with ⟨_, _, _, _, _ | inner⟩
  · rfl
  · rfl

@[simp] theorem addRoot_map (f : σ → τ) (p : Planning σ) (child : String)
    (root : PreviousRoot σ) :
    (p.map f).addRoot child (root.map f) = (p.addRoot child root).map f := by
  simp only [addRoot, rootTarget_map]
  simp [map, PlannedJoin.map, rootAliasOf, PreviousRoot.map]

theorem joinTree_map (f : σ → τ) (schema : Schema) (source : Source) (parent : String)
    (outer : Bool) (t : JoinTree) (p : Planning σ) (scope : Scope) :
    joinTree schema source parent outer t (p.map f) scope =
      (joinTree schema source parent outer t p scope).map fun r => (r.1.map f, r.2) := by
  induction t generalizing source parent outer p scope with
  | none => rfl
  | join name below rest ihbelow ihrest =>
    rw [joinTree_join, joinTree_join]
    cases source.relationship? name with
    | none => rfl
    | some r =>
      dsimp only
      cases (schema.source r.target).mapError Error.configuration with
      | error e => rfl
      | ok target =>
        simp only [bind, Except.bind, addPath_map]
        rw [show (p.map f).pathAlias parent name = p.pathAlias parent name from rfl, ihbelow]
        cases joinTree schema target (p.pathAlias parent name) _ below _ _ with
        | error e => rfl
        | ok mid => exact ihrest source parent outer mid.1 mid.2

theorem joinRoots_map (f : σ → τ) (schema : Schema) (child : String)
    (roots : List (PreviousRoot σ)) (p : Planning σ) :
    joinRoots schema child (roots.map (PreviousRoot.map f)) (p.map f) =
      (joinRoots schema child roots p).map fun r => (r.1.map f, r.2) := by
  induction roots generalizing child p with
  | nil => rfl
  | cons root roots ih =>
    rw [List.map_cons, joinRoots_cons, joinRoots_cons, addRoot_map]
    rw [show (p.map f).rootAliasOf (root.map f) = p.rootAliasOf root from rfl,
      show (root.map f).join = root.join from rfl, show (root.map f).source = root.source from rfl,
      joinTree_map]
    cases joinTree schema root.source (p.rootAliasOf root) false root.join _ _ with
    | error e => rfl
    | ok mid =>
      simp only [bind, Except.bind, Except.map]
      rw [ih]
      cases joinRoots schema (p.rootAliasOf root) roots mid.1 with
      | error e => rfl
      | ok last => rfl

end Planning

namespace Query

def ReadsRaw (q : Query σ) : Prop := ∃ sql values, q.attrs.origin = some (.raw sql values)

def planTables (q : Query σ) : Except Error (Plan σ) := do
  let own ← Planning.joinTree q.schema q.source rootAlias false q.attrs.join {} Scope.top
  let last ← Planning.joinRoots q.schema rootAlias q.previous own.1
  return ⟨own.2, last.1.joins, last.2⟩

theorem plan_of_readsRaw {q : Query σ} (h : q.ReadsRaw) : q.plan = .ok {} := by
  obtain ⟨sql, values, h⟩ := h
  simp [plan, h]

theorem plan_of_not_readsRaw {q : Query σ} (h : ¬q.ReadsRaw) : q.plan = q.planTables := by
  unfold plan
  split
  · rename_i sql values horigin
    exact absurd ⟨sql, values, horigin⟩ h
  · rfl

theorem readsRaw_map (f : σ → τ) (q : Query σ) : (q.map f).ReadsRaw ↔ q.ReadsRaw := by
  unfold ReadsRaw map Attributes.map
  rcases q.attrs.origin with _ | _ | _
  · simp
  · simp [Origin.map]
  · simp [Origin.map]

end Query

/-- The plan changes with the sub-selects and in nothing else. -/
theorem Query.plan_map (f : σ → τ) (q : Query σ) : (q.map f).plan = q.plan.map (Plan.map f) := by
  have hplain : planTables (q.map f) = (planTables q).map (Plan.map f) := by
    unfold planTables
    rw [show ({} : Planning τ) = ({} : Planning σ).map f from rfl,
      show (q.map f).schema = q.schema from rfl, show (q.map f).source = q.source from rfl,
      show (q.map f).attrs.join = q.attrs.join from rfl,
      show (q.map f).previous = q.previous.map (PreviousRoot.map f) from rfl, Planning.joinTree_map]
    cases Planning.joinTree q.schema q.source rootAlias false q.attrs.join _ Scope.top with
    | error e => rfl
    | ok own =>
      simp only [bind, Except.bind, Except.map]
      rw [Planning.joinRoots_map]
      cases Planning.joinRoots q.schema rootAlias q.previous own.1 with
      | error e => rfl
      | ok last => rfl
  by_cases hraw : q.ReadsRaw
  · rw [plan_of_readsRaw hraw, plan_of_readsRaw ((readsRaw_map f q).mpr hraw)]
    rfl
  · rw [plan_of_not_readsRaw hraw, plan_of_not_readsRaw fun h => hraw ((readsRaw_map f q).mp h),
      hplain]

namespace Planning

theorem joinTree_tables {schema : Schema} {source : Source} {parent : String} {outer : Bool}
    {t : JoinTree} {p : Planning σ} {scope : Scope} {r : Planning σ × Scope}
    (h : joinTree schema source parent outer t p scope = .ok r) :
    ∀ j ∈ r.1.joins, j ∈ p.joins ∨ ∃ name, j.target = .table name := by
  induction t generalizing source parent outer p scope r with
  | none =>
    cases h
    exact fun j hj => .inl hj
  | join name below rest ihbelow ihrest =>
    obtain ⟨rel, target, mid, _, _, hmid, h⟩ := joinTree_join_eq_ok.mp h
    intro j hj
    rcases ihrest h j hj with hj | hj
    · rcases ihbelow hmid j hj with hj | hj
      · exact (mem_addPath hj).imp_right fun htable => ⟨_, htable⟩
      · exact .inr hj
    · exact .inr hj

/-- What is not a table among the joins of previous roots is the derived table of one of them. -/
theorem joinRoots_targets {schema : Schema} {child : String} {roots : List (PreviousRoot σ)}
    {p : Planning σ} {r : Planning σ × List Level} (h : joinRoots schema child roots p = .ok r) :
    ∀ j ∈ r.1.joins, j ∈ p.joins ∨ (∃ name, j.target = .table name) ∨
      ∃ root ∈ roots, ∃ inner, root.derived = some inner ∧ j.target = .derived inner := by
  induction roots generalizing child p r with
  | nil =>
    cases h
    exact fun j hj => .inl hj
  | cons root roots ih =>
    obtain ⟨mid, last, hmid, hlast, rfl⟩ := joinRoots_cons_eq_ok.mp h
    intro j hj
    rcases ih hlast j hj with hj | hj | ⟨other, hother, inner, hinner⟩
    · rcases joinTree_tables hmid j hj with hj | hj
      · rcases List.mem_append.mp hj with hj | hj
        · exact .inl hj
        · rw [List.mem_singleton.mp hj]
          cases hderived : root.derived with
          | none => exact .inr (.inl ⟨root.source.table, by simp [rootTarget, hderived]⟩)
          | some inner =>
            exact .inr (.inr ⟨root, List.mem_cons_self, inner, hderived,
              by simp [rootTarget, hderived]⟩)
      · exact .inr (.inl hj)
    · exact .inr (.inl hj)
    · exact .inr (.inr ⟨other, List.mem_cons_of_mem root hother, inner, hinner⟩)

theorem joinTree_keeps {schema : Schema} {source : Source} {parent : String} {outer : Bool}
    {t : JoinTree} {p : Planning σ} {scope : Scope} {out : Planning σ × Scope}
    (h : joinTree schema source parent outer t p scope = .ok out) : p.joins ⊆ out.1.joins := by
  induction t generalizing source parent outer p scope out with
  | none =>
    cases h
    exact List.Subset.refl _
  | join name below rest ihbelow ihrest =>
    obtain ⟨r, target, mid, _, _, hmid, h⟩ := joinTree_join_eq_ok.mp h
    have hadded : p.joins ⊆ (p.addPath parent name outer r target).joins := by
      unfold addPath
      dsimp only
      split
      · exact List.subset_append_left _ _
      · exact List.Subset.refl _
    exact List.Subset.trans hadded (List.Subset.trans (ihbelow hmid) (ihrest h))

theorem joinRoots_keeps {schema : Schema} {child : String} {roots : List (PreviousRoot σ)}
    {p : Planning σ} {out : Planning σ × List Level}
    (h : joinRoots schema child roots p = .ok out) :
    p.joins ⊆ out.1.joins ∧ ∀ root ∈ roots, ∃ j ∈ out.1.joins, j.target = rootTarget root := by
  induction roots generalizing child p out with
  | nil =>
    cases h
    exact ⟨List.Subset.refl _, fun _ h => absurd h List.not_mem_nil⟩
  | cons root rest ih =>
    obtain ⟨mid, last, hmid, hlast, rfl⟩ := joinRoots_cons_eq_ok.mp h
    obtain ⟨hkept, hrest⟩ := ih hlast
    have hadded : (p.addRoot child root).joins ⊆ last.1.joins :=
      List.Subset.trans (joinTree_keeps hmid) hkept
    refine ⟨List.Subset.trans (List.subset_append_left _ _) hadded,
      List.forall_mem_cons.mpr ⟨?_, hrest⟩⟩
    exact ⟨_, hadded (List.mem_append_right _ (List.mem_singleton_self _)), rfl⟩

theorem joinRoots_conditions {schema : Schema} {child : String} {roots : List (PreviousRoot σ)}
    {p : Planning σ} {r : Planning σ × List Level} (h : joinRoots schema child roots p = .ok r) :
    r.2.map (·.conditions) = roots.map (·.conditions) := by
  induction roots generalizing child p r with
  | nil =>
    cases h
    rfl
  | cons root roots ih =>
    obtain ⟨mid, last, _, hlast, rfl⟩ := joinRoots_cons_eq_ok.mp h
    exact congrArg (root.conditions :: ·) (ih hlast)

end Planning

namespace Query

variable {q : Query σ} {plan : Plan σ}

theorem planTables_eq_ok : q.planTables = .ok plan ↔ ∃ own last,
    Planning.joinTree q.schema q.source rootAlias false q.attrs.join {} Scope.top = .ok own ∧
    Planning.joinRoots q.schema rootAlias q.previous own.1 = .ok last ∧
    ⟨own.2, last.1.joins, last.2⟩ = plan := by
  unfold planTables
  constructor
  · intro h
    obtain ⟨own, hown, h⟩ := bind_eq_ok.mp h
    obtain ⟨last, hlast, h⟩ := bind_eq_ok.mp h
    exact ⟨own, last, hown, hlast, pure_eq_ok.mp h⟩
  · rintro ⟨own, last, hown, hlast, rfl⟩
    exact bind_eq_ok.mpr ⟨own, hown, bind_eq_ok.mpr ⟨last, hlast, rfl⟩⟩

/-- The derived tables that are joined are those of the previous roots. -/
theorem exists_derived_join (h : q.plan = .ok plan) {inner : σ} :
    (∃ j ∈ plan.joins, j.target = .derived inner) ↔
      ¬q.ReadsRaw ∧ ∃ root ∈ q.previous, root.derived = some inner := by
  by_cases hraw : q.ReadsRaw
  · rw [plan_of_readsRaw hraw] at h
    cases h
    exact ⟨fun ⟨_, hj, _⟩ => absurd hj List.not_mem_nil, fun ⟨tables, _⟩ => absurd hraw tables⟩
  · rw [plan_of_not_readsRaw hraw] at h
    obtain ⟨own, last, hown, hlast, rfl⟩ := planTables_eq_ok.mp h
    constructor
    · rintro ⟨j, hj, hinner⟩
      refine ⟨hraw, ?_⟩
      rcases Planning.joinRoots_targets hlast j hj with hj | ⟨name, htable⟩ |
        ⟨root, hroot, s, hs, hj⟩
      · rcases Planning.joinTree_tables hown j hj with hj | ⟨name, htable⟩
        · exact absurd hj List.not_mem_nil
        · rw [htable] at hinner
          cases hinner
      · rw [htable] at hinner
        cases hinner
      · rw [hj] at hinner
        cases hinner
        exact ⟨root, hroot, hs⟩
    · rintro ⟨_, root, hroot, hderived⟩
      obtain ⟨j, hj, htarget⟩ := (Planning.joinRoots_keeps hlast).2 root hroot
      refine ⟨j, hj, htarget.trans ?_⟩
      unfold Planning.rootTarget
      rw [hderived]

theorem mem_subselects_of_derived (h : q.plan = .ok plan) {j : PlannedJoin σ}
    (hj : j ∈ plan.joins) {inner : σ} (hinner : j.target = .derived inner) :
    inner ∈ q.subselects := by
  obtain ⟨_, root, hroot, hderived⟩ := (exists_derived_join h).mp ⟨j, hj, hinner⟩
  exact List.mem_append_right _ (List.mem_filterMap.mpr ⟨root, hroot, hderived⟩)

theorem exists_root_of_level (h : q.plan = .ok plan) {l : Level} (hl : l ∈ plan.levels) :
    ∃ root ∈ q.previous, root.conditions = l.conditions := by
  by_cases hraw : q.ReadsRaw
  · rw [plan_of_readsRaw hraw] at h
    cases h
    exact absurd hl List.not_mem_nil
  rw [plan_of_not_readsRaw hraw] at h
  obtain ⟨own, last, hown, hlast, rfl⟩ := planTables_eq_ok.mp h
  have hmem := List.mem_map_of_mem (f := Level.conditions) hl
  rw [Planning.joinRoots_conditions hlast] at hmem
  exact List.mem_map.mp hmem

end Query

end RelQuery
