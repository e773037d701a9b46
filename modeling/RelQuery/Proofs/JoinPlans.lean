import RelQuery.Proofs.AliasRuns
import RelQuery.Proofs.JoinTrees
import RelQuery.Proofs.SubSelects

/-!
# The joins of a plan

The joins that are planned for a tree and for the previous roots, whatever aliases they have: one
for each relationship of a tree and one for each root. All of their aliases are different.
-/

namespace RelQuery

set_option autoImplicit false

variable {σ : Type}

def Scope.afterJoins (scope : Scope) (joins : List (PlannedJoin σ)) : Scope :=
  joins.foldl (fun s j => s.rename j.aliases.relationship j.name) scope

theorem Scope.afterJoins_append (scope : Scope) (js ks : List (PlannedJoin σ)) :
    scope.afterJoins (js ++ ks) = (scope.afterJoins js).afterJoins ks := List.foldl_append

/-- The joins of a tree below the alias `parent` of a source, which is joined by an outer join or
not. -/
inductive TreeJoins (schema : Schema) :
    Source → String → Bool → JoinTree → List (PlannedJoin σ) → Prop where
  | none {source : Source} {parent : String} {outer : Bool} :
    TreeJoins schema source parent outer .none []
  | join {source target : Source} {parent joined name : String} {outer : Bool}
    {below rest : JoinTree} {r : Relationship} {js ks : List (PlannedJoin σ)}
    (declared : source.relationship? name = some r) (found : schema.source r.target = .ok target)
    (inside : TreeJoins schema target joined (r.joinType.below outer).isOuter below js)
    (after : TreeJoins schema source parent outer rest ks) :
    TreeJoins schema source parent outer (.join name below rest)
      (⟨r.joinType.below outer, .table target.table, joined, r.condition,
        ⟨joined, parent, name⟩⟩ :: (js ++ ks))

inductive RootJoins (schema : Schema) :
    String → List (PreviousRoot σ) → List (PlannedJoin σ) → List Level → Prop where
  | nil {child : String} : RootJoins schema child [] [] []
  | cons {child joined : String} {root : PreviousRoot σ} {rest : List (PreviousRoot σ)}
    {js ks : List (PlannedJoin σ)} {levels : List Level}
    (inside : TreeJoins schema root.source joined false root.join js)
    (after : RootJoins schema joined rest ks levels) :
    RootJoins schema child (root :: rest)
      (⟨.inner, Planning.rootTarget root, joined, root.relationship.condition,
        ⟨child, joined, root.relationship.name⟩⟩ :: (js ++ ks))
      (⟨(Scope.ofRoot joined).afterJoins js, root.conditions⟩ :: levels)

namespace Planning

structure Sound (p : Planning σ) : Prop where
  aliases : p.aliases.Sound
  used : p.aliases.used = rootAlias :: p.joins.map (·.name)

theorem sound_start : ({} : Planning σ).Sound := ⟨Aliases.sound_start, rfl⟩

theorem Sound.nodup {p : Planning σ} (h : p.Sound) :
    (rootAlias :: p.joins.map (·.name)).Nodup := h.used ▸ h.aliases.nodup

variable {p : Planning σ} {parent name : String}

section AddPath

variable (outer : Bool) (r : Relationship) (target : Source)

theorem addPath_joins (hnew : p.aliases.get? parent name = none) :
    (p.addPath parent name outer r target).joins =
      p.joins ++ [⟨r.joinType.below outer, .table target.table, p.pathAlias parent name,
        r.condition, ⟨p.pathAlias parent name, parent, name⟩⟩] := by
  unfold addPath
  rw [Aliases.join_eq_reserve hnew]
  rfl

theorem addPath_used (hnew : p.aliases.get? parent name = none) :
    (p.addPath parent name outer r target).aliases.used =
      p.aliases.used ++ [p.pathAlias parent name] := by
  unfold addPath pathAlias
  rw [Aliases.join_eq_reserve hnew]
  rfl

theorem pathAlias_not_mem (hnew : p.aliases.get? parent name = none) :
    p.pathAlias parent name ∉ p.aliases.used := by
  unfold pathAlias
  rw [Aliases.join_eq_reserve hnew]
  exact Aliases.reserve_not_mem p.aliases name

theorem Sound.addPath (h : p.Sound) (hparent : parent ∈ p.aliases.used)
    (hnew : p.aliases.get? parent name = none) :
    (p.addPath parent name outer r target).Sound := by
  refine ⟨h.aliases.join hparent hnew, ?_⟩
  rw [addPath_used outer r target hnew, addPath_joins outer r target hnew, h.used,
    List.map_append]
  rfl

end AddPath

theorem Sound.addRoot (h : p.Sound) (child : String) (root : PreviousRoot σ) :
    (p.addRoot child root).Sound := by
  refine ⟨h.aliases.reserve _, ?_⟩
  unfold Planning.addRoot
  rw [Aliases.reserve_used, h.used, List.map_append]
  rfl

/-- Aliases stay in use, and but for the `tops` below `parent` no relationship gets an alias under
one of them. -/
def Keeps (p out : Planning σ) (parent : String) (tops : List String) : Prop :=
  ∀ other ∈ p.aliases.used, other ∈ out.aliases.used ∧
    ∀ n, p.aliases.get? other n = none → (other = parent → n ∉ tops) →
      out.aliases.get? other n = none

theorem keeps_addPath (outer : Bool) (r : Relationship) (target : Source)
    (hnew : p.aliases.get? parent name = none) :
    p.Keeps (p.addPath parent name outer r target) parent [name] := by
  intro other hother
  constructor
  · rw [addPath_used outer r target hnew]
    exact List.mem_append_left _ hother
  · intro n hn htop
    apply Aliases.get?_join_eq_none hnew hn
    intro heq hname
    exact htop heq (List.mem_singleton.mpr hname)

theorem joinTree_sound {schema : Schema} {source : Source} {outer : Bool} {t : JoinTree}
    {scope : Scope} {out : Planning σ × Scope}
    (h : joinTree schema source parent outer t p scope = .ok out) (sound : p.Sound)
    (distinct : t.Distinct) (known : parent ∈ p.aliases.used)
    (new : ∀ n ∈ t.tops, p.aliases.get? parent n = none) :
    ∃ js, TreeJoins schema source parent outer t js ∧ out.1.joins = p.joins ++ js ∧
      out.2 = scope.afterJoins js ∧ out.1.Sound ∧ p.Keeps out.1 parent t.tops := by
  induction t generalizing source parent outer p scope out with
  | none =>
    cases h
    exact ⟨[], .none, (List.append_nil _).symm, rfl, sound,
      fun other hother => ⟨hother, fun n hn _ => hn⟩⟩
  | join name below rest ihbelow ihrest =>
    obtain ⟨r, target, mid, hr, htarget, hmid, h⟩ := joinTree_join_eq_ok.mp h
    obtain ⟨hname, hbelow, hrest⟩ := distinct
    have hnew := new name List.mem_cons_self
    have hfree : p.pathAlias parent name ∉ p.aliases.used := pathAlias_not_mem hnew
    have hadded := sound.addPath outer r target known hnew
    have hused : p.pathAlias parent name ∈
        (p.addPath parent name outer r target).aliases.used := by
      rw [addPath_used outer r target hnew]
      exact List.mem_append_right _ (List.mem_singleton_self _)
    have hnone : ∀ n ∈ below.tops,
        (p.addPath parent name outer r target).aliases.get? (p.pathAlias parent name) n = none := by
      intro n _
      apply Aliases.get?_join_eq_none hnew (sound.aliases.get?_eq_none hfree n)
      intro heq
      rw [heq] at hfree
      exact absurd known hfree
    obtain ⟨js, hjs, hjoins, hscope, hmidSound, hmidKeeps⟩ :=
      ihbelow hmid hadded hbelow hused hnone
    have hkeeps : p.Keeps mid.1 parent [name] := by
      intro other hother
      obtain ⟨hpath, hpathNew⟩ := keeps_addPath outer r target hnew other hother
      obtain ⟨hmidUsed, hmidNew⟩ := hmidKeeps other hpath
      refine ⟨hmidUsed, fun n hn htop => hmidNew n (hpathNew n hn htop) ?_⟩
      intro heq
      rw [heq] at hother
      exact absurd hother hfree
    obtain ⟨hparent, hparentNew⟩ := hkeeps parent known
    have hrestNew : ∀ n ∈ rest.tops, mid.1.aliases.get? parent n = none := by
      intro n hn
      apply hparentNew n (new n (List.mem_cons_of_mem name hn))
      intro _ hmem
      rw [List.mem_singleton.mp hmem] at hn
      exact hname hn
    obtain ⟨ks, hks, hlast, hlastScope, hlastSound, hlastKeeps⟩ :=
      ihrest h hmidSound hrest hparent hrestNew
    refine ⟨_, .join hr htarget hjs hks, ?_, ?_, hlastSound, ?_⟩
    · rw [hlast, hjoins, addPath_joins outer r target hnew]
      simp only [List.append_assoc, List.cons_append, List.nil_append]
    · rw [hlastScope, hscope, ← Scope.afterJoins_append]
      rfl
    · intro other hother
      obtain ⟨hmidUsed, hmidNew⟩ := hkeeps other hother
      obtain ⟨hlastUsed, hlastNew⟩ := hlastKeeps other hmidUsed
      refine ⟨hlastUsed, fun n hn htop => ?_⟩
      apply hlastNew n (hmidNew n hn fun heq hmem => ?_)
      · exact fun heq hmem => htop heq (List.mem_cons_of_mem name hmem)
      · exact htop heq (List.mem_singleton.mp hmem ▸ List.mem_cons_self)

theorem joinRoots_sound {schema : Schema} {child : String}
    {roots : List (PreviousRoot σ)} {out : Planning σ × List Level}
    (h : joinRoots schema child roots p = .ok out) (sound : p.Sound)
    (distinct : ∀ root ∈ roots, root.join.Distinct) :
    ∃ js, RootJoins schema child roots js out.2 ∧ out.1.joins = p.joins ++ js ∧ out.1.Sound := by
  induction roots generalizing child p out with
  | nil =>
    cases h
    exact ⟨[], .nil, (List.append_nil _).symm, sound⟩
  | cons root rest ih =>
    obtain ⟨mid, last, hmid, hlast, rfl⟩ := joinRoots_cons_eq_ok.mp h
    obtain ⟨hroot, hrest⟩ := List.forall_mem_cons.mp distinct
    have hused : p.rootAliasOf root ∈ (p.addRoot child root).aliases.used :=
      List.mem_append_right _ (List.mem_singleton_self _)
    have hnone : ∀ n ∈ root.join.tops,
        (p.addRoot child root).aliases.get? (p.rootAliasOf root) n = none := fun n _ =>
      sound.aliases.get?_eq_none (Aliases.reserve_not_mem p.aliases _) n
    obtain ⟨js, hjs, hjoins, hscope, hmidSound, _⟩ :=
      joinTree_sound hmid (sound.addRoot child root) hroot hused hnone
    obtain ⟨ks, hks, hlastJoins, hlastSound⟩ := ih hlast hmidSound hrest
    rw [hscope]
    refine ⟨_, .cons hjs hks, ?_, hlastSound⟩
    rw [hlastJoins, hjoins]
    unfold addRoot
    simp only [List.append_assoc, List.cons_append, List.nil_append]

end Planning

/-- The joins of a query that reads its table or a derived one are those of its own tree and those of
its previous roots, all with aliases of their own. -/
theorem Query.joins_of_plan {q : Query σ} {plan : Plan σ} (tables : ¬q.ReadsRaw)
    (h : q.plan = .ok plan) (distinct : q.attrs.join.Distinct)
    (previous : ∀ root ∈ q.previous, root.join.Distinct) :
    ∃ js ks, TreeJoins q.schema q.source rootAlias false q.attrs.join js ∧
      RootJoins q.schema rootAlias q.previous ks plan.levels ∧
      plan.joins = js ++ ks ∧ plan.scope = Scope.top.afterJoins js ∧
      (rootAlias :: plan.joins.map (·.name)).Nodup := by
  rw [plan_of_not_readsRaw tables] at h
  obtain ⟨own, last, hown, hlast, rfl⟩ := planTables_eq_ok.mp h
  obtain ⟨js, hjs, hjoins, hscope, hsound, _⟩ :=
    Planning.joinTree_sound hown Planning.sound_start distinct List.mem_cons_self fun _ _ => rfl
  obtain ⟨ks, hks, hlastJoins, hlastSound⟩ := Planning.joinRoots_sound hlast hsound previous
  refine ⟨js, ks, hjs, hks, ?_, hscope, hlastSound.nodup⟩
  rw [hlastJoins, hjoins]
  rfl

end RelQuery
