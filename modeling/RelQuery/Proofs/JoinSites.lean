import Mathlib.Logic.Function.Basic
import RelQuery.Proofs.JoinPlans
import RelQuery.Proofs.Chains

/-!
# The places of joins

A plan has one join for every path of a join tree and for every previous root. Each join connects a
new place to one that the plan knows already, along the relationship that one of the two declares.
-/

namespace RelQuery

set_option autoImplicit false

/-- A place in a plan: the root of a level, or what a path of relationships leads to from there. The
root of level 0 is the query's own. -/
structure JoinSite where
  level : Nat
  path : List String
deriving DecidableEq, Repr

namespace JoinSite

def top : JoinSite := ⟨0, []⟩

def relationship (site : JoinSite) : String := site.path.getLastD ""

end JoinSite

variable {σ : Type}

def rootSites (level : Nat) : List (PreviousRoot σ) → List JoinSite
  | [] => []
  | root :: rest =>
    ⟨level, []⟩ :: (root.join.names.map (JoinSite.mk level) ++ rootSites (level + 1) rest)

/-- The scope of a level: its root, and the relationships of its tree where they are joined. -/
def levelScope (aliasOf : JoinSite → String) (level : Nat) (t : JoinTree) : Scope :=
  (t.names.map (JoinSite.mk level)).foldl (fun s site => s.rename site.relationship (aliasOf site))
    (Scope.ofRoot (aliasOf ⟨level, []⟩))

def rootLevels (aliasOf : JoinSite → String) (level : Nat) : List (PreviousRoot σ) → List Level
  | [] => []
  | root :: rest =>
    ⟨levelScope aliasOf level root.join, root.conditions⟩ :: rootLevels aliasOf (level + 1) rest

def Schema.follow (schema : Schema) (s : Source) (name : String) : Option Source := do
  let r ← s.relationship? name
  schema.source? r.target

theorem Schema.follow_eq_some {schema : Schema} {s target : Source} {name : String} :
    schema.follow s name = some target ↔
      ∃ r, s.relationship? name = some r ∧ schema.source r.target = .ok target := by
  unfold follow
  simp only [source_eq_ok]
  exact Option.bind_eq_some_iff

namespace Query

variable (q : Query σ)

/-- The places of the joins, in order: the paths of the query's own tree, and each previous root with
the paths of its tree. -/
def sites : List JoinSite :=
  q.attrs.join.names.map (JoinSite.mk 0) ++ rootSites 1 q.previous

def rootSources : List Source := q.source :: q.previous.map (·.source)

def sourceAt (site : JoinSite) : Option Source := do
  let s ← q.rootSources[site.level]?
  site.path.foldlM q.schema.follow s

/-- A join that connects a place to its parent: along a relationship that the source at the parent
declares, or from a root to the previous one, whose relationship leads back. -/
inductive Joins (aliasOf : JoinSite → String) (parent : JoinSite) :
    JoinSite → PlannedJoin σ → Prop where
  | path {name : String} {source target : Source} {r : Relationship} {joinType : JoinType}
    (declaring : q.sourceAt parent = some source) (declared : source.relationship? name = some r)
    (found : q.schema.source r.target = .ok target) :
    Joins aliasOf parent ⟨parent.level, parent.path ++ [name]⟩
      ⟨joinType, .table target.table, aliasOf ⟨parent.level, parent.path ++ [name]⟩, r.condition,
        ⟨aliasOf ⟨parent.level, parent.path ++ [name]⟩, aliasOf parent, name⟩⟩
  | previous {root : PreviousRoot σ} (onRoot : parent.path = [])
    (found : q.previous[parent.level]? = some root) :
    Joins aliasOf parent ⟨parent.level + 1, []⟩
      ⟨.inner, Planning.rootTarget root, aliasOf ⟨parent.level + 1, []⟩,
        root.relationship.condition,
        ⟨aliasOf parent, aliasOf ⟨parent.level + 1, []⟩, root.relationship.name⟩⟩

inductive Placed (aliasOf : JoinSite → String) :
    List JoinSite → List JoinSite → List (PlannedJoin σ) → Prop where
  | nil {known : List JoinSite} : Placed aliasOf known [] []
  | cons {known sites : List JoinSite} {parent site : JoinSite} {j : PlannedJoin σ}
    {js : List (PlannedJoin σ)} (mem : parent ∈ known) (joins : q.Joins aliasOf parent site j)
    (rest : Placed aliasOf (known ++ [site]) sites js) :
    Placed aliasOf known (site :: sites) (j :: js)

variable {q} {aliasOf : JoinSite → String} {known : List JoinSite}

theorem Placed.append {ss ts : List JoinSite} {js ks : List (PlannedJoin σ)}
    (hs : q.Placed aliasOf known ss js) (ht : q.Placed aliasOf (known ++ ss) ts ks) :
    q.Placed aliasOf known (ss ++ ts) (js ++ ks) := by
  induction hs with
  | nil =>
    rw [List.append_nil] at ht
    exact ht
  | cons mem joins _ ih =>
    refine .cons mem joins (ih ?_)
    rw [List.append_assoc]
    exact ht

theorem Joins.name_eq {parent site : JoinSite} {j : PlannedJoin σ}
    (h : q.Joins aliasOf parent site j) : j.name = aliasOf site := by
  cases h with
  | path _ _ _ => rfl
  | previous _ _ => rfl

theorem Joins.relationship_eq {parent site : JoinSite} {j : PlannedJoin σ}
    (h : q.Joins aliasOf parent site j) (path : site.path ≠ []) :
    j.aliases.relationship = site.relationship := by
  cases h with
  | path _ _ _ => exact List.getLastD_concat.symm
  | previous _ _ => exact absurd rfl path

theorem Placed.afterJoins_eq {sites : List JoinSite} {js : List (PlannedJoin σ)}
    (h : q.Placed aliasOf known sites js) (paths : ∀ site ∈ sites, site.path ≠ []) (scope : Scope) :
    scope.afterJoins js =
      sites.foldl (fun s site => s.rename site.relationship (aliasOf site)) scope := by
  induction h generalizing scope with
  | nil => rfl
  | cons _ joins _ ih =>
    obtain ⟨hpath, hpaths⟩ := List.forall_mem_cons.mp paths
    rw [List.foldl_cons, ← joins.relationship_eq hpath, ← joins.name_eq]
    exact ih hpaths _

end Query

theorem TreeJoins.length_eq {schema : Schema} {source : Source} {parent : String} {outer : Bool}
    {t : JoinTree} {js : List (PlannedJoin σ)} (h : TreeJoins schema source parent outer t js)
    (above : List String) : (t.pathsFrom above).length = js.length := by
  induction h generalizing above with
  | none => rfl
  | join _ _ _ _ ihinside ihafter =>
    unfold JoinTree.pathsFrom
    rw [List.length_cons, List.length_append, ihinside, ihafter, List.length_cons,
      List.length_append]

theorem RootJoins.length_eq {schema : Schema} {child : String} {roots : List (PreviousRoot σ)}
    {js : List (PlannedJoin σ)} {levels : List Level} (h : RootJoins schema child roots js levels)
    (level : Nat) : (rootSites level roots).length = js.length := by
  induction h generalizing level with
  | nil => rfl
  | cons inside _ ih =>
    unfold rootSites JoinTree.names
    rw [List.length_cons, List.length_append, List.length_map, inside.length_eq, ih,
      List.length_cons, List.length_append]

section Placing

variable {q : Query σ} {aliasOf : JoinSite → String}

theorem sourceAt_path {level : Nat} {path : List String} {name : String} {source target : Source}
    {r : Relationship} (h : q.sourceAt ⟨level, path⟩ = some source)
    (declared : source.relationship? name = some r) (found : q.schema.source r.target = .ok target) :
    q.sourceAt ⟨level, path ++ [name]⟩ = some target := by
  obtain ⟨s, hs, hpath⟩ := Option.bind_eq_some_iff.mp h
  have hfollow : q.schema.follow source name = some target :=
    Schema.follow_eq_some.mpr ⟨r, declared, found⟩
  refine Option.bind_eq_some_iff.mpr ⟨s, hs, ?_⟩
  rw [List.foldlM_append, hpath]
  simpa using hfollow

theorem sourceAt_root {level : Nat} {root : PreviousRoot σ} (h : q.previous[level]? = some root) :
    q.sourceAt ⟨level + 1, []⟩ = some root.source := by
  refine Option.bind_eq_some_iff.mpr ⟨root.source, ?_, rfl⟩
  unfold Query.rootSources
  rw [List.getElem?_cons_succ, List.getElem?_map, h]
  rfl

theorem TreeJoins.placed {source : Source} {parent : String} {outer : Bool} {t : JoinTree}
    {js : List (PlannedJoin σ)} (h : TreeJoins q.schema source parent outer t js) {level : Nat}
    {path : List String} {known : List JoinSite} (mem : ⟨level, path⟩ ∈ known)
    (declaring : q.sourceAt ⟨level, path⟩ = some source) (top : aliasOf ⟨level, path⟩ = parent)
    (names : (t.pathsFrom path).map (aliasOf ⟨level, ·⟩) = js.map (·.name)) :
    q.Placed aliasOf known ((t.pathsFrom path).map (JoinSite.mk level)) js := by
  induction h generalizing path known with
  | none => exact .nil
  | @join source target parent joined name outer below rest r js ks declared found inside after
      ihinside ihafter =>
    unfold JoinTree.pathsFrom at names ⊢
    obtain ⟨hjoined, hnames⟩ := List.cons.inj names
    rw [List.map_append, List.map_append] at hnames
    obtain ⟨hinside, hafter⟩ := List.append_inj hnames
      (by rw [List.length_map, List.length_map, inside.length_eq])
    dsimp only at hjoined
    subst top hjoined
    rw [List.map_cons, List.map_append]
    refine .cons mem (.path declaring declared found) (.append (ihinside ?_ ?_ rfl hinside)
      (ihafter ?_ declaring rfl hafter))
    · exact List.mem_append_right _ (List.mem_singleton_self _)
    · exact sourceAt_path declaring declared found
    · exact List.mem_append_left _ (List.mem_append_left _ mem)

theorem scope_of_placed {t : JoinTree} {js : List (PlannedJoin σ)} {level : Nat}
    {known : List JoinSite}
    (h : q.Placed aliasOf known (t.names.map (JoinSite.mk level)) js) :
    (Scope.ofRoot (aliasOf ⟨level, []⟩)).afterJoins js = levelScope aliasOf level t := by
  apply h.afterJoins_eq
  intro site hsite
  obtain ⟨path, hpath, rfl⟩ := List.mem_map.mp hsite
  exact JoinTree.ne_nil_of_mem_names hpath

theorem RootJoins.placed {child : String} {roots : List (PreviousRoot σ)}
    {js : List (PlannedJoin σ)} {levels : List Level}
    (h : RootJoins q.schema child roots js levels) {level : Nat}
    (previous : q.previous.drop level = roots) {known : List JoinSite}
    (mem : ⟨level, []⟩ ∈ known) (top : aliasOf ⟨level, []⟩ = child)
    (names : (rootSites (level + 1) roots).map aliasOf = js.map (·.name)) :
    q.Placed aliasOf known (rootSites (level + 1) roots) js ∧
      levels = rootLevels aliasOf (level + 1) roots := by
  induction h generalizing level known with
  | nil => exact ⟨.nil, rfl⟩
  | @cons child joined root rest js ks levels inside after ih =>
    have hroot : q.previous[level]? = some root := by
      have hfirst := congrArg List.head? previous
      rwa [List.head?_drop] at hfirst
    have hrest : q.previous.drop (level + 1) = rest := by
      rw [← List.tail_drop, previous]
      rfl
    unfold rootSites JoinTree.names at names
    obtain ⟨hjoined, hnames⟩ := List.cons.inj names
    rw [List.map_append, List.map_append, List.map_map] at hnames
    obtain ⟨hinside, hafter⟩ := List.append_inj hnames
      (by rw [List.length_map, List.length_map, inside.length_eq])
    dsimp only at hjoined
    subst top hjoined
    have hmem : (⟨level + 1, []⟩ : JoinSite) ∈ known ++ [⟨level + 1, []⟩] :=
      List.mem_append_right _ (List.mem_singleton_self _)
    have hown := inside.placed hmem (sourceAt_root hroot) rfl hinside
    obtain ⟨hlater, hlevels⟩ := ih hrest (List.mem_append_left _ hmem) rfl hafter
    refine ⟨.cons mem (.previous rfl hroot) (.append hown hlater), ?_⟩
    unfold rootLevels
    rw [hlevels, scope_of_placed hown]

end Placing

section Distinct

variable {level : Nat} {roots : List (PreviousRoot σ)}

theorem level_le_of_mem_rootSites {site : JoinSite} (h : site ∈ rootSites level roots) :
    level ≤ site.level := by
  induction roots generalizing level with
  | nil => exact absurd h List.not_mem_nil
  | cons root rest ih =>
    rcases List.mem_cons.mp h with rfl | h
    · exact Nat.le_refl level
    · rcases List.mem_append.mp h with h | h
      · obtain ⟨path, _, rfl⟩ := List.mem_map.mp h
        exact Nat.le_refl level
      · have hnext := ih h
        omega

theorem nodup_levelSites {t : JoinTree} (distinct : t.Distinct)
    (nodup : (rootSites (level + 1) roots).Nodup) :
    ((⟨level, []⟩ : JoinSite) ::
      (t.names.map (JoinSite.mk level) ++ rootSites (level + 1) roots)).Nodup := by
  have hlater : ∀ site ∈ rootSites (level + 1) roots, site.level ≠ level := by
    intro site hsite
    have hle := level_le_of_mem_rootSites hsite
    omega
  rw [List.nodup_cons, List.nodup_append]
  refine ⟨?_, ?_, nodup, ?_⟩
  · intro h
    rcases List.mem_append.mp h with h | h
    · obtain ⟨path, hpath, heq⟩ := List.mem_map.mp h
      exact JoinTree.ne_nil_of_mem_names hpath (congrArg JoinSite.path heq)
    · exact hlater _ h rfl
  · exact (List.nodup_map_iff fun _ _ h => congrArg JoinSite.path h).mpr
      (JoinTree.nodup_names distinct)
  · rintro site hsite other hother rfl
    obtain ⟨path, _, rfl⟩ := List.mem_map.mp hsite
    exact hlater _ hother rfl

theorem nodup_rootSites (distinct : ∀ root ∈ roots, root.join.Distinct) (level : Nat) :
    (rootSites level roots).Nodup := by
  induction roots generalizing level with
  | nil => exact List.nodup_nil
  | cons root rest ih =>
    obtain ⟨hroot, hrest⟩ := List.forall_mem_cons.mp distinct
    exact nodup_levelSites hroot (ih hrest (level + 1))

end Distinct

theorem exists_map_eq {α β : Type} [Inhabited β] {as : List α} {bs : List β} (nodup : as.Nodup)
    (length : as.length = bs.length) : ∃ f : α → β, as.map f = bs := by
  classical
  induction as generalizing bs with
  | nil => exact ⟨fun _ => default, (List.length_eq_zero_iff.mp length.symm).symm⟩
  | cons a as ih =>
    cases bs with
    | nil => exact absurd length (by simp)
    | cons b bs =>
      obtain ⟨hfirst, hrest⟩ := List.nodup_cons.mp nodup
      obtain ⟨f, hf⟩ := ih hrest (Nat.succ.inj length)
      refine ⟨Function.update f a b, ?_⟩
      rw [List.map_cons, Function.update_self, ← hf]
      refine congrArg (b :: ·) (List.map_congr_left fun c hc => ?_)
      apply Function.update_of_ne
      rintro rfl
      exact hfirst hc

def PlannedJoin.Extends (before : List String) (j : PlannedJoin σ) : Prop :=
  (j.aliases.foreign = j.name ∧ j.aliases.own ∈ before) ∨
    (j.aliases.own = j.name ∧ j.aliases.foreign ∈ before)

namespace Query

variable {q : Query σ} {aliasOf : JoinSite → String}

/-- The own side of a join stands for a source that declares its relationship, and the foreign side
for the source that the relationship leads to. -/
def Connects (q : Query σ) (aliasOf : JoinSite → String) (sites : List JoinSite)
    (j : PlannedJoin σ) : Prop :=
  ∃ own ∈ sites, ∃ foreign ∈ sites,
    aliasOf own = j.aliases.own ∧ aliasOf foreign = j.aliases.foreign ∧
    ∃ source target r, q.sourceAt own = some source ∧ q.sourceAt foreign = some target ∧
      source.relationship? j.aliases.relationship = some r ∧ j.condition = r.condition ∧
      q.schema.source r.target = .ok target

variable {parent site : JoinSite} {j : PlannedJoin σ} {known sites : List JoinSite}
  {js : List (PlannedJoin σ)}

theorem Joins.extends (h : q.Joins aliasOf parent site j) {before : List String}
    (mem : aliasOf parent ∈ before) : j.Extends before := by
  cases h with
  | path _ _ _ => exact .inl ⟨rfl, mem⟩
  | previous _ _ => exact .inr ⟨rfl, mem⟩

theorem Joins.connects (h : q.Joins aliasOf parent site j)
    (linked : Linked q.schema q.source q.previous) (hparent : parent ∈ known)
    (hsite : site ∈ known) : q.Connects aliasOf known j := by
  cases h with
  | path declaring declared found =>
    exact ⟨parent, hparent, _, hsite, rfl, rfl, _, _, _, declaring,
      sourceAt_path declaring declared found, declared, rfl, found⟩
  | previous onRoot found =>
    obtain ⟨hdeclared, s, hs, htarget⟩ := linked.declared found
    have hsource : q.sourceAt parent = some s := by
      refine Option.bind_eq_some_iff.mpr ⟨s, hs, ?_⟩
      rw [onRoot]
      rfl
    exact ⟨_, hsite, parent, hparent, rfl, rfl, _, s, _, sourceAt_root found, hsource, hdeclared,
      rfl, htarget⟩

theorem Placed.extends (h : q.Placed aliasOf known sites js) {before after : List (PlannedJoin σ)}
    (heq : js = before ++ j :: after) :
    j.Extends (known.map aliasOf ++ before.map (·.name)) := by
  induction h generalizing before with
  | nil => exact absurd heq (by simp)
  | cons mem joins rest ih =>
    cases before with
    | nil =>
      cases heq
      exact joins.extends (List.mem_append_left _ (List.mem_map_of_mem mem))
    | cons first before =>
      obtain ⟨rfl, hrest⟩ := List.cons.inj heq
      have hnext := ih hrest
      rw [List.map_append, List.append_assoc] at hnext
      rw [List.map_cons, joins.name_eq]
      exact hnext

theorem Placed.connects (h : q.Placed aliasOf known sites js)
    (linked : Linked q.schema q.source q.previous) :
    ∀ j ∈ js, q.Connects aliasOf (known ++ sites) j := by
  induction h with
  | nil => exact fun _ hj => absurd hj List.not_mem_nil
  | cons mem joins _ ih =>
    rw [List.append_assoc] at ih
    refine List.forall_mem_cons.mpr ⟨joins.connects linked ?_ ?_, ih⟩
    · exact List.mem_append_left _ mem
    · exact List.mem_append_right _ List.mem_cons_self

structure WellPlanned (q : Query σ) (aliasOf : JoinSite → String) (plan : Plan σ) : Prop where
  top : aliasOf .top = rootAlias
  sites_nodup : (JoinSite.top :: q.sites).Nodup
  placed : q.Placed aliasOf [.top] q.sites plan.joins
  names : plan.joins.map (·.name) = q.sites.map aliasOf
  names_nodup : (rootAlias :: plan.joins.map (·.name)).Nodup
  extends_before : ∀ before j after, plan.joins = before ++ j :: after →
    j.Extends (rootAlias :: before.map (·.name))
  connects : ∀ j ∈ plan.joins, q.Connects aliasOf (.top :: q.sites) j
  scope : plan.scope = levelScope aliasOf 0 q.attrs.join
  levels : plan.levels = rootLevels aliasOf 1 q.previous

theorem Coherent.exists_wellPlanned {schema : Schema} (coherent : q.Coherent schema)
    (tables : ¬q.ReadsRaw) {plan : Plan σ} (planned : q.plan = .ok plan) :
    ∃ aliasOf, q.WellPlanned aliasOf plan := by
  obtain ⟨hschema, _, hdistinct, hlinked⟩ := coherent
  rw [← hschema] at hlinked
  obtain ⟨js, ks, hjs, hks, hjoins, hscope, hnames⟩ :=
    joins_of_plan tables planned hdistinct hlinked.distinct
  have hsites : (JoinSite.top :: q.sites).Nodup :=
    nodup_levelSites hdistinct (nodup_rootSites hlinked.distinct 1)
  have hown : (q.attrs.join.names.map (JoinSite.mk 0)).length = js.length := by
    rw [List.length_map]
    exact hjs.length_eq []
  have hlength : (JoinSite.top :: q.sites).length =
      (rootAlias :: plan.joins.map (·.name)).length := by
    unfold sites
    rw [List.length_cons, List.length_append, hown, hks.length_eq 1, List.length_cons,
      List.length_map, hjoins, List.length_append]
  obtain ⟨aliasOf, haliases⟩ := exists_map_eq hsites hlength
  obtain ⟨htop, hrest⟩ := List.cons.inj haliases
  have hboth := hrest
  unfold sites at hboth
  rw [hjoins, List.map_append, List.map_append] at hboth
  obtain ⟨hjsNames, hksNames⟩ := List.append_inj hboth
    (by rw [List.length_map, hown, List.length_map])
  rw [List.map_map] at hjsNames
  have hmem : JoinSite.top ∈ [JoinSite.top] := List.mem_cons_self
  have htree := hjs.placed hmem rfl htop hjsNames
  obtain ⟨hroots, hlevels⟩ := hks.placed rfl (List.mem_append_left _ hmem) htop hksNames
  have hplaced : q.Placed aliasOf [.top] q.sites plan.joins := by
    rw [hjoins]
    exact .append htree hroots
  have hscopes : plan.scope = levelScope aliasOf 0 q.attrs.join := by
    have hroot : Scope.ofRoot (aliasOf ⟨0, []⟩) = Scope.top := congrArg Scope.ofRoot htop
    rw [hscope, ← scope_of_placed htree, hroot]
  refine ⟨aliasOf, htop, hsites, hplaced, hrest.symm, hnames, ?_, hplaced.connects hlinked, hscopes,
    hlevels⟩
  intro before j after heq
  rw [← htop]
  exact hplaced.extends heq

end Query

/-- The plan of every set that is reached is well formed, unless the set reads raw SQL. -/
theorem Reached.wellPlanned {schema : Schema} {rs : ResultSet} {plan : Plan ResultSet}
    (reached : Reached schema rs) (tables : ¬rs.query.ReadsRaw) (planned : rs.query.plan = .ok plan) :
    ∃ aliasOf, rs.query.WellPlanned aliasOf plan :=
  reached.coherent.exists_wellPlanned tables planned

namespace Library

def joinedAuthors : ResultSet :=
  (ResultSet.ofSource schema author).search none
    (some { join := .ofPaths ["pupils", "books.writer"] })

def joinedBooks : ResultSet :=
  ⟨{ schema := schema
     source := book
     attrs := { join := .ofPaths ["writer.pupils"] }
     previous := [⟨author, booksOfAuthor, [], .ofPaths ["pupils", "books.writer"], none⟩] }⟩

theorem reached_joinedBooks : Reached schema joinedBooks := by
  have hall : schema.resultSet "Author" = .ok (ResultSet.ofSource schema author) := rfl
  have hbuilt (paths : List String) :
      ∀ a ∈ some { join := JoinTree.ofPaths paths : Attributes ResultSet }, a.join.Built := by
    intro a ha
    cases ha
    exact JoinTree.built_ofPaths paths
  have hauthors : Reached schema joinedAuthors := .search none _ (hbuilt _) (.all hall)
  exact .related "books" none (some { join := .ofPaths ["writer.pupils"] }) (hbuilt _) hauthors rfl

end Library

theorem wellPlanned_joinedBooks : ∃ plan aliasOf,
    Library.joinedBooks.query.plan = .ok plan ∧
    plan.joins.map (·.name) = ["writer", "pupils", "author", "pupils_2", "books", "writer_2"] ∧
    Library.joinedBooks.query.WellPlanned aliasOf plan := by
  have htables : ¬Library.joinedBooks.query.ReadsRaw := by
    rintro ⟨sql, values, h⟩
    cases h
  obtain ⟨aliasOf, h⟩ := Library.reached_joinedBooks.wellPlanned htables rfl
  exact ⟨_, aliasOf, rfl, rfl, h⟩

end RelQuery
