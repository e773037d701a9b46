import Mathlib.Data.List.Induction
import RelQuery.Proofs.JoinSites
import RelQuery.Proofs.KnownSources

/-!
# Outer joins

The types of the joins along paths. The joins inside an outer one are outer, at whatever depth, and
every other join has the type of its relationship.
-/

namespace RelQuery

set_option autoImplicit false

namespace JoinSite

def parent (site : JoinSite) : JoinSite := ⟨site.level, site.path.dropLast⟩

/-- A joined path that another one of its level leads on from, in one step or in several. -/
structure Encloses (above site : JoinSite) : Prop where
  level : above.level = site.level
  path : above.path ≠ []
  leads : above.path <+: site.path
  ne : above.path ≠ site.path

variable {above : JoinSite} {level : Nat} {front : List String} {name : String}

theorem parent_concat : parent ⟨level, front ++ [name]⟩ = ⟨level, front⟩ := by
  unfold parent
  rw [List.dropLast_concat]

theorem relationship_concat : relationship ⟨level, front ++ [name]⟩ = name :=
  List.getLastD_concat

theorem encloses_concat : above.Encloses ⟨level, front ++ [name]⟩ ↔
    (above = ⟨level, front⟩ ∧ front ≠ []) ∨ above.Encloses ⟨level, front⟩ := by
  constructor
  · rintro ⟨hlevel, hpath, hleads, hne⟩
    rcases List.prefix_concat_iff.mp hleads with heq | hleads
    · exact absurd heq hne
    · by_cases hfront : above.path = front
      · obtain ⟨aboveLevel, abovePath⟩ := above
        subst hlevel hfront
        exact .inl ⟨rfl, hpath⟩
      · exact .inr ⟨hlevel, hpath, hleads, hfront⟩
  · rintro (⟨rfl, hfront⟩ | ⟨hlevel, hpath, hleads, _⟩)
    · exact ⟨rfl, hfront, List.prefix_append _ _, by simp⟩
    · refine ⟨hlevel, hpath, hleads.trans (List.prefix_append _ _),
        fun (heq : above.path = front ++ [name]) => ?_⟩
      have hle : (front ++ [name]).length ≤ front.length := heq ▸ hleads.length_le
      rw [List.length_append, List.length_singleton] at hle
      omega

theorem not_encloses_first : ¬above.Encloses ⟨level, [] ++ [name]⟩ := by
  intro h
  rcases encloses_concat.mp h with ⟨_, hne⟩ | hroot
  · exact hne rfl
  · exact hroot.path (List.prefix_nil.mp hroot.leads)

end JoinSite

variable {σ : Type}

def InsideOuter (placed : List (JoinSite × PlannedJoin σ)) (site : JoinSite) : Prop :=
  ∃ above k, above.Encloses site ∧ (above, k) ∈ placed ∧ k.joinType.isOuter = true

/-- Whether a place is joined by an outer join. A root is not. -/
inductive OuterAt (placed : List (JoinSite × PlannedJoin σ)) : JoinSite → Bool → Prop where
  | root {level : Nat} : OuterAt placed ⟨level, []⟩ false
  | path {site : JoinSite} {k : PlannedJoin σ} (ne : site.path ≠ []) (mem : (site, k) ∈ placed) :
    OuterAt placed site k.joinType.isOuter

theorem OuterAt.exists_join {placed : List (JoinSite × PlannedJoin σ)} {level : Nat}
    {front : List String} {name : String} {outer : Bool}
    (h : OuterAt placed ⟨level, front ++ [name]⟩ outer) :
    ∃ k, (⟨level, front ++ [name]⟩, k) ∈ placed ∧ outer = k.joinType.isOuter := by
  generalize hsite : (⟨level, front ++ [name]⟩ : JoinSite) = site at h
  cases h with
  | root => exact absurd (congrArg JoinSite.path hsite) (by simp)
  | @path _ k _ mem => exact ⟨k, mem, rfl⟩

namespace Query

variable (q : Query σ)

def placedJoins (plan : Plan σ) : List (JoinSite × PlannedJoin σ) := q.sites.zip plan.joins

structure Along (site : JoinSite) (j : PlannedJoin σ) (s : Source) (r : Relationship) : Prop where
  source : q.sourceAt site.parent = some s
  declared : s.relationship? site.relationship = some r
  relationship : j.aliases.relationship = site.relationship
  condition : j.condition = r.condition

/-- What one step along a path does to the type of a join: it depends on the type of the join in
front of it only. -/
def Inherits (placed : List (JoinSite × PlannedJoin σ)) (site : JoinSite) (j : PlannedJoin σ) :
    Prop :=
  ∃ s r outer, q.Along site j s r ∧ OuterAt placed site.parent outer ∧
    j.joinType = r.joinType.below outer

end Query

section Steps

variable {q : Query σ} {placed : List (JoinSite × PlannedJoin σ)} {level : Nat}

theorem TreeJoins.inherits {source : Source} {parent : String} {outer : Bool} {t : JoinTree}
    {js : List (PlannedJoin σ)} (h : TreeJoins q.schema source parent outer t js)
    {path : List String} (declaring : q.sourceAt ⟨level, path⟩ = some source)
    (front : OuterAt placed ⟨level, path⟩ outer)
    (mem : ∀ p ∈ ((t.pathsFrom path).map (JoinSite.mk level)).zip js, p ∈ placed) :
    ∀ p ∈ ((t.pathsFrom path).map (JoinSite.mk level)).zip js, q.Inherits placed p.1 p.2 := by
  induction h generalizing path with
  | none => exact fun _ hp => absurd hp List.not_mem_nil
  | @join source target parent joined name outer below rest r js ks declared found inside after
      ihinside ihafter =>
    have hlength :
        ((below.pathsFrom (path ++ [name])).map (JoinSite.mk level)).length = js.length := by
      rw [List.length_map, inside.length_eq]
    unfold JoinTree.pathsFrom at mem ⊢
    rw [List.map_cons, List.map_append, List.zip_cons_cons, List.zip_append hlength] at mem ⊢
    obtain ⟨hfirst, hrest⟩ := List.forall_mem_cons.mp mem
    obtain ⟨hinside, hafter⟩ := List.forall_mem_append.mp hrest
    refine List.forall_mem_cons.mpr ⟨?_, List.forall_mem_append.mpr ⟨?_, ?_⟩⟩
    · refine ⟨source, r, outer, ⟨?_, ?_, ?_, rfl⟩, ?_, rfl⟩
      · rw [JoinSite.parent_concat]
        exact declaring
      · rw [JoinSite.relationship_concat]
        exact declared
      · exact JoinSite.relationship_concat.symm
      · rw [JoinSite.parent_concat]
        exact front
    · exact ihinside (sourceAt_path declaring declared found) (.path (by simp) hfirst) hinside
    · exact ihafter declaring front hafter

theorem RootJoins.inherits {child : String} {roots : List (PreviousRoot σ)}
    {js : List (PlannedJoin σ)} {levels : List Level}
    (h : RootJoins q.schema child roots js levels) (previous : q.previous.drop level = roots)
    (mem : ∀ p ∈ (rootSites (level + 1) roots).zip js, p ∈ placed) :
    ∀ p ∈ (rootSites (level + 1) roots).zip js, p.1.path ≠ [] → q.Inherits placed p.1 p.2 := by
  induction h generalizing level with
  | nil => exact fun _ hp => absurd hp List.not_mem_nil
  | @cons child joined root rest js ks levels inside after ih =>
    have hroot : q.previous[level]? = some root := by
      have hfirst := congrArg List.head? previous
      rwa [List.head?_drop] at hfirst
    have hrest : q.previous.drop (level + 1) = rest := by
      rw [← List.tail_drop, previous]
      rfl
    have hlength : (root.join.names.map (JoinSite.mk (level + 1))).length = js.length := by
      rw [List.length_map]
      exact inside.length_eq []
    unfold rootSites at mem ⊢
    rw [List.zip_cons_cons, List.zip_append hlength] at mem ⊢
    obtain ⟨_, hmem⟩ := List.forall_mem_cons.mp mem
    obtain ⟨hinside, hafter⟩ := List.forall_mem_append.mp hmem
    refine List.forall_mem_cons.mpr ⟨fun hpath => absurd rfl hpath,
      List.forall_mem_append.mpr ⟨?_, ih hrest hafter⟩⟩
    intro p hp _
    exact inside.inherits (sourceAt_root hroot) .root hinside p hp

theorem Query.Coherent.inherits {schema : Schema} (coherent : q.Coherent schema) {plan : Plan σ}
    (planned : q.plan = .ok plan) :
    ∀ p ∈ q.placedJoins plan, p.1.path ≠ [] → q.Inherits (q.placedJoins plan) p.1 p.2 := by
  by_cases hraw : q.ReadsRaw
  · rw [plan_of_readsRaw hraw] at planned
    cases planned
    intro p hp
    unfold placedJoins at hp
    rw [List.zip_nil_right] at hp
    exact absurd hp List.not_mem_nil
  · obtain ⟨hschema, _, hdistinct, hlinked⟩ := coherent
    rw [← hschema] at hlinked
    obtain ⟨js, ks, hjs, hks, hjoins, _, _⟩ :=
      joins_of_plan hraw planned hdistinct hlinked.distinct
    have hlength : (q.attrs.join.names.map (JoinSite.mk 0)).length = js.length := by
      rw [List.length_map]
      exact hjs.length_eq []
    have hplaced : q.placedJoins plan =
        (q.attrs.join.names.map (JoinSite.mk 0)).zip js ++ (rootSites 1 q.previous).zip ks := by
      unfold placedJoins sites
      rw [hjoins, List.zip_append hlength]
    generalize hall : q.placedJoins plan = placed at hplaced ⊢
    obtain ⟨hown, hprevious⟩ := List.forall_mem_append.mp fun p (hp : p ∈ _ ++ _) =>
      (hplaced ▸ hp : p ∈ placed)
    rw [hplaced]
    refine List.forall_mem_append.mpr ⟨?_, ?_⟩
    · intro p hp _
      rw [← hplaced]
      exact hjs.inherits rfl .root hown p hp
    · rw [← hplaced]
      exact hks.inherits rfl hprevious

end Steps

theorem eq_of_mem_zip {α β : Type} {as : List α} {bs : List β} (nodup : as.Nodup) {a : α} {b c : β}
    (hb : (a, b) ∈ as.zip bs) (hc : (a, c) ∈ as.zip bs) : b = c := by
  obtain ⟨i, hi, hib⟩ := List.getElem_of_mem hb
  obtain ⟨n, hn, hnc⟩ := List.getElem_of_mem hc
  rw [List.getElem_zip] at hib hnc
  obtain ⟨hia, rfl⟩ := Prod.mk.inj hib
  obtain ⟨hna, rfl⟩ := Prod.mk.inj hnc
  have hsame : i = n := nodup.getElem_inj_iff.mp (hia.trans hna.symm)
  subst hsame
  rfl

section Runs

variable {q : Query σ} {placed : List (JoinSite × PlannedJoin σ)} {level : Nat}
  {path : List String} {outer : Bool}

theorem exists_join_of_encloses
    (steps : ∀ p ∈ placed, p.1.path ≠ [] → q.Inherits placed p.1 p.2)
    (h : OuterAt placed ⟨level, path⟩ outer) (name : String) {above : JoinSite}
    (encloses : above.Encloses ⟨level, path ++ [name]⟩) : ∃ k, (above, k) ∈ placed := by
  induction path using List.reverseRecOn generalizing outer name with
  | nil => exact absurd encloses JoinSite.not_encloses_first
  | append_singleton front last ih =>
    obtain ⟨k, hk, _⟩ := h.exists_join
    obtain ⟨_, _, _, _, hfront, _⟩ := steps _ hk (by simp)
    rw [JoinSite.parent_concat] at hfront
    rcases JoinSite.encloses_concat.mp encloses with ⟨rfl, _⟩ | habove
    · exact ⟨k, hk⟩
    · exact ih hfront last habove

/-- The flag of one step says what is true of the whole way down from the root. -/
theorem outer_iff_insideOuter (unique : ∀ site j k, (site, j) ∈ placed → (site, k) ∈ placed → j = k)
    (steps : ∀ p ∈ placed, p.1.path ≠ [] → q.Inherits placed p.1 p.2)
    (h : OuterAt placed ⟨level, path⟩ outer) (name : String) :
    outer = true ↔ InsideOuter placed ⟨level, path ++ [name]⟩ := by
  induction path using List.reverseRecOn generalizing outer name with
  | nil =>
    cases h with
    | path ne _ => exact absurd rfl ne
    | root =>
      refine ⟨fun h => absurd h Bool.false_ne_true, ?_⟩
      rintro ⟨_, _, habove, _, _⟩
      exact absurd habove JoinSite.not_encloses_first
  | append_singleton front last ih =>
    obtain ⟨j, hj, rfl⟩ := h.exists_join
    obtain ⟨_, r, before, _, hfront, htype⟩ := steps _ hj (by simp)
    rw [JoinSite.parent_concat] at hfront
    have hbefore := ih hfront last
    constructor
    · exact fun houter => ⟨_, j, JoinSite.encloses_concat.mpr (.inl ⟨rfl, by simp⟩), hj, houter⟩
    · rintro ⟨above, k, habove, hk, houter⟩
      rcases JoinSite.encloses_concat.mp habove with ⟨rfl, _⟩ | habove
      · rw [unique _ _ _ hj hk]
        exact houter
      · -- an outer join further up has made this one outer
        rw [htype, hbefore.mpr ⟨above, k, habove, hk, houter⟩]
        exact JoinType.below_true_isOuter r.joinType

end Runs

namespace Query

variable {q : Query σ} {schema : Schema}

theorem Covered.source_mem (h : q.Covered) {site : JoinSite} {s : Source}
    (hs : q.sourceAt site = some s) : s ∈ q.schema.sources := by
  obtain ⟨root, hroot, hpath⟩ := Option.bind_eq_some_iff.mp hs
  have hfirst : root ∈ q.schema.sources := by
    rcases List.mem_cons.mp (List.mem_of_getElem? hroot) with rfl | hmem
    · exact h.own
    · obtain ⟨previous, hprevious, rfl⟩ := List.mem_map.mp hmem
      exact h.roots previous hprevious
  clear hroot
  generalize site.path = path at hpath
  induction path generalizing root with
  | nil =>
    cases hpath
    exact hfirst
  | cons name path ih =>
    rw [List.foldlM_cons] at hpath
    obtain ⟨next, hnext, hpath⟩ := Option.bind_eq_some_iff.mp hpath
    obtain ⟨r, _, htarget⟩ := Option.bind_eq_some_iff.mp hnext
    exact ih next (List.mem_of_find?_eq_some htarget) hpath

theorem Coherent.sites_nodup (h : q.Coherent schema) : q.sites.Nodup :=
  (List.nodup_cons.mp (nodup_levelSites h.distinct (nodup_rootSites h.linked.distinct 1))).2

theorem Coherent.length_sites (h : q.Coherent schema) (tables : ¬q.ReadsRaw) {plan : Plan σ}
    (planned : q.plan = .ok plan) : plan.joins.length = q.sites.length := by
  obtain ⟨aliasOf, hplan⟩ := h.exists_wellPlanned tables planned
  have hlength := congrArg List.length hplan.names
  rwa [List.length_map, List.length_map] at hlength

theorem Coherent.map_placedJoins (h : q.Coherent schema) {plan : Plan σ}
    (planned : q.plan = .ok plan) : (q.placedJoins plan).map (·.2) = plan.joins := by
  refine List.map_snd_zip ?_
  by_cases hraw : q.ReadsRaw
  · rw [plan_of_readsRaw hraw] at planned
    cases planned
    exact Nat.zero_le _
  · exact Nat.le_of_eq (h.length_sites hraw planned)

/-- The type of a join along a path: all the paths that enclose it are joined, and an outer join
among them makes it outer. -/
structure JoinTyped (q : Query σ) (plan : Plan σ) (site : JoinSite) (j : PlannedJoin σ)
    (r : Relationship) : Prop where
  enclosed : ∀ above, above.Encloses site → ∃ k, (above, k) ∈ q.placedJoins plan
  inside : InsideOuter (q.placedJoins plan) site →
    j.joinType = if r.joinType = .full then .full else .left
  outside : ¬InsideOuter (q.placedJoins plan) site → j.joinType = r.joinType

theorem Coherent.exists_joinTyped (h : q.Coherent schema) {plan : Plan σ}
    (planned : q.plan = .ok plan) {site : JoinSite} {j : PlannedJoin σ} (mem : (site, j) ∈ q.placedJoins plan)
    (ne : site.path ≠ []) : ∃ s r, q.Along site j s r ∧ q.JoinTyped plan site j r := by
  have hsteps := h.inherits planned
  have hunique : ∀ other k l, (other, k) ∈ q.placedJoins plan → (other, l) ∈ q.placedJoins plan →
      k = l := fun _ _ _ hk hl => eq_of_mem_zip h.sites_nodup hk hl
  obtain ⟨s, r, outer, halong, hfront, htype⟩ := hsteps _ mem ne
  obtain ⟨level, path⟩ := site
  obtain ⟨front, name, rfl⟩ : ∃ front name, path = front ++ [name] :=
    ⟨_, _, (List.dropLast_append_getLast ne).symm⟩
  dsimp only at halong htype hfront
  rw [JoinSite.parent_concat] at hfront
  have houter := outer_iff_insideOuter hunique hsteps hfront name
  refine ⟨s, r, halong, fun _ => exists_join_of_encloses hsteps hfront name, ?_, ?_⟩
  · intro hinside
    rw [htype, houter.mpr hinside]
    cases r.joinType <;> rfl
  · intro houtside
    have hfalse : outer = false := Bool.eq_false_iff.mpr fun htrue => houtside (houter.mp htrue)
    rw [htype, hfalse]
    exact JoinType.below_false _

end Query

theorem Declaration.joinType_of_resolve {d : Declaration} {own target : Source} {r : Relationship}
    (h : d.resolve own target = .ok r) :
    r.joinType = d.overrides.joinType.getD d.kind.joinType := by
  obtain ⟨_, _, h⟩ := bind_eq_ok.mp h
  obtain ⟨_, _, h⟩ := bind_eq_ok.mp h
  rw [← pure_eq_ok.mp h]

theorem Reached.covered {schema : Schema} (closed : schema.Closed) {rs : ResultSet}
    (h : Reached schema rs) : rs.query.Covered := by
  induction h with
  | all found => exact (ResultSet.covered_resultSet closed found).own
  | search _ _ _ _ ih => exact ⟨ih.closed, ih.own, ih.roots⟩
  | asSubselect _ ih => exact ⟨ih.closed, ih.own, fun _ hroot => absurd hroot List.not_mem_nil⟩
  | @related rs _ name condition attrs _ _ found ih =>
    obtain ⟨related, hrelated, rfl⟩ := ResultSet.searchRelated_eq_some.mp found
    obtain ⟨r, target, previous, _, htarget, hprevious, rfl⟩ :=
      ResultSet.related_eq_ok.mp hrelated
    refine ⟨ih.closed, Schema.mem_of_source htarget, ?_⟩
    show ∀ root ∈ previous, root.source ∈ rs.query.schema.sources
    cases hrestricts : rs.query.attrs.restrictsRows with
    | true =>
      obtain ⟨keyed, _, rfl⟩ := (ResultSet.asPrevious_of_restricts hrestricts).mp hprevious
      intro root hroot
      rw [List.mem_singleton.mp hroot]
      exact ih.own
    | false =>
      rw [ResultSet.asPrevious_of_not_restricts hrestricts] at hprevious
      cases hprevious
      exact List.forall_mem_cons.mpr ⟨ih.own, ih.roots⟩

/-- Every path of a tree has its join. A join along a path of any level is outer if one that
encloses it is, and otherwise has the type that its relationship was declared with. -/
theorem Reached.joinTyped {steps : List SchemaStep} {schema : Schema} {rs : ResultSet}
    {plan : Plan ResultSet} (made : Schema.ofSteps steps = .ok schema)
    (built : ∀ s, .source s ∈ steps → s.Built) (reached : Reached schema rs)
    (planned : rs.query.plan = .ok plan) :
    (rs.query.placedJoins plan).map (·.2) = plan.joins ∧
    (¬rs.query.ReadsRaw → (rs.query.placedJoins plan).map (·.1) = rs.query.sites) ∧
    ∀ site j, (site, j) ∈ rs.query.placedJoins plan → site.path ≠ [] →
      ∃ s r d t, rs.query.Along site j s r ∧ .relate s.name d ∈ steps ∧ d.resolve s t = .ok r ∧
        r.joinType = d.overrides.joinType.getD d.kind.joinType ∧
        rs.query.JoinTyped plan site j r := by
  have hcoherent := reached.coherent
  have hconsistent := (Schema.recorded_of_ofSteps made built).consistent
  refine ⟨hcoherent.map_placedJoins planned, fun tables => ?_, fun site j mem path => ?_⟩
  · exact List.map_fst_zip (Nat.le_of_eq (hcoherent.length_sites tables planned).symm)
  · obtain ⟨s, r, halong, htyped⟩ := hcoherent.exists_joinTyped planned mem path
    have hs := (reached.covered hconsistent.targets).source_mem halong.source
    rw [hcoherent.schema_eq] at hs
    obtain ⟨d, t, hstep, _, hresolve⟩ :=
      hconsistent.declared s hs r (List.mem_of_find?_eq_some halong.declared)
    exact ⟨s, r, d, t, halong, hstep, hresolve, Declaration.joinType_of_resolve hresolve, htyped⟩

namespace Library

/-- The writers of the books of the authors are declared with an inner join, and the books with an
outer one. -/
theorem joinTyped_writersOfBooks : ∃ plan j,
    joinedBooks.query.plan = .ok plan ∧ writerOfBook.joinType = .inner ∧
    plan.joins.map (·.joinType) = [.inner, .left, .inner, .left, .left, .left] ∧
    (⟨1, ["books", "writer"]⟩, j) ∈ joinedBooks.query.placedJoins plan ∧ j.joinType = .left := by
  obtain ⟨plan, planned, htypes, j, k, hj, hk, houter⟩ : ∃ plan,
      joinedBooks.query.plan = .ok plan ∧
      plan.joins.map (·.joinType) = [.inner, .left, .inner, .left, .left, .left] ∧ ∃ j k,
        (⟨1, ["books", "writer"]⟩, j) ∈ joinedBooks.query.placedJoins plan ∧
        (⟨1, ["books"]⟩, k) ∈ joinedBooks.query.placedJoins plan ∧ k.joinType.isOuter = true :=
    ⟨_, rfl, rfl, _, _, .tail _ (.tail _ (.tail _ (.tail _ (.tail _ (.head _))))),
      .tail _ (.tail _ (.tail _ (.tail _ (.head _)))), rfl⟩
  have made : Schema.ofSteps steps = .ok schema := rfl
  obtain ⟨_, _, hall⟩ := Reached.joinTyped made built_steps reached_joinedBooks planned
  obtain ⟨s, r, _, _, halong, _, _, _, htyped⟩ := hall _ j hj (List.cons_ne_nil _ _)
  have hs : book = s := Option.some.inj halong.source
  subst hs
  have hr : writerOfBook = r := Option.some.inj halong.declared
  have hencloses : JoinSite.Encloses ⟨1, ["books"]⟩ ⟨1, ["books", "writer"]⟩ :=
    ⟨rfl, by decide, by decide, by decide⟩
  refine ⟨plan, j, planned, rfl, htypes, hj, ?_⟩
  rw [htyped.inside ⟨_, k, hencloses, hk, houter⟩, ← hr]
  rfl

end Library

end RelQuery
