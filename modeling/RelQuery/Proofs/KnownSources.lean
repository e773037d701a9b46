import RelQuery.Proofs.Clauses
import RelQuery.Proofs.DeletePlans
import RelQuery.Proofs.SchemaConsistency
import RelQuery.Proofs.SubSelects

/-!
# Operations that find their sources

In a schema that is made of built sources every relationship leads to a registered source. Compiling
a set, following its relationships and planning its delete look up sources, and never one that is
not registered.
-/

namespace RelQuery

set_option autoImplicit false

variable {σ α β : Type}

def Error.UnknownSource : Error → Prop
  | .configuration e => e.kind = .unknownSource
  | _ => False

/-- A computation may fail, but not for want of a source. -/
def FindsSources (x : Except Error α) : Prop := ∀ e, x = .error e → ¬e.UnknownSource

namespace FindsSources

variable {x : Except Error α}

theorem ok (a : α) : FindsSources (.ok a) := fun _ h => nomatch h

theorem error {e : Error} (h : ¬e.UnknownSource) : FindsSources (.error e : Except Error α) := by
  intro e' he
  cases he
  exact h

theorem bind {f : α → Except Error β} (hx : FindsSources x)
    (hf : ∀ a, x = .ok a → FindsSources (f a)) : FindsSources (x >>= f) := by
  cases x with
  | error e => exact error (hx e rfl)
  | ok a => exact hf a rfl

theorem map (hx : FindsSources x) (f : α → β) : FindsSources (x.map f) := by
  cases x with
  | error e => exact error (hx e rfl)
  | ok a => exact ok (f a)

theorem mapM {f : α → Except Error β} {as : List α} (h : ∀ a ∈ as, FindsSources (f a)) :
    FindsSources (as.mapM f) := by
  induction as with
  | nil => exact ok []
  | cons a as ih =>
    obtain ⟨ha, has⟩ := List.forall_mem_cons.mp h
    rw [List.mapM_cons]
    exact ha.bind fun b _ => (ih has).bind fun bs _ => ok (b :: bs)

end FindsSources

def Schema.Closed (schema : Schema) : Prop :=
  ∀ s ∈ schema.sources, ∀ r ∈ s.relationships, ∃ t, schema.source r.target = .ok t

theorem Schema.Closed.findsSources_target {schema : Schema} (closed : schema.Closed) {s : Source}
    (hs : s ∈ schema.sources) {name : String} {r : Relationship}
    (hr : s.relationship? name = some r) :
    FindsSources ((schema.source r.target).mapError .configuration) := by
  obtain ⟨t, ht⟩ := closed s hs r (List.mem_of_find?_eq_some hr)
  rw [ht]
  exact .ok t

namespace Planning

variable {schema : Schema}

theorem findsSources_joinTree (closed : schema.Closed) {s : Source} (hs : s ∈ schema.sources)
    (parent : String) (outer : Bool) (t : JoinTree) (p : Planning σ) (scope : Scope) :
    FindsSources (joinTree schema s parent outer t p scope) := by
  induction t generalizing s parent outer p scope with
  | none => exact .ok _
  | join name below rest ihbelow ihrest =>
    rw [joinTree_join]
    split
    · exact .error id
    · rename_i r hr
      apply (closed.findsSources_target hs hr).bind
      intro target htarget
      have htarget := Schema.mem_of_source (mapError_eq_ok.mp htarget)
      apply (ihbelow htarget _ _ _ _).bind
      intro mid _
      exact ihrest hs parent outer mid.1 mid.2

theorem findsSources_joinRoots (closed : schema.Closed) {roots : List (PreviousRoot σ)}
    (registered : ∀ root ∈ roots, root.source ∈ schema.sources) (child : String) (p : Planning σ) :
    FindsSources (joinRoots schema child roots p) := by
  induction roots generalizing child p with
  | nil => exact .ok _
  | cons root rest ih =>
    obtain ⟨hroot, hrest⟩ := List.forall_mem_cons.mp registered
    rw [joinRoots_cons]
    apply (findsSources_joinTree closed hroot _ _ _ _ _).bind
    intro mid _
    exact (ih hrest _ _).bind fun last _ => .ok _

end Planning

namespace Query

structure Covered (q : Query σ) : Prop where
  closed : q.schema.Closed
  own : q.source ∈ q.schema.sources
  roots : ∀ root ∈ q.previous, root.source ∈ q.schema.sources

variable {τ : Type}

theorem Covered.map {q : Query σ} (h : q.Covered) (f : σ → τ) : (q.map f).Covered := by
  refine ⟨h.closed, h.own, fun root hroot => ?_⟩
  obtain ⟨other, hother, rfl⟩ := List.mem_map.mp hroot
  exact h.roots other hother

theorem subselects_map (f : σ → τ) (q : Query σ) :
    (q.map f).subselects = q.subselects.map f := by
  have horigin : ((q.map f).attrs.origin.bind Origin.subselect?).toList =
      (q.attrs.origin.bind Origin.subselect?).toList.map f := by
    unfold map Attributes.map
    rcases q.attrs.origin with _ | _ | _
    · rfl
    · rfl
    · rfl
  unfold subselects
  rw [horigin, List.map_append, List.map_filterMap]
  unfold map
  rw [List.filterMap_map]
  rfl

theorem findsSources_plan {q : Query σ} (h : q.Covered) : FindsSources q.plan := by
  unfold plan
  split
  · exact .ok _
  · apply (Planning.findsSources_joinTree h.closed h.own _ _ _ _ _).bind
    intro own _
    exact (Planning.findsSources_joinRoots h.closed h.roots _ _).bind fun last _ => .ok _

theorem findsSources_mismatch (message : String) :
    FindsSources (.error (SelectEntry.mismatch message) : Except Error α) := by
  refine .error ?_
  rintro ⟨⟩

theorem findsSources_unnamed (i : Nat) (exprs : List Expr) :
    FindsSources (SelectEntry.unnamed i exprs) := by
  induction exprs generalizing i with
  | nil => exact .ok []
  | cons e rest ih =>
    unfold SelectEntry.unnamed
    split
    · exact (ih (i + 1)).map _
    · exact findsSources_mismatch _

theorem findsSources_paired (mark : String) (exprs : List Expr) (names : List String) :
    FindsSources (SelectEntry.paired mark exprs names) := by
  unfold SelectEntry.paired
  split
  · exact .ok _
  · exact findsSources_mismatch _

theorem findsSources_selectList (q : Query σ) : FindsSources q.selectList := by
  have hselected : FindsSources q.attrs.selectEntries := by
    unfold Attributes.selectEntries
    split
    · exact .ok []
    · exact findsSources_paired _ _ _
    · exact findsSources_unnamed _ _
  apply hselected.bind
  intro selected _
  exact (findsSources_paired _ _ _).bind fun appended _ => .ok _

theorem findsSources_relationship (q : Query σ) (name : String) :
    FindsSources (q.relationship name) := by
  unfold relationship
  split
  · exact .ok _
  · exact .error id

theorem findsSources_window (a : Attributes σ) : FindsSources a.window := by
  unfold Attributes.window
  split
  · exact .ok _
  · split
    · exact .ok _
    · exact .error id

variable {q : Query Subselect}

theorem findsSources_select (h : q.Covered) (inside : ∀ inner ∈ q.subselects, FindsSources inner)
    (shape : Shape) : FindsSources (q.select shape) := by
  have horigin : FindsSources q.fromFragment := by
    unfold fromFragment
    split
    · exact .ok _
    · exact .ok _
    · rename_i inner heq
      refine (inside inner (List.mem_append_left _ ?_)).map _
      simp [heq, Origin.subselect?]
  apply q.findsSources_selectList.bind
  intro entries _
  apply (findsSources_plan h).bind
  intro plan hplan
  apply horigin.bind
  intro origin _
  have hjoins : FindsSources (plan.joins.mapM (·.fragment q.style)) := by
    apply FindsSources.mapM
    intro j hj
    have htarget : FindsSources (j.targetFragment q.style) := by
      unfold PlannedJoin.targetFragment
      split
      · exact .ok _
      · rename_i inner heq
        exact (inside inner (mem_subselects_of_derived hplan hj heq)).map _
    exact htarget.bind fun target _ => .ok _
  apply hjoins.bind
  intro joins _
  exact (findsSources_window q.attrs).bind fun window _ => .ok _

end Query

inductive ResultSet.Covered : ResultSet → Prop where
  | query {q : Query ResultSet} (own : q.Covered) (inside : ∀ rs ∈ q.subselects, Covered rs) :
    Covered ⟨q⟩

namespace ResultSet

variable {rs next : ResultSet}

theorem Covered.own (h : rs.Covered) : rs.query.Covered := by
  cases h with
  | query own _ => exact own

theorem Covered.inside (h : rs.Covered) : ∀ inner ∈ rs.query.subselects, inner.Covered := by
  cases h with
  | query _ inside => exact inside

theorem findsSources_listings (inside : ∀ inner ∈ rs.query.subselects, FindsSources inner.listing) :
    ∀ inner ∈ rs.compiled.subselects, FindsSources inner := by
  intro inner hinner
  rw [compiled, Query.subselects_map] at hinner
  obtain ⟨sub, hsub, rfl⟩ := List.mem_map.mp hinner
  exact inside sub hsub

theorem findsSources_listing (h : rs.Covered) : FindsSources rs.listing := by
  induction h with
  | @query q own _ ih =>
    have inside := @findsSources_listings ⟨q⟩ ih
    rw [listing_eq]
    exact (Query.findsSources_select (own.map listing) inside {}).map _

theorem findsSources_compiled (h : rs.Covered) (shape : Shape) :
    FindsSources (rs.compiled.select shape) := by
  apply Query.findsSources_select (h.own.map listing)
  exact findsSources_listings fun inner hinner => findsSources_listing (h.inside inner hinner)

theorem findsSources_prepare (h : rs.Covered) (shape : Shape) :
    FindsSources (rs.prepare shape) := (findsSources_compiled h shape).map _

theorem findsSources_prepareCount (h : rs.Covered) : FindsSources rs.prepareCount := by
  apply FindsSources.map
  apply (Query.findsSources_window rs.compiled.attrs).bind
  intro window _
  split
  · exact (findsSources_compiled h _).bind fun inner _ => .ok _
  · exact (findsSources_compiled h _).bind fun f _ => .ok _

def CoveredOrigin (attrs : Option (Attributes ResultSet)) : Prop :=
  ∀ a ∈ attrs, ∀ inner, a.origin = some (.subselect inner) → inner.Covered

theorem Covered.search (h : rs.Covered) (condition : Option Expr)
    {attrs : Option (Attributes ResultSet)} (origin : CoveredOrigin attrs) :
    (rs.search condition attrs).Covered := by
  refine .query ⟨h.own.closed, h.own.own, h.own.roots⟩ ?_
  intro inner hinner
  rcases List.mem_append.mp hinner with hinner | hinner
  · cases attrs with
    | none => exact h.inside inner (List.mem_append_left _ hinner)
    | some a =>
      have horigin : (rs.query.attrs.merge a).origin = a.origin.or rs.query.attrs.origin := by
        unfold Attributes.merge Attributes.reselect
        split
        · rfl
        · rfl
      change inner ∈ ((rs.query.attrs.merge a).origin.bind Origin.subselect?).toList at hinner
      rw [horigin] at hinner
      cases ha : a.origin with
      | none =>
        rw [ha, Option.none_or] at hinner
        exact h.inside inner (List.mem_append_left _ hinner)
      | some new =>
        rw [ha, Option.some_or] at hinner
        apply origin a rfl inner
        cases new with
        | raw sql values => exact absurd hinner (by simp [Origin.subselect?])
        | subselect s =>
          have hs : inner = s := by simpa [Origin.subselect?] using hinner
          rw [ha, hs]
  · exact h.inside inner (List.mem_append_right _ hinner)

theorem coveredOrigin_of_origin_eq_none {a : Attributes ResultSet} (h : a.origin = none) :
    CoveredOrigin (some a) := by
  intro b hb inner horigin
  cases hb
  rw [h] at horigin
  cases horigin

theorem Covered.keyedFor (h : rs.Covered) {r : Relationship} (found : rs.keyedFor r = .ok next) :
    next.Covered := by
  obtain ⟨entries, _, found⟩ := bind_eq_ok.mp found
  dsimp only at found
  split at found
  · rw [← pure_eq_ok.mp found]
    exact h
  · rw [← pure_eq_ok.mp found]
    exact h.search none (coveredOrigin_of_origin_eq_none rfl)

theorem findsSources_related (h : rs.Covered) (name : String) : FindsSources (rs.related name) := by
  apply (rs.query.findsSources_relationship name).bind
  intro r hr
  apply (h.own.closed.findsSources_target h.own.own (relationship_eq_ok.mp hr)).bind
  intro target _
  have hprevious : FindsSources (rs.asPrevious r) := by
    unfold asPrevious
    split
    · have hkeyed : FindsSources (rs.keyedFor r) := by
        apply rs.query.findsSources_selectList.bind
        intro entries _
        dsimp only
        split
        · exact .ok _
        · exact .ok _
      exact hkeyed.bind fun keyed _ => .ok _
    · exact .ok _
  exact hprevious.bind fun previous _ => .ok _

theorem Covered.related (h : rs.Covered) {name : String} (found : rs.related name = .ok next) :
    next.Covered := by
  obtain ⟨r, target, previous, _, htarget, hprevious, rfl⟩ := related_eq_ok.mp found
  have htarget := Schema.mem_of_source htarget
  cases hrestricts : rs.query.attrs.restrictsRows with
  | true =>
    obtain ⟨keyed, hkeyed, rfl⟩ := (asPrevious_of_restricts hrestricts).mp hprevious
    refine .query ⟨h.own.closed, htarget, ?_⟩ ?_
    · intro root hroot
      rw [List.mem_singleton.mp hroot]
      exact h.own.own
    · intro inner hinner
      rw [List.mem_singleton.mp hinner]
      exact h.keyedFor hkeyed
  | false =>
    rw [asPrevious_of_not_restricts hrestricts] at hprevious
    cases hprevious
    refine .query ⟨h.own.closed, htarget, ?_⟩ ?_
    · exact List.forall_mem_cons.mpr ⟨h.own.own, h.own.roots⟩
    · intro inner hinner
      exact h.inside inner (List.mem_append_right _ hinner)

theorem covered_resultSet {schema : Schema} (closed : schema.Closed) {name : String}
    (found : schema.resultSet name = .ok rs) : rs.Covered := by
  obtain ⟨s, hs, rfl⟩ := map_eq_ok.mp found
  refine .query ⟨closed, Schema.mem_of_source hs, ?_⟩ ?_
  · exact fun _ hroot => absurd hroot List.not_mem_nil
  · exact fun _ hinner => absurd hinner List.not_mem_nil

theorem findsSources_keyConditions (record : Record) (noneOnNull : Bool) (pairs : List ColumnPair) :
    FindsSources (keyConditions record noneOnNull pairs) := by
  induction pairs with
  | nil => exact .ok _
  | cons p rest ih =>
    have hcolumn : FindsSources (record.getColumn p.own) := by
      unfold Record.getColumn
      split
      · exact .ok _
      · exact .error id
    unfold keyConditions
    apply hcolumn.bind
    intro v _
    dsimp only
    split
    · exact .ok _
    · exact ih.bind fun conditions _ => .ok _

theorem findsSources_relatedTo (h : rs.Covered) (record : Record) (name : String) :
    FindsSources (rs.relatedTo record name) := by
  apply (rs.query.findsSources_relationship name).bind
  intro r hr
  dsimp only
  split
  · rename_i pairs _
    apply (FindsSources.ok pairs).bind
    intro pairs _
    apply (findsSources_keyConditions record r.noneOnNull pairs).bind
    intro conditions _
    split
    · exact .ok _
    · obtain ⟨t, ht⟩ := h.own.closed _ h.own.own r
        (List.mem_of_find?_eq_some (relationship_eq_ok.mp hr))
      rw [Schema.resultSet, ht]
      exact .ok _
  · exact .error id

theorem exists_of_relatedTo {record : Record} {name : String}
    (found : rs.relatedTo record name = .ok (some next)) :
    ∃ target related condition, rs.query.schema.resultSet target = .ok related ∧
      next = related.search condition none := by
  obtain ⟨r, _, found⟩ := bind_eq_ok.mp found
  split at found
  · obtain ⟨pairs, _, found⟩ := bind_eq_ok.mp found
    obtain ⟨conditions, _, found⟩ := bind_eq_ok.mp found
    split at found
    · cases found
    · obtain ⟨related, hrelated, found⟩ := bind_eq_ok.mp found
      cases pure_eq_ok.mp found
      exact ⟨r.target, related, _, mapError_eq_ok.mp hrelated, rfl⟩
  · cases found

theorem Covered.relatedTo (h : rs.Covered) {record : Record} {name : String}
    (found : rs.relatedTo record name = .ok (some next)) : next.Covered := by
  obtain ⟨target, related, condition, hrelated, rfl⟩ := exists_of_relatedTo found
  refine (covered_resultSet h.own.closed hrelated).search condition ?_
  exact fun _ hattrs => nomatch hattrs

theorem findsSources_deletion (h : rs.Covered) : FindsSources rs.deletion := by
  unfold deletion
  cases hkey : rs.query.source.soleKey? with
  | none =>
    simp only [hkey]
    exact .error id
  | some key =>
    simp only [hkey]
    apply FindsSources.bind (.ok _)
    intro key _
    have hkeys : (rs.keys key).Covered := h.search none (coveredOrigin_of_origin_eq_none rfl)
    apply (Query.findsSources_window _).bind
    intro window _
    exact (findsSources_compiled hkeys _).bind fun inner _ => .ok _

theorem findsSources_deletions (h : rs.Covered) (n : Nat) (walked : List Edge) :
    FindsSources (deletions n walked rs) := by
  induction n generalizing rs walked with
  | zero => exact (findsSources_deletion h).bind fun statement _ => .ok _
  | succ n ih =>
    rw [deletions_succ]
    have hdependents : FindsSources ((rs.openDeletes walked).mapM fun r =>
        rs.related r.name >>= deletions n (walked ++ [rs.query.source.edge r])) := by
      apply FindsSources.mapM
      intro r _
      exact (findsSources_related h r.name).bind fun next hnext => ih (h.related hnext) _
    apply hdependents.bind
    intro dependents _
    exact (findsSources_deletion h).bind fun statement _ => .ok _

end ResultSet

/-- The sets that are obtained from schemas made of built sources. What one reads from in place of
its table may be such a set of another schema. -/
inductive Obtained : ResultSet → Prop where
  | all {steps : List SchemaStep} {schema : Schema} {name : String} {rs : ResultSet}
    (made : Schema.ofSteps steps = .ok schema) (built : ∀ s, .source s ∈ steps → s.Built)
    (found : schema.resultSet name = .ok rs) : Obtained rs
  | search {rs : ResultSet} (condition : Option Expr) (attrs : Option (Attributes ResultSet))
    (origin : ∀ a ∈ attrs, ∀ inner, a.origin = some (.subselect inner) → Obtained inner)
    (obtained : Obtained rs) : Obtained (rs.search condition attrs)
  | related {rs next : ResultSet} (name : String) (condition : Option Expr)
    (attrs : Option (Attributes ResultSet))
    (origin : ∀ a ∈ attrs, ∀ inner, a.origin = some (.subselect inner) → Obtained inner)
    (obtained : Obtained rs)
    (found : (rs.searchRelated name condition attrs).outcome = .ok (some next)) : Obtained next
  | relatedTo {rs next : ResultSet} (record : Record) (name : String) (obtained : Obtained rs)
    (found : (rs.relatedResultSet record name).outcome = .ok (some next)) : Obtained next
  | asSubselect {rs : ResultSet} (obtained : Obtained rs) : Obtained rs.asSubselect

theorem Obtained.covered {rs : ResultSet} (h : Obtained rs) : rs.Covered := by
  induction h with
  | all made built found =>
    have recorded := Schema.recorded_of_ofSteps made built
    exact ResultSet.covered_resultSet recorded.consistent.targets found
  | search condition attrs _ _ ihorigin ih => exact ih.search condition ihorigin
  | related name condition attrs _ _ found ihorigin ih =>
    obtain ⟨related, hrelated, rfl⟩ := ResultSet.searchRelated_eq_some.mp found
    exact (ih.related hrelated).search condition ihorigin
  | relatedTo record name _ found ih => exact ih.relatedTo (guarded_eq_some.mp found)
  | asSubselect _ ih =>
    refine .query ⟨ih.own.closed, ih.own.own, fun _ hroot => absurd hroot List.not_mem_nil⟩ ?_
    intro inner hinner
    rw [List.mem_singleton.mp hinner]
    exact ih

theorem Obtained.exists_consistent {rs : ResultSet} (h : Obtained rs) :
    ∃ steps, rs.query.schema.Consistent steps := by
  induction h with
  | @all steps schema name rs made built found =>
    obtain ⟨s, _, rfl⟩ := map_eq_ok.mp found
    exact ⟨steps, (Schema.recorded_of_ofSteps made built).consistent⟩
  | search _ _ _ _ _ ih => exact ih
  | related name condition attrs _ _ found _ ih =>
    obtain ⟨related, hrelated, rfl⟩ := ResultSet.searchRelated_eq_some.mp found
    obtain ⟨r, target, previous, _, _, _, rfl⟩ := ResultSet.related_eq_ok.mp hrelated
    exact ih
  | relatedTo record name _ found ih =>
    obtain ⟨target, related, condition, hrelated, rfl⟩ :=
      ResultSet.exists_of_relatedTo (guarded_eq_some.mp found)
    obtain ⟨s, _, rfl⟩ := map_eq_ok.mp hrelated
    exact ih
  | asSubselect _ ih => exact ih

def Schema.Finds (schema : Schema) (g : Guarded α) : Prop :=
  ∃ fallback result, g = schema.guard fallback result ∧ FindsSources result

structure ResultSet.AlwaysFinds (rs : ResultSet) : Prop where
  compile : rs.query.schema.Finds rs.compile
  asQuery : rs.query.schema.Finds rs.asQuery
  projection : rs.query.schema.Finds rs.projection
  countQuery : rs.query.schema.Finds rs.countQuery
  searchRelated : ∀ name condition attrs,
    rs.query.schema.Finds (rs.searchRelated name condition attrs)
  relatedResultSet : ∀ record name, rs.query.schema.Finds (rs.relatedResultSet record name)
  deleteStatements : rs.query.schema.Finds rs.deleteStatements

theorem ResultSet.Covered.alwaysFinds {rs : ResultSet} (h : rs.Covered) : rs.AlwaysFinds := by
  have hprepare := findsSources_prepare h {}
  refine ⟨⟨_, _, rfl, hprepare⟩, ⟨_, _, map_guarded _ _ _ _, hprepare.map _⟩,
    ⟨_, _, map_guarded _ _ _ _, hprepare.map _⟩, ⟨_, _, rfl, findsSources_prepareCount h⟩, ?_, ?_,
    ⟨_, _, rfl, findsSources_deletions h _ _⟩⟩
  · intro name condition attrs
    exact ⟨_, _, rfl, (findsSources_related h name).map _⟩
  · intro record name
    exact ⟨_, _, rfl, findsSources_relatedTo h record name⟩

/-- A schema that is made of built sources is in order, whatever steps have failed on the way under
whatever hook, and its sets never meet an unknown source. -/
theorem Schema.consistent_of_ofSteps {steps : List SchemaStep} {schema : Schema}
    (made : ofSteps steps = .ok schema) (built : ∀ s, .source s ∈ steps → s.Built) :
    schema.Consistent steps ∧
      ∀ rs, Obtained rs → rs.query.schema = schema → rs.AlwaysFinds := by
  refine ⟨(recorded_of_ofSteps made built).consistent, ?_⟩
  intro rs hrs _
  exact hrs.covered.alwaysFinds

namespace Library

theorem built_steps : ∀ s, .source s ∈ steps → s.Built := by
  intro s hs
  simp only [steps, List.mem_cons, SchemaStep.source.injEq, reduceCtorEq, List.not_mem_nil,
    or_false] at hs
  rcases hs with rfl | rfl
  · exact .primaryKey ["id"] (.columns ["id", "author", "title"] (.table "books" (.named "Book")))
  · exact .primaryKey ["id"] (.columns ["id", "name", "mentor"] (.table "authors" (.named "Author")))

theorem obtained_author : Obtained (ResultSet.ofSource schema author) := by
  have made : Schema.ofSteps steps = .ok schema := rfl
  exact .all made built_steps (show schema.resultSet "Author" = .ok _ from rfl)

/-- Under a hook that suppresses everything a source is registered twice, a relationship is declared
before its target and again behind it, and then a second time. -/
def patchedSteps : List SchemaStep :=
  [.configure ⟨{}, some Hook.suppressAll⟩,
    .source { (Source.named "Author").addColumns ["id", "name", "id"] with primaryKey := ["id"] },
    .source { (Source.named "Author").addColumns ["id"] with table := "writers" },
    .relate "Author" { kind := .hasMany, name := "books", target := "Book" },
    .source { (Source.named "Book").addColumns ["id", "author"] with primaryKey := ["id"] },
    .relate "Author" { kind := .hasMany, name := "books", target := "Book" },
    .relate "Author" { kind := .hasOne, name := "books", target := "Book" }]

def patchedAuthor : Source :=
  ⟨"Author", "Author", none, ["id", "name"], ["id"],
    [⟨"books", .hasMany, "Book", .pairs [⟨"author", "id"⟩], .multi, .left, true, true, false,
      false⟩]⟩

def patchedSchema : Schema :=
  ⟨⟨{}, some Hook.suppressAll⟩,
    [patchedAuthor, ⟨"Book", "Book", none, ["id", "author"], ["id"], []⟩]⟩

theorem built_patchedSteps : ∀ s, .source s ∈ patchedSteps → s.Built := by
  intro s hs
  simp only [patchedSteps, List.mem_cons, SchemaStep.source.injEq, reduceCtorEq, false_or,
    List.not_mem_nil, or_false] at hs
  rcases hs with rfl | rfl | rfl
  · exact .primaryKey _ (.columns _ (.named _))
  · exact .table _ (.columns _ (.named _))
  · exact .primaryKey _ (.columns _ (.named _))

end Library

theorem consistent_patchedSchema : Schema.ofSteps Library.patchedSteps = .ok Library.patchedSchema ∧
    (∀ s, .source s ∈ Library.patchedSteps → s.Built) ∧
    Library.patchedSchema.Consistent Library.patchedSteps ∧
    (ResultSet.ofSource Library.patchedSchema Library.patchedAuthor).AlwaysFinds := by
  have made : Schema.ofSteps Library.patchedSteps = .ok Library.patchedSchema := rfl
  obtain ⟨consistent, finds⟩ := Schema.consistent_of_ofSteps made Library.built_patchedSteps
  have found : Library.patchedSchema.resultSet "Author" =
      .ok (ResultSet.ofSource Library.patchedSchema Library.patchedAuthor) := rfl
  exact ⟨made, Library.built_patchedSteps, consistent,
    finds _ (.all made Library.built_patchedSteps found) rfl⟩

end RelQuery
