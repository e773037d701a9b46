import RelQuery.Proofs.DeletePlans
import RelQuery.Proofs.Merging
import RelQuery.Proofs.SubSelects
import RelQuery.ResultSet.Column

/-!
# Sets under other settings

The set that the same calls reach from a schema with other settings. It differs in the schema that
it and its sub-selects belong to. The settings have no say in which relationships are followed, and
their style alone decides on the statements.
-/

namespace RelQuery

set_option autoImplicit false

variable {σ τ : Type}

def Schema.reconfigured (f : SchemaConfig → SchemaConfig) (schema : Schema) : Schema :=
  { schema with config := f schema.config }

def Query.reconfigured (f : SchemaConfig → SchemaConfig) (q : Query σ) : Query σ :=
  { q with schema := q.schema.reconfigured f }

/-- The set with the settings of its schema changed, and with them those of all sub-selects. -/
def ResultSet.reconfigured (f : SchemaConfig → SchemaConfig) : ResultSet → ResultSet :=
  ResultSet.fold fun q => ⟨q.reconfigured f⟩

namespace Attributes

theorem map_merge (f : σ → τ) (old new : Attributes σ) :
    (old.merge new).map f = (old.map f).merge (new.map f) := by
  have hselects : (new.map f).selects = new.selects := rfl
  cases h : new.selects with
  | true =>
    rw [merge_of_selects h, merge_of_selects (hselects.trans h)]
    simp only [map, Option.map_or]
  | false =>
    rw [merge_of_not_selects h, merge_of_not_selects (hselects.trans h)]
    simp only [map, Option.map_or]

end Attributes

namespace Query

theorem map_search (f : σ → τ) (q : Query σ) (condition : Option Expr)
    (attrs : Option (Attributes σ)) :
    (q.search condition attrs).map f =
      (q.map f).search condition (attrs.map (Attributes.map f)) := by
  cases attrs with
  | none => rfl
  | some new => simp only [search, map, Option.map_some, Attributes.map_merge]

theorem map_map {υ : Type} (f : σ → τ) (g : τ → υ) (q : Query σ) :
    (q.map f).map g = q.map (g ∘ f) := by
  have horigin : Origin.map g ∘ Origin.map f = Origin.map (g ∘ f) := by
    funext origin
    cases origin <;> rfl
  have hprevious : PreviousRoot.map g ∘ PreviousRoot.map f = PreviousRoot.map (g ∘ f) := by
    funext root
    simp only [Function.comp, PreviousRoot.map, Option.map_map]
  simp only [map, Attributes.map, Option.map_map, List.map_map, horigin, hprevious]

theorem map_id (q : Query σ) : q.map id = q := by
  have horigin : Origin.map (id : σ → σ) = id := by
    funext origin
    cases origin <;> rfl
  have hprevious : PreviousRoot.map (id : σ → σ) = id := by
    funext root
    simp only [PreviousRoot.map, Option.map_id, id]
  simp only [map, Attributes.map, horigin, hprevious, Option.map_id, List.map_id, id]

theorem map_congr {f g : σ → τ} {q : Query σ} (h : ∀ s ∈ q.subselects, f s = g s) :
    q.map f = q.map g := by
  have horigin : q.attrs.map f = q.attrs.map g := by
    unfold Attributes.map
    cases hq : q.attrs.origin with
    | none => rfl
    | some origin =>
      cases origin with
      | raw sql values => rfl
      | subselect inner =>
        have hmem : inner ∈ q.subselects := by simp [subselects, hq, Origin.subselect?]
        simp only [Option.map_some, Origin.map, h inner hmem]
  have hprevious : q.previous.map (PreviousRoot.map f) = q.previous.map (PreviousRoot.map g) := by
    refine List.map_congr_left fun root hroot => ?_
    unfold PreviousRoot.map
    cases hderived : root.derived with
    | none => rfl
    | some inner =>
      have hmem : inner ∈ q.subselects :=
        List.mem_append_right _ (List.mem_filterMap.mpr ⟨root, hroot, hderived⟩)
      rw [Option.map_some, Option.map_some, h inner hmem]
  rw [map, horigin, hprevious]
  rfl

end Query

variable (f : SchemaConfig → SchemaConfig)

namespace Planning

variable (schema : Schema)

theorem joinTree_reconfigured (source : Source) (parent : String) (outer : Bool) (t : JoinTree)
    (p : Planning σ) (scope : Scope) :
    joinTree (schema.reconfigured f) source parent outer t p scope =
      joinTree schema source parent outer t p scope := by
  induction t generalizing source parent outer p scope with
  | none => rfl
  | join name below rest ihbelow ihrest =>
    rw [joinTree_join, joinTree_join]
    simp only [ihbelow, ihrest]
    rfl

theorem joinRoots_reconfigured (child : String) (roots : List (PreviousRoot σ)) (p : Planning σ) :
    joinRoots (schema.reconfigured f) child roots p = joinRoots schema child roots p := by
  induction roots generalizing child p with
  | nil => rfl
  | cons root roots ih =>
    rw [joinRoots_cons, joinRoots_cons]
    simp only [joinTree_reconfigured, ih]

end Planning

theorem Query.plan_reconfigured (q : Query σ) : (q.reconfigured f).plan = q.plan := by
  have htables : (q.reconfigured f).planTables = q.planTables := by
    unfold planTables
    simp only [reconfigured, Planning.joinTree_reconfigured, Planning.joinRoots_reconfigured]
  by_cases hraw : q.ReadsRaw
  · rw [plan_of_readsRaw hraw]
    exact plan_of_readsRaw hraw
  · rw [plan_of_not_readsRaw hraw, ← htables]
    exact plan_of_not_readsRaw hraw

namespace ResultSet

theorem reconfigured_eq (rs : ResultSet) :
    rs.reconfigured f = ⟨(rs.query.map (reconfigured f)).reconfigured f⟩ := rs.fold_eq _

theorem reconfigured_query (rs : ResultSet) :
    (rs.reconfigured f).query = (rs.query.map (reconfigured f)).reconfigured f := by
  rw [reconfigured_eq]

@[simp] theorem reconfigured_source (rs : ResultSet) :
    (rs.reconfigured f).query.source = rs.query.source := by
  rw [reconfigured_query]
  rfl

@[simp] theorem reconfigured_schema (rs : ResultSet) :
    (rs.reconfigured f).query.schema = rs.query.schema.reconfigured f := by
  rw [reconfigured_query]
  rfl

theorem reconfigured_selectList (rs : ResultSet) :
    (rs.reconfigured f).query.selectList = rs.query.selectList := by
  rw [reconfigured_query]
  rfl

theorem reconfigured_relationship (rs : ResultSet) (name : String) :
    (rs.reconfigured f).query.relationship name = rs.query.relationship name := by
  rw [reconfigured_query]
  rfl

theorem reconfigured_search (rs : ResultSet) (condition : Option Expr)
    (attrs : Option (Attributes ResultSet)) :
    (rs.search condition attrs).reconfigured f =
      (rs.reconfigured f).search condition (attrs.map (Attributes.map (reconfigured f))) := by
  have hquery : (rs.search condition attrs).query.map (reconfigured f) =
      (rs.query.map (reconfigured f)).search condition
        (attrs.map (Attributes.map (reconfigured f))) := rs.query.map_search _ condition attrs
  rw [reconfigured_eq, hquery]
  exact congrArg (fun q : Query ResultSet => (⟨q⟩ : ResultSet).search condition _)
    (rs.reconfigured_query f).symm

theorem reconfigured_asSubselect (rs : ResultSet) :
    rs.asSubselect.reconfigured f = (rs.reconfigured f).asSubselect := by
  unfold asSubselect
  rw [reconfigured_eq, reconfigured_query]
  rfl

theorem reconfigured_ofSource (schema : Schema) (s : Source) :
    (ofSource schema s).reconfigured f = ofSource (schema.reconfigured f) s :=
  (ofSource schema s).reconfigured_eq f

theorem reconfigured_keyedFor (rs : ResultSet) (r : Relationship) :
    (rs.reconfigured f).keyedFor r = (rs.keyedFor r).map (reconfigured f) := by
  have hcolumns : (rs.reconfigured f).joinColumns r = rs.joinColumns r := by
    simp [joinColumns]
  unfold keyedFor
  rw [reconfigured_selectList, hcolumns]
  cases rs.query.selectList with
  | error e => rfl
  | ok entries =>
    simp only [bind, Except.bind]
    split
    · rfl
    · simp only [pure, Except.pure, Except.map, reconfigured_search]
      rfl

theorem reconfigured_asPrevious (rs : ResultSet) (r : Relationship) :
    (rs.reconfigured f).asPrevious r =
      (rs.asPrevious r).map (·.map (PreviousRoot.map (reconfigured f))) := by
  have hrestricts : (rs.reconfigured f).query.attrs.restrictsRows =
      rs.query.attrs.restrictsRows := by
    rw [reconfigured_query]
    unfold Attributes.restrictsRows Query.reconfigured Query.map Attributes.map
    rw [Option.isSome_map]
    rfl
  unfold asPrevious
  rw [hrestricts, reconfigured_keyedFor, reconfigured_query]
  split
  · cases rs.keyedFor r with
    | error e => rfl
    | ok keyed => rfl
  · rfl

theorem reconfigured_related (rs : ResultSet) (name : String) :
    (rs.reconfigured f).related name = (rs.related name).map (reconfigured f) := by
  unfold related
  simp only [reconfigured_relationship, reconfigured_schema, reconfigured_asPrevious]
  cases rs.query.relationship name with
  | error e => rfl
  | ok r =>
    simp only [bind, Except.bind]
    rw [show (rs.query.schema.reconfigured f).source r.target = rs.query.schema.source r.target
      from rfl]
    cases (rs.query.schema.source r.target).mapError Error.configuration with
    | error e => rfl
    | ok target =>
      cases rs.asPrevious r with
      | error e => rfl
      | ok previous =>
        simp only [pure, Except.pure, Except.map, reconfigured_eq f (ResultSet.mk _)]
        rfl

theorem reconfigured_relatedTo (rs : ResultSet) (record : Record) (name : String) :
    (rs.reconfigured f).relatedTo record name =
      (rs.relatedTo record name).map (·.map (reconfigured f)) := by
  have hresultSet (target : String) : (rs.query.schema.reconfigured f).resultSet target =
      (rs.query.schema.resultSet target).map (reconfigured f) := by
    unfold Schema.resultSet
    rw [show (rs.query.schema.reconfigured f).source target = rs.query.schema.source target
      from rfl]
    cases rs.query.schema.source target with
    | error e => rfl
    | ok s => exact congrArg Except.ok (reconfigured_ofSource f _ s).symm
  unfold relatedTo
  simp only [reconfigured_relationship, reconfigured_schema, hresultSet]
  cases rs.query.relationship name with
  | error e => rfl
  | ok r =>
    simp only [bind, Except.bind]
    cases r.condition.pairs? with
    | none => rfl
    | some pairs =>
      dsimp only
      cases keyConditions record r.noneOnNull pairs with
      | error e => rfl
      | ok conditions =>
        cases conditions with
        | none => rfl
        | some conditions =>
          dsimp only
          cases rs.query.schema.resultSet r.target with
          | error e => rfl
          | ok related =>
            exact congrArg (fun rs => Except.ok (some rs))
              (related.reconfigured_search f (conjunction conditions) none).symm

theorem reconfigured_withKey (rs : ResultSet) (key : Value) :
    (rs.reconfigured f).withKey key = (rs.withKey key).map (reconfigured f) := by
  unfold withKey
  rw [reconfigured_source]
  cases rs.query.source.soleKey.mapError Error.configuration with
  | error e => rfl
  | ok column => exact congrArg Except.ok (rs.reconfigured_search f _ none).symm

theorem reconfigured_keys (rs : ResultSet) (key : String) :
    (rs.keys key).reconfigured f = (rs.reconfigured f).keys key := rs.reconfigured_search f none _

end ResultSet

def ColumnSet.reconfigured (c : ColumnSet) : ColumnSet := ⟨c.rows.reconfigured f, c.entry⟩

theorem ResultSet.reconfigured_column (rs : ResultSet) (name : String) :
    (rs.reconfigured f).column name = (rs.column name).map (ColumnSet.reconfigured f) := by
  unfold column
  rw [reconfigured_selectList]
  cases rs.query.selectList with
  | error e => rfl
  | ok entries =>
    simp only [bind, Except.bind]
    cases entries.find? (·.name = name) with
    | none => rfl
    | some entry => rfl

theorem ColumnSet.reconfigured_selecting (c : ColumnSet) (e : Expr) :
    (c.reconfigured f).selecting e = (c.selecting e).reconfigured f := by
  unfold selecting
  rw [ResultSet.reconfigured_search]
  rfl

section Style

variable {f : SchemaConfig → SchemaConfig} (keeps : ∀ config, (f config).style = config.style)
include keeps

namespace Query

theorem select_reconfigured (q : Query Subselect) (shape : Shape) :
    (q.reconfigured f).select shape = q.select shape := by
  have hstyle : (q.reconfigured f).style = q.style := keeps _
  unfold select fromFragment headFragment tailFragment
  rw [hstyle, plan_reconfigured]
  rfl

theorem selectCount_reconfigured (q : Query Subselect) :
    (q.reconfigured f).selectCount = q.selectCount := by
  have hstyle : (q.reconfigured f).style = q.style := keeps _
  unfold selectCount
  simp only [select_reconfigured keeps, hstyle]
  rfl

end Query

namespace ResultSet

/-- The statement of a sub-select depends on the style alone. -/
theorem listing_reconfigured (rs : ResultSet) : (rs.reconfigured f).listing = rs.listing := by
  induction rs using ResultSet.induction with
  | step q ih =>
    have hinside : (q.map (reconfigured f)).map listing = q.map listing :=
      (q.map_map _ _).trans (Query.map_congr ih)
    rw [listing_eq, listing_eq, compiled, reconfigured_query]
    change ((((q.map (reconfigured f)).map listing).reconfigured f).select {}).map _ = _
    rw [hinside, Query.select_reconfigured keeps]
    rfl

theorem compiled_reconfigured (rs : ResultSet) :
    (rs.reconfigured f).compiled = rs.compiled.reconfigured f := by
  have hinside : (rs.query.map (reconfigured f)).map listing = rs.query.map listing :=
    (rs.query.map_map _ _).trans (Query.map_congr fun s _ => s.listing_reconfigured keeps)
  unfold compiled
  rw [reconfigured_query]
  exact congrArg (Query.reconfigured f) hinside

theorem prepare_reconfigured (rs : ResultSet) (shape : Shape) :
    (rs.reconfigured f).prepare shape = rs.prepare shape := by
  unfold prepare
  rw [compiled_reconfigured keeps, Query.select_reconfigured keeps]

theorem prepareCount_reconfigured (rs : ResultSet) :
    (rs.reconfigured f).prepareCount = rs.prepareCount := by
  unfold prepareCount
  rw [compiled_reconfigured keeps, Query.selectCount_reconfigured keeps]

theorem deletion_reconfigured (rs : ResultSet) : (rs.reconfigured f).deletion = rs.deletion := by
  have hstyle : (rs.reconfigured f).query.style = rs.query.style := by
    rw [reconfigured_query]
    exact keeps _
  have hwindow (key : String) : ((rs.keys key).reconfigured f).query.attrs.window =
      (rs.keys key).query.attrs.window := by
    rw [reconfigured_query]
    rfl
  unfold deletion
  simp only [reconfigured_source, hstyle, ← reconfigured_keys, hwindow,
    compiled_reconfigured keeps, Query.select_reconfigured keeps]

theorem deletions_reconfigured (n : Nat) (walked : List Edge) (rs : ResultSet) :
    deletions n walked (rs.reconfigured f) = deletions n walked rs := by
  induction n generalizing walked rs with
  | zero =>
    unfold deletions
    rw [deletion_reconfigured keeps]
  | succ n ih =>
    have hopen : (rs.reconfigured f).openDeletes walked = rs.openDeletes walked := by
      simp [openDeletes]
    have hdependents (r : Relationship) : ((rs.reconfigured f).related r.name >>=
          deletions n (walked ++ [rs.query.source.edge r])) =
        rs.related r.name >>= deletions n (walked ++ [rs.query.source.edge r]) := by
      rw [reconfigured_related]
      cases rs.related r.name with
      | error e => rfl
      | ok next => exact ih _ next
    rw [deletions_succ, deletions_succ, hopen, reconfigured_source, deletion_reconfigured keeps]
    simp only [hdependents]

theorem planDelete_reconfigured (rs : ResultSet) :
    (rs.reconfigured f).planDelete = rs.planDelete := by
  unfold planDelete
  rw [deletions_reconfigured keeps, reconfigured_source, reconfigured_schema]
  rfl

end ResultSet

end Style

end RelQuery
