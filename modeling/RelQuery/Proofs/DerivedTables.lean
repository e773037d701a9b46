import RelQuery.ResultSet.Related
import RelQuery.Proofs.Clauses
import RelQuery.Proofs.JoinPlans

/-!
# Derived tables

A set whose rows are restricted is joined as a derived table: the statement of the set, where the
columns are added to the select list that the join reads and that are not selected.
-/

namespace RelQuery

set_option autoImplicit false

open Fragment (ofText)

namespace Query

variable {σ τ : Type}

def addColumns (q : Query σ) (columns : List String) : Query σ :=
  { q with attrs := { q.attrs with plusColumns := q.attrs.plusColumns ++ columns } }

theorem search_plusColumns (q : Query σ) (columns : List String) :
    q.search none (some { plusColumns := columns }) = q.addColumns columns := by
  simp [search, addColumns, Attributes.merge, Attributes.selects]

@[simp] theorem addColumns_nil (q : Query σ) : q.addColumns [] = q := by
  simp [addColumns]

theorem selectList_addColumns {q : Query σ} {columns : List String} {entries : List SelectEntry}
    (h : (q.addColumns columns).selectList = .ok entries) :
    ∃ before after, q.selectList = .ok (before ++ after) ∧
      entries = before ++ columns.map SelectEntry.ofColumn ++ after := by
  obtain ⟨selected, hselected, h⟩ := bind_eq_ok.mp h
  obtain ⟨appended, happended, h⟩ := bind_eq_ok.mp h
  refine ⟨q.attrs.columnEntries q.source.columns ++ selected ++
    q.attrs.plusColumns.map SelectEntry.ofColumn, appended, ?_, ?_⟩
  · exact bind_eq_ok.mpr ⟨selected, hselected, bind_eq_ok.mpr ⟨appended, happended, rfl⟩⟩
  · rw [← pure_eq_ok.mp h]
    unfold addColumns Attributes.columnEntries
    simp only [List.map_append, List.append_assoc]

/-- The statement with added columns differs in its select list and in nothing else. -/
theorem clauses_addColumns {q : Query Subselect} {columns : List String} {c : Clauses}
    (h : (q.addColumns columns).clauses = .ok c) :
    ∃ own before after, q.clauses = .ok own ∧ own.entries = before ++ after ∧
      c = { own with entries := before ++ columns.map SelectEntry.ofColumn ++ after } := by
  obtain ⟨hentries, hplan, horigin, hjoins, hwindow⟩ := clauses_eq_ok.mp h
  obtain ⟨before, after, hown, hadded⟩ := selectList_addColumns hentries
  refine ⟨{ c with entries := before ++ after }, before, after, ?_, rfl, ?_⟩
  · exact clauses_eq_ok.mpr ⟨hown, hplan, horigin, hjoins, hwindow⟩
  · rw [← hadded]

end Query

namespace ResultSet

variable {rs keyed : ResultSet} {r : Relationship}

def addedColumns (rs : ResultSet) (r : Relationship) (entries : List SelectEntry) : List String :=
  (rs.joinColumns r).filter fun c => !entries.any (·.name = c)

theorem keyedFor_eq_ok (h : rs.keyedFor r = .ok keyed) :
    ∃ entries, rs.query.selectList = .ok entries ∧
      keyed = ⟨rs.query.addColumns ((rs.addedColumns r entries).map (rootAlias ++ "." ++ ·))⟩ := by
  obtain ⟨entries, hentries, h⟩ := bind_eq_ok.mp h
  refine ⟨entries, hentries, ?_⟩
  change (if (rs.addedColumns r entries).isEmpty then _ else _) = _ at h
  split at h
  · rename_i hnone
    rw [List.isEmpty_iff.mp hnone, List.map_nil, Query.addColumns_nil, ← pure_eq_ok.mp h]
    cases rs
    rfl
  · rw [← pure_eq_ok.mp h, ← Query.search_plusColumns]
    rfl

theorem compiled_addColumns (rs : ResultSet) (columns : List String) :
    (⟨rs.query.addColumns columns⟩ : ResultSet).compiled = rs.compiled.addColumns columns := rfl

end ResultSet

theorem Expr.col_root (column : String) :
    col (rootAlias ++ "." ++ column) = .column (some rootAlias) column := by
  have hchars : (rootAlias ++ "." ++ column).toList = 'm' :: 'e' :: '.' :: column.toList := by
    simp [rootAlias]
  have hsplit : splitFirstDot (rootAlias ++ "." ++ column) = some (rootAlias, column) := by
    unfold splitFirstDot
    rw [hchars]
    simp [List.dropWhile, List.takeWhile, rootAlias]
  unfold col
  rw [hsplit]

namespace Scope

theorem root_rename (s : Scope) (qualifier name : String) : (s.rename qualifier name).root = s.root := by
  unfold rename
  split
  · rfl
  · rfl

end Scope

section Joins

variable {σ : Type} {schema : Schema}

theorem root_joinTree {source : Source} {parent : String} {outer : Bool} {t : JoinTree}
    {p : Planning σ} {scope : Scope} {out : Planning σ × Scope}
    (h : Planning.joinTree schema source parent outer t p scope = .ok out) :
    out.2.root = scope.root := by
  induction t generalizing source parent outer p scope out with
  | none =>
    cases h
    rfl
  | join name below rest ihbelow ihrest =>
    obtain ⟨r, target, mid, _, _, hmid, h⟩ := Planning.joinTree_join_eq_ok.mp h
    rw [ihrest h, ihbelow hmid, Scope.root_rename]

theorem Query.root_of_plan {q : Query σ} {plan : Plan σ} (h : q.plan = .ok plan) :
    plan.scope.root = rootAlias := by
  by_cases hraw : q.ReadsRaw
  · rw [plan_of_readsRaw hraw] at h
    cases h
    rfl
  · rw [plan_of_not_readsRaw hraw] at h
    obtain ⟨own, last, hown, _, rfl⟩ := planTables_eq_ok.mp h
    exact root_joinTree hown

theorem TreeJoins.tables {source : Source} {parent : String} {outer : Bool} {t : JoinTree}
    {js : List (PlannedJoin σ)} (h : TreeJoins schema source parent outer t js) :
    ∀ j ∈ js, ∃ name, j.target = .table name := by
  induction h with
  | none => exact fun _ hj => absurd hj List.not_mem_nil
  | join _ _ _ _ ihinside ihafter =>
    exact List.forall_mem_cons.mpr ⟨⟨_, rfl⟩, List.forall_mem_append.mpr ⟨ihinside, ihafter⟩⟩

theorem RootJoins.concat {child : String} {near : List (PreviousRoot σ)} {last : PreviousRoot σ}
    {js : List (PlannedJoin σ)} {levels : List Level}
    (h : RootJoins schema child (near ++ [last]) js levels)
    (tables : ∀ root ∈ near, root.derived = none) (bare : last.join = .none) :
    ∃ others parent joined, (∀ j ∈ others, ∃ name, j.target = .table name) ∧
      js = others ++ [⟨.inner, Planning.rootTarget last, joined, last.relationship.condition,
        ⟨parent, joined, last.relationship.name⟩⟩] := by
  induction near generalizing child js levels with
  | nil =>
    cases h with
    | cons inside after =>
      rw [bare] at inside
      cases inside
      cases after
      exact ⟨[], child, _, fun _ hj => absurd hj List.not_mem_nil, rfl⟩
  | cons root near ih =>
    obtain ⟨hroot, hnear⟩ := List.forall_mem_cons.mp tables
    cases h with
    | cons inside after =>
      obtain ⟨others, parent, joined, hothers, rfl⟩ := ih after hnear
      refine ⟨_ :: (_ ++ others), parent, joined, ?_, by rw [List.cons_append, List.append_assoc]⟩
      refine List.forall_mem_cons.mpr ⟨?_, List.forall_mem_append.mpr ⟨inside.tables, hothers⟩⟩
      unfold Planning.rootTarget
      rw [hroot]
      exact ⟨_, rfl⟩

end Joins

/-- A set joined last of all, as a derived table: its own statement, with the columns added to the
select list that the relationship is joined on. The other joins are of tables. -/
structure DerivedJoin (q : Query Subselect) (c : Clauses) (s : ResultSet) (r : Relationship)
    (own : Clauses) (before after : List SelectEntry) (derived : Fragment) : Prop where
  declared : s.query.source.relationship? r.name = some r
  own_clauses : s.compiled.clauses = .ok own
  own_statement : s.listing = .ok (own.fragment s.compiled {})
  own_entries : own.entries = before ++ after
  derived_eq : derived = ({ own with
    entries := before ++ ((s.addedColumns r own.entries).map (rootAlias ++ "." ++ ·)).map
      SelectEntry.ofColumn ++ after } : Clauses).fragment s.compiled {}
  added : ∀ column, (SelectEntry.ofColumn (rootAlias ++ "." ++ column)).expr.fragment
    s.query.style own.plan.scope = ofText (s.query.style.qualified rootAlias column)
  joins : ∃ others j, c.plan.joins = others ++ [j] ∧ (∀ i ∈ others, ∃ name, i.target = .table name) ∧
    j.target = .derived (.ok derived) ∧ j.condition = r.condition
  /-- The derived table stands in front of the WHERE clause, and its placeholders are numbered behind
  those in front of it. -/
  numbering : ∃ before after, c.front q {} = before ++ derived.paren ++ after ∧
    ∀ n, (c.front q {}).sql n = before.sql n ++
      ("(" ++ derived.sql (n + before.binds.length) ++ ")") ++
      after.sql (n + before.binds.length + derived.binds.length)

namespace Fragment

theorem sql_around (front inner back : Fragment) (n : Nat) :
    (front ++ inner.paren ++ back).sql n = front.sql n ++
      ("(" ++ inner.sql (n + front.binds.length) ++ ")") ++
      back.sql (n + front.binds.length + inner.binds.length) := by
  simp [sql_append, paren, ofText, sql, String.append_assoc, Nat.add_assoc]

end Fragment

theorem forall₂_append_singleton {α β : Type} {R : α → β → Prop} {as : List α} {a : α}
    {bs : List β} (h : List.Forall₂ R (as ++ [a]) bs) : ∃ cs b, bs = cs ++ [b] ∧ R a b := by
  induction as generalizing bs with
  | nil =>
    cases h with
    | cons hab hrest =>
      cases hrest
      exact ⟨[], _, rfl, hab⟩
  | cons first as ih =>
    cases h with
    | cons _ hrest =>
      obtain ⟨cs, b, rfl, hab⟩ := ih hrest
      exact ⟨_ :: cs, b, rfl, hab⟩

theorem derivedJoin_of_keyed {q : Query Subselect} {c : Clauses} {s keyed : ResultSet}
    {r : Relationship} {others : List (PlannedJoin Subselect)} {j : PlannedJoin Subselect}
    (clauses : q.clauses = .ok c) (declared : s.query.source.relationship? r.name = some r)
    (hkeyed : s.keyedFor r = .ok keyed) (hjoins : c.plan.joins = others ++ [j])
    (tables : ∀ i ∈ others, ∃ name, i.target = .table name)
    (target : j.target = .derived keyed.listing) (condition : j.condition = r.condition) :
    ∃ own before after derived, DerivedJoin q c s r own before after derived := by
  obtain ⟨_, _, _, hfragments, _⟩ := Query.clauses_eq_ok.mp clauses
  rw [hjoins] at hfragments
  obtain ⟨written, last, hwritten, hlast⟩ := forall₂_append_singleton hfragments
  obtain ⟨rows, hrows, hlast⟩ := bind_eq_ok.mp hlast
  unfold PlannedJoin.targetFragment at hrows
  rw [target] at hrows
  obtain ⟨derived, hderived, rfl⟩ := map_eq_ok.mp hrows
  obtain ⟨entries, hentries, rfl⟩ := ResultSet.keyedFor_eq_ok hkeyed
  obtain ⟨d, hd, hstatement⟩ := ResultSet.listing_eq_ok.mp hderived
  rw [ResultSet.compiled_addColumns] at hd
  obtain ⟨own, before, after, hown, hsplit, rfl⟩ := Query.clauses_addColumns hd
  obtain ⟨hselect, hplan, _⟩ := Query.clauses_eq_ok.mp hown
  have hsame : entries = own.entries := Except.ok.inj (hentries.symm.trans hselect)
  subst hsame
  refine ⟨own, before, after, derived, declared, hown, ResultSet.listing_eq_ok.mpr ⟨own, hown, rfl⟩,
    hsplit, hstatement.symm, ?_, ?_, ?_⟩
  · intro column
    unfold SelectEntry.ofColumn
    rw [Expr.col_root, Expr.fragment, Scope.resolve_rootAlias, Query.root_of_plan hplan]
  · exact ⟨others, j, hjoins, tables, target.trans (congrArg _ hderived), condition⟩
  · have hfront : c.front q {} =
        (ofText "SELECT " ++ q.headFragment {} c.plan.scope c.entries ++ ofText " FROM " ++
          c.origin ++ written.flatten ++ ofText (" " ++ j.joinType.keyword ++ " ")) ++
        derived.paren ++ (ofText (" " ++ q.style.ident j.name ++ " ON ") ++ j.on q.style) := by
      unfold Clauses.front
      rw [hwritten, ← pure_eq_ok.mp hlast, List.flatten_append, List.flatten_singleton]
      simp only [List.append_assoc]
    refine ⟨_, _, hfront, fun n => ?_⟩
    rw [hfront]
    exact Fragment.sql_around _ derived _ n

end RelQuery
