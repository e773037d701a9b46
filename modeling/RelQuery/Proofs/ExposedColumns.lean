import Mathlib.Data.List.TakeWhile
import RelQuery.Proofs.BindOrder
import RelQuery.Proofs.Conjuncts
import RelQuery.Proofs.DerivedTables
import RelQuery.Proofs.KnownSources
import RelQuery.Proofs.TextReader

/-!
# Columns of derived tables

Which columns a derived table has, and which of them the statement around it reads. A set whose rows
are restricted is joined on its keys, and a set that wraps another one reads the columns of its
source.

A derived table has the columns that its select list reads, whatever the entries are called. But
whether a key is missing from a select list is found out by the names of its entries.
-/

namespace RelQuery

set_option autoImplicit false

open Fragment (ofText)

namespace Expr

/-- The column of the root that an expression reads, if it is one. -/
def rootColumn? : Expr → Option String
  | .column none name => some name
  | .column (some table) name => if table = rootAlias then some name else none
  | _ => none

def columnName? : Expr → Option String
  | .column _ name => some name
  | _ => none

variable {e : Expr} {column : String}

theorem rootColumn?_eq_some :
    e.rootColumn? = some column ↔ e = .column none column ∨ e = .column (some rootAlias) column := by
  constructor
  · intro h
    unfold rootColumn? at h
    split at h
    · cases h
      exact .inl rfl
    · split at h
      · rename_i htable
        cases h
        rw [htable]
        exact .inr rfl
      · cases h
    · cases h
  · intro h
    rcases h with rfl | rfl
    · rfl
    · rfl

theorem not_dot_of_isIdentifier (h : isIdentifier column = true) : '.' ∉ column.toList := by
  intro hdot
  have hrest := TextReader.isIdentRest_of_isIdentifier h '.' hdot
  revert hrest
  decide

theorem rootColumn?_of_resultName? (identifier : isIdentifier column = true)
    (h : e.resultName? = some column) : e.rootColumn? = some column := by
  unfold resultName? at h
  split at h
  · exact h
  · rename_i table name
    split at h
    · rename_i htable
      cases h
      exact if_pos htable
    · cases h
      refine absurd ?_ (not_dot_of_isIdentifier identifier)
      simp
  · cases h

theorem col_of_isIdentifier (identifier : isIdentifier column = true) :
    col column = .column none column := by
  have hsplit : splitFirstDot column = none := by
    have hnone : column.toList.dropWhile (· != '.') = [] := by
      rw [List.dropWhile_eq_nil_iff]
      intro c hc
      apply bne_iff_ne.mpr
      rintro rfl
      exact not_dot_of_isIdentifier identifier hc
    unfold splitFirstDot
    rw [hnone]
  unfold col
  rw [hsplit]

theorem fragment_of_rootColumn? (h : e.rootColumn? = some column) (style : Style) {scope : Scope}
    (root : scope.root = rootAlias) :
    e.fragment style scope = ofText (style.qualified rootAlias column) := by
  rcases rootColumn?_eq_some.mp h with rfl | rfl
  · rw [fragment, Scope.resolve_none, root]
  · rw [fragment, Scope.resolve_rootAlias, root]

end Expr

namespace SelectEntry

theorem resultName?_ofColumn (name : String) :
    (ofColumn name).expr.resultName? = some (ofColumn name).name := by
  obtain ⟨table, rest, h⟩ := Expr.col_eq_column name
  unfold ofColumn
  rw [h]
  cases table with
  | none => rfl
  | some table => rfl

theorem zipWith_of_paired {mark : String} {exprs : List Expr} {names : List String}
    {entries : List SelectEntry} (h : paired mark exprs names = .ok entries) :
    exprs.zipWith SelectEntry.mk names = entries := by
  unfold paired at h
  split at h
  · exact Except.ok.inj h
  · cases h

theorem resultName?_of_unnamed {i : Nat} {exprs : List Expr} {entries : List SelectEntry}
    (h : unnamed i exprs = .ok entries) : ∀ e ∈ entries, e.expr.resultName? = some e.name := by
  induction exprs generalizing i entries with
  | nil =>
    cases h
    exact fun _ he => absurd he List.not_mem_nil
  | cons e rest ih =>
    unfold unnamed at h
    split at h
    · rename_i name hname
      obtain ⟨others, hothers, rfl⟩ := map_eq_ok.mp h
      exact List.forall_mem_cons.mpr ⟨hname, ih hothers⟩
    · cases h

end SelectEntry

namespace Attributes

variable {σ : Type} {a : Attributes σ} {declared : List String} {entries : List SelectEntry}

def namedSelect (a : Attributes σ) : List SelectEntry :=
  match a.select, a.selectAs with
  | some exprs, some names => exprs.zipWith SelectEntry.mk names
  | _, _ => []

def namedEntries (a : Attributes σ) : List SelectEntry :=
  a.namedSelect ++ a.plusSelect.zipWith SelectEntry.mk a.plusAs

def selected (a : Attributes σ) : List Expr :=
  (a.columns.getD []).map Expr.col ++ a.select.getD [] ++ a.plusColumns.map Expr.col ++ a.plusSelect

theorem selectEntries_eq_ok (h : a.selectEntries = .ok entries) :
    entries.map (·.expr) = a.select.getD [] ∧ (∀ e ∈ a.namedSelect, e ∈ entries) ∧
      ∀ e ∈ entries, e ∈ a.namedSelect ∨ e.expr.resultName? = some e.name := by
  unfold selectEntries at h
  unfold namedSelect
  cases hselect : a.select with
  | none =>
    rw [hselect] at h
    cases h
    exact ⟨rfl, fun _ he => he, fun _ he => absurd he List.not_mem_nil⟩
  | some exprs =>
    rw [hselect] at h
    cases hnames : a.selectAs with
    | none =>
      rw [hnames] at h
      have hresults := SelectEntry.resultName?_of_unnamed h
      exact ⟨SelectEntry.exprs_of_unnamed h, fun _ he => absurd he List.not_mem_nil,
        fun e he => .inr (hresults e he)⟩
    | some names =>
      rw [hnames] at h
      have hexprs := SelectEntry.exprs_of_paired h
      cases SelectEntry.zipWith_of_paired h
      exact ⟨hexprs, fun _ he => he, fun _ he => .inl he⟩

theorem resultName?_of_columnEntries {e : SelectEntry} (h : e ∈ a.columnEntries declared) :
    e.expr.resultName? = some e.name := by
  have hmap {names : List String} (he : e ∈ names.map SelectEntry.ofColumn) :
      e.expr.resultName? = some e.name := by
    obtain ⟨name, _, rfl⟩ := List.mem_map.mp he
    exact SelectEntry.resultName?_ofColumn name
  unfold columnEntries at h
  split at h
  · exact hmap h
  · exact absurd h List.not_mem_nil
  · exact hmap h

theorem map_expr_columnEntries (a : Attributes σ) (declared : List String) :
    (a.columnEntries declared).map (·.expr) =
      (if a.selects then [] else declared.map Expr.col) ++ (a.columns.getD []).map Expr.col := by
  unfold columnEntries selects
  rcases a.columns with _ | columns
  · rcases a.select with _ | exprs
    · simp [SelectEntry.ofColumn]
    · simp
  · simp [SelectEntry.ofColumn]

theorem selectList_eq_ok (h : a.selectList declared = .ok entries) :
    entries.map (·.expr) = (if a.selects then [] else declared.map Expr.col) ++ a.selected ∧
      (∀ e ∈ a.namedEntries, e ∈ entries) ∧
      ∀ e ∈ entries, e ∈ a.namedEntries ∨ e.expr.resultName? = some e.name := by
  obtain ⟨named, hnamed, h⟩ := bind_eq_ok.mp h
  obtain ⟨appended, happended, h⟩ := bind_eq_ok.mp h
  obtain ⟨hexprs, hinside, hnames⟩ := selectEntries_eq_ok hnamed
  have hplus := SelectEntry.exprs_of_paired happended
  rw [← pure_eq_ok.mp h]
  unfold namedEntries
  rw [SelectEntry.zipWith_of_paired happended]
  refine ⟨?_, ?_, ?_⟩
  · rw [List.map_append, List.map_append, List.map_append, map_expr_columnEntries, hexprs, hplus,
      List.map_map]
    unfold selected
    simp only [List.append_assoc]
    rfl
  · intro e he
    rcases List.mem_append.mp he with he | he
    · exact List.mem_append_left _ (List.mem_append_left _ (List.mem_append_right _ (hinside e he)))
    · exact List.mem_append_right _ he
  · intro e he
    rcases List.mem_append.mp he with he | he
    · rcases List.mem_append.mp he with he | he
      · rcases List.mem_append.mp he with he | he
        · exact .inr (resultName?_of_columnEntries he)
        · exact (hnames e he).imp_left (List.mem_append_left _)
      · obtain ⟨name, _, rfl⟩ := List.mem_map.mp he
        exact .inr (SelectEntry.resultName?_ofColumn name)
    · exact .inl (List.mem_append_right _ he)

end Attributes

/-- Some entry reads a column of the root. -/
def Exposes (entries : List SelectEntry) (column : String) : Prop :=
  ∃ e ∈ entries, e.expr.rootColumn? = some column

def Provides (entries : List SelectEntry) (column : String) : Prop :=
  ∃ e ∈ entries, e.expr.columnName? = some column

instance (entries : List SelectEntry) (column : String) : Decidable (Exposes entries column) :=
  inferInstanceAs (Decidable (∃ e ∈ entries, e.expr.rootColumn? = some column))

instance (entries : List SelectEntry) (column : String) : Decidable (Provides entries column) :=
  inferInstanceAs (Decidable (∃ e ∈ entries, e.expr.columnName? = some column))

theorem exposes_append {before after : List SelectEntry} {column : String} :
    Exposes (before ++ after) column ↔ Exposes before column ∨ Exposes after column := by
  unfold Exposes
  simp only [List.mem_append, or_and_right, exists_or]

theorem exposes_roots {columns : List String} {column : String} :
    Exposes ((columns.map (rootAlias ++ "." ++ ·)).map SelectEntry.ofColumn) column ↔
      column ∈ columns := by
  have hread (other : String) :
      (SelectEntry.ofColumn (rootAlias ++ "." ++ other)).expr.rootColumn? = some other := by
    unfold SelectEntry.ofColumn
    rw [Expr.col_root]
    rfl
  unfold Exposes
  simp only [List.mem_map, exists_exists_and_eq_and, hread, Option.some.injEq, exists_eq_right]

theorem provides_iff {entries : List SelectEntry} {column : String} :
    Provides entries column ↔ ∃ e ∈ entries.map (·.expr), e.columnName? = some column := by
  unfold Provides
  simp only [List.mem_map, exists_exists_and_eq_and]

theorem Attributes.exposes_or_unnamed {σ : Type} {a : Attributes σ} {declared : List String}
    {entries : List SelectEntry} {column : String} (h : a.selectList declared = .ok entries)
    (identifier : isIdentifier column = true) :
    (Exposes entries column ∨ ∀ e ∈ entries, e.name ≠ column) ↔
      (Exposes entries column ∨ ∀ e ∈ a.namedEntries, e.name ≠ column) := by
  obtain ⟨_, hnamed, hnames⟩ := selectList_eq_ok h
  constructor
  · exact Or.imp_right fun hother e he => hother e (hnamed e he)
  · intro hor
    rcases hor with hexposed | hother
    · exact .inl hexposed
    · by_cases hexists : ∃ e ∈ entries, e.name = column
      · obtain ⟨e, he, rfl⟩ := hexists
        rcases hnames e he with hgiven | hread
        · exact absurd rfl (hother e hgiven)
        · exact .inl ⟨e, he, Expr.rootColumn?_of_resultName? identifier hread⟩
      · exact .inr fun e he heq => hexists ⟨e, he, heq⟩

theorem ResultSet.mem_addedColumns {rs : ResultSet} {r : Relationship} {entries : List SelectEntry}
    {column : String} : column ∈ rs.addedColumns r entries ↔
      column ∈ rs.joinColumns r ∧ ∀ e ∈ entries, e.name ≠ column := by
  simp [addedColumns]

theorem ResultSet.exposes_keyedFor {rs keyed : ResultSet} {r : Relationship}
    {own entries : List SelectEntry} (hkeyed : rs.keyedFor r = .ok keyed)
    (hown : rs.query.selectList = .ok own) (hentries : keyed.query.selectList = .ok entries)
    {column : String} (joined : column ∈ rs.joinColumns r)
    (identifier : isIdentifier column = true) :
    Exposes entries column ↔
      Exposes own column ∨ ∀ e ∈ rs.query.attrs.namedEntries, e.name ≠ column := by
  obtain ⟨own', hown', rfl⟩ := ResultSet.keyedFor_eq_ok hkeyed
  cases Except.ok.inj (hown.symm.trans hown')
  obtain ⟨before, after, hsplit, rfl⟩ := Query.selectList_addColumns hentries
  cases Except.ok.inj (hown.symm.trans hsplit)
  rw [exposes_append, exposes_append, exposes_roots, or_right_comm, ← exposes_append,
    mem_addedColumns, and_iff_right joined]
  exact Attributes.exposes_or_unnamed hown identifier

theorem Query.joins_of_root {σ : Type} {q : Query σ} {plan : Plan σ} {root : PreviousRoot σ}
    (tables : ¬q.ReadsRaw) (planned : q.plan = .ok plan) (previous : q.previous = [root])
    (bare : root.join = .none) :
    ∃ others joined, plan.joins = others ++ [⟨.inner, Planning.rootTarget root, joined,
      root.relationship.condition, ⟨rootAlias, joined, root.relationship.name⟩⟩] := by
  rw [plan_of_not_readsRaw tables] at planned
  obtain ⟨own, last, _, hlast, rfl⟩ := planTables_eq_ok.mp planned
  rw [previous] at hlast
  obtain ⟨mid, behind, hmid, hbehind, rfl⟩ := Planning.joinRoots_cons_eq_ok.mp hlast
  rw [bare] at hmid
  cases hmid
  cases hbehind
  exact ⟨own.1.joins, own.1.rootAliasOf root, rfl⟩

namespace Obtained

variable {rs : ResultSet}

theorem isIdentifier_key (h : Obtained rs) {name : String} {r : Relationship}
    (declared : rs.query.source.relationship? name = some r) {pairs : List ColumnPair}
    (declarative : r.condition = .pairs pairs) : ∀ p ∈ pairs, isIdentifier p.own = true := by
  obtain ⟨steps, consistent⟩ := h.exists_consistent
  have hpairs := consistent.pairs _ h.covered.own.own r (List.mem_of_find?_eq_some declared) pairs
    declarative
  intro p hp
  exact (hpairs.2 p hp).2

theorem isIdentifier_column (h : Obtained rs) :
    ∀ column ∈ rs.query.source.columns, isIdentifier column = true := by
  obtain ⟨steps, consistent⟩ := h.exists_consistent
  exact (consistent.wellNamed _ h.covered.own.own).columns

end Obtained

/-- The rows of `keyed` are joined as a derived table, on columns of its alias. An entry that exposes
a column stands in its select list as the column of the root, without a name. -/
structure JoinedOn (q : Query Subselect) (c : Clauses) (keyed : ResultSet) (d : Clauses)
    (pairs : List ColumnPair) : Prop where
  rows : keyed.compiled.clauses = .ok d
  joins : ∃ others j, c.plan.joins = others ++ [j] ∧
    j.target = .derived (.ok (d.fragment keyed.compiled {})) ∧
    j.on q.style = Fragment.join " AND " (pairs.map fun p =>
      ofText (q.style.qualified rootAlias p.foreign ++ " = " ++ q.style.qualified j.name p.own))
  spelled : ∀ e ∈ d.entries, ∀ column, e.expr.rootColumn? = some column →
    e.expr.fragment keyed.query.style d.plan.scope =
      ofText (keyed.query.style.qualified rootAlias column)

theorem joinedOn_of_previous {rs next keyed : ResultSet} {r : Relationship}
    {pairs : List ColumnPair} {c : Clauses} (clauses : next.compiled.clauses = .ok c)
    (tables : ¬next.query.ReadsRaw)
    (previous : next.query.previous = [⟨rs.query.source, r, [], .none, some keyed⟩])
    (declarative : r.condition = .pairs pairs) : ∃ d, JoinedOn next.compiled c keyed d pairs := by
  obtain ⟨_, hplan, _, hwritten, _⟩ := Query.clauses_eq_ok.mp clauses
  have htables : ¬next.compiled.ReadsRaw := fun h => tables ((Query.readsRaw_map _ _).mp h)
  have hprevious : next.compiled.previous =
      [⟨rs.query.source, r, [], .none, some keyed.listing⟩] := by
    change next.query.previous.map (PreviousRoot.map ResultSet.listing) = _
    rw [previous]
    rfl
  obtain ⟨others, joined, hjoins⟩ := Query.joins_of_root htables hplan hprevious rfl
  rw [hjoins] at hwritten
  obtain ⟨_, _, _, hlast⟩ := forall₂_append_singleton hwritten
  obtain ⟨_, hrows, _⟩ := bind_eq_ok.mp hlast
  obtain ⟨f, hlisting, _⟩ := map_eq_ok.mp hrows
  obtain ⟨d, hd, rfl⟩ := ResultSet.listing_eq_ok.mp hlisting
  obtain ⟨_, hinner, _⟩ := Query.clauses_eq_ok.mp hd
  refine ⟨d, hd, ⟨others, _, hjoins, congrArg JoinTarget.derived hlisting, ?_⟩, ?_⟩
  · unfold PlannedJoin.on
    rw [declarative]
  · intro e _ column hcolumn
    exact Expr.fragment_of_rootColumn? hcolumn _ (Query.root_of_plan hinner)

theorem Query.exists_selectList_addColumns {σ : Type} {q : Query σ} {entries : List SelectEntry}
    (h : q.selectList = .ok entries) (columns : List String) :
    ∃ more, (q.addColumns columns).selectList = .ok more := by
  obtain ⟨selected, hselected, h⟩ := bind_eq_ok.mp h
  obtain ⟨appended, happended, _⟩ := bind_eq_ok.mp h
  exact ⟨_, bind_eq_ok.mpr ⟨selected, hselected, bind_eq_ok.mpr ⟨appended, happended, rfl⟩⟩⟩

/-- A set whose rows are restricted is joined as a derived table with the keys of the relationship,
save those whose names its attributes give to other expressions. -/
theorem Obtained.exposes_keys {rs next : ResultSet} {name : String} {condition : Option Expr}
    {attrs : Option (Attributes ResultSet)} {r : Relationship} {pairs : List ColumnPair}
    (obtained : Obtained rs) (restricts : rs.query.attrs.restrictsRows = true)
    (declared : rs.query.source.relationship? name = some r)
    (declarative : r.condition = .pairs pairs)
    (found : (rs.searchRelated name condition attrs).outcome = .ok (some next)) :
    ∃ keyed own entries, next.query.previous = [⟨rs.query.source, r, [], .none, some keyed⟩] ∧
      rs.query.selectList = .ok own ∧ keyed.query.selectList = .ok entries ∧
      (∀ p ∈ pairs, Exposes entries p.own ↔
        Exposes own p.own ∨ ∀ e ∈ rs.query.attrs.namedEntries, e.name ≠ p.own) ∧
      ∀ shape prepared, ¬next.query.ReadsRaw → next.prepare shape = .ok prepared →
        ∃ c d, next.compiled.clauses = .ok c ∧
          prepared.statement = (c.fragment next.compiled shape).statement ∧
          JoinedOn next.compiled c keyed d pairs ∧ d.entries = entries := by
  obtain ⟨related, hrelated, rfl⟩ := ResultSet.searchRelated_eq_some.mp found
  obtain ⟨r', target, previous, hr, _, hprevious, rfl⟩ := ResultSet.related_eq_ok.mp hrelated
  cases Option.some.inj (declared.symm.trans hr)
  obtain ⟨keyed, hkeyed, rfl⟩ := (ResultSet.asPrevious_of_restricts restricts).mp hprevious
  obtain ⟨own, hown, heq⟩ := ResultSet.keyedFor_eq_ok hkeyed
  obtain ⟨entries, hentries⟩ : ∃ entries, keyed.query.selectList = .ok entries := by
    rw [heq]
    exact Query.exists_selectList_addColumns hown _
  refine ⟨keyed, own, entries, rfl, hown, hentries, ?_, ?_⟩
  · intro p hp
    have hjoined : p.own ∈ rs.joinColumns r := by
      unfold ResultSet.joinColumns
      rw [declarative]
      exact List.mem_map_of_mem hp
    exact ResultSet.exposes_keyedFor hkeyed hown hentries hjoined
      (obtained.isIdentifier_key declared declarative p hp)
  · intro shape prepared tables hprepared
    obtain ⟨c, hc, rfl⟩ := ResultSet.prepare_eq_ok.mp hprepared
    obtain ⟨d, hd⟩ := joinedOn_of_previous hc tables rfl declarative
    obtain ⟨hinner, _⟩ := Query.clauses_eq_ok.mp hd.rows
    exact ⟨c, d, hc, rfl, hd, Except.ok.inj (hinner.symm.trans hentries)⟩

namespace Library

def authorNames : ResultSet :=
  (ResultSet.ofSource schema author).search none
    (some { columns := some ["name"], limit := some 2 })

def loweredNames : ResultSet :=
  (ResultSet.ofSource schema author).search none
    (some { select := some [.call "LOWER" [.col "name"]], selectAs := some ["id"],
            limit := some 2 })

theorem obtained_search {attrs : Attributes ResultSet} (plain : attrs.origin = none) :
    Obtained ((ResultSet.ofSource schema author).search none (some attrs)) := by
  refine .search none (some attrs) ?_ obtained_author
  intro a ha inner horigin
  cases ha
  rw [plain] at horigin
  cases horigin

def booksOf (keyed : ResultSet) : ResultSet :=
  ⟨{ schema := schema
     source := book
     previous := [⟨author, booksOfAuthor, [], .none, some keyed⟩] }⟩

end Library

theorem exposes_keys_authorNames :
    Obtained Library.authorNames ∧ Library.authorNames.query.attrs.restrictsRows = true ∧
      Library.booksOfAuthor.condition = .pairs [⟨"author", "id"⟩] ∧
      ∃ next keyed entries,
        (Library.authorNames.searchRelated "books" none none).outcome = .ok (some next) ∧
        next.query.previous = [⟨Library.author, Library.booksOfAuthor, [], .none, some keyed⟩] ∧
        keyed.query.selectList = .ok entries ∧ Exposes entries "id" := by
  have hobtained : Obtained Library.authorNames := Library.obtained_search rfl
  obtain ⟨keyed, own, entries, hprevious, _, hentries, hkeys, _⟩ :=
    hobtained.exposes_keys rfl (show _ = some Library.booksOfAuthor from rfl) rfl
      (show (Library.authorNames.searchRelated "books" none none).outcome =
        .ok (some (Library.booksOf ⟨Library.authorNames.query.addColumns ["me.id"]⟩)) from rfl)
  have hexposed := (hkeys ⟨"author", "id"⟩ List.mem_cons_self).mpr
    (.inr fun _ he => absurd he List.not_mem_nil)
  exact ⟨hobtained, rfl, rfl, _, keyed, entries, rfl, hprevious, hentries, hexposed⟩

/-- The key that the books are joined on is not a column of the derived table. -/
theorem not_exposes_loweredNames :
    Obtained Library.loweredNames ∧ Library.loweredNames.query.attrs.restrictsRows = true ∧
      Library.booksOfAuthor.condition = .pairs [⟨"author", "id"⟩] ∧
      (Library.loweredNames.searchRelated "books" none none).outcome =
        .ok (some (Library.booksOf Library.loweredNames)) ∧
      Library.loweredNames.query.selectList = .ok [⟨.call "LOWER" [.col "name"], "id"⟩] ∧
      ¬Exposes [⟨.call "LOWER" [.col "name"], "id"⟩] "id" ∧
      (Library.loweredNames.prepare {}).map (·.statement.sql) =
        .ok "SELECT LOWER(me.name) FROM authors me LIMIT 2" :=
  ⟨Library.obtained_search rfl, rfl, rfl, rfl, rfl, by decide, by cbv⟩

theorem SelectEntry.map_ofColumn {columns : List String}
    (identifiers : ∀ column ∈ columns, isIdentifier column = true) :
    columns.map ofColumn = columns.map fun column => ⟨.column none column, column⟩ := by
  apply List.map_congr_left
  intro column hcolumn
  unfold ofColumn
  rw [Expr.col_of_isIdentifier (identifiers column hcolumn)]
  rfl

namespace ResultSet

variable {rs : ResultSet} {own : Clauses}

def wrapClauses (rs : ResultSet) (own : Clauses) : Clauses :=
  ⟨rs.query.source.columns.map SelectEntry.ofColumn, ⟨Scope.top, [], []⟩,
    (own.fragment rs.compiled {}).paren ++ ofText (" " ++ rs.query.style.ident rootAlias), [],
    ⟨none, none⟩⟩

theorem clauses_asSubselect (clauses : rs.compiled.clauses = .ok own) :
    rs.asSubselect.compiled.clauses = .ok (rs.wrapClauses own) := by
  have horigin : rs.asSubselect.compiled.fromFragment = .ok ((own.fragment rs.compiled {}).paren ++
      ofText (" " ++ rs.query.style.ident rootAlias)) :=
    map_eq_ok.mpr ⟨_, listing_eq_ok.mpr ⟨own, clauses, rfl⟩, rfl⟩
  refine Query.clauses_eq_ok.mpr ⟨?_, rfl, horigin, .nil, rfl⟩
  change Except.ok (_ ++ [] ++ [] ++ []) = _
  simp only [List.append_nil]
  rfl

theorem fragment_wrapClauses
    (identifiers : ∀ column ∈ rs.query.source.columns, isIdentifier column = true) :
    (rs.wrapClauses own).fragment rs.asSubselect.compiled {} =
      ofText "SELECT " ++ (ofText "" ++ Fragment.join ", "
        ((rs.query.source.columns.map (rs.query.style.qualified rootAlias)).map ofText)) ++
      ofText " FROM " ++ ((own.fragment rs.compiled {}).paren ++
        ofText (" " ++ rs.query.style.ident rootAlias)) ++ [] ++ [] ++ ofText ("" ++ "") := by
  have hentries : (rs.wrapClauses own).entries.map (·.expr.fragment rs.query.style Scope.top) =
      (rs.query.source.columns.map (rs.query.style.qualified rootAlias)).map ofText := by
    unfold wrapClauses
    dsimp only
    rw [SelectEntry.map_ofColumn identifiers, List.map_map, List.map_map]
    apply List.map_congr_left
    intro column _
    exact Expr.fragment_of_rootColumn? rfl _ rfl
  rw [← hentries]
  rfl

theorem statement_wrapClauses
    (identifiers : ∀ column ∈ rs.query.source.columns, isIdentifier column = true) :
    ((rs.wrapClauses own).fragment rs.asSubselect.compiled {}).statement =
      ⟨"SELECT " ++ String.intercalate ", "
          (rs.query.source.columns.map (rs.query.style.qualified rootAlias)) ++ " FROM (" ++
          (own.fragment rs.compiled {}).statement.sql ++ ") " ++ rs.query.style.ident rootAlias,
        (own.fragment rs.compiled {}).statement.binds⟩ := by
  have hopen : " FROM (" = " FROM " ++ "(" := by decide
  have hclose : ") " = ")" ++ " " := by decide
  unfold Fragment.statement
  rw [fragment_wrapClauses identifiers, hopen, hclose]
  simp only [Fragment.sql_append, Fragment.sql_paren, Fragment.sql_join_ofText, Fragment.sql_ofText,
    Fragment.binds_append, Fragment.binds_ofText, Fragment.binds_paren, Fragment.binds_join_ofText,
    List.append_nil, List.nil_append, List.length_nil, Nat.add_zero, String.append_empty,
    String.empty_append, String.append_assoc]

end ResultSet

theorem Query.provides_columns {σ : Type} {q : Query σ} {entries : List SelectEntry}
    (identifiers : ∀ column ∈ q.source.columns, isIdentifier column = true)
    (h : q.selectList = .ok entries) :
    (∀ column ∈ q.source.columns, Provides entries column) ↔ (q.attrs.selects = true →
      ∀ column ∈ q.source.columns, ∃ e ∈ q.attrs.selected, e.columnName? = some column) := by
  obtain ⟨hexprs, _⟩ := Attributes.selectList_eq_ok h
  simp only [provides_iff, hexprs]
  cases q.attrs.selects with
  | true => simp
  | false =>
    refine iff_of_true ?_ nofun
    intro column hcolumn
    refine ⟨.col column, List.mem_append_left _ (List.mem_map_of_mem hcolumn), ?_⟩
    rw [Expr.col_of_isIdentifier (identifiers column hcolumn)]
    rfl

/-- A set that wraps another one reads all columns of the source. The wrapped set provides them when
it selects nothing itself, and otherwise as far as they are among what it selects. -/
theorem Obtained.reads_wrapped {rs : ResultSet} {p : Prepared} (obtained : Obtained rs)
    (compiles : rs.prepare {} = .ok p) :
    rs.asSubselect.prepare {} = .ok
        ⟨⟨"SELECT " ++ String.intercalate ", "
            (rs.query.source.columns.map (rs.query.style.qualified rootAlias)) ++ " FROM (" ++
            p.statement.sql ++ ") " ++ rs.query.style.ident rootAlias, p.statement.binds⟩,
          ⟨rs.query.source.columns⟩⟩ ∧
      ∃ own outer, rs.query.selectList = .ok own ∧ rs.asSubselect.query.selectList = .ok outer ∧
        (∀ column, Exposes outer column ↔ column ∈ rs.query.source.columns) ∧
        ((∀ column, Exposes outer column → Provides own column) ↔
          (rs.query.attrs.selects = true → ∀ column ∈ rs.query.source.columns,
            ∃ e ∈ rs.query.attrs.selected, e.columnName? = some column)) := by
  obtain ⟨own, hown, rfl⟩ := ResultSet.prepare_eq_ok.mp compiles
  have houter := ResultSet.clauses_asSubselect hown
  have identifiers := obtained.isIdentifier_column
  have hcolumns := SelectEntry.map_ofColumn identifiers
  constructor
  · refine ResultSet.prepare_eq_ok.mpr ⟨_, houter, ?_⟩
    rw [ResultSet.statement_wrapClauses identifiers]
    unfold Clauses.projection Projection.ofEntries ResultSet.wrapClauses
    rw [if_neg (by decide), hcolumns, List.map_map]
    simp [Function.comp_def]
  · have hreads (column : String) :
        Exposes (rs.query.source.columns.map SelectEntry.ofColumn) column ↔
          column ∈ rs.query.source.columns := by
      unfold Exposes
      rw [hcolumns]
      simp [Expr.rootColumn?]
    obtain ⟨hselect, _⟩ := Query.clauses_eq_ok.mp hown
    obtain ⟨hwraps, _⟩ := Query.clauses_eq_ok.mp houter
    refine ⟨own.entries, _, hselect, hwraps, hreads, ?_⟩
    rw [← Query.provides_columns identifiers hselect]
    exact forall_congr' fun column => imp_congr_left (hreads column)

theorem reads_wrapped_author : ∃ p own outer,
    Obtained (ResultSet.ofSource Library.schema Library.author) ∧
      (ResultSet.ofSource Library.schema Library.author).prepare {} = .ok p ∧
      (ResultSet.ofSource Library.schema Library.author).query.selectList = .ok own ∧
      (ResultSet.ofSource Library.schema Library.author).asSubselect.query.selectList = .ok outer ∧
      ∀ column, Exposes outer column → Provides own column := by
  obtain ⟨p, hp⟩ :
      ∃ p, (ResultSet.ofSource Library.schema Library.author).prepare {} = .ok p := ⟨_, rfl⟩
  obtain ⟨_, own, outer, hown, houter, _, hprovides⟩ := Library.obtained_author.reads_wrapped hp
  exact ⟨p, own, outer, Library.obtained_author, hp, hown, houter, hprovides.mpr nofun⟩

/-- The key of the authors is read, and is not a column of the derived table. -/
theorem not_provides_authorNames : Obtained Library.authorNames ∧
    (∃ p, Library.authorNames.prepare {} = .ok p) ∧
    ∃ own outer, Library.authorNames.query.selectList = .ok own ∧
      Library.authorNames.asSubselect.query.selectList = .ok outer ∧
      Exposes outer "id" ∧ ¬Provides own "id" ∧
      (Library.authorNames.asSubselect.prepare {}).map (·.statement.sql) =
        .ok "SELECT me.id, me.name, me.mentor FROM (SELECT me.name FROM authors me LIMIT 2) me" :=
  ⟨Library.obtained_search rfl, ⟨_, rfl⟩, _, _, rfl, rfl, by decide, by decide, by cbv⟩

end RelQuery
