import RelQuery.Proofs.SearchRuns
import RelQuery.ResultSet.Column

/-!
# Aggregates of a column

An aggregate function of a column is put in place of the select list. All else of the statement
stays, so that the function is used on the rows that the set reads and groups, and the window falls
on what it gives. Counting makes a derived table of the rows where they are bounded; an aggregate
does not.
-/

namespace RelQuery

set_option autoImplicit false

open Fragment (ofText)

namespace Query

variable {σ : Type}

def selectOnly (q : Query σ) (e : Expr) (name : String) : Query σ :=
  { q with
    attrs := { q.attrs with
      columns := none
      plusColumns := []
      select := some [e]
      selectAs := some [name]
      plusSelect := []
      plusAs := [] } }

theorem search_select (q : Query σ) (e : Expr) (name : String) :
    q.search none (some { select := some [e], selectAs := some [name] }) =
      q.selectOnly e name := by
  simp [search, selectOnly, Attributes.merge_of_selects, Attributes.selects]

theorem selectList_selectOnly (q : Query σ) (e : Expr) (name : String) :
    (q.selectOnly e name).selectList = .ok [⟨e, name⟩] := rfl

theorem clauses_selectOnly {q : Query Subselect} {c : Clauses} (h : q.clauses = .ok c) (e : Expr)
    (name : String) : (q.selectOnly e name).clauses = .ok { c with entries := [⟨e, name⟩] } := by
  obtain ⟨_, hplan, horigin, hjoins, hwindow⟩ := clauses_eq_ok.mp h
  exact clauses_eq_ok.mpr ⟨q.selectList_selectOnly e name, hplan, horigin, hjoins, hwindow⟩

end Query

namespace ColumnSet

theorem selecting_eq (c : ColumnSet) (e : Expr) :
    c.selecting e = ⟨c.rows.query.selectOnly e c.entry.name⟩ :=
  congrArg ResultSet.mk (c.rows.query.search_select e c.entry.name)

theorem compiled_selecting (c : ColumnSet) (e : Expr) :
    (c.selecting e).compiled = c.rows.compiled.selectOnly e c.entry.name := by
  rw [selecting_eq]
  rfl

end ColumnSet

theorem Fragment.exists_sql_around (f g : Fragment) (s : String) (n : Nat) :
    ∃ before behind, (f ++ (ofText s ++ g)).sql n = before ++ s ++ behind := by
  rw [sql_append, sql_append, sql_ofText, ← String.append_assoc]
  exact ⟨_, _, rfl⟩

/-- An expression in place of the select list, with DISTINCT in front of it where the rows are. -/
def Clauses.called (c : Clauses) (q : Query Subselect) (e : Expr) : Fragment :=
  ofText (if q.attrs.isDistinct then "DISTINCT " else "") ++ e.fragment q.style c.plan.scope

def Clauses.aggregated (c : Clauses) (q : Query Subselect) (e : Expr) : Statement where
  sql := "SELECT " ++ (c.called q e).sql 0 ++ (c.rows q).sql (c.called q e).binds.length ++
    (c.ordering q).sql ((c.called q e).binds.length + (c.rows q).binds.length) ++
    limitText (some (min 1 (c.window.limit.getD 1))) ++ offsetText c.window.offset
  binds := (c.called q e).binds ++ (c.rows q).binds ++ (c.ordering q).binds

namespace Clauses

variable (c : Clauses) (q : Query Subselect) (e : Expr)

theorem listed_selectOnly (name : String) :
    ({ c with entries := [⟨e, name⟩] } : Clauses).listed (q.selectOnly e name)
        (c.window.bound (some 1)) = c.aggregated q e := by
  have hselection : ({ c with entries := [⟨e, name⟩] } : Clauses).selection (q.selectOnly e name) =
      c.called q e := rfl
  unfold listed aggregated
  rw [Window.bound_one, Window.text_eq, hselection, ← String.append_assoc]
  rfl

variable {c q}

theorem rows_of_table (hc : q.clauses = .ok c) (table : q.attrs.origin = none) (n : Nat) :
    ∃ behind, (c.rows q).sql n =
      " FROM " ++ q.style.ident q.source.table ++ " " ++ q.style.ident rootAlias ++ behind := by
  have horigin := (Query.clauses_eq_ok.mp hc).2.2.1
  unfold Query.fromFragment at horigin
  rw [table] at horigin
  unfold rows
  rw [← Except.ok.inj horigin]
  simp only [Fragment.sql_append, Fragment.sql_ofText, String.append_assoc]
  exact ⟨_, rfl⟩

theorem rows_of_groupBy {first : Expr} {rest : List Expr}
    (grouped : q.attrs.groupBy = some (first :: rest)) (n : Nat) :
    ∃ before behind, (c.rows q).sql n = before ++ " GROUP BY " ++ behind := by
  have hclause : ∃ f, clause " GROUP BY " ", "
      ((q.attrs.groupBy.getD []).map (·.fragment q.style c.plan.scope)) =
        ofText " GROUP BY " ++ f := by
    rw [grouped]
    exact ⟨_, rfl⟩
  obtain ⟨f, hf⟩ := hclause
  have hrows : c.rows q =
      (ofText " FROM " ++ c.origin ++ c.joins.flatten ++ whereClause q.style (c.conditions q)) ++
        (ofText " GROUP BY " ++ (f ++
          clause " HAVING " "" (q.attrs.having.toList.map (·.fragment q.style c.plan.scope)))) := by
    unfold rows
    rw [hf]
    simp only [List.append_assoc]
  rw [hrows]
  exact Fragment.exists_sql_around _ _ _ n

end Clauses

def ColumnSet.aggregate (c : ColumnSet) (d : Clauses) (function : String) : Statement :=
  d.aggregated c.rows.compiled (.call function [c.entry.expr])

namespace ColumnSet

variable {c : ColumnSet} {d : Clauses}

theorem first_selecting_sends (hd : c.rows.compiled.clauses = .ok d) (e : Expr) {σ : Type}
    (storage : Storage σ) (state : σ) : ∃ result last,
      Sends storage (fun τ s => ((c.selecting e).first s : StateM τ (Guarded (Option Row)))) state
        result last [.query (d.aggregated c.rows.compiled e)] := by
  have hselected := Query.clauses_selectOnly hd e c.entry.name
  rw [← compiled_selecting] at hselected
  have hfirst : ((c.selecting e).prepare { atMost := some 1 }).map (·.statement) =
      .ok (d.aggregated c.rows.compiled e) := by
    rw [ResultSet.prepare_eq_ok.mpr ⟨_, hselected, rfl⟩]
    dsimp only [Except.map]
    rw [Clauses.statement_listed, compiled_selecting, ← Clauses.listed_selectOnly]
  have hasks := asks_query ((c.selecting e).prepare { atMost := some 1 }) (·.statement)
    fun p rows => (ResultSet.inflateFirst p.projection rows : Except Error (Option Row))
  exact (hasks.queries (c.selecting e) none).planned storage state hfirst

theorem func_sends (hd : c.rows.compiled.clauses = .ok d) (function : String) {σ : Type}
    (storage : Storage σ) (state : σ) : ∃ result last,
      Sends storage (fun _ s => c.func s function) state result last
        [.query (c.aggregate d function)] := by
  obtain ⟨result, last, hsent⟩ :=
    first_selecting_sends hd (.call function [c.entry.expr]) storage state
  exact ⟨_, last, hsent.finish (Guarded.map firstValue)⟩

end ColumnSet

def ColumnSet.callText (c : ColumnSet) (d : Clauses) (function : String) : String :=
  (if c.rows.query.attrs.isDistinct then "DISTINCT " else "") ++
    ((Expr.call function [c.entry.expr]).fragment c.rows.query.style d.plan.scope).sql 0

/-- How the number of rows and an aggregate of a column are asked for, where the rows have some
clauses. -/
structure ColumnSet.Aggregates (c : ColumnSet) (d : Clauses) (function : String) : Prop where
  sent : ∀ {σ : Type} (storage : Storage σ) (state : σ), ∃ result last,
    Sends storage (fun _ s => c.func s function) state result last [.query (c.aggregate d function)]
  count : c.rows.query.attrs.Unbounded →
    c.rows.countQuery = ⟨.ok (d.counted c.rows.compiled), []⟩ ∧
      ∃ n m, (c.aggregate d function).sql = "SELECT " ++ c.callText d function ++
        (d.rows c.rows.compiled).sql n ++ (d.ordering c.rows.compiled).sql m ++ " LIMIT 1"
  /-- Otherwise only the number is of a table that is made of the rows. -/
  countDerived : ¬c.rows.query.attrs.Unbounded →
    c.rows.countQuery = ⟨.ok (d.countedDerived c.rows.compiled), []⟩
  table : c.rows.query.attrs.origin = none → ∃ behind, (c.aggregate d function).sql =
    "SELECT " ++ c.callText d function ++ " FROM " ++
      c.rows.query.style.ident c.rows.query.source.table ++ " " ++
      c.rows.query.style.ident rootAlias ++ behind
  distinct : c.rows.query.attrs.isDistinct = true → ∃ behind,
    (c.aggregate d function).sql = "SELECT " ++ "DISTINCT " ++ behind
  grouped : ∀ first rest, c.rows.query.attrs.groupBy = some (first :: rest) → ∃ before behind,
    (c.aggregate d function).sql = before ++ " GROUP BY " ++ behind
  offset : ∀ n, d.window.offset = some n → ∃ before,
    (c.aggregate d function).sql = before ++ " OFFSET " ++ toString n.toNat

namespace ColumnSet

variable {c : ColumnSet} {d : Clauses}

theorem sql_aggregate (c : ColumnSet) (d : Clauses) (function : String) :
    ∃ n m, (c.aggregate d function).sql = "SELECT " ++ c.callText d function ++
      (d.rows c.rows.compiled).sql n ++ (d.ordering c.rows.compiled).sql m ++
      limitText (some (min 1 (d.window.limit.getD 1))) ++ offsetText d.window.offset := by
  have hcalled : (d.called c.rows.compiled (.call function [c.entry.expr])).sql 0 =
      c.callText d function := by
    unfold Clauses.called callText
    rw [Fragment.sql_append, Fragment.sql_ofText]
    rfl
  unfold aggregate Clauses.aggregated
  rw [hcalled]
  exact ⟨_, _, rfl⟩

theorem sql_aggregate_of_unbounded (hd : c.rows.compiled.clauses = .ok d)
    (unbounded : c.rows.query.attrs.Unbounded) (function : String) :
    ∃ n m, (c.aggregate d function).sql = "SELECT " ++ c.callText d function ++
      (d.rows c.rows.compiled).sql n ++ (d.ordering c.rows.compiled).sql m ++ " LIMIT 1" := by
  have hplain : c.rows.compiled.attrs.Unbounded := (Attributes.unbounded_map _ _).mpr unbounded
  have hwindow : d.window = ⟨none, none⟩ := hplain.window (Query.clauses_eq_ok.mp hd).2.2.2.2
  obtain ⟨n, m, hsql⟩ := c.sql_aggregate d function
  rw [hwindow] at hsql
  exact ⟨n, m, hsql.trans String.append_empty⟩

theorem sql_aggregate_of_table (hd : c.rows.compiled.clauses = .ok d)
    (table : c.rows.query.attrs.origin = none) (function : String) :
    ∃ behind, (c.aggregate d function).sql = "SELECT " ++ c.callText d function ++ " FROM " ++
      c.rows.query.style.ident c.rows.query.source.table ++ " " ++
      c.rows.query.style.ident rootAlias ++ behind := by
  have horigin : c.rows.compiled.attrs.origin = none := by
    change c.rows.query.attrs.origin.map _ = none
    rw [table]
    rfl
  obtain ⟨n, m, hsql⟩ := c.sql_aggregate d function
  obtain ⟨behind, hrows⟩ := Clauses.rows_of_table hd horigin n
  rw [hsql, hrows]
  simp only [String.append_assoc]
  exact ⟨_, rfl⟩

theorem sql_aggregate_of_groupBy {first : Expr} {rest : List Expr}
    (grouped : c.rows.compiled.attrs.groupBy = some (first :: rest)) (function : String) :
    ∃ before behind, (c.aggregate d function).sql = before ++ " GROUP BY " ++ behind := by
  obtain ⟨n, m, hsql⟩ := c.sql_aggregate d function
  obtain ⟨before, behind, hrows⟩ := Clauses.rows_of_groupBy (c := d) grouped n
  refine ⟨"SELECT " ++ c.callText d function ++ before, ?_, ?_⟩
  · exact behind ++ (d.ordering c.rows.compiled).sql m ++
      limitText (some (min 1 (d.window.limit.getD 1))) ++ offsetText d.window.offset
  · rw [hsql, hrows]
    simp only [String.append_assoc]

/-- An aggregate goes over the rows that the set reads, and leaves its DISTINCT, GROUP BY and OFFSET
in place. -/
theorem aggregates_of_clauses (hd : c.rows.compiled.clauses = .ok d) (function : String) :
    c.Aggregates d function where
  sent := func_sends hd function
  count unbounded := by
    refine ⟨?_, sql_aggregate_of_unbounded hd unbounded function⟩
    unfold ResultSet.countQuery
    rw [(ResultSet.prepareCount_of_unbounded hd unbounded).2]
    rfl
  countDerived bounded := by
    unfold ResultSet.countQuery
    rw [ResultSet.prepareCount_of_not_unbounded hd bounded]
    rfl
  table table := sql_aggregate_of_table hd table function
  distinct distinct := by
    obtain ⟨n, m, hsql⟩ := c.sql_aggregate d function
    rw [hsql]
    unfold callText
    rw [distinct, if_pos rfl]
    simp only [String.append_assoc]
    exact ⟨_, rfl⟩
  grouped _ _ grouped := sql_aggregate_of_groupBy grouped function
  offset k offset := by
    obtain ⟨n, m, hsql⟩ := c.sql_aggregate d function
    have htext : offsetText d.window.offset = " OFFSET " ++ toString k.toNat := by
      rw [offset]
      rfl
    rw [hsql, htext, ← String.append_assoc]
    exact ⟨_, rfl⟩

end ColumnSet

namespace ResultSet

variable {rs : ResultSet}

theorem exists_column {d : Clauses} (hd : rs.compiled.clauses = .ok d) {name : String}
    (projected : name ∈ d.entries.map (·.name)) : ∃ c : ColumnSet,
      rs.getColumn name = ⟨.ok (some c), []⟩ ∧ c.rows = rs ∧ c.entry ∈ d.entries ∧
        c.entry.name = name := by
  have hentries : rs.query.selectList = .ok d.entries := (Query.clauses_eq_ok.mp hd).1
  obtain ⟨e, he, hname⟩ := List.mem_map.mp projected
  have hsome : (d.entries.find? (·.name = name)).isSome :=
    List.find?_isSome.mpr ⟨e, he, decide_eq_true hname⟩
  obtain ⟨entry, hentry⟩ := Option.isSome_iff_exists.mp hsome
  have hcolumn : rs.column name = .ok ⟨rs, entry⟩ := by
    refine bind_eq_ok.mpr ⟨d.entries, hentries, ?_⟩
    rw [hentry]
    rfl
  refine ⟨⟨rs, entry⟩, ?_, rfl, List.mem_of_find?_eq_some hentry, ?_⟩
  · unfold getColumn guard Schema.guard
    rw [hcolumn]
    rfl
  · simpa using List.find?_some hentry

/-- Every projected column of a set that compiles can be aggregated. The statement goes over the
rows that the set reads, with the DISTINCT, GROUP BY and OFFSET of the set on the aggregate itself.
So it covers the rows that are counted just where nothing bounds, groups or merges them. -/
theorem aggregates_of_prepare {p : Prepared} (compiles : rs.prepare {} = .ok p) {name : String}
    (projected : name ∈ p.projection.names) (function : String) :
    ∃ d c, rs.compiled.clauses = .ok d ∧ rs.getColumn name = ⟨.ok (some c), []⟩ ∧ c.rows = rs ∧
      c.entry ∈ d.entries ∧ c.entry.name = name ∧ c.Aggregates d function := by
  obtain ⟨d, hd, rfl⟩ := prepare_eq_ok.mp compiles
  obtain ⟨c, hcolumn, rfl, hentry, hname⟩ := exists_column hd projected
  exact ⟨d, c, hd, hcolumn, rfl, hentry, hname, ColumnSet.aggregates_of_clauses hd function⟩

end ResultSet

namespace Library

def mentors : ResultSet :=
  (ResultSet.ofSource schema author).search none
    (some { columns := some ["mentor"], groupBy := some [.column none "mentor"] })

def secondPage : ResultSet :=
  (ResultSet.ofSource schema author).search none (some { rows := some 2, page := some 2 })

theorem aggregates_mentors : ∃ c : ColumnSet, mentors.getColumn "mentor" = ⟨.ok (some c), []⟩ ∧
    (∀ {σ : Type} (storage : Storage σ) (state : σ), ∃ result last,
      Sends storage (fun _ s => c.func s "COUNT") state result last
        [.query ⟨"SELECT COUNT(me.mentor) FROM authors me GROUP BY me.mentor LIMIT 1", []⟩]) ∧
    mentors.countQuery = ⟨.ok ⟨"SELECT COUNT(*) FROM (" ++
      "SELECT me.mentor FROM authors me GROUP BY me.mentor) count_subq", []⟩, []⟩ := by
  obtain ⟨p, hp⟩ : ∃ p, mentors.prepare {} = .ok p := ⟨_, rfl⟩
  have hprojected : "mentor" ∈ p.projection.names := by
    cases hp
    exact List.mem_cons_self
  obtain ⟨d, c, hd, hcolumn, hrows, _, _, h⟩ :=
    ResultSet.aggregates_of_prepare hp hprojected "COUNT"
  refine ⟨c, hcolumn, ?_, ?_⟩
  · cases hd
    cases hcolumn
    exact h.sent
  · have hbounded : ¬mentors.query.attrs.Unbounded := fun h => nomatch h.groupBy
    rw [← hrows] at hbounded
    have hcount := h.countDerived hbounded
    rw [hrows] at hcount
    rw [hcount]
    cases hd
    rfl

/-- The largest key is asked for behind the first two rows of a statement that has one. -/
theorem func_secondPage : ∃ c : ColumnSet, secondPage.getColumn "id" = ⟨.ok (some c), []⟩ ∧
    secondPage.countQuery = ⟨.ok ⟨"SELECT COUNT(*) FROM (" ++
      "SELECT me.id, me.name, me.mentor FROM authors me LIMIT 2 OFFSET 2) count_subq", []⟩, []⟩ ∧
    ∀ {σ : Type} (storage : Storage σ) (state : σ), ∃ result last,
      Sends storage (fun _ s => c.func s "MAX") state result last
        [.query ⟨"SELECT MAX(me.id) FROM authors me LIMIT 1 OFFSET 2", []⟩] := by
  refine ⟨⟨secondPage, .ofColumn "id"⟩, rfl, rfl, ?_⟩
  exact ColumnSet.func_sends (c := ⟨secondPage, .ofColumn "id"⟩) rfl "MAX"

end Library

end RelQuery
