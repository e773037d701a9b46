import RelQuery.Proofs.Conjuncts
import RelQuery.Proofs.SentStatements

/-!
# Counting

The statements that list the rows of a set, count them and ask for the first one. They are put
together from the same parts, each of which brings its own values along.
-/

namespace RelQuery

set_option autoImplicit false

open Fragment (ofText)

theorem Window.bound_one (w : Window) : w.bound (some 1) = { w with limit := some (min 1 (w.limit.getD 1)) } := by
  obtain ⟨limit, offset⟩ := w
  cases limit <;> rfl

/-- Nothing bounds, groups or merges the rows. -/
structure Attributes.Unbounded {σ : Type} (a : Attributes σ) : Prop where
  rows : a.rows = none
  limit : a.limit = none
  offset : a.offset = none
  groupBy : a.groupBy = none
  having : a.having = none
  distinct : a.distinct ≠ some true

theorem Attributes.unbounded_map {σ τ : Type} (f : σ → τ) (a : Attributes σ) :
    (a.map f).Unbounded ↔ a.Unbounded :=
  ⟨fun h => ⟨h.rows, h.limit, h.offset, h.groupBy, h.having, h.distinct⟩,
    fun h => ⟨h.rows, h.limit, h.offset, h.groupBy, h.having, h.distinct⟩⟩

theorem Attributes.Unbounded.window {σ : Type} {a : Attributes σ} {w : Window} (h : a.Unbounded)
    (hw : a.window = .ok w) : w = ⟨none, none⟩ := by
  unfold Attributes.window at hw
  rw [h.rows] at hw
  dsimp only at hw
  rw [← Except.ok.inj hw, h.limit, h.offset]

theorem Query.countsDerived_eq_false {σ : Type} {q : Query σ} {w : Window}
    (h : q.attrs.window = .ok w) : q.countsDerived w = false ↔ q.attrs.Unbounded := by
  unfold Attributes.window at h
  unfold countsDerived Attributes.isDistinct
  simp only [Bool.or_eq_false_iff, Option.isSome_eq_false_iff, Option.isNone_iff_eq_none,
    decide_eq_false_iff_not]
  split at h
  · rename_i hrows
    cases h
    constructor
    · rintro ⟨⟨⟨⟨hlimit, hoffset⟩, hgroup⟩, hhaving⟩, hdistinct⟩
      exact ⟨hrows, hlimit, hoffset, hgroup, hhaving, hdistinct⟩
    · exact fun h => ⟨⟨⟨⟨h.limit, h.offset⟩, h.groupBy⟩, h.having⟩, h.distinct⟩
  · rename_i rows hrows
    have hlimit : w.limit = some rows := by
      split at h
      · cases h
        rfl
      · cases h
    constructor
    · rintro ⟨⟨⟨⟨hnone, _⟩, _⟩, _⟩, _⟩
      rw [hlimit] at hnone
      cases hnone
    · intro h
      rw [h.rows] at hrows
      cases hrows

namespace Clauses

variable (c : Clauses) (q : Query Subselect)

def selection : Fragment := q.headFragment {} c.plan.scope c.entries

def rows : Fragment :=
  ofText " FROM " ++ c.origin ++ c.joins.flatten ++ whereClause q.style (c.conditions q) ++
    clause " GROUP BY " ", "
      ((q.attrs.groupBy.getD []).map (·.fragment q.style c.plan.scope)) ++
    clause " HAVING " "" (q.attrs.having.toList.map (·.fragment q.style c.plan.scope))

def ordering : Fragment :=
  clause " ORDER BY " ", " ((q.attrs.orderBy.getD []).map (·.fragment q.style c.plan.scope))

def listed (w : Window) : Statement where
  sql := "SELECT " ++ (c.selection q).sql 0 ++ (c.rows q).sql (c.selection q).binds.length ++
    (c.ordering q).sql ((c.selection q).binds.length + (c.rows q).binds.length) ++ w.text
  binds := (c.selection q).binds ++ (c.rows q).binds ++ (c.ordering q).binds

def counted : Statement where
  sql := "SELECT COUNT(*)" ++ (c.rows q).sql 0
  binds := (c.rows q).binds

def countedDerived : Statement where
  sql := "SELECT COUNT(*) FROM (SELECT " ++ (c.selection q).sql 0 ++
    (c.rows q).sql (c.selection q).binds.length ++ c.window.text ++ ") " ++
    q.style.ident "count_subq"
  binds := (c.selection q).binds ++ (c.rows q).binds

/-- What the shape of a statement changes: the select list, the order and the bound. -/
theorem fragment_eq (shape : Shape) : c.fragment q shape =
    ofText "SELECT " ++ (if shape.count then ofText "COUNT(*)" else c.selection q) ++ c.rows q ++
      (if shape.count || shape.dropOrder then [] else c.ordering q) ++
      (c.window.bound shape.atMost).fragment := by
  obtain ⟨count, dropOrder, atMost⟩ := shape
  unfold fragment front back selection rows ordering Query.headFragment Query.tailFragment
  cases count
  · simp [List.append_assoc]
  · simp [List.append_assoc]

theorem statement_listed (atMost : Option UInt64) :
    (c.fragment q { atMost }).statement = c.listed q (c.window.bound atMost) := by
  have hfragment : c.fragment q { atMost } = ofText "SELECT " ++ c.selection q ++ c.rows q ++
    c.ordering q ++ (c.window.bound atMost).fragment := c.fragment_eq q _
  rw [hfragment]
  unfold Fragment.statement listed
  simp [Fragment.sql_append, String.append_assoc]

theorem statement_counted (empty : c.window.text = "") :
    (c.fragment q { count := true, dropOrder := true }).statement = c.counted q := by
  have hfragment : c.fragment q { count := true, dropOrder := true } =
    ofText "SELECT " ++ ofText "COUNT(*)" ++ c.rows q ++ [] ++ c.window.fragment :=
      c.fragment_eq q _
  have htext : "SELECT COUNT(*)" = "SELECT " ++ "COUNT(*)" := rfl
  rw [hfragment]
  unfold Fragment.statement counted
  rw [htext]
  simp [-String.reduceAppend, Fragment.sql_append, String.append_assoc, empty]

theorem statement_countedDerived :
    (ofText "SELECT COUNT(*) FROM " ++ (c.fragment q { dropOrder := true }).paren ++
      ofText (" " ++ q.style.ident "count_subq")).statement = c.countedDerived q := by
  have hfragment : c.fragment q { dropOrder := true } =
    ofText "SELECT " ++ c.selection q ++ c.rows q ++ [] ++ c.window.fragment := c.fragment_eq q _
  have hopen : "SELECT COUNT(*) FROM (SELECT " = "SELECT COUNT(*) FROM " ++ "(" ++ "SELECT " := rfl
  have hclose : ") " = ")" ++ " " := rfl
  rw [hfragment]
  unfold Fragment.statement countedDerived
  rw [hopen, hclose]
  simp [-String.reduceAppend, Fragment.sql_append, Fragment.sql_paren, String.append_assoc]

end Clauses

theorem Query.selectCount_of_clauses {q : Query Subselect} {c : Clauses} (h : q.clauses = .ok c) :
    q.selectCount = .ok (if q.countsDerived c.window then
      ofText "SELECT COUNT(*) FROM " ++ (c.fragment q { dropOrder := true }).paren ++
        ofText (" " ++ q.style.ident "count_subq")
    else c.fragment q { count := true, dropOrder := true }) := by
  have hwindow := (clauses_eq_ok.mp h).2.2.2.2
  unfold selectCount
  rw [hwindow, select_eq_clauses, select_eq_clauses, h]
  cases hderived : q.countsDerived c.window with
  | true =>
    simp only [bind, Except.bind, hderived]
    rfl
  | false =>
    simp only [bind, Except.bind, hderived]
    rfl

namespace ResultSet

variable {rs : ResultSet} {c : Clauses}

theorem prepareCount_of_unbounded (hc : rs.compiled.clauses = .ok c)
    (unbounded : rs.query.attrs.Unbounded) :
    c.window.text = "" ∧ rs.prepareCount = .ok (c.counted rs.compiled) := by
  have hwindow := (Query.clauses_eq_ok.mp hc).2.2.2.2
  have hplain : rs.compiled.attrs.Unbounded := (Attributes.unbounded_map _ _).mpr unbounded
  have hempty : c.window.text = "" := by
    rw [hplain.window hwindow]
    rfl
  refine ⟨hempty, ?_⟩
  unfold prepareCount
  rw [Query.selectCount_of_clauses hc, (Query.countsDerived_eq_false hwindow).mpr hplain,
    ← c.statement_counted rs.compiled hempty]
  rfl

theorem prepareCount_of_not_unbounded (hc : rs.compiled.clauses = .ok c)
    (bounded : ¬rs.query.attrs.Unbounded) :
    rs.prepareCount = .ok (c.countedDerived rs.compiled) := by
  have hwindow := (Query.clauses_eq_ok.mp hc).2.2.2.2
  have hderived : rs.compiled.countsDerived c.window = true := by
    rw [← Bool.not_eq_false, Query.countsDerived_eq_false hwindow]
    exact fun h => bounded ((Attributes.unbounded_map _ _).mp h)
  unfold prepareCount
  rw [Query.selectCount_of_clauses hc, hderived, ← c.statement_countedDerived rs.compiled]
  rfl

/-- Listing the rows of a set, counting them and asking for the first one select the same rows. -/
structure SelectsRows (rs : ResultSet) (c : Clauses) : Prop where
  asQuery : rs.asQuery = ⟨.ok (c.listed rs.compiled c.window), []⟩
  count : rs.query.attrs.Unbounded →
    c.window.text = "" ∧ rs.countQuery = ⟨.ok (c.counted rs.compiled), []⟩
  countDerived : ¬rs.query.attrs.Unbounded →
    rs.countQuery = ⟨.ok (c.countedDerived rs.compiled), []⟩
  first : ∀ (α : Type) [Inflate α] {σ : Type} (storage : Storage σ) (state : σ), ∃ result last,
    Sends storage (fun τ => @ResultSet.first τ α _ rs) state result last
      [.query (c.listed rs.compiled
        { c.window with limit := some (min 1 (c.window.limit.getD 1)) })]

theorem selectsRows_of_prepare {p : Prepared} (compiles : rs.prepare {} = .ok p) :
    ∃ c, rs.compiled.clauses = .ok c ∧ rs.SelectsRows c := by
  obtain ⟨c, hc, rfl⟩ := prepare_eq_ok.mp compiles
  refine ⟨c, hc, ?_, ?_, ?_, ?_⟩
  · unfold asQuery compile
    rw [compiles, c.statement_listed rs.compiled none]
    rfl
  · intro unbounded
    obtain ⟨hempty, hcount⟩ := prepareCount_of_unbounded hc unbounded
    refine ⟨hempty, ?_⟩
    unfold countQuery
    rw [hcount]
    rfl
  · intro bounded
    unfold countQuery
    rw [prepareCount_of_not_unbounded hc bounded]
    rfl
  · intro α _ σ storage state
    have hfirst : (rs.prepare { atMost := some 1 }).map (·.statement) =
        .ok (c.listed rs.compiled (c.window.bound (some 1))) := by
      rw [prepare_eq_ok.mpr ⟨c, hc, rfl⟩, c.statement_listed rs.compiled (some 1)]
      rfl
    rw [Window.bound_one] at hfirst
    have hasks := asks_query (rs.prepare { atMost := some 1 }) (·.statement)
      fun p rows => (inflateFirst p.projection rows : Except Error (Option α))
    exact (hasks.queries rs none).planned storage state hfirst

end ResultSet

namespace Library

def numberedAuthors (limit : Option UInt64) : ResultSet :=
  ⟨{ schema := schema
     source := author
     conditions := [.binary .eq (.column none "name") (.literal (.text "Ann"))]
     attrs := {
       select := some [.binary .add (.column none "mentor") (.literal (.int 1))]
       selectAs := some ["number"]
       orderBy := some [⟨.binary .mul (.column none "id") (.literal (.int 2)), .descending, none⟩]
       limit } }⟩

theorem selectsRows_numberedAuthors :
    (numberedAuthors none).asQuery = ⟨.ok
      ⟨"SELECT me.mentor + $1 FROM authors me WHERE me.name = $2 ORDER BY me.id * $3 DESC",
        [.int 1, .text "Ann", .int 2]⟩, []⟩ ∧
    (numberedAuthors none).countQuery = ⟨.ok
      ⟨"SELECT COUNT(*) FROM authors me WHERE me.name = $1", [.text "Ann"]⟩, []⟩ ∧
    (numberedAuthors (some 5)).countQuery = ⟨.ok
      ⟨"SELECT COUNT(*) FROM (" ++
          "SELECT me.mentor + $1 FROM authors me WHERE me.name = $2 LIMIT 5) count_subq",
        [.int 1, .text "Ann"]⟩, []⟩ := by
  have compiles (limit : Option UInt64) : ∃ p, (numberedAuthors limit).prepare {} = .ok p :=
    ⟨_, rfl⟩
  obtain ⟨_, hplain⟩ := compiles none
  obtain ⟨_, hlimited⟩ := compiles (some 5)
  obtain ⟨c, hc, h⟩ := ResultSet.selectsRows_of_prepare hplain
  obtain ⟨c', hc', h'⟩ := ResultSet.selectsRows_of_prepare hlimited
  cases hc
  cases hc'
  have hunbounded : (numberedAuthors none).query.attrs.Unbounded :=
    ⟨rfl, rfl, rfl, rfl, rfl, by decide⟩
  have hbounded : ¬(numberedAuthors (some 5)).query.attrs.Unbounded := fun h => nomatch h.limit
  refine ⟨?_, ?_, ?_⟩
  · rw [h.asQuery]
    rfl
  · rw [(h.count hunbounded).2]
    rfl
  · rw [h'.countDerived hbounded]
    rfl

end Library

end RelQuery
