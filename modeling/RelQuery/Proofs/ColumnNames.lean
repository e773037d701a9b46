import RelQuery.Proofs.Aggregates

/-!
# Columns by name

A name of the result columns of a set stands for its first place among them, for the set and for the
records of its rows alike. The set selects the expression at that place alone, and otherwise what it
has selected before; a record has the value at that place.
-/

namespace RelQuery

set_option autoImplicit false

open Fragment (ofText)

/-- A name stands at a place, and at none before it. -/
structure FirstAt (names : List String) (name : String) (i : Nat) : Prop where
  here : names[i]? = some name
  first : ∀ j < i, names[j]? ≠ some name

section FirstAt

variable {names : List String} {name : String} {i : Nat}

theorem FirstAt.cons_inv {k : String} (h : FirstAt (k :: names) name i) :
    (k = name ∧ i = 0) ∨ ∃ j, k ≠ name ∧ i = j + 1 ∧ FirstAt names name j := by
  cases i with
  | zero => exact .inl ⟨Option.some.inj h.here, rfl⟩
  | succ j =>
    refine .inr ⟨j, ?_, rfl, h.here, fun m hm => h.first (m + 1) (Nat.succ_lt_succ hm)⟩
    rintro rfl
    exact h.first 0 j.succ_pos rfl

theorem firstAt_of_idxOf? (h : names.idxOf? name = some i) : FirstAt names name i := by
  obtain ⟨hi, hname, hfirst⟩ := List.idxOf?_eq_some_iff.mp h
  refine ⟨List.getElem?_eq_some_iff.mpr ⟨hi, hname⟩, fun j hj hsome => ?_⟩
  obtain ⟨_, hj'⟩ := List.getElem?_eq_some_iff.mp hsome
  exact hfirst j hj hj'

theorem exists_firstAt (h : name ∈ names) : ∃ i, FirstAt names name i := by
  cases hi : names.idxOf? name with
  | some i => exact ⟨i, firstAt_of_idxOf? hi⟩
  | none => exact absurd h (List.idxOf?_eq_none_iff.mp hi)

theorem find?_of_firstAt {α : Type} {key : α → String} {entries : List α}
    (h : FirstAt (entries.map key) name i) : entries.find? (key · = name) = entries[i]? := by
  induction entries generalizing i with
  | nil => exact absurd h.here nofun
  | cons e entries ih =>
    rcases h.cons_inv with ⟨hname, rfl⟩ | ⟨j, hname, rfl, hrest⟩
    · simp [hname]
    · rw [List.find?_cons, decide_eq_false hname, List.getElem?_cons_succ]
      exact ih hrest

theorem lookup_of_firstAt {entries : List (String × Value)}
    (h : FirstAt (entries.map (·.1)) name i) : entries.lookup name = entries[i]?.map (·.2) := by
  induction entries generalizing i with
  | nil => exact absurd h.here nofun
  | cons e entries ih =>
    obtain ⟨k, v⟩ := e
    rcases h.cons_inv with ⟨rfl, rfl⟩ | ⟨j, hname, rfl, hrest⟩
    · simp
    · rw [List.lookup_cons, beq_false_of_ne (Ne.symm hname), List.getElem?_cons_succ]
      exact ih hrest

end FirstAt

namespace Record

variable {r : Record} {name : String}

theorem getColumn_of_not_mem (h : name ∉ r.projection.names) :
    r.getColumn name = .error (.missingColumn ⟨name, r.projection.names⟩) := by
  have hnone : r.entries.lookup name = none := by
    rw [List.lookup_eq_none_iff]
    intro e he
    rw [bne_iff_ne]
    rintro rfl
    exact h (List.mem_map_of_mem he)
  unfold getColumn
  rw [hnone]
  rfl

theorem getColumn_of_firstAt {i : Nat} (h : FirstAt r.projection.names name i) :
    ∃ e, r.entries[i]? = some e ∧ r.getColumn name = .ok e.2 := by
  have hlookup := lookup_of_firstAt h
  have hhere := h.here
  unfold projection at hhere
  rw [List.getElem?_map] at hhere
  obtain ⟨e, he, _⟩ := Option.map_eq_some_iff.mp hhere
  refine ⟨e, he, ?_⟩
  unfold getColumn
  rw [hlookup, he]
  rfl

theorem getColumn_eq_ok_iff : (∃ v, r.getColumn name = .ok v) ↔ name ∈ r.projection.names := by
  constructor
  · rintro ⟨v, hv⟩
    by_contra hmissing
    rw [getColumn_of_not_mem hmissing] at hv
    cases hv
  · intro h
    obtain ⟨i, hi⟩ := exists_firstAt h
    obtain ⟨e, _, he⟩ := getColumn_of_firstAt hi
    exact ⟨e.2, he⟩

end Record

theorem inflate_record_eq_ok {p : Projection} {row : Row} {record : Record} :
    Inflate.inflate p row = .ok record ↔
      row.values.length = p.names.length ∧ record = ⟨p.names.zip row.values⟩ := by
  change (if row.size = p.size then _ else _) = _ ↔ row.size = p.size ∧ _
  split
  · rename_i hsize
    simp [hsize, eq_comm]
  · rename_i hsize
    simp [hsize]

/-- The statement whose select list is a fragment, with the DISTINCT, the rows, the order and the
window of a query. -/
def Clauses.written (c : Clauses) (q : Query Subselect) (list : Fragment) : Statement where
  sql := "SELECT " ++ (if q.attrs.isDistinct then "DISTINCT " else "") ++ list.sql 0 ++
    (c.rows q).sql list.binds.length ++
    (c.ordering q).sql (list.binds.length + (c.rows q).binds.length) ++ c.window.text
  binds := list.binds ++ (c.rows q).binds ++ (c.ordering q).binds

namespace Clauses

variable (c : Clauses) (q : Query Subselect)

theorem listed_window : c.listed q c.window =
    c.written q (Fragment.join ", " (c.entries.map (·.expr.fragment q.style c.plan.scope))) := by
  unfold listed written selection Query.headFragment
  simp [Fragment.sql_append, String.append_assoc]

theorem listed_selectOnly_window (e : Expr) (name : String) :
    ({ c with entries := [⟨e, name⟩] } : Clauses).listed (q.selectOnly e name) c.window =
      c.written q (e.fragment q.style c.plan.scope) :=
  listed_window _ _

end Clauses

theorem ColumnSet.prepare_alone {c : ColumnSet} {d : Clauses}
    (hd : c.rows.compiled.clauses = .ok d) : (c.alone.prepare {}).map (·.statement) =
      .ok (d.written c.rows.compiled (c.entry.expr.fragment c.rows.query.style d.plan.scope)) := by
  have hselected := Query.clauses_selectOnly hd c.entry.expr c.entry.name
  rw [← compiled_selecting] at hselected
  unfold alone
  rw [ResultSet.prepare_eq_ok.mpr ⟨_, hselected, rfl⟩]
  dsimp only [Except.map]
  rw [Clauses.statement_listed, compiled_selecting]
  exact congrArg _ (d.listed_selectOnly_window c.rows.compiled _ _)

namespace ResultSet

variable {rs : ResultSet} {d : Clauses} {p : Projection} {name : String}

/-- A set with the result columns `p` and a record of one of its rows have the same columns under a
name. Where there is one, its statement is that of the set with the expression in place of the
select list. -/
structure NamesAlike (rs : ResultSet) (d : Clauses) (p : Projection) (row : Row) (record : Record)
    (name : String) : Prop where
  column : (∃ c, rs.getColumn name = ⟨.ok (some c), []⟩) ↔ name ∈ p.names
  value : (∃ v, record.getColumn name = .ok v) ↔ name ∈ p.names
  missing : name ∉ p.names → rs.getColumn name = ⟨.error (.missingColumn ⟨name, p.names⟩), []⟩ ∧
    record.getColumn name = .error (.missingColumn ⟨name, p.names⟩)
  found : ∀ i, FirstAt p.names name i → ∃ entry v, d.entries[i]? = some entry ∧
    row.values[i]? = some v ∧ record.getColumn name = .ok v ∧
    rs.getColumn name = ⟨.ok (some ⟨rs, entry⟩), []⟩ ∧
    (⟨rs, entry⟩ : ColumnSet).asQuery =
      ⟨.ok (d.written rs.compiled (entry.expr.fragment rs.query.style d.plan.scope)), []⟩
  inRange : ∀ i, record.projection.require name = .ok i → ∃ v, row.values[i]? = some v ∧
    record.getColumn name = .ok v

theorem column_of_firstAt {entries : List SelectEntry}
    (hentries : rs.query.selectList = .ok entries) {i : Nat}
    (h : FirstAt (entries.map (·.name)) name i) :
    ∃ entry, entries[i]? = some entry ∧ rs.getColumn name = ⟨.ok (some ⟨rs, entry⟩), []⟩ := by
  have hhere := h.here
  rw [List.getElem?_map] at hhere
  obtain ⟨entry, hentry, _⟩ := Option.map_eq_some_iff.mp hhere
  have hcolumn : rs.column name = .ok ⟨rs, entry⟩ := by
    refine bind_eq_ok.mpr ⟨entries, hentries, ?_⟩
    rw [find?_of_firstAt h, hentry]
    rfl
  refine ⟨entry, hentry, ?_⟩
  unfold getColumn guard Schema.guard
  rw [hcolumn]
  rfl

theorem getColumn_of_not_mem (noHook : rs.query.schema.config.hook = none)
    {entries : List SelectEntry} (hentries : rs.query.selectList = .ok entries)
    (h : name ∉ entries.map (·.name)) : rs.getColumn name =
      ⟨.error (.missingColumn ⟨name, entries.map (·.name)⟩), []⟩ := by
  have hnone : entries.find? (·.name = name) = none := by
    rw [List.find?_eq_none]
    intro e he hname
    exact h (List.mem_map.mpr ⟨e, he, of_decide_eq_true hname⟩)
  have hcolumn : rs.column name = .error (.missingColumn ⟨name, entries.map (·.name)⟩) := by
    unfold column
    rw [hentries]
    simp only [bind, Except.bind, hnone]
    rfl
  unfold getColumn guard Schema.guard
  rw [hcolumn, noHook]
  rfl

theorem asQuery_alone (noHook : rs.query.schema.config.hook = none)
    (hd : rs.compiled.clauses = .ok d) (entry : SelectEntry) :
    (⟨rs, entry⟩ : ColumnSet).asQuery =
      ⟨.ok (d.written rs.compiled (entry.expr.fragment rs.query.style d.plan.scope)), []⟩ := by
  have halone := ColumnSet.prepare_alone (c := ⟨rs, entry⟩) hd
  have hhook : (⟨rs, entry⟩ : ColumnSet).alone.query.schema.config.hook = none := noHook
  unfold ColumnSet.asQuery asQuery compile
  rw [guard_of_none hhook]
  exact congrArg (fun result => (⟨result, []⟩ : Guarded Statement)) halone

theorem namesAlike_of_clauses (noHook : rs.query.schema.config.hook = none)
    (hd : rs.compiled.clauses = .ok d) {row : Row}
    (width : row.values.length = (d.entries.map (·.name)).length) (name : String) :
    rs.NamesAlike d (.ofEntries d.entries) row ⟨(d.entries.map (·.name)).zip row.values⟩ name := by
  have hentries : rs.query.selectList = .ok d.entries := (Query.clauses_eq_ok.mp hd).1
  have hnames : (⟨(d.entries.map (·.name)).zip row.values⟩ : Record).projection.names =
      d.entries.map (·.name) := List.map_fst_zip (Nat.le_of_eq width.symm)
  have hvalue {i : Nat} (hi : FirstAt (d.entries.map (·.name)) name i) :
      ∃ v, row.values[i]? = some v ∧
        (⟨(d.entries.map (·.name)).zip row.values⟩ : Record).getColumn name = .ok v := by
    obtain ⟨e, he, hcolumn⟩ := Record.getColumn_of_firstAt (hnames.symm ▸ hi)
    exact ⟨e.2, (List.getElem?_zip_eq_some.mp he).2, hcolumn⟩
  refine ⟨⟨?_, ?_⟩, ?_, ?_, ?_, ?_⟩
  · rintro ⟨c, hc⟩
    by_contra hmissing
    rw [getColumn_of_not_mem noHook hentries hmissing] at hc
    cases hc
  · intro hmem
    obtain ⟨i, hi⟩ := exists_firstAt hmem
    obtain ⟨entry, _, hentry⟩ := column_of_firstAt hentries hi
    exact ⟨_, hentry⟩
  · rw [Record.getColumn_eq_ok_iff, hnames]
    rfl
  · intro hmissing
    refine ⟨getColumn_of_not_mem noHook hentries hmissing, ?_⟩
    rw [Record.getColumn_of_not_mem (hnames.symm ▸ hmissing), hnames]
    rfl
  · intro i hi
    obtain ⟨entry, hplace, hentry⟩ := column_of_firstAt hentries hi
    obtain ⟨v, hv, hcolumn⟩ := hvalue hi
    exact ⟨entry, v, hplace, hv, hcolumn, hentry, asQuery_alone noHook hd entry⟩
  · intro i hi
    unfold Projection.require at hi
    split at hi
    · rename_i j hj
      cases hi
      unfold Projection.indexOf? at hj
      rw [hnames] at hj
      exact hvalue (firstAt_of_idxOf? hj)
    · cases hi

/-- The names of a set that compiles are those of its records, each for its first place. -/
theorem namesAlike_of_compile {rs : ResultSet} {p : Prepared}
    (noHook : rs.query.schema.config.hook = none) (compiles : rs.compile = ⟨.ok p, []⟩) :
    ∃ d, rs.compiled.clauses = .ok d ∧ p.projection.names = d.entries.map (·.name) ∧
      rs.asQuery = ⟨.ok (d.written rs.compiled (Fragment.join ", "
        (d.entries.map (·.expr.fragment rs.query.style d.plan.scope)))), []⟩ ∧
      (∀ row, (∃ record : Record, Inflate.inflate p.projection row = .ok record) ↔
        row.values.length = p.projection.names.length) ∧
      ∀ row (record : Record), Inflate.inflate p.projection row = .ok record →
        ∀ name, rs.NamesAlike d p.projection row record name := by
  have hprepare : rs.prepare {} = .ok p := by
    unfold compile guard Schema.guard at compiles
    rw [noHook, guarded_none] at compiles
    exact congrArg Guarded.outcome compiles
  obtain ⟨d, hd, rfl⟩ := prepare_eq_ok.mp hprepare
  have hentries : rs.query.selectList = .ok d.entries := (Query.clauses_eq_ok.mp hd).1
  refine ⟨d, hd, rfl, ?_, ?_, ?_⟩
  · have hlisted := (d.statement_listed rs.compiled none).trans (d.listed_window rs.compiled)
    unfold asQuery
    rw [compiles]
    exact congrArg (fun s => (⟨.ok s, []⟩ : Guarded Statement)) hlisted
  · intro row
    simp only [inflate_record_eq_ok, exists_and_left, exists_eq, and_true]
  · intro row record hrecord name
    obtain ⟨hlength, rfl⟩ := inflate_record_eq_ok.mp hrecord
    exact namesAlike_of_clauses noHook hd hlength name

end ResultSet

namespace Library

def shadowedKeys : ResultSet :=
  (ResultSet.ofSource schema author).search
    (some ((Expr.column none "mentor").eq (.literal (.int 3))))
    (some {
      columns := some ["name"]
      plusSelect := [.binary .concat (.column none "name") (.literal (.text "!")),
        .column none "mentor"]
      plusAs := ["id", "name"]
      distinct := some true
      limit := some 2 })

theorem namesAlike_shadowedKeys : ∃ p record,
    shadowedKeys.query.schema.config.hook = none ∧ shadowedKeys.compile = ⟨.ok p, []⟩ ∧
    p.statement.sql = "SELECT DISTINCT me.name, me.name || $1, me.mentor FROM authors me " ++
      "WHERE me.mentor = $2 LIMIT 2" ∧
    Inflate.inflate p.projection ⟨[.text "Ann", .text "Ann!", .int 3], none⟩ =
      .ok (record : Record) ∧
    record.getColumn "name" = .ok (.text "Ann") ∧
    ∃ c, shadowedKeys.getColumn "name" = ⟨.ok (some c), []⟩ ∧ c.asQuery = ⟨.ok
      ⟨"SELECT DISTINCT me.name FROM authors me WHERE me.mentor = $1 LIMIT 2", [.int 3]⟩, []⟩ := by
  have noHook : shadowedKeys.query.schema.config.hook = none := rfl
  obtain ⟨p, hp⟩ : ∃ p, shadowedKeys.compile = ⟨.ok p, []⟩ := ⟨_, rfl⟩
  obtain ⟨d, hd, _, _, hinflates, halike⟩ := ResultSet.namesAlike_of_compile noHook hp
  have hnames : p.projection.names = ["name", "id", "name"] := by
    cases hp
    rfl
  obtain ⟨record, hrecord⟩ :=
    (hinflates ⟨[.text "Ann", .text "Ann!", .int 3], none⟩).mpr (by rw [hnames]; rfl)
  have hfirst : FirstAt p.projection.names "name" 0 := by
    rw [hnames]
    exact ⟨rfl, nofun⟩
  obtain ⟨entry, v, hentry, hv, hvalue, hcolumn, hquery⟩ :=
    (halike _ record hrecord "name").found 0 hfirst
  cases hv
  refine ⟨p, record, noHook, hp, ?_, hrecord, hvalue, _, hcolumn, ?_⟩
  · cases hp
    rfl
  · rw [hquery]
    cases hd
    cases hentry
    rfl

end Library

end RelQuery
