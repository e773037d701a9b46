import Mathlib.Data.List.DropRight
import RelQuery.Proofs.ExposedColumns
import RelQuery.Proofs.SearchRuns

/-!
# Selections of searches

What a set selects behind some searches. The last search that selects anything replaces what was
selected and appended before it. From there on the appended columns, expressions and names add up.
An expression is paired with the name at its place in these sums, whichever searches gave the two.
-/

namespace RelQuery

set_option autoImplicit false

namespace Expr

variable {e : Expr}

theorem exists_column_of_resultName? {name : String} (h : e.resultName? = some name) :
    ∃ table column, e = .column table column := by
  unfold resultName? at h
  split at h
  · exact ⟨_, _, rfl⟩
  · exact ⟨_, _, rfl⟩
  · cases h

theorem exists_resultName? (table : Option String) (column : String) :
    ∃ name, (Expr.column table column).resultName? = some name := by
  cases table with
  | none => exact ⟨_, rfl⟩
  | some table => exact ⟨_, rfl⟩

end Expr

namespace SelectEntry

/-- Entries that read expressions, in order. They are called by names, in order, and by the columns
that they read where no names are given. -/
structure Named (exprs : List Expr) (names : Option (List String)) (entries : List SelectEntry) :
    Prop where
  reads : entries.map (·.expr) = exprs
  called : match names with
    | some names => entries.map (·.name) = names
    | none => ∀ e ∈ entries, e.expr.resultName? = some e.name

def Nameable (exprs : List Expr) : Option (List String) → Prop
  | some names => exprs.length = names.length
  | none => ∀ e ∈ exprs, ∃ table name, e = .column table name

variable {exprs : List Expr} {names : List String} {entries : List SelectEntry} {e : Error}

theorem named_nil : Named [] none entries ↔ entries = [] := by
  constructor
  · exact fun h => List.map_eq_nil_iff.mp h.reads
  · rintro rfl
    exact ⟨rfl, nofun⟩

theorem paired_eq_ok {mark : String} :
    paired mark exprs names = .ok entries ↔ Named exprs (some names) entries := by
  constructor
  · intro h
    refine ⟨exprs_of_paired h, ?_⟩
    unfold paired at h
    split at h
    · rename_i hlength
      cases h
      have hsecond := List.map_snd_zip (Nat.le_of_eq hlength.symm)
      rw [List.zip, List.map_zipWith] at hsecond
      dsimp only
      rw [List.map_zipWith]
      exact hsecond
    · cases h
  · rintro ⟨rfl, rfl⟩
    unfold paired
    rw [if_pos (by simp), List.zipWith_map, List.zipWith_self]
    simp

theorem unnamed_eq_ok {i : Nat} : unnamed i exprs = .ok entries ↔ Named exprs none entries := by
  constructor
  · exact fun h => ⟨exprs_of_unnamed h, resultName?_of_unnamed h⟩
  · rintro ⟨rfl, hcalled⟩
    induction entries generalizing i with
    | nil => rfl
    | cons first rest ih =>
      obtain ⟨hfirst, hrest⟩ := List.forall_mem_cons.mp hcalled
      rw [List.map_cons, unnamed, hfirst, ih hrest]
      rfl

theorem exists_named {names : Option (List String)} :
    (∃ entries, Named exprs names entries) ↔ Nameable exprs names := by
  cases names with
  | some names =>
    constructor
    · rintro ⟨entries, rfl, rfl⟩
      simp [Nameable]
    · intro h
      have hpaired : paired "" exprs names = .ok (exprs.zipWith SelectEntry.mk names) := if_pos h
      exact ⟨_, paired_eq_ok.mp hpaired⟩
  | none =>
    constructor
    · rintro ⟨entries, rfl, hcalled⟩ e he
      obtain ⟨entry, hentry, rfl⟩ := List.mem_map.mp he
      exact Expr.exists_column_of_resultName? (hcalled entry hentry)
    · intro h
      induction exprs with
      | nil => exact ⟨[], rfl, nofun⟩
      | cons e rest ih =>
        obtain ⟨⟨table, column, rfl⟩, hrest⟩ := List.forall_mem_cons.mp h
        obtain ⟨name, hname⟩ := Expr.exists_resultName? table column
        obtain ⟨entries, rfl, hcalled⟩ := ih hrest
        exact ⟨⟨_, name⟩ :: entries, rfl, List.forall_mem_cons.mpr ⟨hname, hcalled⟩⟩

theorem paired_eq_error {mark : String} (h : paired mark exprs names = .error e) :
    ∃ message, e = mismatch message := by
  unfold paired at h
  split at h
  · cases h
  · cases h
    exact ⟨_, rfl⟩

theorem unnamed_eq_error {i : Nat} (h : unnamed i exprs = .error e) :
    ∃ message, e = mismatch message := by
  induction exprs generalizing i with
  | nil => cases h
  | cons first rest ih =>
    unfold unnamed at h
    split at h
    · cases hrest : unnamed (i + 1) rest with
      | error e' =>
        rw [hrest] at h
        cases h
        exact ih hrest
      | ok entries =>
        rw [hrest] at h
        cases h
    · cases h
      exact ⟨_, rfl⟩

end SelectEntry

open SelectEntry (Named Nameable mismatch)

structure Selection where
  columns : List String
  select : List Expr
  selectAs : Option (List String)
  plusColumns : List String
  plusSelect : List Expr
  plusAs : List String

namespace Selection

def Pairs (s : Selection) : Prop :=
  Nameable s.select s.selectAs ∧ s.plusSelect.length = s.plusAs.length

/-- The entries of a selection: the columns, the named expressions, the appended columns, and the
appended expressions with their names. -/
def Lists (s : Selection) (entries : List SelectEntry) : Prop :=
  ∃ named appended, Named s.select s.selectAs named ∧ Named s.plusSelect (some s.plusAs) appended ∧
    entries = s.columns.map SelectEntry.ofColumn ++ named ++
      s.plusColumns.map SelectEntry.ofColumn ++ appended

theorem exists_lists {s : Selection} : (∃ entries, s.Lists entries) ↔ s.Pairs := by
  constructor
  · rintro ⟨_, named, appended, hnamed, happended, _⟩
    exact ⟨SelectEntry.exists_named.mp ⟨named, hnamed⟩,
      SelectEntry.exists_named.mp ⟨appended, happended⟩⟩
  · rintro ⟨hselect, hplus⟩
    obtain ⟨named, hnamed⟩ := SelectEntry.exists_named.mpr hselect
    have hnameable : Nameable s.plusSelect (some s.plusAs) := hplus
    obtain ⟨appended, happended⟩ := SelectEntry.exists_named.mpr hnameable
    exact ⟨_, named, appended, hnamed, happended, rfl⟩

end Selection

namespace Attributes

variable {σ : Type} {a b : Attributes σ} {declared : List String} {entries : List SelectEntry}
  {e : Error} {row : List (Attributes σ)}

def selection (declared : List String) (a : Attributes σ) : Selection where
  columns := if a.selects then a.columns.getD [] else declared
  select := a.select.getD []
  selectAs := a.select.bind fun _ => a.selectAs
  plusColumns := a.plusColumns
  plusSelect := a.plusSelect
  plusAs := a.plusAs

theorem columnEntries_eq (a : Attributes σ) (declared : List String) :
    a.columnEntries declared = (a.selection declared).columns.map SelectEntry.ofColumn := by
  unfold columnEntries selection selects
  rcases a.columns with _ | columns
  · rcases a.select with _ | exprs
    · rfl
    · rfl
  · rfl

theorem selectEntries_eq_ok_iff (declared : List String) {named : List SelectEntry} :
    a.selectEntries = .ok named ↔
    Named (a.selection declared).select (a.selection declared).selectAs named := by
  unfold selectEntries selection
  rcases a.select with _ | exprs
  · dsimp only
    rw [Except.ok.injEq, eq_comm]
    exact SelectEntry.named_nil.symm
  · rcases a.selectAs with _ | names
    · exact SelectEntry.unnamed_eq_ok
    · exact SelectEntry.paired_eq_ok

theorem selectList_eq_ok_iff :
    a.selectList declared = .ok entries ↔ (a.selection declared).Lists entries := by
  unfold selectList
  rw [bind_eq_ok]
  simp only [bind_eq_ok, pure_eq_ok, selectEntries_eq_ok_iff declared,
    SelectEntry.paired_eq_ok, columnEntries_eq]
  constructor
  · rintro ⟨named, hnamed, appended, happended, rfl⟩
    exact ⟨named, appended, hnamed, happended, rfl⟩
  · rintro ⟨named, appended, hnamed, happended, rfl⟩
    exact ⟨named, hnamed, appended, happended, rfl⟩

theorem selectList_eq_error (h : a.selectList declared = .error e) :
    ∃ message, e = mismatch message := by
  unfold selectList at h
  cases hnamed : a.selectEntries with
  | error e' =>
    rw [hnamed] at h
    cases h
    unfold selectEntries at hnamed
    split at hnamed
    · cases hnamed
    · exact SelectEntry.paired_eq_error hnamed
    · exact SelectEntry.unnamed_eq_error hnamed
  | ok named =>
    rw [hnamed] at h
    cases happended : SelectEntry.paired "+" a.plusSelect a.plusAs with
    | error e' =>
      simp only [bind, Except.bind, happended] at h
      cases h
      exact SelectEntry.paired_eq_error happended
    | ok appended =>
      simp only [bind, Except.bind, happended] at h
      cases h

theorem exists_mismatch_iff : (∃ message, a.selectList declared = .error (mismatch message)) ↔
    ¬(a.selection declared).Pairs := by
  rw [← Selection.exists_lists]
  constructor
  · rintro ⟨message, h⟩ ⟨entries, hentries⟩
    rw [selectList_eq_ok_iff.mpr hentries] at h
    cases h
  · intro h
    cases hlist : a.selectList declared with
    | ok entries => exact absurd ⟨entries, selectList_eq_ok_iff.mp hlist⟩ h
    | error e =>
      obtain ⟨message, rfl⟩ := selectList_eq_error hlist
      exact ⟨message, rfl⟩

def lastSelection (row : List (Attributes σ)) : Nat := (row.rdropWhile (!·.selects)).length

def selecting? (row : List (Attributes σ)) : Option (Attributes σ) :=
  if lastSelection row = 0 then none else row[lastSelection row - 1]?

/-- The attributes from the last ones on that select anything; all of them where none do. -/
def sinceSelection (row : List (Attributes σ)) : List (Attributes σ) :=
  row.drop (max (lastSelection row) 1 - 1)

theorem lastSelection_concat_of_selects (h : b.selects = true) :
    lastSelection (row ++ [b]) = row.length + 1 := by
  unfold lastSelection
  rw [List.rdropWhile_concat_neg _ _ _ (by simp [h]), List.length_append, List.length_singleton]

theorem lastSelection_concat_of_not_selects (h : b.selects = false) :
    lastSelection (row ++ [b]) = lastSelection row := by
  unfold lastSelection
  rw [List.rdropWhile_concat_pos _ _ _ (by simp [h])]

theorem lastSelection_le (row : List (Attributes σ)) : lastSelection row ≤ row.length :=
  (List.rdropWhile_prefix _ row).length_le

theorem selecting?_concat_of_selects (h : b.selects = true) :
    selecting? (row ++ [b]) = some b := by
  unfold selecting?
  rw [lastSelection_concat_of_selects h]
  simp

theorem selecting?_concat_of_not_selects (h : b.selects = false) :
    selecting? (row ++ [b]) = selecting? row := by
  unfold selecting?
  rw [lastSelection_concat_of_not_selects h]
  split
  · rfl
  · have hle := lastSelection_le row
    rw [List.getElem?_append_left (by omega)]

theorem sinceSelection_concat_of_selects (h : b.selects = true) :
    sinceSelection (row ++ [b]) = [b] := by
  unfold sinceSelection
  rw [lastSelection_concat_of_selects h]
  simp

theorem sinceSelection_concat_of_not_selects (h : b.selects = false) :
    sinceSelection (row ++ [b]) = sinceSelection row ++ [b] := by
  have hle := lastSelection_le row
  unfold sinceSelection
  rw [lastSelection_concat_of_not_selects h, List.drop_append_of_le_length (by omega)]

/-- What attributes in a row select from a source with some columns: what the last of them select
that select anything, and the columns of the source where none do, with all that is appended from
there on. -/
def closedSelection (declared : List String) (row : List (Attributes σ)) : Selection where
  columns := match selecting? row with
    | some a => a.columns.getD []
    | none => declared
  select := ((selecting? row).bind (·.select)).getD []
  selectAs := (selecting? row).bind fun a => a.select.bind fun _ => a.selectAs
  plusColumns := (sinceSelection row).flatMap (·.plusColumns)
  plusSelect := (sinceSelection row).flatMap (·.plusSelect)
  plusAs := (sinceSelection row).flatMap (·.plusAs)

theorem selection_merge_of_selects (h : b.selects = true) :
    (a.merge b).selection declared = b.selection declared := by
  have hmerged := selects_merge a b
  unfold selection
  rw [hmerged, merge_of_selects h, h]
  rfl

theorem selection_merge_of_not_selects (h : b.selects = false) :
    (a.merge b).selection declared =
      { a.selection declared with
        plusColumns := a.plusColumns ++ b.plusColumns
        plusSelect := a.plusSelect ++ b.plusSelect
        plusAs := a.plusAs ++ b.plusAs } := by
  have hmerged := selects_merge a b
  unfold selection
  rw [hmerged, merge_of_not_selects h, h]
  rfl

theorem closedSelection_concat_of_selects (h : b.selects = true) :
    closedSelection declared (row ++ [b]) = b.selection declared := by
  unfold closedSelection selection
  rw [selecting?_concat_of_selects h, sinceSelection_concat_of_selects h, h]
  simp

theorem closedSelection_concat_of_not_selects (h : b.selects = false) :
    closedSelection declared (row ++ [b]) =
      { closedSelection declared row with
        plusColumns := (closedSelection declared row).plusColumns ++ b.plusColumns
        plusSelect := (closedSelection declared row).plusSelect ++ b.plusSelect
        plusAs := (closedSelection declared row).plusAs ++ b.plusAs } := by
  unfold closedSelection
  rw [selecting?_concat_of_not_selects h, sinceSelection_concat_of_not_selects h]
  simp

theorem closedSelection_of_selects {after : List (Attributes σ)} (h : a.selects = true) :
    closedSelection declared (row ++ a :: after) = closedSelection declared (a :: after) := by
  induction after using List.reverseRecOn with
  | nil =>
    have hlast : closedSelection declared ([] ++ [a]) = a.selection declared :=
      closedSelection_concat_of_selects h
    rw [closedSelection_concat_of_selects h]
    exact hlast.symm
  | append_singleton after b ih =>
    rw [← List.cons_append, ← List.append_assoc]
    cases hb : b.selects with
    | true => rw [closedSelection_concat_of_selects hb, closedSelection_concat_of_selects hb]
    | false =>
      rw [closedSelection_concat_of_not_selects hb, closedSelection_concat_of_not_selects hb, ih]

def withoutStrayNames (a : Attributes σ) : Attributes σ :=
  if a.selects then a else { a with selectAs := none }

/-- Names that no selection comes with are of no account. -/
theorem closedSelection_map_withoutStrayNames (declared : List String)
    (row : List (Attributes σ)) :
    closedSelection declared (row.map withoutStrayNames) = closedSelection declared row := by
  induction row using List.reverseRecOn with
  | nil => rfl
  | append_singleton row b ih =>
    rw [List.map_append, List.map_singleton]
    cases h : b.selects with
    | true =>
      have hsame : b.withoutStrayNames = b := if_pos h
      rw [hsame, closedSelection_concat_of_selects h, closedSelection_concat_of_selects h]
    | false =>
      have hnames : b.withoutStrayNames = { b with selectAs := none } :=
        if_neg (Bool.not_eq_true _ ▸ h)
      have hnot : ({ b with selectAs := none } : Attributes σ).selects = false := h
      rw [hnames, closedSelection_concat_of_not_selects hnot,
        closedSelection_concat_of_not_selects h, ih]

theorem selection_foldl_merge (declared : List String) (row : List (Attributes σ)) :
    (row.foldl merge {}).selection declared = closedSelection declared row := by
  -- from the right: what is merged last decides alone, or adds to what all before it select
  induction row using List.reverseRecOn with
  | nil => rfl
  | append_singleton row b ih =>
    rw [List.foldl_append, List.foldl_cons, List.foldl_nil]
    cases h : b.selects with
    | true => rw [selection_merge_of_selects h, closedSelection_concat_of_selects h]
    | false =>
      rw [selection_merge_of_not_selects h, closedSelection_concat_of_not_selects h, ← ih]
      rfl

end Attributes

namespace Planning

variable {σ : Type} {schema : Schema} {message : String}

theorem joinTree_ne_mismatch (source : Source) (parent : String) (outer : Bool) (t : JoinTree)
    (p : Planning σ) (scope : Scope) :
    joinTree schema source parent outer t p scope ≠ .error (mismatch message) := by
  induction t generalizing source parent outer p scope with
  | none => exact nofun
  | join name below rest ihbelow ihrest =>
    rw [joinTree_join]
    cases source.relationship? name with
    | none => exact nofun
    | some r =>
      intro h
      rcases bind_eq_error.mp h with h | ⟨target, _, h⟩
      · unfold Schema.source at h
        split at h
        · cases h
        · cases h
      · rcases bind_eq_error.mp h with h | ⟨mid, _, h⟩
        · exact ihbelow _ _ _ _ _ h
        · exact ihrest _ _ _ _ _ h

theorem joinRoots_ne_mismatch (child : String) (roots : List (PreviousRoot σ)) (p : Planning σ) :
    joinRoots schema child roots p ≠ .error (mismatch message) := by
  induction roots generalizing child p with
  | nil => exact nofun
  | cons root rest ih =>
    rw [joinRoots_cons]
    intro h
    rcases bind_eq_error.mp h with h | ⟨mid, _, h⟩
    · exact joinTree_ne_mismatch _ _ _ _ _ _ h
    · rcases bind_eq_error.mp h with h | ⟨last, _, h⟩
      · exact ih _ _ h
      · cases h

end Planning

namespace Query

variable {q : Query Subselect} {e : Error} {message : String}

theorem plan_ne_mismatch {σ : Type} {q : Query σ} : q.plan ≠ .error (mismatch message) := by
  unfold plan
  split
  · exact nofun
  · intro h
    rcases bind_eq_error.mp h with h | ⟨own, _, h⟩
    · exact Planning.joinTree_ne_mismatch _ _ _ _ _ _ h
    · rcases bind_eq_error.mp h with h | ⟨last, _, h⟩
      · exact Planning.joinRoots_ne_mismatch _ _ _ h
      · cases h

theorem window_ne_mismatch {σ : Type} {a : Attributes σ} :
    a.window ≠ .error (mismatch message) := by
  unfold Attributes.window
  split
  · exact nofun
  · split
    · exact nofun
    · exact nofun

theorem mem_subselects_of_origin {σ : Type} {q : Query σ} {inner : σ}
    (h : q.attrs.origin = some (.subselect inner)) : inner ∈ q.subselects := by
  unfold subselects
  rw [h]
  exact List.mem_append_left _ (List.mem_singleton_self _)

/-- Where the parts of a statement cannot be found, that is due to its select list, its plan, its
window or a sub-select. -/
theorem cause_of_clauses (h : q.clauses = .error e) :
    q.selectList = .error e ∨ q.plan = .error e ∨ q.attrs.window = .error e ∨
      .error e ∈ q.subselects := by
  unfold clauses at h
  rcases bind_eq_error.mp h with h | ⟨entries, _, h⟩
  · exact .inl h
  rcases bind_eq_error.mp h with h | ⟨plan, hplan, h⟩
  · exact .inr (.inl h)
  rcases bind_eq_error.mp h with h | ⟨origin, _, h⟩
  · unfold fromFragment at h
    split at h
    · cases h
    · cases h
    · rename_i inner horigin
      rw [map_eq_error.mp h] at horigin
      exact .inr (.inr (.inr (mem_subselects_of_origin horigin)))
  rcases bind_eq_error.mp h with h | ⟨joins, _, h⟩
  · obtain ⟨j, hj, h⟩ := exists_error_of_mapM h
    rcases bind_eq_error.mp h with h | ⟨target, _, h⟩
    · unfold PlannedJoin.targetFragment at h
      split at h
      · cases h
      · rename_i inner htarget
        rw [map_eq_error.mp h] at htarget
        exact .inr (.inr (.inr (mem_subselects_of_derived hplan hj htarget)))
    · cases h
  rcases bind_eq_error.mp h with h | ⟨window, _, h⟩
  · exact .inr (.inr (.inl h))
  · cases h

end Query

namespace ResultSet

variable {rs : ResultSet} {message : String}

/-- What a set selects. Its projection has the names of the entries. Where expressions and names do
not pair, every statement of the set fails with a mismatch, and otherwise only a sub-select can fail
so. -/
structure Selects (rs : ResultSet) (s : Selection) : Prop where
  listed : ∀ entries, rs.query.selectList = .ok entries ↔ s.Lists entries
  mismatched : (∃ message, rs.query.selectList = .error (mismatch message)) ↔ ¬s.Pairs
  projected : ∀ p, rs.prepare {} = .ok p → rs.projection = ⟨.ok p.projection, []⟩ ∧
    ∃ entries, s.Lists entries ∧ p.projection.names = entries.map (·.name)
  refused : ¬s.Pairs → ∃ message, (∀ shape, rs.prepare shape = .error (mismatch message)) ∧
    rs.projection = rs.guard {} (.error (mismatch message))
  blamed : ∀ shape message, rs.prepare shape = .error (mismatch message) →
    ¬s.Pairs ∨ ∃ inner ∈ rs.query.subselects, inner.listing = .error (mismatch message)

theorem prepare_of_selectList_eq_error {e : Error} (h : rs.query.selectList = .error e)
    (shape : Shape) : rs.prepare shape = .error e := by
  have hcompiled : rs.compiled.selectList = .error e := h
  unfold prepare Query.select
  rw [hcompiled]
  rfl

theorem cause_of_mismatch {shape : Shape} (h : rs.prepare shape = .error (mismatch message)) :
    rs.query.selectList = .error (mismatch message) ∨
      ∃ inner ∈ rs.query.subselects, inner.listing = .error (mismatch message) := by
  unfold prepare at h
  rw [map_eq_error, Query.select_eq_clauses, map_eq_error] at h
  rcases Query.cause_of_clauses h with h | h | h | h
  · exact .inl h
  · exact absurd h Query.plan_ne_mismatch
  · exact absurd h Query.window_ne_mismatch
  · rw [compiled, Query.subselects_map] at h
    exact .inr (List.mem_map.mp h)

theorem selects_selection (rs : ResultSet) :
    rs.Selects (rs.query.attrs.selection rs.query.source.columns) where
  listed entries := Attributes.selectList_eq_ok_iff
  mismatched := Attributes.exists_mismatch_iff
  projected p hp := by
    constructor
    · unfold projection compile
      rw [hp]
      rfl
    · obtain ⟨c, hc, rfl⟩ := prepare_eq_ok.mp hp
      have hentries := (Query.clauses_eq_ok.mp hc).1
      exact ⟨c.entries, Attributes.selectList_eq_ok_iff.mp hentries, rfl⟩
  refused h := by
    obtain ⟨message, hlist⟩ := Attributes.exists_mismatch_iff.mpr h
    have hprepare := prepare_of_selectList_eq_error hlist
    refine ⟨message, hprepare, ?_⟩
    unfold projection compile guard Schema.guard
    rw [hprepare, map_guarded]
    rfl
  blamed shape message h :=
    (cause_of_mismatch h).imp_left fun hlist =>
      Attributes.exists_mismatch_iff.mp ⟨message, hlist⟩

theorem source_searchAll (rs : ResultSet) (steps : List Search) :
    (rs.searchAll steps).query.source = rs.query.source := by
  induction steps generalizing rs with
  | nil => rfl
  | cons s steps ih => exact ih (rs.search s.condition s.attrs)

/-- A source that has been searched selects what the last selection of the searches selects, and all
its columns where there is none, with all that is appended from there on. Neither what is selected
before nor a list of names that no selection comes with changes anything. -/
theorem selects_searchAll (schema : Schema) (source : Source) (steps : List Search) :
    ((ofSource schema source).searchAll steps).Selects
      (Attributes.closedSelection source.columns (bags steps)) ∧
    (∀ before a after, bags steps = before ++ a :: after → a.selects = true →
      Attributes.closedSelection source.columns (bags steps) =
        Attributes.closedSelection source.columns (a :: after)) ∧
    Attributes.closedSelection source.columns (bags steps) =
      Attributes.closedSelection source.columns
        ((bags steps).map Attributes.withoutStrayNames) := by
  refine ⟨?_, ?_, (Attributes.closedSelection_map_withoutStrayNames _ _).symm⟩
  · rw [← Attributes.selection_foldl_merge]
    have hattrs := attrs_searchAll (ofSource schema source) steps
    have hsource := source_searchAll (ofSource schema source) steps
    have hselects := selects_selection ((ofSource schema source).searchAll steps)
    rw [hattrs, hsource] at hselects
    exact hselects
  · intro before a after hbags hselects
    rw [hbags, Attributes.closedSelection_of_selects hselects]

end ResultSet

namespace Library

def namedNumbers : List Search :=
  [{ attrs := some { columns := some ["mentor"], plusColumns := ["id"], plusAs := ["old"] } },
    { attrs := some { columns := some ["name"], select := some [.column none "id"] } },
    { attrs := some { plusSelect := [.binary .add (.column none "id") (.literal (.int 1))] } },
    { attrs := some { selectAs := some ["stray"], plusColumns := ["mentor"],
                      plusAs := ["number"] } }]

theorem selects_searchAll_namedNumbers :
    Attributes.lastSelection (bags namedNumbers) = 2 ∧
    ((ResultSet.ofSource schema author).searchAll namedNumbers).projection =
      ⟨.ok ⟨["name", "id", "mentor", "number"]⟩, []⟩ := by
  have hselects := (ResultSet.selects_searchAll schema author namedNumbers).1
  obtain ⟨p, hp⟩ : ∃ p,
      ((ResultSet.ofSource schema author).searchAll namedNumbers).prepare {} = .ok p := ⟨_, rfl⟩
  refine ⟨rfl, ?_⟩
  rw [(hselects.projected p hp).1]
  cases hp
  rfl

end Library

end RelQuery
