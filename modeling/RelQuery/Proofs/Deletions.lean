import RelQuery.ResultSet.Cascade
import RelQuery.Proofs.Conjuncts
import RelQuery.Proofs.DerivedTables
import RelQuery.Proofs.SubSelects

/-!
# The statement of a delete

The rows of a set are deleted by their keys. The keys are selected from what the set itself reads,
under its conditions and in its bounds, and nothing is selected beside them.
-/

namespace RelQuery

set_option autoImplicit false

open Fragment (ofText)

def Clauses.keyShape (c : Clauses) : Shape :=
  { dropOrder := c.window.limit.isNone && c.window.offset.isNone }

namespace ResultSet

/-- The keys of a set are selected through the joins of the set, and nothing else is selected. -/
structure SelectsKeys (rs : ResultSet) (plan : Plan ResultSet) (key : String) (c : Clauses) :
    Prop where
  clauses : (rs.keys key).compiled.clauses = .ok c
  entries : c.entries = [SelectEntry.ofColumn (rootAlias ++ "." ++ key)]
  plan : c.plan = plan.map listing
  origin : rs.compiled.fromFragment = .ok c.origin
  window : rs.query.attrs.window = .ok c.window
  conditions : c.conditions (rs.keys key).compiled = c.plan.conditions rs.query.conditions
  front : (c.front (rs.keys key).compiled {}).sql 0 =
    "SELECT " ++ (if rs.query.attrs.distinct = some true then "DISTINCT " else "") ++
      rs.query.style.qualified rootAlias key ++ " FROM " ++ (c.origin ++ c.joins.flatten).sql 0

/-- The statement deletes the rows of the set by their keys, which it selects through the joins of
the plan. -/
def DeletedThrough (rs : ResultSet) (plan : Plan ResultSet) (st : Statement) : Prop :=
  ∃ key c, rs.query.source.soleKey? = some key ∧ rs.SelectsKeys plan key c ∧
    st = (ofText ("DELETE FROM " ++ rs.query.style.ident rs.query.source.table ++
      " WHERE " ++ rs.query.style.ident key ++ " IN ") ++
        (c.fragment (rs.keys key).compiled c.keyShape).paren).statement

variable {rs : ResultSet} {key : String} {c : Clauses} {st : Statement}

theorem selectList_keys (rs : ResultSet) (key : String) :
    (rs.keys key).compiled.selectList = .ok [SelectEntry.ofColumn (rootAlias ++ "." ++ key)] := rfl

theorem plan_keys (rs : ResultSet) (key : String) : (rs.keys key).query.plan = rs.query.plan := rfl

theorem selectsKeys_of_clauses (h : (rs.keys key).compiled.clauses = .ok c) :
    ∃ plan, rs.query.plan = .ok plan ∧ rs.SelectsKeys plan key c := by
  obtain ⟨hentries, hplan, horigin, _, hwindow⟩ := Query.clauses_eq_ok.mp h
  have hkey : c.entries = [SelectEntry.ofColumn (rootAlias ++ "." ++ key)] :=
    (Except.ok.inj ((selectList_keys rs key).symm.trans hentries)).symm
  have hroot : c.plan.scope.root = rootAlias := Query.root_of_plan hplan
  have hfront := c.sql_front (rs.keys key).compiled
  have hcolumn (style : Style) : (Expr.col (rootAlias ++ "." ++ key)).fragment style c.plan.scope =
      ofText (style.qualified rootAlias key) := by
    rw [Expr.col_root, Expr.fragment, Scope.resolve_rootAlias, hroot]
  rw [compiled, Query.plan_map, plan_keys] at hplan
  obtain ⟨plan, hown, hmap⟩ := map_eq_ok.mp hplan
  refine ⟨plan, hown, h, hkey, hmap.symm, horigin, hwindow, ?_, ?_⟩
  · exact congrArg c.plan.conditions (List.append_nil _)
  · have hvalues : [SelectEntry.ofColumn (rootAlias ++ "." ++ key)].flatMap (·.expr.values) = [] := by
      rw [List.flatMap_singleton, SelectEntry.ofColumn, Expr.col_root, Expr.values]
    rw [hkey, hvalues] at hfront
    change _ = _ ++ _ ++ String.intercalate ", " [Fragment.sql 0 ((Expr.col _).fragment _ _)] ++ _ ++
      _ at hfront
    rw [hcolumn, Fragment.sql_ofText, String.intercalate_singleton] at hfront
    exact hfront

theorem deletedThrough_of_deletion (h : rs.deletion = .ok st) :
    ∃ plan, rs.query.plan = .ok plan ∧ rs.DeletedThrough plan st := by
  unfold deletion at h
  cases hkey : rs.query.source.soleKey? with
  | none =>
    simp only [hkey] at h
    cases h
  | some key =>
    simp only [hkey] at h
    obtain ⟨_, ⟨⟩, h⟩ := bind_eq_ok.mp h
    obtain ⟨window, hwindow, h⟩ := bind_eq_ok.mp h
    obtain ⟨selected, hselected, h⟩ := bind_eq_ok.mp h
    rw [Query.select_eq_clauses] at hselected
    obtain ⟨c, hc, rfl⟩ := map_eq_ok.mp hselected
    obtain ⟨plan, hplan, hkeys⟩ := selectsKeys_of_clauses hc
    have hbounds : window = c.window := Except.ok.inj (hwindow.symm.trans hkeys.window)
    subst hbounds
    exact ⟨plan, hplan, key, c, hkey, hkeys, (pure_eq_ok.mp h).symm⟩

end ResultSet

/-- The text of a delete names the table of the source and its primary key, and selects that key and
nothing else. -/
def Source.DeletedBy (style : Style) (s : Source) (st : Statement) : Prop :=
  ∃ key distinct rows, s.soleKey? = some key ∧
    st.sql = "DELETE FROM " ++ style.ident s.table ++ " WHERE " ++ style.ident key ++
      " IN (SELECT " ++ (if distinct = some true then "DISTINCT " else "") ++
        style.qualified rootAlias key ++ " FROM " ++ rows ++ ")"

theorem ResultSet.DeletedThrough.deletedBy {rs : ResultSet} {plan : Plan ResultSet}
    {st : Statement} (h : rs.DeletedThrough plan st) :
    rs.query.source.DeletedBy rs.query.style st := by
  obtain ⟨key, c, hkey, hkeys, rfl⟩ := h
  have hfront : (c.front (rs.keys key).compiled c.keyShape).sql 0 = _ := hkeys.front
  have hselect := (c.meets_conditions (rs.keys key).compiled c.keyShape).sql
  rw [hfront, Fragment.statement] at hselect
  obtain ⟨rows, hrows⟩ : ∃ rows, (c.fragment (rs.keys key).compiled c.keyShape).sql 0 =
      "SELECT " ++ (if rs.query.attrs.distinct = some true then "DISTINCT " else "") ++
        rs.query.style.qualified rootAlias key ++ " FROM " ++ rows := by
    rw [String.append_assoc, String.append_assoc] at hselect
    exact ⟨_, hselect⟩
  have hin : " IN (SELECT " = " IN " ++ "(" ++ "SELECT " := rfl
  refine ⟨key, rs.query.attrs.distinct, rows, hkey, ?_⟩
  rw [Fragment.statement, Fragment.sql_append, Fragment.sql_ofText, Fragment.sql_paren,
    Fragment.binds_ofText, List.length_nil, hin, hrows]
  simp only [String.append_assoc]

end RelQuery
