import RelQuery.Proofs.Restyling
import RelQuery.Proofs.Spelling
import RelQuery.Proofs.DeletePlans

/-!
# Statements in two styles

A set is compiled in every style or in none, for the same reason, and what is written in two styles
that spell alike is spelled alike: the listing of the set, its row count, and the deletes of the set
and of what depends on it.
-/

namespace RelQuery

set_option autoImplicit false

open Fragment (ofText Alike alike_ofText alike_join alike_clause alike_flatten forall₂_map)

variable {keep : Char → Bool} {s t : Style}

theorem alike_conjunct (h : s.Alike keep t) (among : Bool) (e : Expr) (scope : Scope) :
    (conjunct s among e scope).Alike keep (conjunct t among e scope) := by
  have he := Expr.alike_fragment h scope e
  unfold conjunct
  split
  · exact he.paren
  · exact he

theorem alike_whereClause (h : s.Alike keep t) (conditions : List (Expr × Scope)) :
    (whereClause s conditions).Alike keep (whereClause t conditions) :=
  alike_clause _ _ (forall₂_map fun c _ => alike_conjunct h _ c.1 c.2)

theorem OrderTerm.alike_fragment (h : s.Alike keep t) (scope : Scope) (o : OrderTerm) :
    (o.fragment s scope).Alike keep (o.fragment t scope) :=
  (Expr.alike_fragment h scope o.expr).append_right _

namespace PlannedJoin

variable {σ : Type}

theorem alike_on (h : s.Alike keep t) (j : PlannedJoin σ) : (j.on s).Alike keep (j.on t) := by
  unfold on
  cases j.condition with
  | pairs pairs =>
    refine alike_join " AND " (forall₂_map fun p _ => alike_ofText ?_)
    simp [h.qualified]
  | procedural procedure =>
    rcases h.dialect with hd | hnone
    · dsimp only
      rw [hd]
    · exact Fragment.alike_of_binds hnone (by simp)

variable {x y : σ → Subselect}

theorem agree_fragment (h : s.Alike keep t) (j : PlannedJoin σ)
    (inside : ∀ r, j.target = .derived r → Agree (Alike keep) (x r) (y r)) :
    Agree (Alike keep) ((j.map x).fragment s) ((j.map y).fragment t) := by
  have htarget : Agree (Alike keep) ((j.map x).targetFragment s) ((j.map y).targetFragment t) := by
    unfold targetFragment map
    cases htarget : j.target with
    | table name => exact .ok (alike_ofText (h.ident name))
    | derived r => exact (inside r htarget).map fun _ _ hr => hr.paren
  have hname : Alike keep (ofText (" " ++ s.ident j.name ++ " ON "))
      (ofText (" " ++ t.ident j.name ++ " ON ")) := alike_ofText (by simp [h.ident])
  exact htarget.bind fun _ _ hrows =>
    .ok (((hrows.append_left _).append hname).append (j.alike_on h))

end PlannedJoin

/-- The parts of two statements that differ in nothing but their spelling. -/
structure Clauses.Alike (keep : Char → Bool) (c d : Clauses) : Prop where
  entries : c.entries = d.entries
  scope : c.plan.scope = d.plan.scope
  levels : c.plan.levels = d.plan.levels
  origin : c.origin.Alike keep d.origin
  joins : List.Forall₂ (Fragment.Alike keep) c.joins d.joins
  window : c.window = d.window

namespace Query

variable {σ : Type} {x y : σ → Subselect}

theorem agree_fromFragment (h : s.Alike keep t) (q : Query σ)
    (inside : ∀ r ∈ q.subselects, Agree (Alike keep) (x r) (y r)) :
    Agree (Alike keep) ((q.map x).restyled s).fromFragment ((q.map y).restyled t).fromFragment := by
  have hroot : Alike keep (ofText (" " ++ s.ident rootAlias)) (ofText (" " ++ t.ident rootAlias)) :=
    alike_ofText (by simp [h.ident])
  unfold fromFragment restyled map Attributes.map
  cases horigin : q.attrs.origin with
  | none => exact .ok (alike_ofText (by simp [style, Schema.restyled, h.ident]))
  | some origin =>
    cases origin with
    | raw sql values =>
      rcases h.dialect with hd | hnone
      · exact .ok (show (Fragment.raw s.dialect sql values).Alike keep _ by rw [hd]; rfl)
      · exact .ok (Fragment.alike_of_binds hnone (by simp))
    | subselect inner =>
      have hmem : inner ∈ q.subselects := by simp [subselects, horigin, Origin.subselect?]
      exact (inside inner hmem).map fun _ _ hrows => hrows.paren.append hroot

theorem agree_clauses (h : s.Alike keep t) (q : Query σ)
    (inside : ∀ r ∈ q.subselects, Agree (Alike keep) (x r) (y r)) :
    Agree (Clauses.Alike keep) ((q.map x).restyled s).clauses ((q.map y).restyled t).clauses := by
  unfold clauses
  rw [plan_restyled, plan_restyled, plan_map, plan_map]
  refine (Agree.refl (fun _ => rfl) q.selectList).bind fun entries _ hentries => ?_
  cases hplan : q.plan with
  | error e => exact .error e
  | ok plan =>
    have hjoins : Agree (List.Forall₂ (Alike keep)) ((plan.map x).joins.mapM (·.fragment s))
        ((plan.map y).joins.mapM (·.fragment t)) := by
      apply Agree.mapM
      unfold Plan.map
      rw [List.forall₂_map_left_iff, List.forall₂_map_right_iff]
      exact List.forall₂_same.mpr fun j hj => j.agree_fragment h fun r hr =>
        inside r (mem_subselects_of_derived hplan hj hr)
    refine (agree_fromFragment h q inside).bind fun _ _ horigin => ?_
    refine hjoins.bind fun _ _ hjoined => ?_
    refine (Agree.refl (fun _ => rfl) q.attrs.window).bind fun _ _ hwindow => ?_
    exact .ok ⟨hentries, rfl, rfl, horigin, hjoined, hwindow⟩

variable {c d : Clauses}

theorem alike_clauses_fragment (h : s.Alike keep t) (q : Query σ) (shape : Shape)
    (hcd : c.Alike keep d) :
    (c.fragment ((q.map x).restyled s) shape).Alike keep
      (d.fragment ((q.map y).restyled t) shape) := by
  have hexprs (es : List Expr) : List.Forall₂ (Alike keep)
      (es.map (·.fragment s c.plan.scope)) (es.map (·.fragment t c.plan.scope)) :=
    forall₂_map fun e _ => Expr.alike_fragment h _ e
  have hhead : Alike keep (((q.map x).restyled s).headFragment shape c.plan.scope c.entries)
      (((q.map y).restyled t).headFragment shape c.plan.scope c.entries) := by
    unfold headFragment
    split
    · exact .refl keep _
    · exact (alike_join ", " (forall₂_map fun e _ => Expr.alike_fragment h _ e.expr)).append_left _
  have htail : Alike keep (((q.map x).restyled s).tailFragment shape c.plan.scope)
      (((q.map y).restyled t).tailFragment shape c.plan.scope) := by
    unfold tailFragment
    refine ((alike_clause _ _ (hexprs _)).append (alike_clause _ _ (hexprs _))).append ?_
    split
    · exact .refl keep _
    · exact alike_clause _ _ (forall₂_map fun o _ => OrderTerm.alike_fragment h _ o)
  have hwhere : Alike keep (whereClause s (c.conditions ((q.map x).restyled s)))
      (whereClause t (d.conditions ((q.map y).restyled t))) := by
    unfold Clauses.conditions Plan.conditions
    rw [← hcd.scope, ← hcd.levels]
    exact alike_whereClause h _
  unfold Clauses.fragment Clauses.front Clauses.back
  rw [← hcd.scope, ← hcd.entries, ← hcd.window]
  have hfront := (((hhead.append_left (ofText "SELECT ")).append_right (ofText " FROM ")).append
    hcd.origin).append (alike_flatten hcd.joins)
  exact (hfront.append hwhere).append (htail.append_right _)

theorem agree_select (h : s.Alike keep t) (q : Query σ) (shape : Shape)
    (inside : ∀ r ∈ q.subselects, Agree (Alike keep) (x r) (y r)) :
    Agree (fun a b => a.1.Alike keep b.1 ∧ a.2 = b.2) (((q.map x).restyled s).select shape)
      (((q.map y).restyled t).select shape) := by
  rw [select_eq_clauses, select_eq_clauses]
  refine (agree_clauses h q inside).map fun c d hcd => ⟨alike_clauses_fragment h q shape hcd, ?_⟩
  unfold Clauses.projection
  rw [hcd.entries]

theorem agree_selectCount (h : s.Alike keep t) (q : Query σ)
    (inside : ∀ r ∈ q.subselects, Agree (Alike keep) (x r) (y r)) :
    Agree (Alike keep) ((q.map x).restyled s).selectCount ((q.map y).restyled t).selectCount := by
  have hname : Alike keep (ofText (" " ++ s.ident "count_subq"))
      (ofText (" " ++ t.ident "count_subq")) := alike_ofText (by simp [h.ident])
  unfold selectCount
  refine (Agree.refl (fun _ => rfl) q.attrs.window).bind fun window _ hwindow => ?_
  subst hwindow
  change Agree _ (if q.countsDerived window then _ else _) (if q.countsDerived window then _ else _)
  split
  · refine (agree_select h q _ inside).bind fun _ _ hab => ?_
    exact .ok ((hab.1.paren.append_left _).append hname)
  · exact (agree_select h q _ inside).bind fun _ _ hab => .ok hab.1

end Query

namespace ResultSet

theorem compiled_restyled (s : Style) (rs : ResultSet) :
    (rs.restyled s).compiled = (rs.query.map fun r => (r.restyled s).listing).restyled s := by
  unfold compiled
  rw [restyled_query]
  exact congrArg (Query.restyled s) (rs.query.map_map _ _)

theorem agree_listing (h : s.Alike keep t) (rs : ResultSet) :
    Agree (Alike keep) (rs.restyled s).listing (rs.restyled t).listing := by
  induction rs using ResultSet.induction with
  | step q ih =>
    rw [listing_eq, listing_eq, compiled_restyled, compiled_restyled]
    exact (Query.agree_select h q {} ih).map fun _ _ hab => hab.1

theorem agree_compiled (h : s.Alike keep t) (rs : ResultSet) (shape : Shape) :
    Agree (fun a b => a.1.Alike keep b.1 ∧ a.2 = b.2) ((rs.restyled s).compiled.select shape)
      ((rs.restyled t).compiled.select shape) := by
  rw [compiled_restyled, compiled_restyled]
  exact Query.agree_select h rs.query shape fun r _ => agree_listing h r

end ResultSet

def Statement.Alike (keep : Char → Bool) (a b : Statement) : Prop :=
  a.binds = b.binds ∧ kept keep a.sql = kept keep b.sql

theorem Fragment.Alike.statement {f g : Fragment} (h : f.Alike keep g) :
    f.statement.Alike keep g.statement := ⟨h.1, h.2 0⟩

namespace ResultSet

theorem agree_prepare (h : s.Alike keep t) (rs : ResultSet) :
    Agree (fun a b => a.statement.Alike keep b.statement ∧ a.projection = b.projection)
      ((rs.restyled s).prepare {}) ((rs.restyled t).prepare {}) :=
  (rs.agree_compiled h {}).map fun _ _ hab => ⟨hab.1.statement, hab.2⟩

theorem agree_prepareCount (h : s.Alike keep t) (rs : ResultSet) :
    Agree (Statement.Alike keep) (rs.restyled s).prepareCount (rs.restyled t).prepareCount := by
  unfold prepareCount
  rw [compiled_restyled, compiled_restyled]
  exact (Query.agree_selectCount h rs.query fun r _ => agree_listing h r).map fun _ _ hab =>
    hab.statement

theorem restyled_keys (s : Style) (rs : ResultSet) (key : String) :
    (rs.restyled s).keys key = (rs.keys key).restyled s := by
  unfold keys
  rw [restyled_search]
  rfl

theorem agree_deletion (h : s.Alike keep t) (rs : ResultSet) :
    Agree (Statement.Alike keep) (rs.restyled s).deletion (rs.restyled t).deletion := by
  have hstyle (s : Style) : (rs.restyled s).query.style = s := by simp [Query.style, Schema.restyled]
  have hwindow (s : Style) (key : String) :
      ((rs.keys key).restyled s).query.attrs.window = (rs.keys key).query.attrs.window := by
    rw [restyled_query]
    rfl
  unfold deletion
  simp only [restyled_source, hstyle, restyled_keys, hwindow]
  cases rs.query.source.soleKey? with
  | none => exact .error _
  | some key =>
    refine (Agree.refl (fun _ => rfl) (rs.keys key).query.attrs.window).bind fun window _ hw => ?_
    subst hw
    refine ((rs.keys key).agree_compiled h _).bind fun _ _ hab => .ok ?_
    have hhead : kept keep ("DELETE FROM " ++ s.ident rs.query.source.table ++ " WHERE " ++
        s.ident key ++ " IN ") = kept keep ("DELETE FROM " ++ t.ident rs.query.source.table ++
          " WHERE " ++ t.ident key ++ " IN ") := by simp [h.ident]
    exact ((alike_ofText hhead).append hab.1.paren).statement

theorem agree_deletions (h : s.Alike keep t) (n : Nat) (walked : List Edge) (rs : ResultSet) :
    Agree (List.Forall₂ (Statement.Alike keep)) (deletions n walked (rs.restyled s))
      (deletions n walked (rs.restyled t)) := by
  induction n generalizing walked rs with
  | zero => exact (agree_deletion h rs).bind fun _ _ hown => .ok (.cons hown .nil)
  | succ n ih =>
    have hopen (s : Style) : (rs.restyled s).openDeletes walked = rs.openDeletes walked := by
      simp [openDeletes]
    rw [deletions_succ, deletions_succ, hopen, hopen, restyled_source, restyled_source]
    have hdependents : Agree (List.Forall₂ (List.Forall₂ (Statement.Alike keep)))
        ((rs.openDeletes walked).mapM fun r => (rs.restyled s).related r.name >>=
          deletions n (walked ++ [rs.query.source.edge r]))
        ((rs.openDeletes walked).mapM fun r => (rs.restyled t).related r.name >>=
          deletions n (walked ++ [rs.query.source.edge r])) := by
      refine Agree.mapM (List.forall₂_same.mpr fun r _ => ?_)
      rw [restyled_related, restyled_related]
      cases rs.related r.name with
      | error e => exact .error e
      | ok next => exact ih _ next
    refine hdependents.bind fun _ _ hblocks => ?_
    refine (agree_deletion h rs).bind fun _ _ hown => .ok ?_
    exact List.rel_append (List.rel_flatten hblocks) (.cons hown .nil)

theorem agree_planDelete (h : s.Alike keep t) (rs : ResultSet) :
    Agree (List.Forall₂ (Statement.Alike keep)) (rs.restyled s).planDelete
      (rs.restyled t).planDelete := by
  unfold planDelete
  simp only [restyled_source, restyled_schema]
  exact agree_deletions h _ [] rs

/-- Two sets that fail alike, list the same result columns, and whose statements are related. -/
structure AgreeOn (R : Statement → Statement → Prop) (a b : ResultSet) : Prop where
  asQuery : Agree R a.asQuery.outcome b.asQuery.outcome
  projection : a.projection.outcome = b.projection.outcome
  countQuery : Agree R a.countQuery.outcome b.countQuery.outcome
  deleteStatements : Agree (List.Forall₂ R) a.deleteStatements.outcome b.deleteStatements.outcome

theorem guard_restyled {α : Type} (s : Style) (rs : ResultSet) (fallback : α)
    (result : Except Error α) : (rs.restyled s).guard fallback result = ⟨result, []⟩ := by
  refine guard_of_none ?_ fallback result
  rw [restyled_schema]
  rfl

theorem agreeOn_of_alike (h : s.Alike keep t) (rs : ResultSet) :
    (rs.restyled s).AgreeOn (Statement.Alike keep) (rs.restyled t) := by
  have hprepare := agree_prepare h rs
  constructor
  · unfold asQuery compile
    rw [guard_restyled, guard_restyled]
    exact hprepare.map fun _ _ hab => hab.1
  · unfold projection compile
    rw [guard_restyled, guard_restyled]
    exact (hprepare.map fun _ _ hab => hab.2).eq
  · unfold countQuery
    rw [guard_restyled, guard_restyled]
    exact agree_prepareCount h rs
  · unfold deleteStatements
    rw [guard_restyled, guard_restyled]
    exact agree_planDelete h rs

theorem AgreeOn.imp {R S : Statement → Statement → Prop} {a b : ResultSet} (h : a.AgreeOn R b)
    (himp : ∀ x y, R x y → S x y) : a.AgreeOn S b where
  asQuery := h.asQuery.imp himp
  projection := h.projection
  countQuery := h.countQuery.imp himp
  deleteStatements := h.deleteStatements.imp fun _ _ hs => hs.imp himp

/-- The style of a schema decides on the spelling of a statement and on nothing else: not on whether
there is one, not on the values it binds, and in one dialect on no character but the quotes. -/
theorem restyled_agreeOn (rs : ResultSet) :
    (∀ s t : Style, (rs.restyled s).AgreeOn (fun a b => a.binds = b.binds) (rs.restyled t)) ∧
      ∀ d : Dialect, (rs.restyled ⟨d, true⟩).AgreeOn
        (fun a b => a.sql.toList.filter (· != d.quoteChar) =
          b.sql.toList.filter (· != d.quoteChar)) (rs.restyled ⟨d, false⟩) := by
  constructor
  · intro s t
    exact (agreeOn_of_alike (Style.alike_nothing s t) rs).imp fun _ _ hab => hab.1
  · intro d
    exact (agreeOn_of_alike (Style.alike_quotes d true false) rs).imp fun _ _ hab => hab.2

end ResultSet

end RelQuery
