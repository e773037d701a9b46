import RelQuery.Proofs.Rendering

/-!
# Statements rendered into one list of values

The clauses of a statement are rendered one after the other into the same list of values, those of
sub-selects where they stand.
-/

namespace RelQuery

set_option autoImplicit false

open Fragment (ofText)
open Rendering (renumber Gives Writes)

namespace Rendering

def listed {α : Type} (keyword separator : String) (render : α → Rendering String) (parts : List α) :
    Rendering String :=
  if parts.isEmpty then return ""
  else do
    let texts ← parts.mapM render
    return keyword ++ String.intercalate separator texts

variable {α : Type} {render : α → Rendering String} {fragment : α → Fragment}

theorem gives_mapM {as : List α} (h : ∀ a ∈ as, Writes (render a) (fragment a)) :
    (as.mapM render).Gives (Fragment.texts · (as.map fragment))
      ((as.map fragment).flatMap Fragment.binds) := by
  induction as with
  | nil => exact .pure []
  | cons a as ih =>
    obtain ⟨ha, has⟩ := List.forall_mem_cons.mp h
    rw [List.mapM_cons]
    refine (ha.bind fun _ => (ih has).bind fun _ => .pure _).congr (fun n => rfl) ?_
    rw [List.append_nil, List.map_cons, List.flatMap_cons]

theorem writes_listed (keyword separator : String) {as : List α}
    (h : ∀ a ∈ as, Writes (render a) (fragment a)) :
    Writes (listed keyword separator render as) (clause keyword separator (as.map fragment)) := by
  cases as with
  | nil => exact .pure ""
  | cons a as =>
    refine ((gives_mapM h).bind fun _ => .pure _).congr (fun n => ?_) ?_
    · rw [← Fragment.sql_join]
      exact ((Fragment.sql_append n _ _).trans (by rw [Fragment.sql_ofText]; rfl)).symm
    · rw [binds_clause, List.append_nil]

/-- Gives what a computed fragment is written as, and fails where it does. -/
def Follows (r : Rendering String) (s : Subselect) : Prop :=
  ∀ params, r.run params = s.map fun f => f.write params

end Rendering

open Rendering (listed Follows)

variable (style : Style)

def OrderTerm.render (scope : Scope) (t : OrderTerm) : Rendering String := do
  let text ← t.expr.build style scope
  let nulls := match t.nulls with
    | some place => " " ++ place.keyword
    | none => ""
  return text ++ " " ++ t.direction.keyword ++ nulls

def renderConjunct (among : Bool) (c : Expr × Scope) : Rendering String := do
  let text ← c.1.build style c.2
  return if among then c.1.amongOthers text else text

namespace PlannedJoin

def renderOn {σ : Type} (j : PlannedJoin σ) : Rendering String :=
  match j.condition with
  | .pairs pairs =>
    return String.intercalate " AND " (pairs.map fun p =>
      style.qualified j.aliases.foreign p.foreign ++ " = " ++ style.qualified j.aliases.own p.own)
  | .procedural procedure =>
    renumber style.dialect false (procedure j.aliases).1.toList (procedure j.aliases).2

def renderTarget (j : PlannedJoin (Rendering String)) : Rendering String :=
  match j.target with
  | .table name => return style.ident name
  | .derived inner => do
    let rows ← inner
    return "(" ++ rows ++ ")"

def render (j : PlannedJoin (Rendering String)) : Rendering String := do
  let target ← j.renderTarget style
  let on ← j.renderOn style
  return " " ++ j.joinType.keyword ++ " " ++ target ++ " " ++ style.ident j.name ++ " ON " ++ on

end PlannedJoin

namespace Query

def renderFrom (q : Query (Rendering String)) : Rendering String :=
  match q.attrs.origin with
  | none => return q.style.ident q.source.table ++ " " ++ q.style.ident rootAlias
  | some (.raw sql values) => renumber q.style.dialect false sql.toList values
  | some (.subselect inner) => do
    let rows ← inner
    return "(" ++ rows ++ ")" ++ " " ++ q.style.ident rootAlias

def renderHead {σ : Type} (q : Query σ) (shape : Shape) (scope : Scope)
    (entries : List SelectEntry) : Rendering String :=
  if shape.count then return "COUNT(*)"
  else do
    let columns ← entries.mapM (·.expr.build q.style scope)
    return (if q.attrs.distinct = some true then "DISTINCT " else "") ++
      String.intercalate ", " columns

def renderOrder {σ : Type} (q : Query σ) (shape : Shape) (scope : Scope) : Rendering String :=
  if shape.count || shape.dropOrder then return ""
  else listed " ORDER BY " ", " (·.render q.style scope) (q.attrs.orderBy.getD [])

def renderTail {σ : Type} (q : Query σ) (shape : Shape) (plan : Plan σ) : Rendering String := do
  let conditions := plan.conditions q.conditions
  let filters ← listed " WHERE " " AND " (renderConjunct q.style (1 < conditions.length)) conditions
  let groups ← listed " GROUP BY " ", " (·.build q.style plan.scope) (q.attrs.groupBy.getD [])
  let having ← listed " HAVING " "" (·.build q.style plan.scope) q.attrs.having.toList
  let order ← q.renderOrder shape plan.scope
  return filters ++ groups ++ having ++ order

/-- Renders the statement of a query whose sub-selects are rendered where they stand. -/
def render (q : Query (Rendering String)) (shape : Shape) : Rendering (String × Projection) := do
  let entries ← q.selectList
  let plan ← q.plan
  let head ← q.renderHead shape plan.scope entries
  let origin ← q.renderFrom
  let joins ← plan.joins.mapM (·.render q.style)
  let tail ← q.renderTail shape plan
  let window ← q.attrs.window
  return ("SELECT " ++ head ++ " FROM " ++ origin ++ String.join joins ++ tail ++
    (window.bound shape.atMost).fragment.sql 0,
    if shape.count then ⟨["count"]⟩ else .ofEntries entries)

end Query

namespace ResultSet

def renderListing : ResultSet → Rendering String :=
  ResultSet.fold fun q => do return (← q.render {}).1

def render (rs : ResultSet) (shape : Shape) : Rendering (String × Projection) :=
  (rs.query.map renderListing).render shape

end ResultSet

section Writes

theorem OrderTerm.writes_render (scope : Scope) (t : OrderTerm) :
    Writes (t.render style scope) (t.fragment style scope) := by
  refine (t.expr.writes_build style scope).map (fun n => ?_) ?_
  · unfold OrderTerm.fragment
    rw [Fragment.sql_append, Fragment.sql_ofText, String.append_assoc, String.append_assoc]
    rfl
  · simp [OrderTerm.fragment]

theorem writes_renderConjunct (among : Bool) (c : Expr × Scope) :
    Writes (renderConjunct style among c) (conjunct style among c.1 c.2) := by
  refine (c.1.writes_build style c.2).map (fun n => ?_) ?_
  · cases among with
    | true => exact (sql_conjunct style n c.1 c.2).symm
    | false => rfl
  · rw [binds_conjunct, Expr.binds_fragment]

theorem PlannedJoin.writes_renderOn {σ : Type} (j : PlannedJoin σ) :
    Writes (j.renderOn style) (j.on style) := by
  unfold renderOn PlannedJoin.on
  cases j.condition with
  | pairs pairs =>
    have htexts : pairs.map (fun p => ofText (style.qualified j.aliases.foreign p.foreign ++ " = " ++
        style.qualified j.aliases.own p.own)) =
        (pairs.map fun p => style.qualified j.aliases.foreign p.foreign ++ " = " ++
          style.qualified j.aliases.own p.own).map ofText := by
      rw [List.map_map]
      rfl
    dsimp only
    rw [htexts]
    exact (Gives.pure _).congr (fun n => (Fragment.sql_join_ofText " AND " _ n).symm)
      (Fragment.binds_join_ofText " AND " _).symm
  | procedural procedure => exact Rendering.writes_renumber _ _ _ _

theorem Query.writes_renderHead (q : Query Subselect) (shape : Shape) (scope : Scope)
    (entries : List SelectEntry) :
    Writes (q.renderHead shape scope entries) (q.headFragment shape scope entries) := by
  unfold renderHead headFragment
  cases shape.count with
  | true => exact Rendering.writes_pure _
  | false =>
    refine ((Rendering.gives_mapM fun e _ => e.expr.writes_build q.style scope).bind fun _ =>
      .pure _).congr (fun n => ?_) ?_
    · have hdistinct : q.attrs.isDistinct = decide (q.attrs.distinct = some true) := rfl
      simp [hdistinct, Fragment.sql_append, Fragment.sql_join]
    · simp

end Writes

section Follows

variable {r : Rendering String} {s : Subselect}

theorem Rendering.Writes.follows {f : Fragment} (h : Writes r f) : Follows r (.ok f) := h

theorem Rendering.run_mapM {α : Type} {render : α → Rendering String} {fragment : α → Subselect}
    {as : List α} (h : ∀ a ∈ as, Follows (render a) (fragment a)) (params : List Value) :
    (as.mapM render).run params = (as.mapM fragment).map fun fs =>
      (Fragment.texts params.length fs, params ++ fs.flatMap Fragment.binds) := by
  induction as generalizing params with
  | nil => exact (Gives.pure [] params)
  | cons a as ih =>
    obtain ⟨ha, has⟩ := List.forall_mem_cons.mp h
    have hfirst := ha params
    rw [List.mapM_cons, List.mapM_cons]
    cases hf : fragment a with
    | error e =>
      rw [hf] at hfirst
      rw [run_bind_error hfirst]
      rfl
    | ok f =>
      rw [hf] at hfirst
      rw [run_bind_ok hfirst]
      have hrest := ih has (params ++ f.binds)
      cases hfs : as.mapM fragment with
      | error e =>
        rw [hfs] at hrest
        rw [run_bind_error hrest]
        rfl
      | ok fs =>
        rw [hfs] at hrest
        rw [run_bind_ok hrest, List.length_append, List.append_assoc]
        rfl

theorem Rendering.Follows.map (hr : Follows r s) {around : String → String}
    {h : Fragment → Fragment} (sql : ∀ f n, around (f.sql n) = (h f).sql n)
    (binds : ∀ f, f.binds = (h f).binds) :
    Follows (do return around (← r)) (s.map h) := by
  cases s with
  | error e => exact fun params => run_bind_error (hr params)
  | ok f => exact Writes.map (f := f) hr (sql f) (binds f)

theorem Rendering.Follows.map₂ {t : Rendering String} {g : Fragment} (hr : Follows r s)
    (ht : Writes t g) {around : String → String → String} {h : Fragment → Fragment}
    (sql : ∀ f n, around (f.sql n) (g.sql (n + f.binds.length)) = (h f).sql n)
    (binds : ∀ f, f.binds ++ g.binds = (h f).binds) :
    Follows (do return around (← r) (← t)) (s.map h) := by
  cases s with
  | error e => exact fun params => run_bind_error (hr params)
  | ok f => exact Writes.map₂ (f := f) hr ht (sql f) (binds f)

variable {σ : Type} {x : σ → Rendering String} {y : σ → Subselect}

theorem PlannedJoin.follows_renderTarget (j : PlannedJoin σ)
    (inside : ∀ inner, j.target = .derived inner → Follows (x inner) (y inner)) :
    Follows ((j.map x).renderTarget style) ((j.map y).targetFragment style) := by
  unfold renderTarget targetFragment PlannedJoin.map
  cases htarget : j.target with
  | table name => exact (Rendering.writes_pure _).follows
  | derived inner =>
    exact (inside inner htarget).map (fun f n => (Fragment.sql_paren n f).symm) fun f =>
      (Fragment.binds_paren f).symm

theorem PlannedJoin.follows_render (j : PlannedJoin σ)
    (inside : ∀ inner, j.target = .derived inner → Follows (x inner) (y inner)) :
    Follows ((j.map x).render style) ((j.map y).fragment style) := by
  have hfragment : (j.map y).fragment style = ((j.map y).targetFragment style).map fun target =>
      ofText (" " ++ j.joinType.keyword ++ " ") ++ target ++
        ofText (" " ++ style.ident j.name ++ " ON ") ++ (j.map y).on style := by
    unfold PlannedJoin.fragment
    cases (j.map y).targetFragment style <;> rfl
  rw [hfragment]
  refine (j.follows_renderTarget style inside).map₂ (j.writes_renderOn style) (fun f n => ?_)
    fun f => ?_
  · simp only [Fragment.sql_append, Fragment.sql_ofText, Fragment.binds_append,
      Fragment.binds_ofText, List.nil_append, List.append_nil, List.length_nil, Nat.add_zero,
      String.append_assoc]
    rfl
  · simp only [Fragment.binds_append, Fragment.binds_ofText, List.nil_append, List.append_nil]
    rfl

theorem Query.follows_renderFrom (q : Query σ)
    (inside : ∀ inner ∈ q.subselects, Follows (x inner) (y inner)) :
    Follows (q.map x).renderFrom (q.map y).fromFragment := by
  unfold renderFrom fromFragment Query.map Attributes.map
  cases horigin : q.attrs.origin with
  | none => exact (Rendering.writes_pure _).follows
  | some origin =>
    cases origin with
    | raw sql values => exact (Rendering.writes_renumber _ _ _ _).follows
    | subselect inner =>
      have hmem : inner ∈ q.subselects := by simp [subselects, horigin, Origin.subselect?]
      exact (inside inner hmem).map
        (fun f n => by
          rw [Fragment.sql_append, Fragment.sql_paren, Fragment.sql_ofText, String.append_assoc]
          rfl)
        fun f => by simp

theorem Plan.run_joins (plan : Plan σ)
    (inside : ∀ j ∈ plan.joins, ∀ inner, j.target = .derived inner → Follows (x inner) (y inner))
    (params : List Value) :
    ((plan.map x).joins.mapM (PlannedJoin.render style)).run params =
      ((plan.map y).joins.mapM (PlannedJoin.fragment style)).map fun fs =>
        (Fragment.texts params.length fs, params ++ fs.flatMap Fragment.binds) := by
  unfold Plan.map
  rw [List.mapM_map, List.mapM_map]
  exact Rendering.run_mapM (fun j hj => j.follows_render style (inside j hj)) params

theorem Query.writes_renderTail (q : Query Subselect) (shape : Shape) (plan : Plan Subselect) :
    Writes (q.renderTail shape plan)
      (whereClause q.style (plan.conditions q.conditions) ++ q.tailFragment shape plan.scope) := by
  have hwhere := Rendering.writes_listed " WHERE " " AND "
    fun c (_ : c ∈ plan.conditions q.conditions) => writes_renderConjunct q.style
      (1 < (plan.conditions q.conditions).length) c
  have hgroups := Rendering.writes_listed " GROUP BY " ", "
    fun e (_ : e ∈ q.attrs.groupBy.getD []) => e.writes_build q.style plan.scope
  have hhaving := Rendering.writes_listed " HAVING " ""
    fun e (_ : e ∈ q.attrs.having.toList) => e.writes_build q.style plan.scope
  have hterms := Rendering.writes_listed " ORDER BY " ", "
    fun t (_ : t ∈ q.attrs.orderBy.getD []) => t.writes_render q.style plan.scope
  have horder : Writes (q.renderOrder shape plan.scope)
      (if shape.count || shape.dropOrder then []
        else clause " ORDER BY " ", "
          ((q.attrs.orderBy.getD []).map (·.fragment q.style plan.scope))) := by
    unfold renderOrder
    split
    · exact Gives.pure ""
    · exact hterms
  unfold renderTail tailFragment
  refine (hwhere.bind fun _ => hgroups.bind fun _ => hhaving.bind fun _ => horder.bind fun _ =>
    .pure _).congr (fun n => ?_) ?_
  · simp only [Fragment.sql_append, Fragment.binds_append, List.length_append, String.append_assoc,
      Nat.add_assoc]
    rfl
  · simp only [Fragment.binds_append, List.append_nil, List.append_assoc]
    rfl

theorem Rendering.run_bind_map {α β γ δ : Type} {r : Rendering α} {s : Except Error β}
    {k : α → Rendering γ} {t : β → Except Error δ} {g : β → α × List Value}
    {h : δ → γ × List Value} {params : List Value} (first : r.run params = s.map g)
    (rest : ∀ b, s = .ok b → (k (g b).1).run (g b).2 = (t b).map h) :
    (r >>= k).run params = (s >>= t).map h := by
  cases s with
  | error e => exact run_bind_error first
  | ok b => exact (run_bind_ok first).trans (rest b rfl)

theorem Query.run_render (q : Query σ)
    (inside : ∀ inner ∈ q.subselects, Follows (x inner) (y inner)) (shape : Shape)
    (params : List Value) :
    ((q.map x).render shape).run params = ((q.map y).select shape).map fun s =>
      ((s.1.sql params.length, s.2), params ++ s.1.binds) := by
  have hlift {α : Type} (s : Except Error α) (params : List Value) :
      (liftM s : Rendering α).run params = s.map (·, params) := by
    cases s <;> rfl
  have hplan : (q.map y).plan = q.plan >>= fun plan => .ok (plan.map y) := by
    rw [plan_map]
    cases q.plan <;> rfl
  have hplanned (params : List Value) : (liftM (q.map x).plan : Rendering _).run params =
      q.plan.map fun plan => (plan.map x, params) := by
    rw [hlift, plan_map]
    cases q.plan <;> rfl
  unfold render select
  rw [hplan]
  refine Rendering.run_bind_map (hlift q.selectList params) fun entries _ => ?_
  rw [bind_assoc]
  refine Rendering.run_bind_map (hplanned params) fun plan hplan => ?_
  have htables (j : PlannedJoin σ) (hj : j ∈ plan.joins) (inner : σ)
      (h : j.target = .derived inner) : Follows (x inner) (y inner) :=
    inside inner (mem_subselects_of_derived hplan hj h)
  have hhead := (q.map y).writes_renderHead shape plan.scope entries params
  refine (Rendering.run_bind_ok hhead).trans ?_
  change _ = ((q.map y).fromFragment >>= _).map _
  refine Rendering.run_bind_map (q.follows_renderFrom inside _) fun origin _ => ?_
  refine Rendering.run_bind_map (plan.run_joins q.style htables _) fun joins _ => ?_
  have htail := (q.map y).writes_renderTail shape (plan.map y)
  refine (Rendering.run_bind_ok (htail _)).trans ?_
  refine Rendering.run_bind_map (hlift q.attrs.window _) fun window _ => ?_
  have hwindow (n : Nat) : (window.bound shape.atMost).fragment.sql n =
      (window.bound shape.atMost).fragment.sql 0 :=
    (Fragment.sql_ofText n _).trans (Fragment.sql_ofText 0 _).symm
  have hbounds : (window.bound shape.atMost).fragment.binds = [] := rfl
  refine congrArg Except.ok (Prod.ext (Prod.ext ?_ rfl) ?_)
  · simp only [Fragment.write, Fragment.sql_append, Fragment.sql_ofText, Fragment.binds_append,
      Fragment.binds_ofText, Fragment.sql_flatten, Fragment.binds_flatten, hwindow,
      List.length_append, List.length_nil, Nat.zero_add, Nat.add_zero, Nat.add_assoc,
      String.append_assoc]
    rfl
  · simp only [Fragment.write, Fragment.binds_append, Fragment.binds_ofText,
      Fragment.binds_flatten, hbounds, List.nil_append, List.append_nil, List.append_assoc]
    rfl

end Follows

namespace ResultSet

theorem follows_renderListing (rs : ResultSet) : Follows rs.renderListing rs.listing := by
  induction rs using ResultSet.induction with
  | step q ih =>
    intro params
    have hrun := q.run_render ih {} params
    unfold renderListing
    rw [fold_eq, listing_eq]
    change ((q.map renderListing).render {} >>= _).run params =
      Except.map _ (((q.map listing).select {}).map (·.1))
    cases hselect : (q.map listing).select {} with
    | error e =>
      rw [hselect] at hrun
      exact Rendering.run_bind_error hrun
    | ok s =>
      rw [hselect] at hrun
      exact Rendering.run_bind_ok hrun

/-- A set is rendered as its statement is written, behind any values that are bound already, and its
own values are pushed onto them. -/
theorem run_render (rs : ResultSet) (shape : Shape) (params : List Value) :
    (rs.render shape).run params = (rs.compiled.select shape).map fun s =>
      ((s.1.sql params.length, s.2), params ++ s.1.binds) :=
  rs.query.run_render (fun inner _ => inner.follows_renderListing) shape params

end ResultSet

end RelQuery
