import RelQuery.Proofs.RenderedStatements
import RelQuery.Proofs.SchemaSteps

/-!
# The order of bound values

A statement binds the values of its clauses in the order of the clauses, those of sub-selects where
the sub-selects stand. Each value has one placeholder, and the texts between the placeholders do not
depend on what was bound before the statement.
-/

namespace RelQuery

set_option autoImplicit false

open Fragment (ofText)

namespace Fragment

variable {d : Dialect} {f g : Fragment} {vs ws : List Value}

/-- Binds some values, each of them with a placeholder of the dialect. -/
def Carries (d : Dialect) (f : Fragment) (vs : List Value) : Prop := f.Numbered d ∧ f.binds = vs

theorem carries_ofText (d : Dialect) (s : String) : (ofText s).Carries d [] :=
  ⟨numbered_ofText d s, rfl⟩

theorem Carries.append (hf : f.Carries d vs) (hg : g.Carries d ws) :
    Carries d (f ++ g) (vs ++ ws) := by
  obtain ⟨hf, rfl⟩ := hf
  obtain ⟨hg, rfl⟩ := hg
  exact ⟨numbered_append.mpr ⟨hf, hg⟩, binds_append f g⟩

theorem Carries.text_append (s : String) (hf : f.Carries d vs) : Carries d (ofText s ++ f) vs :=
  (carries_ofText d s).append hf

theorem Carries.append_text (s : String) (hf : f.Carries d vs) : Carries d (f ++ ofText s) vs := by
  have h := hf.append (carries_ofText d s)
  rwa [List.append_nil] at h

theorem Carries.paren (hf : f.Carries d vs) : f.paren.Carries d vs :=
  ⟨numbered_paren.mpr hf.1, (binds_paren f).trans hf.2⟩

theorem carries_raw {sql : String} (h : RawBalanced sql vs) : (raw d sql vs).Carries d vs :=
  ⟨numbered_raw h, binds_raw d sql vs⟩

variable {α : Type} {values : α → List Value}

theorem carries_flatten {as : List α} {fs : List Fragment}
    (h : List.Forall₂ (fun a f => Carries d f (values a)) as fs) :
    Carries d fs.flatten (as.flatMap values) := by
  induction h with
  | nil => exact ⟨numbered_nil d, rfl⟩
  | cons h _ ih => exact h.append ih

theorem carries_join (separator : String) {fragment : α → Fragment} {as : List α}
    (h : ∀ a ∈ as, (fragment a).Carries d (values a)) :
    Carries d (join separator (as.map fragment)) (as.flatMap values) := by
  constructor
  · apply numbered_join
    intro f hf
    obtain ⟨a, ha, rfl⟩ := List.mem_map.mp hf
    exact (h a ha).1
  · rw [binds_join, List.flatMap_map]
    exact List.flatMap_congr fun a ha => (h a ha).2

theorem carries_clause (keyword separator : String) {fragment : α → Fragment} {as : List α}
    (h : ∀ a ∈ as, (fragment a).Carries d (values a)) :
    Carries d (clause keyword separator (as.map fragment)) (as.flatMap values) := by
  unfold clause
  cases as with
  | nil => exact ⟨numbered_nil d, rfl⟩
  | cons a as => exact (carries_join separator h).text_append keyword

end Fragment

theorem Expr.carries_fragment {e : Expr} (balanced : e.Balanced) (style : Style) (scope : Scope) :
    (e.fragment style scope).Carries style.dialect e.values :=
  ⟨numbered_fragment style scope balanced, binds_fragment style scope e⟩

theorem carries_conjunct {e : Expr} (balanced : e.Balanced) (style : Style) (among : Bool)
    (scope : Scope) : (conjunct style among e scope).Carries style.dialect e.values := by
  have h := Expr.carries_fragment balanced style scope
  unfold conjunct
  split
  · exact h.paren
  · exact h

theorem OrderTerm.carries_fragment {t : OrderTerm} (balanced : t.expr.Balanced) (style : Style)
    (scope : Scope) : (t.fragment style scope).Carries style.dialect t.expr.values :=
  (Expr.carries_fragment balanced style scope).append_text _

def Origin.values : Origin (List Value) → List Value
  | .raw _ values => values
  | .subselect inner => inner

def JoinTarget.values : JoinTarget (List Value) → List Value
  | .table _ => []
  | .derived inner => inner

namespace PlannedJoin

variable {σ : Type}

def onValues (j : PlannedJoin σ) : List Value :=
  match j.condition with
  | .pairs _ => []
  | .procedural procedure => (procedure j.aliases).2

def values (j : PlannedJoin (List Value)) : List Value := j.target.values ++ j.onValues

def Balanced (j : PlannedJoin σ) : Prop :=
  ∀ procedure, j.condition = .procedural procedure →
    RawBalanced (procedure j.aliases).1 (procedure j.aliases).2

theorem carries_on {j : PlannedJoin σ} (balanced : j.Balanced) (style : Style) :
    (j.on style).Carries style.dialect j.onValues := by
  unfold on onValues
  cases hcondition : j.condition with
  | pairs pairs =>
    have hnone : pairs.flatMap (fun _ => ([] : List Value)) = [] :=
      List.flatMap_eq_nil_iff.mpr fun _ _ => rfl
    rw [← hnone]
    exact Fragment.carries_join " AND " fun _ _ => Fragment.carries_ofText style.dialect _
  | procedural procedure => exact Fragment.carries_raw (balanced procedure hcondition)

end PlannedJoin

namespace Query

def values (q : Query (List Value)) : List Value :=
  match q.selectList, q.plan with
  | .ok entries, .ok plan =>
    entries.flatMap (·.expr.values) ++
    (q.attrs.origin.map Origin.values).getD [] ++
    plan.joins.flatMap PlannedJoin.values ++
    (plan.conditions q.conditions).flatMap (·.1.values) ++
    ((q.attrs.groupBy.getD []).flatMap Expr.values ++
      q.attrs.having.toList.flatMap Expr.values ++
      (q.attrs.orderBy.getD []).flatMap (·.expr.values))
  | _, _ => []

/-- Everywhere in a query raw SQL has a `?` for each of its values. -/
structure Balanced {σ : Type} (q : Query σ) : Prop where
  selected : ∀ e ∈ q.attrs.select.getD [], e.Balanced
  appended : ∀ e ∈ q.attrs.plusSelect, e.Balanced
  origin : ∀ sql values, q.attrs.origin = some (.raw sql values) → RawBalanced sql values
  joins : ∀ plan, q.plan = .ok plan → ∀ j ∈ plan.joins, j.Balanced
  conditions : ∀ e ∈ q.conditions, e.Balanced
  previous : ∀ root ∈ q.previous, ∀ e ∈ root.conditions, e.Balanced
  groupBy : ∀ e ∈ q.attrs.groupBy.getD [], e.Balanced
  having : ∀ e ∈ q.attrs.having.toList, e.Balanced
  orderBy : ∀ t ∈ q.attrs.orderBy.getD [], t.expr.Balanced

end Query

/-- The values that the statement of a set binds, those of sub-selects in their places. -/
def ResultSet.values : ResultSet → List Value := ResultSet.fold Query.values

namespace SelectEntry

theorem exprs_of_paired {mark : String} {exprs : List Expr} {names : List String}
    {entries : List SelectEntry} (h : paired mark exprs names = .ok entries) :
    entries.map (·.expr) = exprs := by
  unfold paired at h
  split at h
  · rename_i hlen
    cases h
    have hfirst : (exprs.zip names).map Prod.fst = exprs := List.map_fst_zip (Nat.le_of_eq hlen)
    rw [List.zip, List.map_zipWith] at hfirst
    rw [List.map_zipWith]
    exact hfirst
  · cases h

theorem exprs_of_unnamed {i : Nat} {exprs : List Expr} {entries : List SelectEntry}
    (h : unnamed i exprs = .ok entries) : entries.map (·.expr) = exprs := by
  induction exprs generalizing i entries with
  | nil =>
    cases h
    rfl
  | cons e exprs ih =>
    unfold unnamed at h
    split at h
    · obtain ⟨rest, hrest, rfl⟩ := map_eq_ok.mp h
      exact congrArg (e :: ·) (ih hrest)
    · cases h

theorem balanced_ofColumn (name : String) : (ofColumn name).expr.Balanced := Expr.balanced_col name

end SelectEntry

namespace Query

variable {σ : Type} {q : Query σ}

theorem Balanced.map {τ : Type} (balanced : q.Balanced) (f : σ → τ) : (q.map f).Balanced where
  selected := balanced.selected
  appended := balanced.appended
  origin := by
    intro sql values h
    obtain ⟨origin, horigin, h⟩ := Option.map_eq_some_iff.mp h
    cases origin with
    | raw sql values =>
      cases h
      exact balanced.origin sql values horigin
    | subselect inner => cases h
  joins := by
    intro plan h j hj
    rw [plan_map] at h
    obtain ⟨before, hbefore, rfl⟩ := map_eq_ok.mp h
    obtain ⟨i, hi, rfl⟩ := List.mem_map.mp hj
    exact balanced.joins before hbefore i hi
  conditions := balanced.conditions
  previous := by
    intro root hroot
    obtain ⟨before, hbefore, rfl⟩ := List.mem_map.mp hroot
    exact balanced.previous before hbefore
  groupBy := balanced.groupBy
  having := balanced.having
  orderBy := balanced.orderBy

theorem balanced_selectList (balanced : q.Balanced) {entries : List SelectEntry}
    (h : q.selectList = .ok entries) : ∀ e ∈ entries, e.expr.Balanced := by
  obtain ⟨selected, hselected, h⟩ := bind_eq_ok.mp h
  obtain ⟨appended, happended, h⟩ := bind_eq_ok.mp h
  rw [← pure_eq_ok.mp h]
  have hcolumns (names : List String) :
      ∀ e ∈ names.map SelectEntry.ofColumn, e.expr.Balanced := by
    intro e he
    obtain ⟨name, _, rfl⟩ := List.mem_map.mp he
    exact SelectEntry.balanced_ofColumn name
  have hexprs {exprs : List Expr} {es : List SelectEntry} (hes : es.map (·.expr) = exprs)
      (hb : ∀ e ∈ exprs, e.Balanced) : ∀ e ∈ es, e.expr.Balanced := by
    intro e he
    exact hb e.expr (hes ▸ List.mem_map_of_mem he)
  refine List.forall_mem_append.mpr ⟨List.forall_mem_append.mpr ⟨List.forall_mem_append.mpr
    ⟨?columns, ?selected⟩, hcolumns q.attrs.plusColumns⟩,
    hexprs (SelectEntry.exprs_of_paired happended) balanced.appended⟩
  case columns =>
    unfold Attributes.columnEntries
    split
    · exact hcolumns _
    · exact fun e he => absurd he List.not_mem_nil
    · exact hcolumns _
  case selected =>
    have hb := balanced.selected
    unfold Attributes.selectEntries at hselected
    split at hselected
    · cases hselected
      exact fun e he => absurd he List.not_mem_nil
    · rename_i hselect _
      rw [hselect] at hb
      exact hexprs (SelectEntry.exprs_of_paired hselected) hb
    · rename_i hselect _
      rw [hselect] at hb
      exact hexprs (SelectEntry.exprs_of_unnamed hselected) hb

theorem balanced_conditions (balanced : q.Balanced) {plan : Plan σ} (h : q.plan = .ok plan) :
    ∀ c ∈ plan.conditions q.conditions, c.1.Balanced := by
  intro c hc
  rcases List.mem_append.mp hc with hc | hc
  · obtain ⟨e, he, rfl⟩ := List.mem_map.mp hc
    exact balanced.conditions e he
  · obtain ⟨l, hl, hc⟩ := List.mem_flatMap.mp hc
    obtain ⟨e, he, rfl⟩ := List.mem_map.mp hc
    obtain ⟨root, hroot, hconditions⟩ := exists_root_of_level h hl
    exact balanced.previous root hroot e (hconditions ▸ he)

theorem carries_fromFragment {q : Query ResultSet} (balanced : q.Balanced)
    (inside : ∀ rs ∈ q.subselects, ∀ f, rs.listing = .ok f → f.Carries q.style.dialect rs.values)
    {f : Fragment} (h : (q.map ResultSet.listing).fromFragment = .ok f) :
    f.Carries q.style.dialect
      (((q.map ResultSet.values).attrs.origin.map Origin.values).getD []) := by
  unfold fromFragment map Attributes.map at h
  unfold map Attributes.map
  cases horigin : q.attrs.origin with
  | none =>
    rw [horigin] at h
    cases h
    exact Fragment.carries_ofText _ _
  | some origin =>
    rw [horigin] at h
    cases origin with
    | raw sql values =>
      cases h
      exact Fragment.carries_raw (balanced.origin sql values horigin)
    | subselect inner =>
      obtain ⟨g, hg, rfl⟩ := map_eq_ok.mp h
      have hmem : inner ∈ q.subselects := by simp [subselects, horigin, Origin.subselect?]
      exact (inside inner hmem g hg).paren.append_text _

theorem carries_join {q : Query ResultSet} (balanced : q.Balanced)
    (inside : ∀ rs ∈ q.subselects, ∀ f, rs.listing = .ok f → f.Carries q.style.dialect rs.values)
    {plan : Plan ResultSet} (hplan : q.plan = .ok plan) {j : PlannedJoin ResultSet}
    (hj : j ∈ plan.joins) {f : Fragment} (h : (j.map ResultSet.listing).fragment q.style = .ok f) :
    f.Carries q.style.dialect (j.map ResultSet.values).values := by
  obtain ⟨target, htarget, h⟩ := bind_eq_ok.mp h
  rw [← pure_eq_ok.mp h]
  have hcarries : target.Carries q.style.dialect (j.map ResultSet.values).target.values := by
    unfold PlannedJoin.targetFragment PlannedJoin.map at htarget
    unfold PlannedJoin.map
    cases hderived : j.target with
    | table name =>
      rw [hderived] at htarget
      cases htarget
      exact Fragment.carries_ofText _ _
    | derived inner =>
      rw [hderived] at htarget
      obtain ⟨g, hg, rfl⟩ := map_eq_ok.mp htarget
      exact (inside inner (mem_subselects_of_derived hplan hj hderived) g hg).paren
  have hon : (j.on q.style).Carries q.style.dialect j.onValues :=
    PlannedJoin.carries_on (balanced.joins plan hplan j hj) q.style
  exact ((hcarries.text_append _).append_text _).append hon

theorem carries_headFragment {q : Query Subselect} {entries : List SelectEntry}
    (balanced : ∀ e ∈ entries, e.expr.Balanced) (scope : Scope) :
    Fragment.Carries q.style.dialect (q.headFragment {} scope entries)
      (entries.flatMap (·.expr.values)) := by
  apply Fragment.Carries.text_append
  exact Fragment.carries_join ", " fun e he =>
    Expr.carries_fragment (balanced e he) q.style scope

theorem carries_tailFragment {q : Query Subselect} (balanced : q.Balanced) (scope : Scope) :
    Fragment.Carries q.style.dialect (q.tailFragment {} scope)
      ((q.attrs.groupBy.getD []).flatMap Expr.values ++
        q.attrs.having.toList.flatMap Expr.values ++
        (q.attrs.orderBy.getD []).flatMap (·.expr.values)) := by
  have hgroup := Fragment.carries_clause " GROUP BY " ", " fun e he =>
    Expr.carries_fragment (balanced.groupBy e he) q.style scope
  have hhaving := Fragment.carries_clause " HAVING " "" fun e he =>
    Expr.carries_fragment (balanced.having e he) q.style scope
  have horder := Fragment.carries_clause " ORDER BY " ", " fun t ht =>
    OrderTerm.carries_fragment (balanced.orderBy t ht) q.style scope
  exact (hgroup.append hhaving).append horder

/-- The step from the statements of the sub-selects to that of the query around them. -/
theorem carries_clauses {q : Query ResultSet} (balanced : q.Balanced)
    (inside : ∀ rs ∈ q.subselects, ∀ f, rs.listing = .ok f → f.Carries q.style.dialect rs.values)
    {c : Clauses} (h : (q.map ResultSet.listing).clauses = .ok c) :
    Fragment.Carries q.style.dialect (c.fragment (q.map ResultSet.listing) {})
      (q.map ResultSet.values).values := by
  rcases c with ⟨entries, planned, origin, joins, window⟩
  obtain ⟨hentries, hplanned, horigin, hjoins, _⟩ := clauses_eq_ok.mp h
  dsimp only at hentries hplanned horigin hjoins
  rw [plan_map] at hplanned
  obtain ⟨plan, hplan, rfl⟩ := map_eq_ok.mp hplanned
  have hhead := carries_headFragment (q := q.map ResultSet.listing)
    (balanced_selectList balanced hentries) plan.scope
  have hfrom := carries_fromFragment balanced inside horigin
  have hjoined : Fragment.Carries q.style.dialect joins.flatten
      ((plan.map ResultSet.values).joins.flatMap PlannedJoin.values) := by
    unfold Plan.map at hjoins ⊢
    rw [List.forall₂_map_left_iff] at hjoins
    rw [List.flatMap_map]
    have hboth := (List.forall₂_and_left _ _).mpr ⟨fun j (hj : j ∈ plan.joins) => hj, hjoins⟩
    exact Fragment.carries_flatten (hboth.imp fun j f h =>
      carries_join balanced inside hplan h.1 h.2)
  have hwhere : Fragment.Carries q.style.dialect
      (whereClause q.style (plan.conditions q.conditions))
      ((plan.conditions q.conditions).flatMap (·.1.values)) :=
    Fragment.carries_clause " WHERE " " AND " fun e he =>
      carries_conjunct (balanced_conditions balanced hplan e he) q.style _ _
  have htail := carries_tailFragment (balanced.map ResultSet.listing) plan.scope
  have hvalues : (q.map ResultSet.values).plan = .ok (plan.map ResultSet.values) := by
    rw [plan_map, hplan]
    rfl
  have hselect : (q.map ResultSet.values).selectList = .ok entries := hentries
  unfold values
  rw [hselect, hvalues]
  have hfront := (((hhead.text_append "SELECT ").append_text " FROM ").append hfrom).append hjoined
  exact (hfront.append hwhere).append (htail.append_text _)

end Query

namespace ResultSet

theorem carries_listing {d : Dialect} {rs : ResultSet} (balanced : rs.Everywhere Query.Balanced)
    (oneDialect : rs.Everywhere (·.style.dialect = d)) {f : Fragment} (h : rs.listing = .ok f) :
    f.Carries d rs.values := by
  induction rs using ResultSet.induction generalizing f with
  | step q ih =>
    obtain ⟨hbalanced, hinside⟩ := everywhere_iff.mp balanced
    obtain ⟨hdialect, hsame⟩ := everywhere_iff.mp oneDialect
    obtain ⟨c, hc, rfl⟩ := listing_eq_ok.mp h
    rw [values, fold_eq, ← hdialect]
    apply Query.carries_clauses hbalanced _ hc
    intro s hs g hg
    have hcarries := ih s hs (hinside s hs) (hsame s hs) hg
    rwa [← hdialect] at hcarries

/-- The placeholders of a statement stand for its values in order, whatever has been bound before
it, and the texts between them are always the same. Rendering it leaves its values behind those. -/
theorem listing_woven {rs : ResultSet} {p : Prepared} (compiles : rs.prepare {} = .ok p)
    (oneSchema : rs.Everywhere (·.schema = rs.query.schema))
    (balanced : rs.Everywhere Query.Balanced) :
    ∃ f first rest, rs.listing = .ok f ∧ rest.length = rs.values.length ∧
      (∀ params, (rs.render {}).run params =
        .ok ((weave rs.query.style.dialect params.length first rest, p.projection),
          params ++ rs.values)) ∧
      (∀ params, f.write params =
        (weave rs.query.style.dialect params.length first rest, params ++ rs.values)) ∧
      p.statement = ⟨weave rs.query.style.dialect 0 first rest, rs.values⟩ := by
  obtain ⟨c, hc, rfl⟩ := prepare_eq_ok.mp compiles
  have hlisting : rs.listing = .ok (c.fragment rs.compiled {}) := listing_eq_ok.mpr ⟨c, hc, rfl⟩
  have oneDialect : rs.Everywhere (·.style.dialect = rs.query.style.dialect) :=
    oneSchema.mono fun q h => by rw [Query.style, h, Query.style]
  obtain ⟨hnumbered, hbinds⟩ := carries_listing balanced oneDialect hlisting
  obtain ⟨first, rest, hlength, hsql⟩ := hnumbered.sql_eq_weave
  rw [hbinds] at hlength
  refine ⟨_, first, rest, hlisting, hlength, fun params => ?_, fun params => ?_, ?_⟩
  · rw [run_render, Query.select_eq_clauses, hc, ← hsql, ← hbinds]
    rfl
  · rw [Fragment.write, hsql, hbinds]
  · rw [Fragment.statement, hsql, hbinds]

end ResultSet

def Library.longTitles : ResultSet :=
  ⟨{ schema := Library.schema
     source := Library.book
     conditions := [.raw "LENGTH(me.title) > ?" [.int 40]]
     previous := [⟨Library.author, Library.booksOfAuthor, [], .none, some ⟨{
       schema := Library.schema
       source := Library.author
       conditions := [.like (.col "name") "A%" false false]
       attrs := { rows := some 2 } }⟩⟩] }⟩

theorem listing_woven_longTitles :
    ∃ p, Library.longTitles.prepare {} = .ok p ∧ ∃ f first rest,
      Library.longTitles.listing = .ok f ∧ rest.length = Library.longTitles.values.length ∧
      (∀ params, (Library.longTitles.render {}).run params =
        .ok ((weave .postgres params.length first rest, p.projection),
          params ++ Library.longTitles.values)) ∧
      (∀ params, f.write params =
        (weave .postgres params.length first rest, params ++ Library.longTitles.values)) ∧
      p.statement = ⟨weave .postgres 0 first rest, Library.longTitles.values⟩ := by
  have oneSchema : Library.longTitles.Everywhere (·.schema = Library.schema) := by
    refine .intro rfl fun s hs => ?_
    cases List.mem_singleton.mp hs
    exact .intro rfl fun s hs => absurd hs List.not_mem_nil
  have balanced : Library.longTitles.Everywhere Query.Balanced := by
    refine .intro ⟨by decide, by decide, ?_, ?_, by decide, by decide, by decide, by decide,
      by decide⟩ fun s hs => ?_
    · exact fun sql values h => nomatch h
    · intro plan h j hj
      cases h
      cases List.mem_singleton.mp hj
      exact fun procedure h => nomatch h
    · cases List.mem_singleton.mp hs
      refine .intro ⟨by decide, by decide, ?_, ?_, by decide, by decide, by decide, by decide,
        by decide⟩ fun s hs => absurd hs List.not_mem_nil
      · exact fun sql values h => nomatch h
      · intro plan h j hj
        cases h
        exact absurd hj List.not_mem_nil
  exact ⟨_, rfl, ResultSet.listing_woven rfl oneSchema balanced⟩

example : Library.longTitles.values = [.text "A%", .int 40] := rfl

end RelQuery
