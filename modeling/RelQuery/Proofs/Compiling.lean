import RelQuery.Proofs.JoinSites
import RelQuery.Proofs.Selections

/-!
# Which sets compile

A statement can be made unless one of four things is wrong: names that do not fit the expressions
they are given to, a path of joins that leads nowhere, a page that lies too far behind, or a
sub-select that does not compile itself. Counting fails on the same sets, although it looks at the
window first.
-/

namespace RelQuery

set_option autoImplicit false

/-- Every path of a tree leads from relationship to relationship, beginning at a source. -/
def Schema.Resolves (schema : Schema) (s : Source) (t : JoinTree) : Prop :=
  ∀ path ∈ t.names, ∃ target, path.foldlM schema.follow s = some target

namespace Schema

variable {schema : Schema} {s target : Source} {name : String} {below rest : JoinTree}

theorem resolves_none : schema.Resolves s .none := fun _ h => absurd h List.not_mem_nil

theorem resolves_join : schema.Resolves s (.join name below rest) ↔
    ∃ target, schema.follow s name = some target ∧ schema.Resolves target below ∧
      schema.Resolves s rest := by
  unfold Resolves
  rw [JoinTree.names_join]
  simp only [List.forall_mem_cons, List.forall_mem_append, List.forall_mem_map,
    List.foldlM_cons, List.foldlM_nil]
  cases h : schema.follow s name with
  | none => simp
  | some target => simp

end Schema

namespace Planning

variable {σ : Type} {schema : Schema}

theorem succeeds_joinTree {s : Source} {parent : String} {outer : Bool} {t : JoinTree}
    {p : Planning σ} {scope : Scope} :
    Succeeds (joinTree schema s parent outer t p scope) ↔ schema.Resolves s t := by
  -- aliases and scopes never make a path fail, so the induction is for any of them
  induction t generalizing s parent outer p scope with
  | none => exact ⟨fun _ => Schema.resolves_none, fun _ => ⟨_, rfl⟩⟩
  | join name below rest ihbelow ihrest =>
    rw [Schema.resolves_join]
    constructor
    · rintro ⟨out, h⟩
      obtain ⟨r, target, mid, hr, htarget, hmid, h⟩ := joinTree_join_eq_ok.mp h
      exact ⟨target, Schema.follow_eq_some.mpr ⟨r, hr, htarget⟩, ihbelow.mp ⟨mid, hmid⟩,
        ihrest.mp ⟨out, h⟩⟩
    · rintro ⟨target, hfollow, hbelow, hrest⟩
      obtain ⟨r, hr, htarget⟩ := Schema.follow_eq_some.mp hfollow
      obtain ⟨mid, hmid⟩ := ihbelow.mpr hbelow
      obtain ⟨out, h⟩ := ihrest.mpr hrest
      exact ⟨out, joinTree_join_eq_ok.mpr ⟨r, target, mid, hr, htarget, hmid, h⟩⟩

theorem succeeds_joinRoots {child : String} {roots : List (PreviousRoot σ)} {p : Planning σ} :
    Succeeds (joinRoots schema child roots p) ↔
      ∀ root ∈ roots, schema.Resolves root.source root.join := by
  induction roots generalizing child p with
  | nil => exact ⟨fun _ _ h => absurd h List.not_mem_nil, fun _ => ⟨(p, []), rfl⟩⟩
  | cons root rest ih =>
    rw [List.forall_mem_cons]
    constructor
    · rintro ⟨out, h⟩
      obtain ⟨mid, last, hmid, hlast, _⟩ := joinRoots_cons_eq_ok.mp h
      exact ⟨succeeds_joinTree.mp ⟨mid, hmid⟩, ih.mp ⟨last, hlast⟩⟩
    · rintro ⟨hroot, hrest⟩
      obtain ⟨mid, hmid⟩ := succeeds_joinTree.mpr hroot
      obtain ⟨last, hlast⟩ := ih.mpr hrest
      exact ⟨_, joinRoots_cons_eq_ok.mpr ⟨mid, last, hmid, hlast, rfl⟩⟩

end Planning

namespace Query

variable {σ τ : Type} {q : Query σ} {inner : σ}

/-- The statement of a query reads from a sub-select, in place of its table or of the table of a
previous root. Raw SQL in place of its table leaves the previous roots out. -/
inductive Uses (q : Query σ) : σ → Prop where
  | origin {inner : σ} (reads : q.attrs.origin = some (.subselect inner)) : Uses q inner
  | previous {root : PreviousRoot σ} {inner : σ} (tables : ¬q.ReadsRaw) (mem : root ∈ q.previous)
    (derived : root.derived = some inner) : Uses q inner

/-- Nothing is wrong with a query itself. -/
structure Fits (q : Query σ) : Prop where
  pairs : (q.attrs.selection q.source.columns).Pairs
  own : ¬q.ReadsRaw → q.schema.Resolves q.source q.attrs.join
  previous : ¬q.ReadsRaw → ∀ root ∈ q.previous, q.schema.Resolves root.source root.join
  window : ∀ rows, q.attrs.rows = some rows → q.attrs.skipped rows < UInt64.size

theorem uses_iff : q.Uses inner ↔ ¬q.ReadsRaw ∧ inner ∈ q.subselects := by
  unfold subselects
  constructor
  · rintro (horigin | ⟨tables, mem, derived⟩)
    · refine ⟨?_, mem_subselects_of_origin horigin⟩
      rintro ⟨sql, values, hraw⟩
      rw [hraw] at horigin
      cases horigin
    · exact ⟨tables, List.mem_append_right _ (List.mem_filterMap.mpr ⟨_, mem, derived⟩)⟩
  · rintro ⟨tables, h⟩
    rcases List.mem_append.mp h with h | h
    · rw [Option.mem_toList, Option.bind_eq_some_iff] at h
      obtain ⟨origin, horigin, h⟩ := h
      cases origin with
      | raw sql values => cases h
      | subselect s =>
        cases h
        exact .origin horigin
    · obtain ⟨root, mem, derived⟩ := List.mem_filterMap.mp h
      exact .previous tables mem derived

theorem uses_map (f : σ → τ) {x : τ} : (q.map f).Uses x ↔ ∃ inner, q.Uses inner ∧ f inner = x := by
  simp only [uses_iff, readsRaw_map, subselects_map, List.mem_map]
  exact ⟨fun ⟨h, inner, hinner, hx⟩ => ⟨inner, ⟨h, hinner⟩, hx⟩,
    fun ⟨inner, ⟨h, hinner⟩, hx⟩ => ⟨h, inner, hinner, hx⟩⟩

theorem fits_map (f : σ → τ) : (q.map f).Fits ↔ q.Fits := by
  have hprevious : (∀ root ∈ (q.map f).previous, q.schema.Resolves root.source root.join) ↔
      ∀ root ∈ q.previous, q.schema.Resolves root.source root.join := List.forall_mem_map
  constructor
  · intro h
    exact ⟨h.pairs, fun tables => h.own fun hraw => tables ((readsRaw_map f q).mp hraw),
      fun tables => hprevious.mp (h.previous fun hraw => tables ((readsRaw_map f q).mp hraw)),
      h.window⟩
  · intro h
    exact ⟨h.pairs, fun tables => h.own fun hraw => tables ((readsRaw_map f q).mpr hraw),
      fun tables => hprevious.mpr (h.previous fun hraw => tables ((readsRaw_map f q).mpr hraw)),
      h.window⟩

theorem succeeds_selectList :
    Succeeds q.selectList ↔ (q.attrs.selection q.source.columns).Pairs := by
  rw [← Selection.exists_lists]
  exact exists_congr fun _ => Attributes.selectList_eq_ok_iff

theorem succeeds_plan : Succeeds q.plan ↔ (¬q.ReadsRaw → q.schema.Resolves q.source q.attrs.join ∧
    ∀ root ∈ q.previous, q.schema.Resolves root.source root.join) := by
  by_cases hraw : q.ReadsRaw
  · rw [plan_of_readsRaw hraw]
    exact ⟨fun _ tables => absurd hraw tables, fun _ => ⟨_, rfl⟩⟩
  · rw [plan_of_not_readsRaw hraw]
    constructor
    · rintro ⟨plan, h⟩ _
      obtain ⟨own, last, hown, hlast, _⟩ := planTables_eq_ok.mp h
      exact ⟨Planning.succeeds_joinTree.mp ⟨own, hown⟩,
        Planning.succeeds_joinRoots.mp ⟨last, hlast⟩⟩
    · intro h
      obtain ⟨hjoin, hprevious⟩ := h hraw
      obtain ⟨own, hown⟩ := Planning.succeeds_joinTree.mpr hjoin
      obtain ⟨last, hlast⟩ := Planning.succeeds_joinRoots.mpr hprevious
      exact ⟨_, planTables_eq_ok.mpr ⟨own, last, hown, hlast, rfl⟩⟩

theorem succeeds_window {a : Attributes σ} :
    Succeeds a.window ↔ ∀ rows, a.rows = some rows → a.skipped rows < UInt64.size := by
  unfold Attributes.window
  cases a.rows with
  | none => exact ⟨fun _ => nofun, fun _ => ⟨_, rfl⟩⟩
  | some rows =>
    dsimp only
    rw [Attributes.skip?_eq]
    by_cases hfits : a.skipped rows < UInt64.size
    · rw [word?_of_lt hfits]
      refine ⟨fun _ other hother => ?_, fun _ => ⟨_, rfl⟩⟩
      cases hother
      exact hfits
    · rw [word?_of_le (Nat.le_of_not_lt hfits)]
      exact ⟨fun h => absurd h (not_succeeds_error _), fun h => absurd (h rows rfl) hfits⟩

section Subselect

variable {q : Query Subselect}

theorem succeeds_fromFragment : Succeeds q.fromFragment ↔
    ∀ inner, q.attrs.origin = some (.subselect inner) → Succeeds inner := by
  unfold fromFragment
  split
  · rename_i horigin
    refine ⟨fun _ inner h => ?_, fun _ => ⟨_, rfl⟩⟩
    rw [horigin] at h
    cases h
  · rename_i horigin
    refine ⟨fun _ inner h => ?_, fun _ => ⟨_, rfl⟩⟩
    rw [horigin] at h
    cases h
  · rename_i s horigin
    rw [succeeds_map, horigin]
    constructor
    · rintro h inner ⟨⟩
      exact h
    · exact fun h => h s rfl

theorem succeeds_join {style : Style} {j : PlannedJoin Subselect} :
    Succeeds (j.fragment style) ↔ ∀ inner, j.target = .derived inner → Succeeds inner := by
  have htarget : Succeeds (j.fragment style) ↔ Succeeds (j.targetFragment style) := by
    unfold PlannedJoin.fragment
    cases j.targetFragment style with
    | error e => exact ⟨nofun, nofun⟩
    | ok f => exact ⟨fun _ => ⟨_, rfl⟩, fun _ => ⟨_, rfl⟩⟩
  rw [htarget]
  unfold PlannedJoin.targetFragment
  cases j.target with
  | table name => exact ⟨fun _ => nofun, fun _ => ⟨_, rfl⟩⟩
  | derived s =>
    rw [succeeds_map]
    constructor
    · rintro h inner ⟨⟩
      exact h
    · exact fun h => h s rfl

theorem succeeds_clauses :
    Succeeds q.clauses ↔ q.Fits ∧ ∀ inner, q.Uses inner → Succeeds inner := by
  constructor
  · rintro ⟨c, h⟩
    obtain ⟨hentries, hplan, horigin, hjoins, hwindow⟩ := clauses_eq_ok.mp h
    have htables := succeeds_plan.mp ⟨_, hplan⟩
    refine ⟨⟨succeeds_selectList.mp ⟨_, hentries⟩, fun h => (htables h).1, fun h => (htables h).2,
      succeeds_window.mp ⟨_, hwindow⟩⟩, ?_⟩
    rintro inner (reads | ⟨tables, mem, derived⟩)
    · exact succeeds_fromFragment.mp ⟨_, horigin⟩ inner reads
    · obtain ⟨j, hj, htarget⟩ := (exists_derived_join hplan).mpr ⟨tables, _, mem, derived⟩
      have hall := succeeds_mapM.mp ⟨_, mapM_eq_ok.mpr hjoins⟩
      exact succeeds_join.mp (hall j hj) inner htarget
  · rintro ⟨fits, hinside⟩
    obtain ⟨entries, hentries⟩ := succeeds_selectList.mpr fits.pairs
    obtain ⟨plan, hplan⟩ := succeeds_plan.mpr fun h => ⟨fits.own h, fits.previous h⟩
    obtain ⟨origin, horigin⟩ :=
      succeeds_fromFragment.mpr fun inner reads => hinside inner (.origin reads)
    obtain ⟨window, hwindow⟩ := succeeds_window.mpr fits.window
    have hjoins : Succeeds (plan.joins.mapM (·.fragment q.style)) := by
      apply succeeds_mapM.mpr
      intro j hj
      apply succeeds_join.mpr
      intro inner htarget
      obtain ⟨tables, root, mem, derived⟩ := (exists_derived_join hplan).mp ⟨j, hj, htarget⟩
      exact hinside inner (.previous tables mem derived)
    obtain ⟨joins, hjoins⟩ := hjoins
    exact ⟨⟨entries, plan, origin, joins, window⟩,
      clauses_eq_ok.mpr ⟨hentries, hplan, horigin, mapM_eq_ok.mp hjoins, hwindow⟩⟩

theorem succeeds_select {shape : Shape} : Succeeds (q.select shape) ↔ Succeeds q.clauses := by
  rw [select_eq_clauses, succeeds_map]

theorem succeeds_selectCount : Succeeds q.selectCount ↔ Succeeds q.clauses := by
  constructor
  · rintro ⟨f, h⟩
    obtain ⟨window, _, h⟩ := bind_eq_ok.mp h
    split at h
    · obtain ⟨inner, hinner, _⟩ := bind_eq_ok.mp h
      exact succeeds_select.mp ⟨inner, hinner⟩
    · obtain ⟨whole, hwhole, _⟩ := bind_eq_ok.mp h
      exact succeeds_select.mp ⟨whole, hwhole⟩
  · rintro ⟨c, h⟩
    exact ⟨_, selectCount_of_clauses h⟩

end Subselect

end Query

namespace ResultSet

variable {rs : ResultSet}

theorem succeeds_prepare {shape : Shape} :
    Succeeds (rs.prepare shape) ↔ Succeeds rs.compiled.clauses := by
  unfold prepare
  rw [succeeds_map, Query.succeeds_select]

theorem succeeds_prepareCount : Succeeds rs.prepareCount ↔ Succeeds rs.compiled.clauses := by
  unfold prepareCount
  rw [succeeds_map, Query.succeeds_selectCount]

theorem succeeds_listing : Succeeds rs.listing ↔ Succeeds rs.compiled.clauses := by
  rw [listing_eq, succeeds_map, Query.succeeds_select]

theorem succeeds_compiled : Succeeds rs.compiled.clauses ↔
    rs.query.Fits ∧ ∀ inner, rs.query.Uses inner → Succeeds inner.compiled.clauses := by
  rw [Query.succeeds_clauses]
  unfold compiled
  rw [Query.fits_map]
  simp only [Query.uses_map, forall_exists_index, and_imp]
  refine and_congr_right fun _ => ⟨fun h inner huses => ?_, fun h x inner huses hx => ?_⟩
  · exact succeeds_listing.mp (h _ inner huses rfl)
  · subst hx
    exact succeeds_listing.mpr (h inner huses)

/-- Nothing is wrong with the query of a set, or with that of a sub-select that is read from,
however deep inside. -/
inductive Sound : ResultSet → Prop where
  | query {q : Query ResultSet} (fits : q.Fits) (inside : ∀ inner, q.Uses inner → Sound inner) :
    Sound ⟨q⟩

theorem succeeds_iff_sound (rs : ResultSet) : Succeeds rs.compiled.clauses ↔ rs.Sound := by
  induction rs using ResultSet.induction with
  | step q ih =>
    have hinside : ∀ inner, q.Uses inner → (Succeeds inner.compiled.clauses ↔ inner.Sound) :=
      fun inner huses => ih inner (Query.uses_iff.mp huses).2
    rw [succeeds_compiled]
    constructor
    · rintro ⟨fits, h⟩
      exact .query fits fun inner huses => (hinside inner huses).mp (h inner huses)
    · rintro ⟨fits, inside⟩
      exact ⟨fits, fun inner huses => (hinside inner huses).mpr (inside inner huses)⟩

theorem succeeds_asQuery (noHook : rs.query.schema.config.hook = none) :
    Succeeds rs.asQuery.outcome ↔ Succeeds rs.compiled.clauses := by
  unfold asQuery compile Guarded.map
  rw [guard_of_none noHook, succeeds_map, succeeds_prepare]

theorem succeeds_countQuery (noHook : rs.query.schema.config.hook = none) :
    Succeeds rs.countQuery.outcome ↔ Succeeds rs.compiled.clauses := by
  unfold countQuery
  rw [guard_of_none noHook, succeeds_prepareCount]

/-- Where no hook intervenes, a set compiles if and only if nothing is wrong with its query and the
sub-selects that it reads from compile, and it is the same sets that can be counted. -/
theorem compiles_iff (noHook : rs.query.schema.config.hook = none)
    (same : ∀ inner ∈ rs.query.subselects, inner.query.schema = rs.query.schema) :
    (Succeeds rs.asQuery.outcome ↔
      rs.query.Fits ∧ ∀ inner, rs.query.Uses inner → Succeeds inner.asQuery.outcome) ∧
    (Succeeds rs.countQuery.outcome ↔ Succeeds rs.asQuery.outcome) ∧
    (Succeeds rs.asQuery.outcome ↔ rs.Sound) := by
  have hown := succeeds_asQuery noHook
  have hinside : ∀ inner, rs.query.Uses inner →
      (Succeeds inner.asQuery.outcome ↔ Succeeds inner.compiled.clauses) := by
    intro inner huses
    have hschema := same inner (Query.uses_iff.mp huses).2
    rw [← hschema] at noHook
    exact succeeds_asQuery noHook
  refine ⟨?_, (succeeds_countQuery noHook).trans hown.symm, hown.trans rs.succeeds_iff_sound⟩
  rw [hown, succeeds_compiled]
  exact and_congr_right fun _ => forall₂_congr fun inner huses => (hinside inner huses).symm

end ResultSet

namespace Library

def fewAuthors (page : UInt64) : ResultSet :=
  (ResultSet.ofSource schema author).search none (some { rows := some 2, page := some page })

def booksOfFew (page : UInt64) : ResultSet :=
  ⟨{ schema := schema
     source := book
     attrs := { join := .ofPaths ["writer.books"] }
     previous := [⟨author, booksOfAuthor, [], .none, some (fewAuthors page)⟩] }⟩

theorem compiles_iff_booksOfFew :
    (booksOfFew 3).Sound ∧ Succeeds (booksOfFew 3).countQuery.outcome ∧
      ¬Succeeds (booksOfFew 9223372036854775809).countQuery.outcome := by
  have same (page : UInt64) :
      ∀ inner ∈ (booksOfFew page).query.subselects, inner.query.schema = schema := by
    intro inner hinner
    rw [List.mem_singleton.mp hinner]
    rfl
  obtain ⟨_, hcount, hsound⟩ := ResultSet.compiles_iff rfl (same 3)
  obtain ⟨hfits, hlastCount, _⟩ := ResultSet.compiles_iff rfl (same 9223372036854775809)
  have hlists : Succeeds (booksOfFew 3).asQuery.outcome := ⟨_, rfl⟩
  refine ⟨hsound.mp hlists, hcount.mpr hlists, ?_⟩
  rw [hlastCount, hfits]
  rintro ⟨_, hinside⟩
  have huses : (booksOfFew 9223372036854775809).query.Uses (fewAuthors 9223372036854775809) :=
    .previous (fun ⟨_, _, h⟩ => nomatch h) List.mem_cons_self rfl
  obtain ⟨statement, hstatement⟩ := hinside _ huses
  cases hstatement

end Library

end RelQuery
