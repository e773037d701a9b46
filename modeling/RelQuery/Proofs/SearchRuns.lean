import RelQuery.Proofs.Counting
import RelQuery.Proofs.Merging

/-!
# Runs of searches

Searches that are made one after the other merge their attributes in order. What is replaced where
it is given has the value that was given last. The limit of a statement is made of two such values,
and the number of rows of a page goes before the limit, whichever of the two was given later.
-/

namespace RelQuery

set_option autoImplicit false

structure Search where
  condition : Option Expr := none
  attrs : Option (Attributes ResultSet) := none

def Search.bag (s : Search) : Attributes ResultSet := s.attrs.getD {}

def bags (steps : List Search) : List (Attributes ResultSet) := steps.map Search.bag

def ResultSet.searchAll (rs : ResultSet) (steps : List Search) : ResultSet :=
  steps.foldl (fun rs s => rs.search s.condition s.attrs) rs

namespace Attributes

variable {σ β : Type}

@[simp] theorem merge_empty (a : Attributes σ) : a.merge {} = a := by
  rw [merge_of_not_selects rfl]
  simp

def lastGiven (field : Attributes σ → Option β) (row : List (Attributes σ)) : Option β :=
  (row.filterMap field).getLast?

variable {field : Attributes σ → Option β} {a : Attributes σ} {before after : List (Attributes σ)}

theorem lastGiven_append : lastGiven field (before ++ after) =
    (lastGiven field after).or (lastGiven field before) := by
  unfold lastGiven
  rw [List.filterMap_append, List.getLast?_append]

theorem lastGiven_singleton : lastGiven field [a] = field a := by
  unfold lastGiven
  cases h : field a with
  | none => simp [h]
  | some v => simp [h]

theorem lastGiven_cons : lastGiven field (a :: after) = (lastGiven field after).or (field a) := by
  rw [← List.singleton_append, lastGiven_append, lastGiven_singleton]

theorem lastGiven_eq_none (h : ∀ b ∈ after, field b = none) : lastGiven field after = none := by
  unfold lastGiven
  rw [List.filterMap_eq_nil_iff.mpr h]
  rfl

/-- A field that each merge replaces where it is given comes to its last value. -/
theorem field_foldl_merge
    (replaced : ∀ a b : Attributes σ, field (a.merge b) = (field b).or (field a))
    (a : Attributes σ) (row : List (Attributes σ)) :
    field (row.foldl merge a) = lastGiven field (a :: row) := by
  induction row generalizing a with
  | nil => rw [lastGiven_singleton, List.foldl_nil]
  | cons b row ih =>
    rw [List.foldl_cons, ih, lastGiven_cons, lastGiven_cons, lastGiven_cons, replaced,
      Option.or_assoc]

theorem limit_merge (a b : Attributes σ) : (a.merge b).limit = b.limit.or a.limit := by
  unfold merge reselect
  split
  · rfl
  · rfl

theorem rows_merge (a b : Attributes σ) : (a.merge b).rows = b.rows.or a.rows := by
  unfold merge reselect
  split
  · rfl
  · rfl

/-- The number of rows of a page stands for the limit, where there is one. -/
theorem limit_of_window {w : Window} (h : a.window = .ok w) : w.limit = a.rows.or a.limit := by
  unfold window at h
  split at h
  · rename_i hrows
    cases h
    rw [hrows, Option.none_or]
  · rename_i rows hrows
    split at h
    · cases h
      rw [hrows, Option.some_or]
    · cases h

end Attributes

open Attributes (lastGiven)

theorem ResultSet.attrs_searchAll (rs : ResultSet) (steps : List Search) :
    (rs.searchAll steps).query.attrs = (bags steps).foldl Attributes.merge rs.query.attrs := by
  induction steps generalizing rs with
  | nil => rfl
  | cons s steps ih =>
    have hfirst : (rs.search s.condition s.attrs).query.attrs = rs.query.attrs.merge s.bag := by
      unfold Search.bag
      cases s.attrs with
      | none => exact (Attributes.merge_empty _).symm
      | some a => rfl
    have hrest := ih (rs.search s.condition s.attrs)
    rw [hfirst] at hrest
    exact hrest

theorem lastGiven_bags {β : Type} (field : Attributes ResultSet → Option β)
    (a : Attributes ResultSet) (before : List Search) (step : Search) {after : List Search}
    (none : ∀ s ∈ after, field s.bag = none) :
    lastGiven field (a :: bags (before ++ step :: after)) =
      (field step.bag).or (lastGiven field (a :: bags before)) := by
  have hafter : lastGiven field (bags after) = Option.none := by
    apply Attributes.lastGiven_eq_none
    intro b hb
    obtain ⟨s, hs, rfl⟩ := List.mem_map.mp hb
    exact none s hs
  have hsplit : a :: bags (before ++ step :: after) =
      (a :: bags before) ++ step.bag :: bags after := by
    unfold bags
    rw [List.map_append, List.map_cons, List.cons_append]
  rw [hsplit, Attributes.lastGiven_append, Attributes.lastGiven_cons, hafter, Option.none_or]

/-- The limit of a statement behind searches is the last number of rows that one of them gives for a
page, and the last limit only where none does. So a limit that is given last takes the place of
every earlier bound unless a page of another size was asked for before. -/
theorem ResultSet.limit_searchAll {rs : ResultSet} {steps : List Search} {p : Prepared}
    (compiles : (rs.searchAll steps).prepare {} = .ok p) :
    ∃ c, (rs.searchAll steps).compiled.clauses = .ok c ∧
      p.statement = c.listed (rs.searchAll steps).compiled c.window ∧
      c.window.text = limitText c.window.limit ++ offsetText c.window.offset ∧
      c.window.limit = (lastGiven (·.rows) (rs.query.attrs :: bags steps)).or
        (lastGiven (·.limit) (rs.query.attrs :: bags steps)) ∧
      ∀ before step after n, steps = before ++ step :: after → step.bag.limit = some n →
        step.bag.rows = none → (∀ s ∈ after, s.bag.limit = none ∧ s.bag.rows = none) →
        (c.window.limit = some n ↔
          ∀ rows, lastGiven (·.rows) (rs.query.attrs :: bags before) = some rows → rows = n) := by
  obtain ⟨c, hc, rfl⟩ := prepare_eq_ok.mp compiles
  obtain ⟨_, _, _, _, hwindow⟩ := Query.clauses_eq_ok.mp hc
  have hlimit : c.window.limit = (lastGiven (·.rows) (rs.query.attrs :: bags steps)).or
      (lastGiven (·.limit) (rs.query.attrs :: bags steps)) := by
    have hattrs : c.window.limit = (rs.searchAll steps).query.attrs.rows.or
      (rs.searchAll steps).query.attrs.limit := Attributes.limit_of_window hwindow
    rw [hattrs, attrs_searchAll, Attributes.field_foldl_merge Attributes.rows_merge,
      Attributes.field_foldl_merge Attributes.limit_merge]
  refine ⟨c, hc, c.statement_listed _ none, c.window.text_eq, hlimit, ?_⟩
  rintro before step after n rfl hstep hrows hafter
  rw [lastGiven_bags (·.rows) _ _ _ fun s hs => (hafter s hs).2,
    lastGiven_bags (·.limit) _ _ _ fun s hs => (hafter s hs).1, hstep, hrows,
    Option.none_or, Option.some_or] at hlimit
  rw [hlimit]
  cases lastGiven (·.rows) (rs.query.attrs :: bags before) with
  | none => simp
  | some rows => simp

namespace Library

def pagedAuthors : List Search :=
  [{ attrs := some { rows := some 10 } }, { attrs := some { limit := some 5 } }]

def fewerAuthors : List Search :=
  [{ attrs := some { limit := some 10, offset := some 2 } }, { attrs := some { limit := some 5 } },
    { condition := some (.eq (.col "name") (.literal (.text "Ann"))) }]

theorem limit_searchAll_fewerAuthors : ∃ (p : Prepared) (c : Clauses),
    ((ResultSet.ofSource schema author).searchAll fewerAuthors).prepare {} = .ok p ∧
    p.statement = c.listed ((ResultSet.ofSource schema author).searchAll fewerAuthors).compiled
      c.window ∧
    c.window.limit = some 5 ∧
    p.statement.sql = "SELECT me.id, me.name, me.mentor FROM authors me " ++
      "WHERE me.name = $1 LIMIT 5 OFFSET 2" := by
  obtain ⟨p, hp, hsql⟩ : ∃ p,
      ((ResultSet.ofSource schema author).searchAll fewerAuthors).prepare {} = .ok p ∧
      p.statement.sql = "SELECT me.id, me.name, me.mentor FROM authors me " ++
        "WHERE me.name = $1 LIMIT 5 OFFSET 2" :=
    ⟨_, rfl, by cbv⟩
  obtain ⟨c, _, hstatement, _, _, hlatest⟩ := ResultSet.limit_searchAll hp
  have hlimit := hlatest [fewerAuthors[0]] fewerAuthors[1] [fewerAuthors[2]] 5 rfl rfl rfl
    (by decide)
  refine ⟨p, c, hp, hstatement, hlimit.mpr ?_, hsql⟩
  intro rows hrows
  cases hrows

/-- The limit that was given last is not that of the statement. -/
theorem limit_pagedAuthors :
    pagedAuthors = [{ attrs := some { rows := some 10 } }] ++
      { attrs := some { limit := some 5 } } :: [] ∧
    ∃ (p : Prepared) (c : Clauses),
      ((ResultSet.ofSource schema author).searchAll pagedAuthors).prepare {} = .ok p ∧
      ((ResultSet.ofSource schema author).searchAll pagedAuthors).compiled.clauses = .ok c ∧
      c.window.limit = some 10 ∧
      p.statement.sql = "SELECT me.id, me.name, me.mentor FROM authors me LIMIT 10" :=
  ⟨rfl, _, _, rfl, rfl, rfl, by cbv⟩

end Library

end RelQuery
