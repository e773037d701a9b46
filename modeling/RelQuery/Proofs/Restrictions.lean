import RelQuery.Proofs.Conjuncts
import RelQuery.Proofs.DerivedTables
import RelQuery.Proofs.JoinSites

/-!
# Restrictions along a chain

The conditions given along a chain of searches and relationships. They all reach the statement: up
to the nearest level whose rows are restricted as conjuncts of its WHERE clause, and from that level
on inside a derived table.
-/

namespace RelQuery

set_option autoImplicit false

namespace Expr

structure Single (e : Expr) : Prop where
  ne_and : ∀ left right, e ≠ .binary .and left right
  ne_paren : ∀ left right, e ≠ .paren (.binary .and left right)

/-- A condition is the conjunction of single ones, from left to right. Parentheses around a
conjunction are dropped. -/
inductive Flattens : Expr → List Expr → Prop where
  | and {left right : Expr} {es fs : List Expr} (first : Flattens left es)
    (second : Flattens right fs) : Flattens (.binary .and left right) (es ++ fs)
  | paren {left right : Expr} {es : List Expr} (inside : Flattens (.binary .and left right) es) :
    Flattens (.paren (.binary .and left right)) es
  | single {e : Expr} (single : e.Single) : Flattens e [e]

theorem conjuncts_of_single {e : Expr} (h : e.Single) : e.conjuncts = [e] :=
  conjuncts.eq_3 e h.ne_and h.ne_paren

theorem flattens_conjuncts (e : Expr) : e.Flattens e.conjuncts := by
  induction e using conjuncts.induct with
  | case1 left right ihleft ihright =>
    rw [conjuncts]
    exact .and ihleft ihright
  | case2 left right ihleft ihright =>
    rw [conjuncts]
    exact .paren (.and ihleft ihright)
  | case3 e hand hparen =>
    have single : e.Single := ⟨hand, hparen⟩
    rw [conjuncts_of_single single]
    exact .single single

namespace Flattens

variable {e : Expr} {es : List Expr}

theorem conjuncts_eq (h : e.Flattens es) : e.conjuncts = es := by
  induction h with
  | and _ _ ihfirst ihsecond => rw [conjuncts, ihfirst, ihsecond]
  | paren _ ih => rw [← ih, conjuncts, conjuncts]
  | single single => exact conjuncts_of_single single

theorem forall_single (h : e.Flattens es) : ∀ part ∈ es, part.Single := by
  induction h with
  | and _ _ ihfirst ihsecond => exact List.forall_mem_append.mpr ⟨ihfirst, ihsecond⟩
  | paren _ ih => exact ih
  | single single =>
    intro part hpart
    rw [List.mem_singleton.mp hpart]
    exact single

end Flattens

end Expr

inductive Gives : Option Expr → List Expr → Prop where
  | none : Gives none []
  | some {e : Expr} {es : List Expr} (flattens : e.Flattens es) : Gives (some e) es

namespace Gives

variable {condition : Option Expr} {es : List Expr}

theorem conjuncts_eq (h : Gives condition es) :
    (condition.map Expr.conjuncts).getD [] = es := by
  cases h with
  | none => rfl
  | some flattens => exact flattens.conjuncts_eq

theorem forall_single (h : Gives condition es) : ∀ part ∈ es, part.Single := by
  cases h with
  | none => exact fun _ hpart => absurd hpart List.not_mem_nil
  | some flattens => exact flattens.forall_single

end Gives

structure ChainLevel where
  set : ResultSet
  given : List Expr

/-- Chains of searches and relationships from the sources of a schema, or from a set that reads from
another one: the current level, and those before it, the nearest first. -/
inductive Chain (schema : Schema) : ChainLevel → List ChainLevel → Prop where
  | all {name : String} {rs : ResultSet} (found : schema.resultSet name = .ok rs) :
    Chain schema ⟨rs, []⟩ []
  | asSubselect {rs : ResultSet} (reached : Reached schema rs) :
    Chain schema ⟨rs.asSubselect, []⟩ []
  | search {level : ChainLevel} {rest : List ChainLevel} {condition : Option Expr}
    {given : List Expr} (attrs : Option (Attributes ResultSet))
    (built : ∀ a ∈ attrs, a.join.Built) (gives : Gives condition given)
    (chain : Chain schema level rest) :
    Chain schema ⟨level.set.search condition attrs, level.given ++ given⟩ rest
  | related {level : ChainLevel} {rest : List ChainLevel} {next : ResultSet} {name : String}
    {condition : Option Expr} {given : List Expr} {attrs : Option (Attributes ResultSet)}
    (built : ∀ a ∈ attrs, a.join.Built) (gives : Gives condition given)
    (chain : Chain schema level rest)
    (found : (level.set.searchRelated name condition attrs).outcome = .ok (some next)) :
    Chain schema ⟨next, given⟩ (level :: rest)

/-- The rows are bounded, grouped or distinct, or they are not those of a table. -/
def Attributes.Restricts {σ : Type} (a : Attributes σ) : Prop :=
  a.rows ≠ none ∨ a.limit ≠ none ∨ a.offset ≠ none ∨ a.groupBy ≠ none ∨ a.having ≠ none ∨
    a.distinct = some true ∨ a.origin ≠ none

theorem Attributes.restrictsRows_iff {σ : Type} {a : Attributes σ} :
    a.restrictsRows = true ↔ a.Restricts := by
  unfold restrictsRows isDistinct Restricts
  simp only [Bool.or_eq_true, decide_eq_true_eq, Option.isSome_iff_ne_none, or_assoc]

def ChainLevel.Restricts (level : ChainLevel) : Prop := level.set.query.attrs.Restricts

/-- The previous roots that the levels of a chain become: each one up to the nearest that restricts
its rows, which becomes a derived table. -/
inductive Carried : List ChainLevel → List (PreviousRoot ResultSet) → Prop where
  | nil : Carried [] []
  | derived {level : ChainLevel} {rest : List ChainLevel} {r : Relationship} {keyed : ResultSet}
    (restricts : level.Restricts)
    (declared : level.set.query.source.relationship? r.name = some r)
    (found : level.set.keyedFor r = .ok keyed) :
    Carried (level :: rest) [⟨level.set.query.source, r, [], .none, some keyed⟩]
  | plain {level : ChainLevel} {rest : List ChainLevel} {r : Relationship}
    {roots : List (PreviousRoot ResultSet)} (free : ¬level.Restricts)
    (carried : Carried rest roots) :
    Carried (level :: rest) (⟨level.set.query.source, r, level.given, level.set.query.attrs.join,
      none⟩ :: roots)

def chainConditions (aliasOf : JoinSite → String) (n : Nat) : List ChainLevel → List (Expr × Scope)
  | [] => []
  | level :: rest =>
    level.given.map (·, levelScope aliasOf n level.set.query.attrs.join) ++
      chainConditions aliasOf (n + 1) rest

def chainSites (n : Nat) : List ChainLevel → List JoinSite
  | [] => []
  | level :: rest =>
    ⟨n, []⟩ :: (level.set.query.attrs.join.names.map (JoinSite.mk n) ++ chainSites (n + 1) rest)

namespace Chain

variable {schema : Schema} {current : ChainLevel} {rest : List ChainLevel}

theorem reached (h : Chain schema current rest) : Reached schema current.set := by
  induction h with
  | all found => exact .all found
  | asSubselect reached => exact .asSubselect reached
  | search attrs built _ _ ih => exact .search _ attrs built ih
  | related built _ _ found ih => exact .related _ _ _ built ih found

/-- The conditions of a set are those it was given, and its roots are the levels before it. -/
theorem carried (h : Chain schema current rest) :
    current.given = current.set.query.conditions ∧ Carried rest current.set.query.previous := by
  induction h with
  | all found =>
    obtain ⟨s, _, rfl⟩ := map_eq_ok.mp found
    exact ⟨rfl, .nil⟩
  | asSubselect _ => exact ⟨rfl, .nil⟩
  | search attrs _ gives _ ih =>
    refine ⟨?_, ih.2⟩
    rw [ih.1, ← gives.conjuncts_eq]
    rfl
  | @related level rest next name condition given attrs built gives chain found ih =>
    obtain ⟨reached, hrelated, rfl⟩ := ResultSet.searchRelated_eq_some.mp found
    obtain ⟨r, target, previous, hr, _, hprevious, rfl⟩ := ResultSet.related_eq_ok.mp hrelated
    refine ⟨gives.conjuncts_eq.symm, ?_⟩
    change Carried (level :: rest) previous
    by_cases hrestricts : level.Restricts
    · obtain ⟨keyed, hkeyed, rfl⟩ := (ResultSet.asPrevious_of_restricts
        (Attributes.restrictsRows_iff.mpr hrestricts)).mp hprevious
      have hdeclared : level.set.query.source.relationship? r.name = some r := by
        rw [Source.name_of_relationship? hr]
        exact hr
      exact .derived hrestricts hdeclared hkeyed
    · have hfree : level.set.query.attrs.restrictsRows = false :=
        Bool.eq_false_iff.mpr fun h => hrestricts (Attributes.restrictsRows_iff.mp h)
      rw [ResultSet.asPrevious_of_not_restricts hfree] at hprevious
      cases hprevious
      rw [← ih.1]
      exact .plain hrestricts ih.2

end Chain

section Roots

variable {σ τ : Type} (aliasOf : JoinSite → String)

theorem rootSites_map (f : σ → τ) (n : Nat) (roots : List (PreviousRoot σ)) :
    rootSites n (roots.map (PreviousRoot.map f)) = rootSites n roots := by
  induction roots generalizing n with
  | nil => rfl
  | cons root rest ih =>
    rw [List.map_cons, rootSites, ih, rootSites]
    rfl

theorem rootLevels_map (f : σ → τ) (n : Nat) (roots : List (PreviousRoot σ)) :
    rootLevels aliasOf n (roots.map (PreviousRoot.map f)) = rootLevels aliasOf n roots := by
  induction roots generalizing n with
  | nil => rfl
  | cons root rest ih =>
    rw [List.map_cons, rootLevels, ih, rootLevels]
    rfl

theorem rootSites_append (n : Nat) (as bs : List (PreviousRoot σ)) :
    rootSites n (as ++ bs) = rootSites n as ++ rootSites (n + as.length) bs := by
  induction as generalizing n with
  | nil => rfl
  | cons a as ih =>
    rw [List.cons_append, rootSites, ih, rootSites, List.length_cons, Nat.add_assoc,
      Nat.add_comm 1]
    simp only [List.cons_append, List.append_assoc]

theorem rootLevels_append (n : Nat) (as bs : List (PreviousRoot σ)) :
    rootLevels aliasOf n (as ++ bs) =
      rootLevels aliasOf n as ++ rootLevels aliasOf (n + as.length) bs := by
  induction as generalizing n with
  | nil => rfl
  | cons a as ih =>
    rw [List.cons_append, rootLevels, ih, rootLevels, List.length_cons, Nat.add_assoc,
      Nat.add_comm 1, List.cons_append]

end Roots

namespace Carried

variable {levels near beyond : List ChainLevel} {nearest : ChainLevel}
  {roots : List (PreviousRoot ResultSet)}

theorem sites_eq (h : Carried levels roots) (free : ∀ l ∈ levels, ¬l.Restricts) (n : Nat) :
    rootSites n roots = chainSites n levels := by
  induction h generalizing n with
  | nil => rfl
  | derived restricts _ _ => exact absurd restricts (free _ List.mem_cons_self)
  | plain _ _ ih => rw [rootSites, chainSites, ih fun l hl => free l (List.mem_cons_of_mem _ hl)]

theorem conditions_eq (h : Carried levels roots) (free : ∀ l ∈ levels, ¬l.Restricts)
    (aliasOf : JoinSite → String) (n : Nat) :
    ((rootLevels aliasOf n roots).flatMap fun l => l.conditions.map (·, l.scope)) =
      chainConditions aliasOf n levels := by
  induction h generalizing n with
  | nil => rfl
  | derived restricts _ _ => exact absurd restricts (free _ List.mem_cons_self)
  | plain _ _ ih =>
    rw [rootLevels, List.flatMap_cons, chainConditions,
      ih fun l hl => free l (List.mem_cons_of_mem _ hl)]

theorem split (h : Carried (near ++ nearest :: beyond) roots)
    (free : ∀ l ∈ near, ¬l.Restricts) (restricts : nearest.Restricts) :
    ∃ nearRoots r keyed,
      roots = nearRoots ++ [⟨nearest.set.query.source, r, [], .none, some keyed⟩] ∧
      Carried near nearRoots ∧ nearRoots.length = near.length ∧
      (∀ root ∈ nearRoots, root.derived = none) ∧
      nearest.set.query.source.relationship? r.name = some r ∧
      nearest.set.keyedFor r = .ok keyed := by
  induction near generalizing roots with
  | nil =>
    cases h with
    | derived _ declared found =>
      exact ⟨[], _, _, rfl, .nil, rfl, fun _ hroot => absurd hroot List.not_mem_nil, declared,
        found⟩
    | plain hfree _ => exact absurd restricts hfree
  | cons level near ih =>
    obtain ⟨hlevel, hnear⟩ := List.forall_mem_cons.mp free
    cases h with
    | derived hrestricts _ _ => exact absurd hrestricts hlevel
    | plain hfree carried =>
      obtain ⟨nearRoots, r, keyed, rfl, hcarried, hlength, htables, hdeclared, hkeyed⟩ :=
        ih carried hnear
      refine ⟨_ :: nearRoots, r, keyed, rfl, .plain hfree hcarried, congrArg (· + 1) hlength, ?_,
        hdeclared, hkeyed⟩
      exact List.forall_mem_cons.mpr ⟨rfl, htables⟩

end Carried

section Compiled

variable {rs : ResultSet} {c : Clauses} {aliasOf : JoinSite → String}

theorem sites_compiled (rs : ResultSet) :
    rs.compiled.sites = rs.query.attrs.join.names.map (JoinSite.mk 0) ++
      rootSites 1 rs.query.previous := by
  rw [← rootSites_map ResultSet.listing]
  rfl

theorem conditions_compiled (h : rs.compiled.WellPlanned aliasOf c.plan) :
    c.conditions rs.compiled =
      rs.query.conditions.map (·, levelScope aliasOf 0 rs.query.attrs.join) ++
      (rootLevels aliasOf 1 rs.query.previous).flatMap fun l => l.conditions.map (·, l.scope) := by
  unfold Clauses.conditions Plan.conditions
  rw [h.scope, h.levels, ← rootLevels_map aliasOf ResultSet.listing]
  rfl

theorem derivedJoin_of_previous {s keyed : ResultSet} {r : Relationship}
    {near : List (PreviousRoot ResultSet)} (clauses : rs.compiled.clauses = .ok c)
    (tables : ¬rs.compiled.ReadsRaw) (distinct : rs.query.attrs.join.Distinct)
    (trees : ∀ root ∈ rs.compiled.previous, root.join.Distinct)
    (previous : rs.query.previous = near ++ [⟨s.query.source, r, [], .none, some keyed⟩])
    (plain : ∀ root ∈ near, root.derived = none)
    (declared : s.query.source.relationship? r.name = some r) (found : s.keyedFor r = .ok keyed) :
    ∃ own before after derived, DerivedJoin rs.compiled c s r own before after derived := by
  obtain ⟨_, hplan, _⟩ := Query.clauses_eq_ok.mp clauses
  obtain ⟨js, ks, hjs, hks, hjoins, _⟩ := Query.joins_of_plan tables hplan distinct trees
  have hroots : rs.compiled.previous = near.map (PreviousRoot.map ResultSet.listing) ++
      [⟨s.query.source, r, [], .none, some keyed.listing⟩] := by
    change rs.query.previous.map (PreviousRoot.map ResultSet.listing) = _
    rw [previous, List.map_append]
    rfl
  rw [hroots] at hks
  have hplain : ∀ root ∈ near.map (PreviousRoot.map ResultSet.listing), root.derived = none := by
    intro root hroot
    obtain ⟨before, hbefore, rfl⟩ := List.mem_map.mp hroot
    unfold PreviousRoot.map
    rw [plain before hbefore]
    rfl
  obtain ⟨others, parent, joined, hothers, hlast⟩ := hks.concat hplain rfl
  rw [hlast, ← List.append_assoc] at hjoins
  exact derivedJoin_of_keyed clauses declared found hjoins
    (List.forall_mem_append.mpr ⟨hjs.tables, hothers⟩) rfl rfl

end Compiled

/-- No condition given along a chain is lost. As long as no level before the current one restricts
its rows, the WHERE clause of the statement consists of the conditions of all levels. Otherwise it
consists of those of the levels up to the nearest one that does, which is joined as a derived table,
and with which the joins end. Whatever else the statement says of its rows is read at the current
level. -/
theorem Chain.restrictions {schema : Schema} {current : ChainLevel} {rest : List ChainLevel}
    {p : Prepared} (chain : Chain schema current rest) (tables : ¬current.set.query.ReadsRaw)
    (compiles : current.set.prepare {} = .ok p) :
    ∃ c aliasOf, current.set.compiled.clauses = .ok c ∧
      current.set.compiled.WellPlanned aliasOf c.plan ∧
      c.ReadsRows current.set.compiled c.plan.scope ∧
      ((∀ l ∈ rest, ¬l.Restricts) →
        c.Meets current.set.compiled {} (chainConditions aliasOf 0 (current :: rest)) p.statement ∧
        .top :: current.set.compiled.sites = chainSites 0 (current :: rest)) ∧
      ∀ near nearest beyond, rest = near ++ nearest :: beyond →
        (∀ l ∈ near, ¬l.Restricts) → nearest.Restricts →
        c.Meets current.set.compiled {} (chainConditions aliasOf 0 (current :: near)) p.statement ∧
        .top :: current.set.compiled.sites =
          chainSites 0 (current :: near) ++ [⟨near.length + 1, []⟩] ∧
        ∃ r own before after derived,
          DerivedJoin current.set.compiled c nearest.set r own before after derived := by
  obtain ⟨c, hc, rfl⟩ := ResultSet.prepare_eq_ok.mp compiles
  obtain ⟨hgiven, hcarried⟩ := chain.carried
  obtain ⟨_, hplan, _⟩ := Query.clauses_eq_ok.mp hc
  have hcoherent := chain.reached.coherent.map ResultSet.listing
  have htables : ¬current.set.compiled.ReadsRaw := fun h =>
    tables ((Query.readsRaw_map _ _).mp h)
  obtain ⟨aliasOf, hwell⟩ := hcoherent.exists_wellPlanned htables hplan
  have hmeets := c.meets_conditions current.set.compiled {}
  refine ⟨c, aliasOf, hc, hwell, c.readsRows _, ?_, ?_⟩
  · intro hrest
    have hconditions : c.conditions current.set.compiled =
        chainConditions aliasOf 0 (current :: rest) := by
      rw [conditions_compiled hwell, hcarried.conditions_eq hrest, ← hgiven]
      rfl
    rw [hconditions] at hmeets
    refine ⟨hmeets, ?_⟩
    rw [sites_compiled, hcarried.sites_eq hrest]
    rfl
  · rintro near nearest beyond rfl hnear hrestricts
    obtain ⟨nearRoots, r, keyed, hroots, hnearCarried, hlength, hplain, hdeclared, hkeyed⟩ :=
      hcarried.split hnear hrestricts
    have hconditions : c.conditions current.set.compiled =
        chainConditions aliasOf 0 (current :: near) := by
      rw [conditions_compiled hwell, hroots, rootLevels_append, List.flatMap_append,
        hnearCarried.conditions_eq hnear, ← hgiven]
      exact congrArg _ (List.append_nil _)
    rw [hconditions] at hmeets
    refine ⟨hmeets, ?_, r, ?_⟩
    · rw [sites_compiled, hroots, rootSites_append, hnearCarried.sites_eq hnear, hlength,
        Nat.add_comm 1, chainSites, List.cons_append, List.append_assoc]
      rfl
    · exact derivedJoin_of_previous hc htables chain.reached.coherent.distinct
        hcoherent.linked.distinct hroots hplain hdeclared hkeyed

namespace Library

def firstAuthors : ChainLevel :=
  ⟨(ResultSet.ofSource schema author).search (some (.like (.col "name") "A%" false false))
      (some { columns := some ["name"], rows := some 2 }),
    [.like (.col "name") "A%" false false]⟩

def namedPupils : ChainLevel :=
  ⟨⟨{ schema := schema
      source := author
      conditions := [.isNull (.col "name") true]
      previous := [⟨author, pupilsOfAuthor, [], .none,
        some ⟨firstAuthors.set.query.addColumns ["me.id"]⟩⟩] }⟩,
    [.isNull (.col "name") true]⟩

def pupilsBooks : ChainLevel :=
  ⟨⟨{ schema := schema
      source := book
      conditions := [.eq (.col "title") (.literal (.text "Emma"))]
      previous := [⟨author, booksOfAuthor, [.isNull (.col "name") true], .none, none⟩,
        ⟨author, pupilsOfAuthor, [], .none,
          some ⟨firstAuthors.set.query.addColumns ["me.id"]⟩⟩] }⟩,
    [.eq (.col "title") (.literal (.text "Emma"))]⟩

theorem chain_pupilsBooks : Chain schema pupilsBooks [namedPupils, firstAuthors] := by
  have hnone : ∀ a ∈ (none : Option (Attributes ResultSet)), a.join.Built := by
    intro a ha
    cases ha
  have hgives (e : Expr) : Gives (some e) e.conjuncts := .some e.flattens_conjuncts
  have hall : schema.resultSet "Author" = .ok (ResultSet.ofSource schema author) := rfl
  have hauthors : Chain schema firstAuthors [] := by
    refine .search _ ?_ (hgives (.like (.col "name") "A%" false false)) (.all hall)
    intro a ha
    cases ha
    exact .none
  have hpupils : Chain schema namedPupils [firstAuthors] :=
    .related hnone (hgives (.isNull (.col "name") true)) hauthors
      (show (firstAuthors.set.searchRelated "pupils" _ _).outcome = _ from rfl)
  exact .related hnone (hgives (.eq (.col "title") (.literal (.text "Emma")))) hpupils
    (show (namedPupils.set.searchRelated "books" _ _).outcome = _ from rfl)

end Library

set_option maxRecDepth 4096 in
/-- The condition on the authors stands in the derived table, and those on the books and on the
pupils in the WHERE clause, each read at its own root. -/
theorem restrictions_pupilsBooks :
    (Library.pupilsBooks.set.prepare {}).map (·.statement.sql) =
      .ok "SELECT me.id, me.author, me.title FROM books me JOIN authors author ON me.author = author.id JOIN (SELECT me.name, me.id FROM authors me WHERE me.name LIKE $1 LIMIT 2) author_2 ON author.mentor = author_2.id WHERE me.title = $2 AND author.name IS NOT NULL" ∧
    ∃ p c aliasOf, Library.pupilsBooks.set.prepare {} = .ok p ∧
      Library.pupilsBooks.set.compiled.clauses = .ok c ∧
      c.Meets Library.pupilsBooks.set.compiled {}
        (chainConditions aliasOf 0 [Library.pupilsBooks, Library.namedPupils]) p.statement ∧
      ∃ r own before after derived, DerivedJoin Library.pupilsBooks.set.compiled c
        Library.firstAuthors.set r own before after derived := by
  have htables : ¬Library.pupilsBooks.set.query.ReadsRaw := by
    rintro ⟨sql, values, h⟩
    cases h
  have hplain : ∀ l ∈ [Library.namedPupils], ¬l.Restricts := by
    intro l hl
    rw [List.mem_singleton.mp hl]
    exact fun h => absurd (Attributes.restrictsRows_iff.mpr h) (by decide)
  have hfirst : Library.firstAuthors.Restricts := .inl nofun
  obtain ⟨c, aliasOf, hc, _, _, _, h⟩ := Library.chain_pupilsBooks.restrictions htables rfl
  obtain ⟨hmeets, _, hderived⟩ := h _ Library.firstAuthors [] rfl hplain hfirst
  exact ⟨rfl, _, c, aliasOf, rfl, hc, hmeets, hderived⟩

end RelQuery
