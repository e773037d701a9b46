import Mathlib.Data.List.Find
import Mathlib.Data.List.Nodup
import RelQuery.Proofs.Conjuncts
import RelQuery.Proofs.DerivedTables
import RelQuery.Proofs.JoinSites

/-!
# The scopes of levels

What the qualifiers of column references stand for. Each level of a plan has a scope of its own, in
which the relationships of its join tree stand for their aliases, and the conditions of a level are
read in its scope.
-/

namespace RelQuery

set_option autoImplicit false

open Fragment (ofText)

namespace Scope

theorem resolve_some_of_ne (s : Scope) {q : String} (hq : q ≠ rootAlias) :
    s.resolve (some q) = (s.renames.lookup q).getD q := if_neg hq

theorem resolve_top_some (q : String) : Scope.top.resolve (some q) = q := by
  by_cases hq : q = rootAlias
  · rw [hq, resolve_rootAlias]
    rfl
  · rw [resolve_some_of_ne _ hq]
    rfl

end Scope

namespace Expr

mutual

/-- The expression with every column qualified by what its qualifier stands for. -/
def requalify (f : Option String → String) : Expr → Expr
  | .column table name => .column (some (f table)) name
  | .literal v => .literal v
  | .binary op left right => .binary op (left.requalify f) (right.requalify f)
  | .unary op operand => .unary op (operand.requalify f)
  | .call function args => .call function (requalifyAll f args)
  | .isIn operand values negated => .isIn (operand.requalify f) (requalifyAll f values) negated
  | .between operand low high negated =>
    .between (operand.requalify f) (low.requalify f) (high.requalify f) negated
  | .isNull operand negated => .isNull (operand.requalify f) negated
  | .like operand pattern negated caseless =>
    .like (operand.requalify f) pattern negated caseless
  | .raw sql values => .raw sql values
  | .paren inner => .paren (inner.requalify f)
  | .countStar => .countStar

def requalifyAll (f : Option String → String) : List Expr → List Expr
  | [] => []
  | e :: rest => e.requalify f :: requalifyAll f rest

end

variable (style : Style) (scope : Scope)

theorem grouped_requalify (f : Option String → String) (parent : Nat) (e : Expr) (g : Fragment) :
    (e.requalify f).grouped parent g = e.grouped parent g := by
  cases e <;> rfl

mutual

/-- A scope is asked for the qualifiers of columns and for nothing else: when these are replaced,
the expression reads the same where every qualifier stands for itself. -/
theorem fragment_requalify (e : Expr) :
    (e.requalify scope.resolve).fragment style .top = e.fragment style scope := by
  cases e with
  | column table name =>
    unfold requalify fragment
    rw [Scope.resolve_top_some]
  | literal v => rfl
  | binary op left right =>
    unfold requalify fragment
    rw [grouped_requalify, grouped_requalify, fragment_requalify left, fragment_requalify right]
  | unary op operand =>
    unfold requalify fragment
    rw [grouped_requalify, fragment_requalify operand]
  | call function args =>
    unfold requalify fragment
    rw [fragments_requalifyAll args]
  | isIn operand values negated =>
    unfold requalify fragment
    rw [fragment_requalify operand, fragments_requalifyAll values]
  | between operand low high negated =>
    unfold requalify fragment
    rw [fragment_requalify operand, fragment_requalify low, fragment_requalify high]
  | isNull operand negated =>
    unfold requalify fragment
    rw [fragment_requalify operand]
  | like operand pattern negated caseless =>
    unfold requalify fragment
    rw [fragment_requalify operand]
  | raw sql values => rfl
  | paren inner =>
    unfold requalify fragment
    rw [fragment_requalify inner]
  | countStar => rfl

theorem fragments_requalifyAll (es : List Expr) :
    fragments style .top (requalifyAll scope.resolve es) = fragments style scope es := by
  cases es with
  | nil => rfl
  | cons e rest =>
    unfold requalifyAll fragments
    rw [fragment_requalify e, fragments_requalifyAll rest]

end

end Expr

namespace Scope

theorem lookup_rename (s : Scope) (qualifier name q : String) :
    (s.rename qualifier name).renames.lookup q =
      (s.renames.lookup q).or (if q = qualifier then some name else none) := by
  unfold rename
  split
  · rename_i other hother
    by_cases hq : q = qualifier
    · subst hq
      rw [hother, Option.some_or]
    · rw [if_neg hq, Option.or_none]
  · rw [List.lookup_append, List.lookup_cons]
    by_cases hq : q = qualifier
    · rw [beq_iff_eq.mpr hq, if_pos hq]
    · rw [beq_eq_false_iff_ne.mpr hq, if_neg hq, List.lookup_nil]

/-- A scope after its relationships have been renamed one after the other: the first of a name
wins. -/
theorem lookup_foldl_rename (aliasOf : JoinSite → String) (sites : List JoinSite) (s : Scope)
    (q : String) :
    (sites.foldl (fun s site => s.rename site.relationship (aliasOf site)) s).renames.lookup q =
      (s.renames.lookup q).or ((sites.find? (·.relationship = q)).map aliasOf) := by
  induction sites generalizing s with
  | nil => rw [List.foldl_nil, List.find?_nil, Option.map_none, Option.or_none]
  | cons site sites ih =>
    rw [List.foldl_cons, ih, lookup_rename, List.find?_cons, Option.or_assoc]
    by_cases hq : site.relationship = q
    · rw [if_pos hq.symm, decide_eq_true hq, Option.some_or]
      rfl
    · rw [if_neg (Ne.symm hq), decide_eq_false hq, Option.none_or]

theorem root_foldl_rename (aliasOf : JoinSite → String) (sites : List JoinSite) (s : Scope) :
    (sites.foldl (fun s site => s.rename site.relationship (aliasOf site)) s).root = s.root := by
  induction sites generalizing s with
  | nil => rfl
  | cons site sites ih => rw [List.foldl_cons, ih, root_rename]

end Scope

section Level

variable {aliasOf : JoinSite → String} {level : Nat} {t : JoinTree}

theorem root_levelScope : (levelScope aliasOf level t).root = aliasOf ⟨level, []⟩ :=
  Scope.root_foldl_rename _ _ _

theorem resolve_levelScope {q : String} (hq : q ≠ rootAlias) :
    (levelScope aliasOf level t).resolve (some q) =
      ((t.names.find? (·.getLast? = some q)).map fun path => aliasOf ⟨level, path⟩).getD q := by
  have hlast : ∀ path ∈ t.names,
      decide ((JoinSite.mk level path).relationship = q) = decide (path.getLast? = some q) := by
    intro path hpath
    have hne := JoinTree.ne_nil_of_mem_names hpath
    rw [JoinSite.relationship, List.getLastD_eq_getLast?, List.getLast?_eq_some_getLast hne,
      Option.getD_some]
    simp
  rw [Scope.resolve_some_of_ne _ hq]
  unfold levelScope
  rw [Scope.lookup_foldl_rename, List.find?_map, Option.map_map]
  simp only [Function.comp_def]
  rw [List.find?_congr hlast]
  rfl

end Level

variable {σ : Type}

theorem getElem?_rootLevels (aliasOf : JoinSite → String) (roots : List (PreviousRoot σ))
    (n i : Nat) : (rootLevels aliasOf n roots)[i]? =
      roots[i]?.map fun root => ⟨levelScope aliasOf (n + i) root.join, root.conditions⟩ := by
  induction roots generalizing n i with
  | nil => rfl
  | cons root rest ih =>
    unfold rootLevels
    cases i with
    | zero => rfl
    | succ i =>
      rw [List.getElem?_cons_succ, List.getElem?_cons_succ, ih, Nat.add_right_comm, Nat.add_assoc]

theorem length_rootLevels (aliasOf : JoinSite → String) (roots : List (PreviousRoot σ)) (n : Nat) :
    (rootLevels aliasOf n roots).length = roots.length := by
  induction roots generalizing n with
  | nil => rfl
  | cons root rest ih => rw [rootLevels, List.length_cons, ih, List.length_cons]

theorem mem_levelSites {t : JoinTree} {path : List String} (hpath : path ∈ [] :: t.names)
    (level : Nat) (later : List JoinSite) :
    ⟨level, path⟩ ∈ (⟨level, []⟩ : JoinSite) :: (t.names.map (JoinSite.mk level) ++ later) := by
  rcases List.mem_cons.mp hpath with rfl | hpath
  · exact List.mem_cons_self
  · exact List.mem_cons_of_mem _ (List.mem_append_left _ (List.mem_map_of_mem hpath))

theorem mem_rootSites {roots : List (PreviousRoot σ)} {n i : Nat} {root : PreviousRoot σ}
    (h : roots[i]? = some root) {path : List String} (hpath : path ∈ [] :: root.join.names) :
    ⟨n + i, path⟩ ∈ rootSites n roots := by
  induction roots generalizing n i with
  | nil => cases h
  | cons first rest ih =>
    unfold rootSites
    cases i with
    | zero =>
      cases h
      exact mem_levelSites hpath n _
    | succ i =>
      have hrest := ih (n := n + 1) h
      rw [Nat.add_right_comm, Nat.add_assoc] at hrest
      exact List.mem_cons_of_mem _ (List.mem_append_right _ hrest)

def Plan.allLevels (plan : Plan σ) (own : List Expr) : List Level :=
  ⟨plan.scope, own⟩ :: plan.levels

theorem Plan.conditions_eq (plan : Plan σ) (own : List Expr) :
    plan.conditions own = (plan.allLevels own).flatMap fun l => l.conditions.map (·, l.scope) := rfl

namespace Query

def levelSpecs (q : Query σ) : List (JoinTree × List Expr) :=
  (q.attrs.join, q.conditions) :: q.previous.map fun root => (root.join, root.conditions)

/-- The columns of a level are read in its own scope. -/
structure ReadsLevel (q : Query σ) (aliasOf : JoinSite → String) (level : Nat) (t : JoinTree)
    (scope : Scope) : Prop where
  placed : ∀ path ∈ [] :: t.names, ⟨level, path⟩ ∈ JoinSite.top :: q.sites
  alone : ∀ site ∈ JoinSite.top :: q.sites, aliasOf site = aliasOf ⟨level, []⟩ → site = ⟨level, []⟩
  unqualified : scope.resolve none = aliasOf ⟨level, []⟩
  root : scope.resolve (some rootAlias) = aliasOf ⟨level, []⟩
  joined : ∀ before path after name, name ≠ rootAlias → t.names = before ++ path :: after →
    path.getLast? = some name → (∀ other ∈ before, other.getLast? ≠ some name) →
    scope.resolve (some name) = aliasOf ⟨level, path⟩
  unchanged : ∀ name, name ≠ rootAlias → (∀ path ∈ t.names, path.getLast? ≠ some name) →
    scope.resolve (some name) = name
  column : ∀ style table name, (Expr.column table name).fragment style scope =
    ofText (style.qualified (scope.resolve table) name)
  everywhere : ∀ style (e : Expr), e.fragment style scope =
    (e.requalify scope.resolve).fragment style .top

variable {q : Query σ} {aliasOf : JoinSite → String} {plan : Plan σ}

theorem mem_sites_of_levelSpecs {level : Nat} {t : JoinTree} {conditions : List Expr}
    (h : q.levelSpecs[level]? = some (t, conditions)) {path : List String}
    (hpath : path ∈ [] :: t.names) : ⟨level, path⟩ ∈ JoinSite.top :: q.sites := by
  unfold sites
  cases level with
  | zero =>
    cases h
    exact mem_levelSites hpath 0 _
  | succ i =>
    unfold levelSpecs at h
    rw [List.getElem?_cons_succ, List.getElem?_map] at h
    obtain ⟨root, hroot, hspec⟩ := Option.map_eq_some_iff.mp h
    cases hspec
    have hmem := mem_rootSites (n := 1) hroot hpath
    rw [Nat.add_comm] at hmem
    exact List.mem_cons_of_mem _ (List.mem_append_right _ hmem)

theorem WellPlanned.aliasOf_inj (h : q.WellPlanned aliasOf plan) {site other : JoinSite}
    (hsite : site ∈ JoinSite.top :: q.sites) (hother : other ∈ JoinSite.top :: q.sites)
    (heq : aliasOf site = aliasOf other) : site = other := by
  have hnodup : ((JoinSite.top :: q.sites).map aliasOf).Nodup := by
    rw [List.map_cons, h.top, ← h.names]
    exact h.names_nodup
  exact List.inj_on_of_nodup_map hnodup hsite hother heq

theorem WellPlanned.getElem?_allLevels (h : q.WellPlanned aliasOf plan) (level : Nat) :
    (plan.allLevels q.conditions)[level]? =
      q.levelSpecs[level]?.map fun spec => ⟨levelScope aliasOf level spec.1, spec.2⟩ := by
  unfold Plan.allLevels levelSpecs
  rw [h.scope, h.levels]
  cases level with
  | zero => rfl
  | succ i =>
    rw [List.getElem?_cons_succ, getElem?_rootLevels, List.getElem?_cons_succ, List.getElem?_map,
      Option.map_map, Nat.add_comm]
    rfl

theorem WellPlanned.readsLevel (h : q.WellPlanned aliasOf plan) {level : Nat} {t : JoinTree}
    {conditions : List Expr} (spec : q.levelSpecs[level]? = some (t, conditions)) :
    q.ReadsLevel aliasOf level t (levelScope aliasOf level t) where
  placed _ hpath := mem_sites_of_levelSpecs spec hpath
  alone _ hsite heq := h.aliasOf_inj hsite (mem_sites_of_levelSpecs spec List.mem_cons_self) heq
  unqualified := root_levelScope
  root := by
    rw [Scope.resolve_rootAlias]
    exact root_levelScope
  joined before path after name hname hnames hlast hfirst := by
    have hbefore : before.find? (·.getLast? = some name) = none :=
      List.find?_eq_none.mpr fun other hother => by simpa using hfirst other hother
    rw [resolve_levelScope hname, hnames, List.find?_append, hbefore, Option.none_or,
      List.find?_cons, decide_eq_true hlast]
    rfl
  unchanged name hname hnone := by
    have hfind : t.names.find? (·.getLast? = some name) = none :=
      List.find?_eq_none.mpr fun path hpath => by simpa using hnone path hpath
    rw [resolve_levelScope hname, hfind]
    rfl
  column _ _ _ := by
    unfold Expr.fragment
    rfl
  everywhere style e := (e.fragment_requalify style _).symm

end Query

/-- The qualifiers of a level are resolved in its own scope, whatever the aliases of the other
levels are. In the text of a statement each condition is read in the scope of its level, and the
select list and whatever is done to the rows in that of the own level. -/
theorem Reached.readsLevels {schema : Schema} {rs : ResultSet} {plan : Plan ResultSet}
    (reached : Reached schema rs) (tables : ¬rs.query.ReadsRaw)
    (planned : rs.query.plan = .ok plan) :
    ∃ aliasOf, rs.query.WellPlanned aliasOf plan ∧
      (plan.allLevels rs.query.conditions).length = rs.query.levelSpecs.length ∧
      (∀ level t conditions, rs.query.levelSpecs[level]? = some (t, conditions) →
        ∃ scope, (plan.allLevels rs.query.conditions)[level]? = some ⟨scope, conditions⟩ ∧
          rs.query.ReadsLevel aliasOf level t scope) ∧
      (∀ c, rs.compiled.clauses = .ok c → c.plan.scope = plan.scope ∧
        c.conditions rs.compiled = (plan.allLevels rs.query.conditions).flatMap fun l =>
          l.conditions.map (·, l.scope)) ∧
      ∀ shape p, rs.prepare shape = .ok p → ∃ c, rs.compiled.clauses = .ok c ∧
        c.ReadsRows rs.compiled plan.scope ∧
        c.Meets rs.compiled shape ((plan.allLevels rs.query.conditions).flatMap fun l =>
          l.conditions.map (·, l.scope)) p.statement := by
  obtain ⟨aliasOf, hplan⟩ := reached.coherent.exists_wellPlanned tables planned
  have hlevels := hplan.getElem?_allLevels
  have hconditions : ∀ c, rs.compiled.clauses = .ok c → c.plan.scope = plan.scope ∧
      c.conditions rs.compiled = (plan.allLevels rs.query.conditions).flatMap fun l =>
        l.conditions.map (·, l.scope) := by
    intro c hc
    have hcompiled := (Query.clauses_eq_ok.mp hc).2.1
    rw [ResultSet.compiled, Query.plan_map, planned] at hcompiled
    rw [Clauses.conditions, ← Except.ok.inj hcompiled]
    exact ⟨rfl, Plan.conditions_eq plan _⟩
  refine ⟨aliasOf, hplan, ?_, ?_, hconditions, ?_⟩
  · unfold Plan.allLevels Query.levelSpecs
    rw [List.length_cons, hplan.levels, length_rootLevels, List.length_cons, List.length_map]
  · intro level t conditions spec
    refine ⟨_, ?_, hplan.readsLevel spec⟩
    rw [hlevels, spec]
    rfl
  · intro shape p hp
    obtain ⟨c, hc, rfl⟩ := ResultSet.prepare_eq_ok.mp hp
    obtain ⟨hscope, hmet⟩ := hconditions c hc
    rw [← hscope, ← hmet]
    exact ⟨c, hc, c.readsRows rs.compiled, c.meets_conditions rs.compiled shape⟩

namespace Library

def comparedBooks : ResultSet :=
  ⟨{ schema := schema
     source := book
     conditions := [.eq (.col "pupils.name") (.col "title")]
     attrs := { join := .ofPaths ["writer.pupils"] }
     previous := [⟨author, booksOfAuthor, [.isNull (.col "pupils.name") false],
       .ofPaths ["pupils", "books.writer"], none⟩] }⟩

theorem reached_comparedBooks : Reached schema comparedBooks := by
  have hall : schema.resultSet "Author" = .ok (ResultSet.ofSource schema author) := rfl
  have hbuilt (paths : List String) :
      ∀ a ∈ some { join := JoinTree.ofPaths paths : Attributes ResultSet }, a.join.Built := by
    intro a ha
    cases ha
    exact JoinTree.built_ofPaths paths
  have hauthors : Reached schema ((ResultSet.ofSource schema author).search
      (some (.isNull (.col "pupils.name") false))
      (some { join := .ofPaths ["pupils", "books.writer"] })) := .search _ _ (hbuilt _) (.all hall)
  exact .related "books" (some (.eq (.col "pupils.name") (.col "title")))
    (some { join := .ofPaths ["writer.pupils"] }) (hbuilt _) hauthors rfl

theorem aliases_comparedBooks {aliasOf : JoinSite → String} {plan : Plan ResultSet}
    (planned : comparedBooks.query.plan = .ok plan)
    (h : comparedBooks.query.WellPlanned aliasOf plan) :
    aliasOf ⟨0, ["writer", "pupils"]⟩ = "pupils" ∧ aliasOf ⟨1, []⟩ = "author" ∧
      aliasOf ⟨1, ["pupils"]⟩ = "pupils_2" := by
  obtain ⟨plan', hplan', hnames⟩ : ∃ plan, comparedBooks.query.plan = .ok plan ∧
      plan.joins.map (·.name) = ["writer", "pupils", "author", "pupils_2", "books", "writer_2"] :=
    ⟨_, rfl, rfl⟩
  have hsites : comparedBooks.query.sites = [⟨0, ["writer"]⟩, ⟨0, ["writer", "pupils"]⟩, ⟨1, []⟩,
    ⟨1, ["pupils"]⟩, ⟨1, ["books"]⟩, ⟨1, ["books", "writer"]⟩] := rfl
  have haliases := h.names
  rw [Except.ok.inj (planned.symm.trans hplan'), hnames, hsites] at haliases
  obtain ⟨_, hpupils, hauthor, hpupils', _, _⟩ : "writer" = aliasOf ⟨0, ["writer"]⟩ ∧
      "pupils" = aliasOf ⟨0, ["writer", "pupils"]⟩ ∧ "author" = aliasOf ⟨1, []⟩ ∧
      "pupils_2" = aliasOf ⟨1, ["pupils"]⟩ ∧ "books" = aliasOf ⟨1, ["books"]⟩ ∧
      "writer_2" = aliasOf ⟨1, ["books", "writer"]⟩ := by
    simpa using haliases
  exact ⟨hpupils.symm, hauthor.symm, hpupils'.symm⟩

theorem whereText_comparedBooks {own previous : Scope} (unqualified : own.resolve none = rootAlias)
    (pupils : own.resolve (some "pupils") = "pupils")
    (others : previous.resolve (some "pupils") = "pupils_2") :
    whereText {} 0 [(.eq (.col "pupils.name") (.col "title"), own),
      (.isNull (.col "pupils.name") false, previous)] =
      " WHERE pupils.name = me.title AND pupils_2.name IS NULL" := by
  have hfirst : (Expr.eq (.col "pupils.name") (.col "title")).fragment {} own =
      ofText (Style.qualified {} (own.resolve (some "pupils")) "name") ++ ofText " = " ++
        ofText (Style.qualified {} (own.resolve none) "title") := rfl
  have hsecond : (Expr.isNull (.col "pupils.name") false).fragment {} previous =
      ofText (Style.qualified {} (previous.resolve (some "pupils")) "name") ++
        ofText " IS NULL" := rfl
  change " WHERE " ++ String.intercalate " AND "
    [((Expr.eq (.col "pupils.name") (.col "title")).fragment {} own).sql 0,
      ((Expr.isNull (.col "pupils.name") false).fragment {} previous).sql 0] = _
  rw [hfirst, hsecond, pupils, unqualified, others]
  rfl

/-- Pupils are joined to the writers of the books, and again to the authors of the previous root. -/
theorem readsLevels_comparedBooks : ∃ plan own previous p c,
    comparedBooks.query.plan = .ok plan ∧
    plan.allLevels comparedBooks.query.conditions =
      [⟨own, [.eq (.col "pupils.name") (.col "title")]⟩,
        ⟨previous, [.isNull (.col "pupils.name") false]⟩] ∧
    (Expr.column (some "pupils") "name").fragment {} own = ofText "pupils.name" ∧
    (Expr.column (some "pupils") "name").fragment {} previous = ofText "pupils_2.name" ∧
    (Expr.column (some "me") "name").fragment {} previous = ofText "author.name" ∧
    (Expr.column (some "editors") "name").fragment {} previous = ofText "editors.name" ∧
    comparedBooks.prepare {} = .ok p ∧ comparedBooks.compiled.clauses = .ok c ∧
    c.ReadsRows comparedBooks.compiled own ∧
    c.Meets comparedBooks.compiled {} [(.eq (.col "pupils.name") (.col "title"), own),
      (.isNull (.col "pupils.name") false, previous)] p.statement ∧
    whereText {} 0 [(.eq (.col "pupils.name") (.col "title"), own),
      (.isNull (.col "pupils.name") false, previous)] =
      " WHERE pupils.name = me.title AND pupils_2.name IS NULL" := by
  have htables : ¬comparedBooks.query.ReadsRaw := by
    rintro ⟨sql, values, h⟩
    cases h
  obtain ⟨plan, planned⟩ : ∃ plan, comparedBooks.query.plan = .ok plan := ⟨_, rfl⟩
  obtain ⟨p, hp⟩ : ∃ p, comparedBooks.prepare {} = .ok p := ⟨_, rfl⟩
  obtain ⟨aliasOf, hplan, hlength, hlevels, _, htexts⟩ :=
    reached_comparedBooks.readsLevels htables planned
  obtain ⟨own, hown, hreads⟩ := hlevels 0 (.ofPaths ["writer.pupils"]) _ rfl
  obtain ⟨previous, hprevious, hreads'⟩ := hlevels 1 (.ofPaths ["pupils", "books.writer"]) _ rfl
  obtain ⟨first, second, hboth⟩ := List.length_eq_two.mp hlength
  rw [hboth] at hown hprevious
  cases hown
  cases hprevious
  obtain ⟨c, hc, hrows, hmeets⟩ := htexts {} p hp
  have hscope : plan.scope = own := congrArg Level.scope (List.cons.inj hboth).1
  rw [hboth] at hmeets
  rw [hscope] at hrows
  obtain ⟨hpupils, hauthor, hpupils'⟩ := aliases_comparedBooks planned hplan
  have hfirst := hreads.joined [["writer"]] ["writer", "pupils"] [] "pupils" (by decide) rfl rfl
    (by decide)
  have hsecond := hreads'.joined [] ["pupils"] [["books"], ["books", "writer"]] "pupils" (by decide)
    rfl rfl (by decide)
  have hpaths : (JoinTree.ofPaths ["pupils", "books.writer"]).names =
    [["pupils"], ["books"], ["books", "writer"]] := rfl
  have hnone : ∀ path ∈ (JoinTree.ofPaths ["pupils", "books.writer"]).names,
      path.getLast? ≠ some "editors" := by
    rw [hpaths]
    decide
  refine ⟨plan, own, previous, p, c, planned, hboth, ?_, ?_, ?_, ?_, hp, hc, hrows, hmeets,
    whereText_comparedBooks (hreads.unqualified.trans hplan.top) (hfirst.trans hpupils)
      (hsecond.trans hpupils')⟩
  · rw [hreads.column, hfirst, hpupils]
    rfl
  · rw [hreads'.column, hsecond, hpupils']
    rfl
  · rw [hreads'.column, show some "me" = some rootAlias from rfl, hreads'.root, hauthor]
    rfl
  · rw [hreads'.column, hreads'.unchanged "editors" (by decide) hnone]
    rfl

end Library

end RelQuery
