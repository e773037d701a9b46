import RelQuery.Proofs.JoinTrees
import RelQuery.Proofs.SchemaSteps
import RelQuery.ResultSet.Execution

/-!
# Merging attributes

Attributes that are merged one after another are merged in one go, so that searching twice is the
same as searching once for both. Unions of join trees keep the order in which names came first, for
which the siblings of a tree must have different names.
-/

namespace RelQuery

set_option autoImplicit false

namespace JoinTree

variable {a b c t u v : JoinTree} {f g : JoinTree → JoinTree} {name other : String}

theorem update_update (t u : JoinTree) (f g : JoinTree → JoinTree) (name : String) :
    (t.update name g u).update name f c = t.update name (f ∘ g) (f u) := by
  induction t with
  | none => simp [update]
  | join top below rest _ ih =>
    by_cases htop : top = name
    · simp only [update, if_pos htop, Function.comp]
    · simp only [update, if_neg htop, ih]

theorem update_comm (hne : name ≠ other) (hname : name ∈ t.tops) :
    (t.update other g v).update name f u = (t.update name f u).update other g v := by
  induction t with
  | none => exact absurd hname List.not_mem_nil
  | join top below rest _ ih =>
    by_cases htop : top = name
    · have hother : top ≠ other := by rwa [htop]
      simp only [update, if_pos htop, if_neg hother]
    · have hrest : name ∈ rest.tops := (List.mem_cons.mp hname).resolve_left (Ne.symm htop)
      by_cases hother : top = other
      · simp only [update, if_pos hother, if_neg htop]
      · simp only [update, if_neg htop, if_neg hother, ih hrest]

theorem update_merge_of_not_mem (hname : name ∈ t.tops) (hnew : name ∉ b.tops) :
    (t.merge b).update name f u = (t.update name f u).merge b := by
  induction b generalizing t with
  | none => rfl
  | join top below rest _ ih =>
    obtain ⟨hne, hrest⟩ := List.ne_and_not_mem_of_not_mem_cons hnew
    rw [merge, merge, ih (mem_tops_update.mpr (.inr hname)) hrest, update_comm hne hname]

/-- What is added below a relationship of a union may as well be added in the second tree. -/
theorem merge_update (a : JoinTree) (name : String) (hb : b.Distinct)
    (assoc : ∀ x y : JoinTree, y.Distinct → (x.merge y).merge u = x.merge (y.merge u)) :
    (a.merge b).update name (merge · u) u = a.merge (b.update name (merge · u) u) := by
  induction b generalizing a with
  | none => rfl
  | join top below rest _ ih =>
    obtain ⟨htop, hbelow, hrest⟩ := hb
    by_cases heq : top = name
    · subst heq
      have hcomp : (merge · u) ∘ (merge · below) = (merge · (below.merge u)) :=
        funext fun x => assoc x below hbelow
      have hmem : top ∈ (a.update top (merge · below) below).tops := mem_tops_update.mpr (.inl rfl)
      rw [update, if_pos rfl, merge, merge, update_merge_of_not_mem hmem htop, update_update, hcomp]
    · rw [update, if_neg heq, merge, merge, ih _ hrest]

theorem merge_assoc (hb : b.Distinct) (hc : c.Distinct) :
    (a.merge b).merge c = a.merge (b.merge c) := by
  induction c generalizing a b with
  | none => rfl
  | join name below rest ihbelow ihrest =>
    obtain ⟨_, hbelow, hrest⟩ := hc
    have hstep := merge_update a name hb fun _ _ hy => ihbelow hy hbelow
    have hupdate : (b.update name (merge · below) below).Distinct :=
      distinct_update hb (fun _ hx => distinct_merge hx hbelow) hbelow
    rw [merge, merge.eq_2 b, hstep, ihrest hupdate hrest]

end JoinTree

namespace Attributes

variable {σ : Type} {a b c : Attributes σ}

/-- A selection takes the place of the old one, `plus` lists included. -/
theorem merge_of_selects (h : b.selects = true) : a.merge b =
    { b with
      join := a.join.merge b.join
      orderBy := b.orderBy.or a.orderBy
      groupBy := b.groupBy.or a.groupBy
      having := b.having.or a.having
      limit := b.limit.or a.limit
      offset := b.offset.or a.offset
      rows := b.rows.or a.rows
      page := b.page.or a.page
      distinct := b.distinct.or a.distinct
      origin := b.origin.or a.origin } := by
  unfold merge
  rw [if_pos h]
  rfl

theorem merge_of_not_selects (h : b.selects = false) : a.merge b =
    { a with
      plusColumns := a.plusColumns ++ b.plusColumns
      plusSelect := a.plusSelect ++ b.plusSelect
      plusAs := a.plusAs ++ b.plusAs
      join := a.join.merge b.join
      orderBy := b.orderBy.or a.orderBy
      groupBy := b.groupBy.or a.groupBy
      having := b.having.or a.having
      limit := b.limit.or a.limit
      offset := b.offset.or a.offset
      rows := b.rows.or a.rows
      page := b.page.or a.page
      distinct := b.distinct.or a.distinct
      origin := b.origin.or a.origin } := by
  unfold merge
  rw [h]
  rfl

theorem selects_merge (a b : Attributes σ) : (a.merge b).selects = (b.selects || a.selects) := by
  cases h : b.selects with
  | true =>
    rw [merge_of_selects h]
    exact h
  | false =>
    rw [merge_of_not_selects h]
    rfl

theorem merge_assoc (hb : b.join.Distinct) (hc : c.join.Distinct) :
    (a.merge b).merge c = a.merge (b.merge c) := by
  have hjoin : (a.join.merge b.join).merge c.join = a.join.merge (b.join.merge c.join) :=
    JoinTree.merge_assoc hb hc
  have hselects := selects_merge b c
  cases hcs : c.selects with
  | true =>
    rw [hcs, Bool.true_or] at hselects
    rw [merge_of_selects hselects, merge_of_selects hcs, merge_of_selects hcs]
    cases hbs : b.selects with
    | true => simp only [merge_of_selects hbs, hjoin, Option.or_assoc]
    | false => simp only [merge_of_not_selects hbs, hjoin, Option.or_assoc]
  | false =>
    rw [hcs, Bool.false_or] at hselects
    rw [merge_of_not_selects hcs]
    cases hbs : b.selects with
    | true =>
      rw [hbs] at hselects
      rw [merge_of_selects hselects, merge_of_selects hbs, merge_of_not_selects hcs]
      simp only [hjoin, Option.or_assoc]
    | false =>
      rw [hbs] at hselects
      rw [merge_of_not_selects hselects, merge_of_not_selects hbs, merge_of_not_selects hcs]
      simp only [hjoin, Option.or_assoc, List.append_assoc]

end Attributes

theorem Query.search_search_eq {σ : Type} (q : Query σ) (c₁ c₂ : Option Expr)
    {a₁ a₂ : Option (Attributes σ)} (h₁ : ∀ a ∈ a₁, a.join.Distinct)
    (h₂ : ∀ a ∈ a₂, a.join.Distinct) :
    (q.search c₁ a₁).search c₂ a₂ =
      q.search (Option.merge Expr.and c₁ c₂) (Option.merge Attributes.merge a₁ a₂) := by
  have hconditions : q.conditions ++ (c₁.map Expr.conjuncts).getD [] ++
      (c₂.map Expr.conjuncts).getD [] =
        q.conditions ++ ((Option.merge Expr.and c₁ c₂).map Expr.conjuncts).getD [] := by
    cases c₁ <;> cases c₂ <;> simp
  have hattrs : ((q.search c₁ a₁).search c₂ a₂).attrs =
      (q.search (Option.merge Expr.and c₁ c₂) (Option.merge Attributes.merge a₁ a₂)).attrs := by
    cases a₁ with
    | none => cases a₂ <;> rfl
    | some a =>
      cases a₂ with
      | none => rfl
      | some b => exact Attributes.merge_assoc (h₁ a rfl) (h₂ b rfl)
  unfold search at hattrs ⊢
  rw [Query.mk.injEq]
  exact ⟨rfl, rfl, hconditions, hattrs, rfl⟩

/-- Two sets that hold the same and that no operation tells apart. -/
structure ResultSet.Interchangeable (a b : ResultSet) : Prop where
  conditions : a.query.conditions = b.query.conditions
  attrs : a.query.attrs = b.query.attrs
  compile : a.compile = b.compile
  countQuery : a.countQuery = b.countQuery
  count : ∀ (σ : Type) (storage : Storage σ), a.count storage = b.count storage
  first : ∀ (σ α : Type) [Inflate α] (storage : Storage σ),
    (a.first storage : StateM σ (Guarded (Option α))) = b.first storage
  deleteStatements : a.deleteStatements = b.deleteStatements

/-- Searching twice is the same as searching once for both conditions with the merged attributes,
and attributes can be merged in any grouping. -/
theorem ResultSet.search_search (rs : ResultSet) (c₁ c₂ : Option Expr)
    (a₁ a₂ : Option (Attributes ResultSet)) (built₁ : ∀ a ∈ a₁, a.join.Built)
    (built₂ : ∀ a ∈ a₂, a.join.Built) :
    ((rs.search c₁ a₁).search c₂ a₂).Interchangeable
        (rs.search (Option.merge Expr.and c₁ c₂) (Option.merge Attributes.merge a₁ a₂)) ∧
      ∀ a b c : Attributes ResultSet, a.join.Built → b.join.Built → c.join.Built →
        (a.merge b).merge c = a.merge (b.merge c) := by
  constructor
  · have hquery := rs.query.search_search_eq c₁ c₂ (fun a ha => (built₁ a ha).distinct)
      (fun a ha => (built₂ a ha).distinct)
    have heq : (rs.search c₁ a₁).search c₂ a₂ =
        rs.search (Option.merge Expr.and c₁ c₂) (Option.merge Attributes.merge a₁ a₂) :=
      congrArg ResultSet.mk hquery
    rw [heq]
    exact ⟨rfl, rfl, rfl, rfl, fun _ _ => rfl, fun _ _ _ _ => rfl, rfl⟩
  · exact fun a b c _ hb hc => Attributes.merge_assoc hb.distinct hc.distinct

namespace Library

def withTitles : Attributes ResultSet :=
  { plusColumns := ["books.title"], join := .ofPaths ["books"] }

def threeNames : Attributes ResultSet :=
  { columns := some ["name"], join := .ofPaths ["pupils", "books.writer"], limit := some 3 }

end Library

theorem search_search_threeNames :
    Library.withTitles.join.Built ∧ Library.threeNames.join.Built ∧
      (((ResultSet.ofSource Library.schema Library.author).search
          (some (.like (.col "name") "A%" false false)) (some Library.withTitles)).search
          (some (.isNull (.col "mentor") false)) (some Library.threeNames)).Interchangeable
        ((ResultSet.ofSource Library.schema Library.author).search
          (some (.and (.like (.col "name") "A%" false false) (.isNull (.col "mentor") false)))
          (some (Library.withTitles.merge Library.threeNames))) := by
  have h₁ : Library.withTitles.join.Built := JoinTree.built_ofPaths _
  have h₂ : Library.threeNames.join.Built := JoinTree.built_ofPaths _
  refine ⟨h₁, h₂, ?_⟩
  exact (ResultSet.search_search _ _ _ (some Library.withTitles) (some Library.threeNames)
    (fun _ ha => Option.some.inj ha ▸ h₁) (fun _ ha => Option.some.inj ha ▸ h₂)).1

end RelQuery
