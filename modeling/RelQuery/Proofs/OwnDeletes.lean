import RelQuery.Proofs.CascadePlans

/-!
# The delete of the set itself

A cascading delete ends with the delete of the set. It reads the keys of the set through the joins
of the set, after the rows that depend on the set are gone. A table in its JOIN list that a
cascading walk leads to is emptied of those rows by then.
-/

namespace RelQuery

set_option autoImplicit false

variable {σ : Type}

def JoinTarget.table? : JoinTarget σ → Option String
  | .table name => some name
  | .derived _ => none

def Plan.tables (plan : Plan σ) : List String := plan.joins.filterMap (·.target.table?)

section Lists

variable {α β γ : Type} {R : α → β → Prop} {S : β → γ → Prop}

theorem exists_forall₂ {as : List α} {cs : List γ}
    (h : List.Forall₂ (fun a c => ∃ b, R a b ∧ S b c) as cs) :
    ∃ bs, List.Forall₂ R as bs ∧ List.Forall₂ S bs cs := by
  induction h with
  | nil => exact ⟨[], .nil, .nil⟩
  | cons h _ ih =>
    obtain ⟨b, hab, hbc⟩ := h
    obtain ⟨bs, hbs, hcs⟩ := ih
    exact ⟨b :: bs, .cons hab hbs, .cons hbc hcs⟩

theorem mem_iff_of_forall₂ (unique : ∀ a b b', R a b → R a b' → b = b') {as : List α} {bs : List β}
    (h : List.Forall₂ R as bs) {b : β} : b ∈ bs ↔ ∃ a ∈ as, R a b := by
  induction h with
  | nil => simp
  | @cons a b' as bs hab _ ih =>
    rw [List.mem_cons, ih, List.exists_mem_cons_iff]
    have hfirst : b = b' ↔ R a b := by
      constructor
      · rintro rfl
        exact hab
      · exact fun h => unique a b b' h hab
    rw [hfirst]

end Lists

theorem DeleteWalk.unique {schema : Schema} (distinct : ∀ s ∈ schema.sources, s.Distinct)
    {s t u : Source} {w : List Edge} (hs : s.Distinct) (h : DeleteWalk schema s w t)
    (h' : DeleteWalk schema s w u) : t = u := by
  induction h with
  | nil =>
    cases h'
    rfl
  | cons first _ ih =>
    exact ih (distinct _ (Schema.mem_of_source first.found)) ((cons_iff hs first).mp h')

/-- What a cascading delete does before it deletes the set itself, through the joins of `plan`: it
deletes from `targets`, the sources that cascading walks lead to. -/
structure OwnDelete (schema : Schema) (rs : ResultSet) (plan : Plan ResultSet)
    (targets : List Source) (earlier : List Statement) (own : Statement) : Prop where
  planned : rs.query.plan = .ok plan
  own : rs.DeletedThrough plan own
  earlier : List.Forall₂ (Source.DeletedBy schema.config.style) targets earlier
  reached : ∀ t, t ∈ targets ↔ ∃ w, w ≠ [] ∧ CascadeWalk schema rs.query.source w t

section Plans

variable {schema : Schema} {rs : ResultSet} {walks : List (List Edge)}
  {statements : List Statement}

theorem CascadePlan.last (h : CascadePlan schema rs walks statements) :
    ∃ front earlier own, walks = front ++ [[]] ∧ statements = earlier ++ [own] ∧
      rs.deletion = .ok own ∧ List.Forall₂ (WalkStatement schema rs) front earlier := by
  obtain ⟨front, rfl⟩ := List.getLast?_eq_some_iff.mp h.root_last
  have hfront := List.forall₂_take front.length h.deletes
  have hlast := List.forall₂_drop front.length h.deletes
  rw [List.take_left] at hfront
  rw [List.drop_left] at hlast
  obtain ⟨own, rest, ⟨set, halong, _, hown⟩, hrest, hdrop⟩ := List.forall₂_cons_left_iff.mp hlast
  rw [List.forall₂_nil_left_iff.mp hrest] at hdrop
  cases halong
  refine ⟨front, _, own, rfl, ?_, hown, hfront⟩
  rw [← hdrop, List.take_append_drop]

theorem CascadePlan.exists_ownDelete (distinct : ∀ s ∈ schema.sources, s.Distinct)
    (hrs : rs.query.Coherent schema) (h : CascadePlan schema rs walks statements) :
    ∃ plan targets earlier own, statements = earlier ++ [own] ∧
      OwnDelete schema rs plan targets earlier own := by
  obtain ⟨front, earlier, own, rfl, rfl, hown, hearlier⟩ := h.last
  obtain ⟨plan, hplan, hthrough⟩ := ResultSet.deletedThrough_of_deletion hown
  obtain ⟨targets, hwalks, hdeleted⟩ :=
    exists_forall₂ (hearlier.imp fun _ _ hst => hst.deletedBy hrs)
  have hs := distinct _ (Schema.mem_of_source hrs.registered)
  have hroot : [] ∉ front := by
    intro hmem
    exact (List.nodup_append.mp h.nodup).2.2 [] hmem [] List.mem_cons_self rfl
  have hunique : ∀ w t u, DeleteWalk schema rs.query.source w t →
      DeleteWalk schema rs.query.source w u → t = u :=
    fun _ _ _ ht hu => ht.unique distinct hs hu
  refine ⟨plan, targets, earlier, own, rfl, hplan, hthrough, hdeleted, fun t => ?_⟩
  rw [mem_iff_of_forall₂ hunique hwalks]
  constructor
  · rintro ⟨w, hw, hwalk⟩
    obtain ⟨_, _, hnodup⟩ := (h.complete w).mp (List.mem_append_left _ hw)
    exact ⟨w, fun hnil => hroot (hnil ▸ hw), hwalk, hnodup⟩
  · rintro ⟨w, hne, hwalk⟩
    have hmem := (h.complete w).mpr ⟨t, hwalk⟩
    rcases List.mem_append.mp hmem with hw | hw
    · exact ⟨w, hw, hwalk.1⟩
    · exact absurd (List.mem_singleton.mp hw) hne

theorem Reached.exists_ownDelete {steps : List SchemaStep}
    (made : Schema.ofSteps steps = .ok schema) (registered : ∀ s, .source s ∈ steps → s.Distinct)
    (reached : Reached schema rs) (ok : rs.planDelete = .ok statements) :
    ∃ plan targets earlier own, statements = earlier ++ [own] ∧
      OwnDelete schema rs plan targets earlier own := by
  have distinct := Schema.distinct_of_ofSteps made registered
  have hrs := reached.coherent
  have budget : Budget schema rs []
      (rs.query.source.followedDeletes.length + rs.query.schema.deleteEdges) := by
    refine ⟨hrs, List.nodup_nil, List.nil_subset _, ?_⟩
    rw [hrs.schema_eq, List.length_nil, Nat.add_zero]
    exact Nat.le_add_left _ _
  obtain ⟨walks, hplanned⟩ := budget.planned distinct ok
  exact (hplanned.cascadePlan distinct hrs).exists_ownDelete distinct hrs

/-- A cascading delete deletes the rows that depend on a set first, and then selects the keys of the
set through its own joins. It joins no table that was deleted from before just if no cascading walk
leads from the set to a table that the set joins. -/
theorem Reached.ownDelete {steps : List SchemaStep} (made : Schema.ofSteps steps = .ok schema)
    (registered : ∀ s, .source s ∈ steps → s.Distinct) (reached : Reached schema rs)
    (ok : rs.planDelete = .ok statements) :
    ∃ plan targets earlier own, statements = earlier ++ [own] ∧
      OwnDelete schema rs plan targets earlier own ∧
      ((∀ t ∈ targets, t.table ∉ plan.tables) ↔
        ∀ w t, w ≠ [] → CascadeWalk schema rs.query.source w t → t.table ∉ plan.tables) := by
  obtain ⟨plan, targets, earlier, own, hlast, h⟩ := reached.exists_ownDelete made registered ok
  refine ⟨plan, targets, earlier, own, hlast, h, ?_⟩
  constructor
  · intro hfree w t hne hwalk
    exact hfree t ((h.reached t).mpr ⟨w, hne, hwalk⟩)
  · intro hfree t ht
    obtain ⟨w, hne, hwalk⟩ := (h.reached t).mp ht
    exact hfree w t hne hwalk

end Plans

namespace Library

def profileSteps : List SchemaStep :=
  [.source ⟨"Author", "authors", none, ["id", "name"], ["id"], []⟩,
    .source ⟨"Profile", "profiles", none, ["id", "author"], ["id"], []⟩,
    .relate "Author"
      { kind := .hasOne, name := "profile", target := "Profile", condition := .column "author" }]

def profileOfAuthor : Relationship :=
  ⟨"profile", .hasOne, "Profile", .pairs [⟨"author", "id"⟩], .single, .inner, true, true, false,
    false⟩

def profiledAuthor : Source :=
  ⟨"Author", "authors", none, ["id", "name"], ["id"], [profileOfAuthor]⟩

def profile : Source := ⟨"Profile", "profiles", none, ["id", "author"], ["id"], []⟩

def profileSchema : Schema := ⟨{}, [profiledAuthor, profile]⟩

def namesakes : ResultSet :=
  (ResultSet.ofSource profileSchema profiledAuthor).search
    (some ((Expr.col "name").eq (.literal (.text "x")))) (some { join := .ofPaths ["profile"] })

theorem made_profileSchema : Schema.ofSteps profileSteps = .ok profileSchema := rfl

theorem reached_namesakes : Reached profileSchema namesakes := by
  refine .search _ _ ?_ (.all (show profileSchema.resultSet "Author" = .ok _ from rfl))
  intro a ha
  cases ha
  exact JoinTree.built_ofPaths _

theorem distinct_profileSteps : ∀ s, .source s ∈ profileSteps → s.Distinct := by
  intro s hs
  simp only [profileSteps, List.mem_cons, List.not_mem_nil, SchemaStep.source.injEq, reduceCtorEq,
    or_false] at hs
  rcases hs with rfl | rfl
  · exact List.nodup_nil
  · exact List.nodup_nil

end Library

theorem ownDelete_namesakes : ∃ statements plan targets earlier own,
    Library.namesakes.planDelete = .ok statements ∧ statements = earlier ++ [own] ∧
      OwnDelete Library.profileSchema Library.namesakes plan targets earlier own ∧
      ((∀ t ∈ targets, t.table ∉ plan.tables) ↔
        ∀ w t, w ≠ [] → CascadeWalk Library.profileSchema Library.profiledAuthor w t →
          t.table ∉ plan.tables) := by
  obtain ⟨statements, hok⟩ : ∃ statements, Library.namesakes.planDelete = .ok statements :=
    ⟨_, rfl⟩
  obtain ⟨plan, targets, earlier, own, h⟩ := Library.reached_namesakes.ownDelete
    Library.made_profileSchema Library.distinct_profileSteps hok
  exact ⟨statements, plan, targets, earlier, own, hok, h⟩

/-- The authors are selected through their profiles, which have been deleted by then. -/
theorem namesakes_joins_deleted : ∃ plan targets earlier own,
    Library.namesakes.planDelete = .ok (earlier ++ [own]) ∧
      OwnDelete Library.profileSchema Library.namesakes plan targets earlier own ∧
      Library.profile ∈ targets ∧ Library.profile.table ∈ plan.tables := by
  obtain ⟨statements, hok⟩ : ∃ statements, Library.namesakes.planDelete = .ok statements :=
    ⟨_, rfl⟩
  obtain ⟨plan, targets, earlier, own, rfl, h⟩ := Library.reached_namesakes.exists_ownDelete
    Library.made_profileSchema Library.distinct_profileSteps hok
  have hjoined : Library.namesakes.query.plan.map Plan.tables = .ok ["profiles"] := rfl
  have htables : plan.tables = ["profiles"] := by
    rw [h.planned] at hjoined
    exact Except.ok.inj hjoined
  have hcascade : Cascade Library.profileSchema Library.profiledAuthor Library.profileOfAuthor
      Library.profile := ⟨List.mem_cons_self, rfl, rfl, rfl⟩
  refine ⟨plan, targets, earlier, own, hok, h, ?_, ?_⟩
  · exact (h.reached _).mpr ⟨_, List.cons_ne_nil _ _, .cons hcascade .nil, List.nodup_singleton _⟩
  · rw [htables]
    exact List.mem_cons_self

end RelQuery
