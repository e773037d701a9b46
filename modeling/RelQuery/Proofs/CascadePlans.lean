import RelQuery.Proofs.DeletePlans
import RelQuery.Proofs.Deletions

/-!
# The order of a cascading delete

The statements of a delete plan belong to the walks that follow no relationship twice: each such
walk has one statement, that of the set it leads to, and the order of the statements is the order of
the walks.
-/

namespace RelQuery

set_option autoImplicit false

/-- The sets that a delete comes to along walks from a set. -/
inductive Along : ResultSet → List Edge → ResultSet → Prop where
  | nil {rs : ResultSet} : Along rs [] rs
  | cons {rs next set : ResultSet} {r : Relationship} {w : List Edge}
    (found : rs.related r.name = .ok next) (rest : Along next w set) :
    Along rs (rs.query.source.edge r :: w) set

/-- The statement of a walk: the delete of the set that the walk leads to. -/
def WalkStatement (schema : Schema) (rs : ResultSet) (w : List Edge) (st : Statement) : Prop :=
  ∃ set, Along rs w set ∧ DeleteWalk schema rs.query.source w set.query.source ∧
    set.deletion = .ok st

structure Planned (schema : Schema) (walked : List Edge) (rs : ResultSet) (walks : List (List Edge))
    (statements : List Statement) : Prop where
  complete : ∀ w, w ∈ walks ↔
    (∃ t, DeleteWalk schema rs.query.source w t) ∧ (walked ++ w).Nodup
  ordered : walks.Pairwise (WalkBefore schema rs.query.source)
  deletes : List.Forall₂ (WalkStatement schema rs) walks statements

/-- The part of a plan along some of the relationships of a set. -/
structure Branches (schema : Schema) (walked : List Edge) (rs : ResultSet)
    (rels : List Relationship) (walks : List (List Edge)) (statements : List Statement) :
    Prop where
  complete : ∀ w, w ∈ walks ↔ (∃ r ∈ rels, ∃ v, w = rs.query.source.edge r :: v) ∧
    (∃ t, DeleteWalk schema rs.query.source w t) ∧ (walked ++ w).Nodup
  ordered : walks.Pairwise (WalkBefore schema rs.query.source)
  deletes : List.Forall₂ (WalkStatement schema rs) walks statements

section Steps

variable {schema : Schema} {rs next : ResultSet} {walked : List Edge} {walks : List (List Edge)}
  {statements : List Statement} {r : Relationship} {rels : List Relationship}

theorem ResultSet.cascade_of_related (h : rs.query.Coherent schema)
    (hs : rs.query.source.Distinct) (hr : r ∈ rs.openDeletes walked)
    (found : rs.related r.name = .ok next) :
    Cascade schema rs.query.source r next.query.source := by
  obtain ⟨hfollowed, _⟩ := ResultSet.mem_openDeletes.mp hr
  obtain ⟨hdeclared, hcascades, hdeclarative⟩ := Source.mem_followedDeletes.mp hfollowed
  obtain ⟨q, target, previous, hq, htarget, _, rfl⟩ := ResultSet.related_eq_ok.mp found
  rw [Source.relationship?_of_mem hs hdeclared] at hq
  cases hq
  rw [h.schema_eq] at htarget
  exact ⟨hdeclared, hcascades, hdeclarative, htarget⟩

theorem WalkStatement.behind (first : Cascade schema rs.query.source r next.query.source)
    (found : rs.related r.name = .ok next) {w : List Edge} {st : Statement}
    (h : WalkStatement schema next w st) :
    WalkStatement schema rs (rs.query.source.edge r :: w) st := by
  obtain ⟨set, halong, hwalk, hst⟩ := h
  exact ⟨set, .cons found halong, .cons first hwalk, hst⟩

namespace Branches

theorem nil : Branches schema walked rs [] [] [] := by
  refine ⟨?_, .nil, .nil⟩
  intro w
  simp

theorem cons (hs : rs.query.source.Distinct)
    (first : Cascade schema rs.query.source r next.query.source)
    (found : rs.related r.name = .ok next)
    (declared : (r :: rels).Sublist rs.query.source.relationships) {blockWalks : List (List Edge)}
    {block : List Statement}
    (planned : Planned schema (walked ++ [rs.query.source.edge r]) next blockWalks block)
    (rest : Branches schema walked rs rels walks statements) :
    Branches schema walked rs (r :: rels)
      (blockWalks.map (rs.query.source.edge r :: ·) ++ walks) (block ++ statements) := by
  have hblock : ∀ v, v ∈ blockWalks ↔
      (∃ t, DeleteWalk schema rs.query.source (rs.query.source.edge r :: v) t) ∧
        (walked ++ rs.query.source.edge r :: v).Nodup := by
    intro v
    rw [planned.complete, List.append_assoc]
    simp only [DeleteWalk.cons_iff hs first, List.singleton_append]
  refine ⟨?_, ?_, ?_⟩
  · intro w
    rw [List.mem_append, List.mem_map, rest.complete]
    constructor
    · rintro (⟨v, hv, rfl⟩ | ⟨⟨r', hr', v, rfl⟩, hwalk⟩)
      · exact ⟨⟨r, List.mem_cons_self, v, rfl⟩, (hblock v).mp hv⟩
      · exact ⟨⟨r', List.mem_cons_of_mem r hr', v, rfl⟩, hwalk⟩
    · rintro ⟨⟨r', hr', v, rfl⟩, hwalk⟩
      rcases List.mem_cons.mp hr' with rfl | hr'
      · exact .inl ⟨v, (hblock v).mpr hwalk, rfl⟩
      · exact .inr ⟨⟨r', hr', v, rfl⟩, hwalk⟩
  · rw [List.pairwise_append]
    refine ⟨planned.ordered.map _ fun _ _ => .behind first, rest.ordered, ?_⟩
    intro v hv w hw
    obtain ⟨v, _, rfl⟩ := List.mem_map.mp hv
    obtain ⟨⟨r', hr', w, rfl⟩, _⟩ := (rest.complete w).mp hw
    have hpair : [r, r'].Sublist (r :: rels) := (List.singleton_sublist.mpr hr').cons_cons r
    exact .sibling (hpair.trans declared)
  · have hmap := List.forall₂_map_left_iff.mpr
      (planned.deletes.imp fun _ _ h => WalkStatement.behind first found h)
    exact List.rel_append hmap rest.deletes

theorem planned (h : Branches schema walked rs (rs.openDeletes walked) walks statements)
    (nodup : walked.Nodup) {own : Statement} (deletion : rs.deletion = .ok own) :
    Planned schema walked rs (walks ++ [[]]) (statements ++ [own]) := by
  refine ⟨?_, ?_, ?_⟩
  · intro w
    rw [List.mem_append, h.complete, List.mem_singleton]
    constructor
    · rintro (⟨_, hwalk⟩ | rfl)
      · exact hwalk
      · exact ⟨⟨_, .nil⟩, by rwa [List.append_nil]⟩
    · rintro ⟨⟨t, hwalk⟩, hnodup⟩
      cases w with
      | nil => exact .inr rfl
      | cons e v =>
        obtain ⟨r, next, rfl, first, _⟩ := hwalk.cons_inv
        have hopen : r ∈ rs.openDeletes walked := by
          refine ResultSet.mem_openDeletes.mpr ⟨Source.mem_followedDeletes.mpr
            ⟨first.declared, first.cascades, first.declarative⟩, ?_⟩
          intro hmem
          exact (List.nodup_append.mp hnodup).2.2 _ hmem _ List.mem_cons_self rfl
        exact .inl ⟨⟨r, hopen, v, rfl⟩, ⟨t, hwalk⟩, hnodup⟩
  · rw [List.pairwise_append]
    refine ⟨h.ordered, List.pairwise_singleton _ _, ?_⟩
    intro v hv w hw
    obtain ⟨⟨r, _, v, rfl⟩, _⟩ := (h.complete v).mp hv
    rw [List.mem_singleton.mp hw]
    exact .extension
  · exact List.rel_append h.deletes (.cons ⟨rs, .nil, .nil, deletion⟩ .nil)

end Branches

theorem branches_of_blocks (hs : rs.query.source.Distinct)
    (declared : rels.Sublist rs.query.source.relationships) {blocks : List (List Statement)}
    (h : List.Forall₂ (fun r block => ∃ next walks,
      Cascade schema rs.query.source r next.query.source ∧ rs.related r.name = .ok next ∧
      Planned schema (walked ++ [rs.query.source.edge r]) next walks block) rels blocks) :
    ∃ walks, Branches schema walked rs rels walks blocks.flatten := by
  induction h with
  | nil => exact ⟨[], .nil⟩
  | cons hfirst _ ih =>
    obtain ⟨next, blockWalks, first, found, hplanned⟩ := hfirst
    obtain ⟨walks, hrest⟩ := ih (List.sublist_of_cons_sublist declared)
    exact ⟨_, .cons hs first found declared hplanned hrest⟩

/-- A plan that is made has a statement for every walk. -/
theorem Budget.planned {n : Nat} (distinct : ∀ s ∈ schema.sources, s.Distinct)
    (h : Budget schema rs walked n) (ok : ResultSet.deletions n walked rs = .ok statements) :
    ∃ walks, Planned schema walked rs walks statements := by
  induction n generalizing walked rs statements with
  | zero =>
    obtain ⟨own, hown, rfl⟩ := ResultSet.deletions_zero_eq_ok.mp ok
    have hnone : Branches schema walked rs (rs.openDeletes walked) [] [] := by
      rw [h.openDeletes_eq_nil]
      exact .nil
    exact ⟨_, hnone.planned h.nodup hown⟩
  | succ n ih =>
    obtain ⟨blocks, own, hblocks, hown, rfl⟩ := ResultSet.deletions_succ_eq_ok.mp ok
    have hs := distinct _ (Schema.mem_of_source h.coherent.registered)
    have hdeclared : (rs.openDeletes walked).Sublist rs.query.source.relationships :=
      List.filter_sublist.trans (List.filter_sublist.trans List.filter_sublist)
    have hplans : List.Forall₂ (fun r block => ∃ next walks,
        Cascade schema rs.query.source r next.query.source ∧ rs.related r.name = .ok next ∧
        Planned schema (walked ++ [rs.query.source.edge r]) next walks block)
        (rs.openDeletes walked) blocks := by
      refine ((List.forall₂_and_left _ _).mpr ⟨fun _ hr => hr, hblocks⟩).imp ?_
      rintro r block ⟨hr, next, found, hblock⟩
      obtain ⟨walks, hplanned⟩ := ih (h.follow hr found) hblock
      exact ⟨next, walks, ResultSet.cascade_of_related h.coherent hs hr found, found, hplanned⟩
    obtain ⟨walks, hbranches⟩ := branches_of_blocks hs hdeclared hplans
    exact ⟨_, hbranches.planned h.nodup hown⟩

end Steps

section Order

variable {α : Type} {R : α → α → Prop} {l : List α} {a b : α} {i j : Nat}

theorem index_lt_of_pairwise (ordered : l.Pairwise R) (hi : l[i]? = some a) (hj : l[j]? = some b)
    (hne : a ≠ b) (hnot : ¬R b a) : i < j := by
  rcases Nat.lt_trichotomy i j with hlt | rfl | hgt
  · exact hlt
  · rw [hi] at hj
    exact absurd (Option.some.inj hj) hne
  · obtain ⟨hlen, rfl⟩ := List.getElem?_eq_some_iff.mp hi
    obtain ⟨hlen', rfl⟩ := List.getElem?_eq_some_iff.mp hj
    exact absurd (List.pairwise_iff_getElem.mp ordered j i hlen' hlen hgt) hnot

end Order

structure CascadePlan (schema : Schema) (rs : ResultSet) (walks : List (List Edge))
    (statements : List Statement) : Prop where
  complete : ∀ w, w ∈ walks ↔ ∃ t, CascadeWalk schema rs.query.source w t
  nodup : walks.Nodup
  deletes : List.Forall₂ (WalkStatement schema rs) walks statements
  tables : List.Forall₂ (fun w st => ∃ t, DeleteWalk schema rs.query.source w t ∧
    t.DeletedBy schema.config.style st) walks statements
  dependents_first : ∀ (i j : Nat) v w, walks[i]? = some v → walks[j]? = some w → w <+: v →
    w ≠ v → i < j
  siblings : ∀ (i j : Nat) w s r₁ r₂, walks[i]? = some (w ++ [s.edge r₁]) →
    walks[j]? = some (w ++ [s.edge r₂]) → DeleteWalk schema rs.query.source w s →
    [r₁, r₂].Sublist s.relationships → i < j
  root_last : walks.getLast? = some []
  reachable : ∀ w t, DeleteWalk schema rs.query.source w t →
    ∃ v ∈ walks, DeleteWalk schema rs.query.source v t
  declarative : ∀ w ∈ walks, ∀ s, schema.source s.name = .ok s → ∀ r ∈ s.relationships,
    s.edge r ∈ w → r.cascadeDelete = true ∧ r.condition.isDeclarative = true

section Plans

variable {schema : Schema} {rs set : ResultSet} {walks : List (List Edge)}
  {statements : List Statement}

theorem Along.coherent {w : List Edge} (h : Along rs w set) (hrs : rs.query.Coherent schema) :
    set.query.Coherent schema := by
  induction h with
  | nil => exact hrs
  | cons found _ ih => exact ih (ResultSet.coherent_related hrs found)

theorem WalkStatement.deletedBy {w : List Edge} {st : Statement} (h : WalkStatement schema rs w st)
    (hrs : rs.query.Coherent schema) :
    ∃ t, DeleteWalk schema rs.query.source w t ∧ t.DeletedBy schema.config.style st := by
  obtain ⟨set, halong, hwalk, hst⟩ := h
  refine ⟨_, hwalk, ?_⟩
  obtain ⟨_, _, hdeleted⟩ := ResultSet.deletedThrough_of_deletion hst
  rw [← (halong.coherent hrs).schema_eq]
  exact hdeleted.deletedBy

theorem Planned.cascadePlan (distinct : ∀ s ∈ schema.sources, s.Distinct)
    (hrs : rs.query.Coherent schema) (h : Planned schema [] rs walks statements) :
    CascadePlan schema rs walks statements := by
  have hs := distinct _ (Schema.mem_of_source hrs.registered)
  have hcomplete : ∀ w, w ∈ walks ↔ ∃ t, CascadeWalk schema rs.query.source w t := by
    intro w
    rw [h.complete, List.nil_append, ← exists_and_right]
    rfl
  have hbefore : ∀ (i j : Nat) v w, walks[i]? = some v → walks[j]? = some w → w <+: v → w ≠ v →
      i < j := by
    intro i j v w hi hj hprefix hne
    exact index_lt_of_pairwise h.ordered hi hj hne.symm
      fun hwalks => hwalks.not_isPrefix distinct hs hprefix
  refine ⟨hcomplete, ?_, h.deletes, ?_, hbefore, ?_, ?_, ?_, ?_⟩
  · refine h.ordered.imp ?_
    rintro v _ hwalks rfl
    exact hwalks.not_isPrefix distinct hs (List.prefix_refl v)
  · exact h.deletes.imp fun _ _ hst => hst.deletedBy hrs
  · intro i j w s r₁ r₂ hi hj hwalk order
    refine index_lt_of_pairwise h.ordered hi hj ?_ (WalkBefore.not_sibling distinct hs hwalk order)
    intro heq
    have hedges := List.cons.inj (List.append_cancel_left heq)
    have hparent := distinct s (Schema.mem_of_source (hwalk.registered hrs.registered))
    exact hparent.name_ne_of_sublist order (congrArg Prod.snd hedges.1)
  · have hroot : [] ∈ walks := (hcomplete []).mpr ⟨_, .nil, List.nodup_nil⟩
    obtain ⟨front, rest, rfl⟩ := List.append_of_mem hroot
    have hrest : rest = [] := by
      apply List.eq_nil_iff_forall_not_mem.mpr
      intro w hw
      have hordered := (List.pairwise_append.mp h.ordered).2.1
      exact ((List.pairwise_cons.mp hordered).1 w hw).ne_nil rfl
    rw [hrest]
    exact List.getLast?_concat
  · intro w t hwalk
    obtain ⟨v, hv⟩ := hwalk.exists_cascadeWalk hrs.registered
    exact ⟨v, (hcomplete v).mpr ⟨t, hv⟩, hv.1⟩
  · intro w hw s hregistered r hr hedge
    obtain ⟨t, hwalk, _⟩ := (hcomplete w).mp hw
    obtain ⟨a, q, b, heq, ha, first⟩ := hwalk.cascade_of_mem hrs.registered hedge
    have hname : s.name = a.name := congrArg Prod.fst heq
    rw [hname, ha] at hregistered
    cases hregistered
    have hq := (distinct s (Schema.mem_of_source ha)).eq_of_name_eq hr first.declared
      (congrArg Prod.snd heq)
    rw [hq]
    exact ⟨first.cascades, first.declarative⟩

/-- The plan of a cascading delete is made without a bound on walks. It has one delete for every
walk that follows no relationship twice, dependents first and siblings as they are declared. -/
theorem Reached.cascades {steps : List SchemaStep} (made : Schema.ofSteps steps = .ok schema)
    (registered : ∀ s, .source s ∈ steps → s.Distinct) (reached : Reached schema rs) :
    (∀ n, schema.deleteEdges ≤ n → ResultSet.deletions n [] rs = rs.planDelete) ∧
      ∀ statements, rs.deleteStatements.outcome = .ok statements →
        (∃ walks, CascadePlan schema rs walks statements) ∨
          ∃ e, rs.planDelete = .error e ∧ rs.deleteStatements = ⟨.ok [], [e]⟩ := by
  have distinct := Schema.distinct_of_ofSteps made registered
  have hrs := reached.coherent
  have budget : ∀ n, schema.deleteEdges ≤ n → Budget schema rs [] n := by
    intro n hn
    exact ⟨hrs, List.nodup_nil, List.nil_subset _, by simpa using hn⟩
  have hplan : ∀ n, schema.deleteEdges ≤ n → ResultSet.deletions n [] rs = rs.planDelete := by
    intro n hn
    have hbound : schema.deleteEdges ≤
        rs.query.source.followedDeletes.length + rs.query.schema.deleteEdges := by
      rw [hrs.schema_eq]
      exact Nat.le_add_left _ _
    rw [(budget _ (Nat.le_refl _)).deletions_eq hn]
    exact ((budget _ (Nat.le_refl _)).deletions_eq hbound).symm
  refine ⟨hplan, ?_⟩
  intro statements hok
  unfold ResultSet.deleteStatements ResultSet.guard Schema.guard at hok ⊢
  cases hresult : rs.planDelete with
  | ok planned =>
    rw [hresult] at hok
    cases hok
    rw [← hplan _ (Nat.le_refl _)] at hresult
    obtain ⟨walks, hplanned⟩ := (budget _ (Nat.le_refl _)).planned distinct hresult
    exact .inl ⟨walks, hplanned.cascadePlan distinct hrs⟩
  | error e =>
    rw [hresult] at hok
    exact .inr ⟨e, rfl, guarded_error_eq_ok hok⟩

end Plans

namespace Library

def authors : ResultSet := ResultSet.ofSource schema author

end Library

theorem cascades_authors :
    ∃ statements walks, Library.authors.deleteStatements.outcome = .ok statements ∧
      statements.length = 4 ∧ CascadePlan Library.schema Library.authors walks statements := by
  have hmade : Schema.ofSteps Library.steps = .ok Library.schema := rfl
  have hregistered : ∀ s, .source s ∈ Library.steps → s.Distinct := by
    intro s hs
    simp only [Library.steps, List.mem_cons, List.not_mem_nil, SchemaStep.source.injEq, reduceCtorEq,
      or_false] at hs
    rcases hs with rfl | rfl
    · exact List.nodup_nil
    · exact List.nodup_nil
  have hreached : Reached Library.schema Library.authors :=
    .all (show Library.schema.resultSet "Author" = .ok Library.authors from rfl)
  obtain ⟨statements, hok, hlength⟩ : ∃ statements,
      Library.authors.deleteStatements = ⟨.ok statements, []⟩ ∧ statements.length = 4 :=
    ⟨_, rfl, rfl⟩
  have houtcome : Library.authors.deleteStatements.outcome = .ok statements := by rw [hok]
  have hcascades := (hreached.cascades hmade hregistered).2 statements houtcome
  rcases hcascades with ⟨walks, hplan⟩ | ⟨e, _, herror⟩
  · exact ⟨statements, walks, houtcome, hlength, hplan⟩
  · rw [hok] at herror
    cases herror

end RelQuery
