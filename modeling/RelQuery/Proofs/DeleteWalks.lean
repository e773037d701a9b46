import RelQuery.ResultSet.Cascade
import RelQuery.Proofs.SchemaSteps

/-!
# Walks of cascading deletes

The walks along relationships whose rows are deleted together with those of their source, and the
order in which the statements of walks are planned: longer walks before those they continue, and
siblings as they are declared. A schema may have cycles, so that there are walks of any length, but
what is reached by a walk is reached without following a relationship twice.
-/

namespace RelQuery

set_option autoImplicit false

def Source.edge (s : Source) (r : Relationship) : Edge := (s.name, r.name)

/-- A relationship from a source to another one that deletes follow. -/
structure Cascade (schema : Schema) (s : Source) (r : Relationship) (t : Source) : Prop where
  declared : r ∈ s.relationships
  cascades : r.cascadeDelete = true
  declarative : r.condition.isDeclarative = true
  found : schema.source r.target = .ok t

/-- The walks of deletes from one source to another, each with its edges. -/
inductive DeleteWalk (schema : Schema) : Source → List Edge → Source → Prop where
  | nil {s : Source} : DeleteWalk schema s [] s
  | cons {s t u : Source} {r : Relationship} {w : List Edge} (first : Cascade schema s r t)
    (rest : DeleteWalk schema t w u) : DeleteWalk schema s (s.edge r :: w) u

def CascadeWalk (schema : Schema) (s : Source) (w : List Edge) (t : Source) : Prop :=
  DeleteWalk schema s w t ∧ w.Nodup

/-- The order of walks from a source: a walk comes before the ones it continues, and where two walks
part the relationship declared first goes first. -/
inductive WalkBefore (schema : Schema) : Source → List Edge → List Edge → Prop where
  | extension {s : Source} {e : Edge} {v : List Edge} : WalkBefore schema s (e :: v) []
  | sibling {s : Source} {r₁ r₂ : Relationship} {v w : List Edge}
    (order : [r₁, r₂].Sublist s.relationships) :
    WalkBefore schema s (s.edge r₁ :: v) (s.edge r₂ :: w)
  | behind {s t : Source} {r : Relationship} {v w : List Edge} (first : Cascade schema s r t)
    (inside : WalkBefore schema t v w) : WalkBefore schema s (s.edge r :: v) (s.edge r :: w)

theorem Source.mem_followedDeletes {s : Source} {r : Relationship} :
    r ∈ s.followedDeletes ↔
      r ∈ s.relationships ∧ r.cascadeDelete = true ∧ r.condition.isDeclarative = true := by
  unfold followedDeletes cascadingDeletes
  rw [List.mem_filter, List.mem_filter, and_assoc]

namespace Source

variable {s : Source} {r₁ r₂ : Relationship}

theorem Distinct.eq_of_name_eq (hs : s.Distinct) (h₁ : r₁ ∈ s.relationships)
    (h₂ : r₂ ∈ s.relationships) (h : r₁.name = r₂.name) : r₁ = r₂ := by
  have hfound := relationship?_of_mem hs h₁
  rw [h, relationship?_of_mem hs h₂] at hfound
  exact (Option.some.inj hfound).symm

theorem Distinct.name_ne_of_sublist (hs : s.Distinct) (h : [r₁, r₂].Sublist s.relationships) :
    r₁.name ≠ r₂.name := by
  have hnames : [r₁.name, r₂.name].Nodup := List.Nodup.sublist (h.map Relationship.name) hs
  exact fun heq => (List.nodup_cons.mp hnames).1 (List.mem_singleton.mpr heq)

theorem Distinct.not_sublist_swap (hs : s.Distinct) (h : [r₁, r₂].Sublist s.relationships) :
    ¬[r₂, r₁].Sublist s.relationships := by
  unfold Distinct at hs
  generalize s.relationships = rs at hs h
  induction rs with
  | nil => cases h
  | cons r rs ih =>
    obtain ⟨hfirst, hrest⟩ := List.nodup_cons.mp hs
    have hmem {q : Relationship} (hq : q ∈ rs) : q ≠ r := by
      rintro rfl
      exact hfirst (List.mem_map_of_mem hq)
    intro hswap
    cases h with
    | cons _ h =>
      cases hswap with
      | cons _ hswap => exact ih hrest h hswap
      | cons_cons _ _ => exact hmem (h.subset (by simp)) rfl
    | cons_cons _ h =>
      cases hswap with
      | cons _ hswap => exact hmem (hswap.subset (by simp)) rfl
      | cons_cons _ _ => exact hmem (h.subset (by simp)) rfl

end Source

section Walks

variable {schema : Schema} {s t u : Source} {r : Relationship} {v w : List Edge} {e : Edge}

theorem Cascade.registered (h : Cascade schema s r t) : schema.source t.name = .ok t := by
  rw [Schema.name_of_source h.found]
  exact h.found

theorem Cascade.unique (hs : s.Distinct) {r' : Relationship} {t' : Source}
    (h : Cascade schema s r t) (h' : Cascade schema s r' t') (heq : s.edge r = s.edge r') :
    r = r' ∧ t = t' := by
  have hr := hs.eq_of_name_eq h.declared h'.declared (congrArg Prod.snd heq)
  subst hr
  exact ⟨rfl, Except.ok.inj (h.found.symm.trans h'.found)⟩

namespace DeleteWalk

theorem cons_inv (h : DeleteWalk schema s (e :: w) u) :
    ∃ r t, e = s.edge r ∧ Cascade schema s r t ∧ DeleteWalk schema t w u := by
  cases h with
  | cons first rest => exact ⟨_, _, rfl, first, rest⟩

theorem cons_iff (hs : s.Distinct) (first : Cascade schema s r t) :
    DeleteWalk schema s (s.edge r :: w) u ↔ DeleteWalk schema t w u := by
  constructor
  · intro h
    obtain ⟨r', t', heq, first', rest⟩ := h.cons_inv
    obtain ⟨_, rfl⟩ := first.unique hs first' heq
    exact rest
  · exact .cons first

theorem registered (h : DeleteWalk schema s w t) (start : schema.source s.name = .ok s) :
    schema.source t.name = .ok t := by
  induction h with
  | nil => exact start
  | cons first _ ih => exact ih first.registered

theorem split (h : DeleteWalk schema s (v ++ w) u) :
    ∃ t, DeleteWalk schema s v t ∧ DeleteWalk schema t w u := by
  induction v generalizing s with
  | nil => exact ⟨s, .nil, h⟩
  | cons e v ih =>
    obtain ⟨r, t, rfl, first, rest⟩ := cons_inv h
    obtain ⟨mid, hv, hw⟩ := ih rest
    exact ⟨mid, .cons first hv, hw⟩

theorem cascade_of_mem (h : DeleteWalk schema s w u) (start : schema.source s.name = .ok s)
    (he : e ∈ w) : ∃ a r b, e = a.edge r ∧ schema.source a.name = .ok a ∧ Cascade schema a r b := by
  obtain ⟨v, rest, rfl⟩ := List.append_of_mem he
  obtain ⟨a, hv, hrest⟩ := h.split
  obtain ⟨r, b, heq, first, _⟩ := hrest.cons_inv
  exact ⟨a, r, b, heq, hv.registered start, first⟩

/-- What a walk leads to is also reached without following a relationship twice. -/
theorem exists_cascadeWalk (h : DeleteWalk schema s w u) (start : schema.source s.name = .ok s) :
    ∃ v, CascadeWalk schema s v u := by
  induction h with
  | nil => exact ⟨[], .nil, List.nodup_nil⟩
  | @cons s t u r w first _ ih =>
    obtain ⟨v, hv, hnodup⟩ := ih first.registered
    by_cases hmem : s.edge r ∈ v
    · -- the walk comes back to the source, and only its last round is needed
      obtain ⟨before, after, rfl⟩ := List.append_of_mem hmem
      obtain ⟨a, hbefore, hafter⟩ := hv.split
      obtain ⟨r', _, heq, _, _⟩ := hafter.cons_inv
      have hname : s.name = a.name := congrArg Prod.fst heq
      have hregistered := hbefore.registered first.registered
      rw [← hname, start] at hregistered
      cases hregistered
      exact ⟨_, hafter, (List.nodup_append.mp hnodup).2.1⟩
    · exact ⟨s.edge r :: v, .cons first hv, List.nodup_cons.mpr ⟨hmem, hnodup⟩⟩

end DeleteWalk

namespace WalkBefore

variable (distinct : ∀ s ∈ schema.sources, s.Distinct)

include distinct in
theorem not_isPrefix (hs : s.Distinct) (h : WalkBefore schema s v w) : ¬v <+: w := by
  induction h with
  | extension => exact fun hprefix => absurd hprefix.length_le (by simp)
  | sibling order =>
    intro hprefix
    have heq := (List.cons_prefix_cons.mp hprefix).1
    exact hs.name_ne_of_sublist order (congrArg Prod.snd heq)
  | behind first _ ih =>
    intro hprefix
    exact ih (distinct _ (Schema.mem_of_source first.found)) (List.cons_prefix_cons.mp hprefix).2

theorem ne_nil (h : WalkBefore schema s v w) : v ≠ [] := by
  cases h <;> exact List.cons_ne_nil _ _

theorem cons_inv {f : Edge} (h : WalkBefore schema s (e :: v) (f :: w)) :
    (∃ r₁ r₂, e = s.edge r₁ ∧ f = s.edge r₂ ∧ [r₁, r₂].Sublist s.relationships) ∨
      e = f ∧ ∃ r t, e = s.edge r ∧ Cascade schema s r t ∧ WalkBefore schema t v w := by
  cases h with
  | sibling order => exact .inl ⟨_, _, rfl, rfl, order⟩
  | behind first inside => exact .inr ⟨rfl, _, _, rfl, first, inside⟩

include distinct in
theorem not_sibling (hs : s.Distinct) {r₁ r₂ : Relationship} (walk : DeleteWalk schema s w u)
    (order : [r₁, r₂].Sublist u.relationships) :
    ¬WalkBefore schema s (w ++ [u.edge r₂]) (w ++ [u.edge r₁]) := by
  intro h
  induction walk with
  | nil =>
    rcases cons_inv h with ⟨q₁, q₂, h₁, h₂, hswap⟩ | ⟨heq, _⟩
    · have hr₂ := hs.eq_of_name_eq (order.subset (by simp)) (hswap.subset (by simp))
        (congrArg Prod.snd h₁)
      have hr₁ := hs.eq_of_name_eq (order.subset (by simp)) (hswap.subset (by simp))
        (congrArg Prod.snd h₂)
      subst hr₂ hr₁
      exact hs.not_sublist_swap order hswap
    · exact hs.name_ne_of_sublist order (congrArg Prod.snd heq).symm
  | cons first _ ih =>
    rcases cons_inv h with ⟨q₁, q₂, h₁, h₂, hswap⟩ | ⟨_, r, t, heq, first', inside⟩
    · exact hs.name_ne_of_sublist hswap (congrArg Prod.snd (h₁.symm.trans h₂))
    · obtain ⟨_, rfl⟩ := first.unique hs first' heq
      exact ih (distinct _ (Schema.mem_of_source first.found)) order inside

end WalkBefore

end Walks

end RelQuery
