import Mathlib.Data.List.Perm.Subperm
import RelQuery.Proofs.Chains
import RelQuery.Proofs.DeleteWalks

/-!
# The plan of a cascading delete

A delete plan has one statement for every walk that follows no relationship twice, in the order of
the walks. The bound on the length of walks is never what ends one.
-/

namespace RelQuery

set_option autoImplicit false

namespace ResultSet

def openDeletes (rs : ResultSet) (walked : List Edge) : List Relationship :=
  rs.query.source.followedDeletes.filter fun r =>
    !walked.contains (rs.query.source.name, r.name)

variable {rs : ResultSet} {walked : List Edge} {r : Relationship} {n : Nat}

theorem mem_openDeletes : r ∈ rs.openDeletes walked ↔
    r ∈ rs.query.source.followedDeletes ∧ rs.query.source.edge r ∉ walked := by
  unfold openDeletes Source.edge
  rw [List.mem_filter]
  simp

theorem deletions_succ (n : Nat) (walked : List Edge) (rs : ResultSet) :
    deletions (n + 1) walked rs = (do
      let dependents ← (rs.openDeletes walked).mapM fun r =>
        rs.related r.name >>= deletions n (walked ++ [rs.query.source.edge r])
      return dependents.flatten ++ [← rs.deletion]) := rfl

theorem deletions_succ_eq_ok {statements : List Statement} :
    deletions (n + 1) walked rs = .ok statements ↔ ∃ dependents own,
      List.Forall₂ (fun r block => ∃ next, rs.related r.name = .ok next ∧
        deletions n (walked ++ [rs.query.source.edge r]) next = .ok block)
        (rs.openDeletes walked) dependents ∧
      rs.deletion = .ok own ∧ dependents.flatten ++ [own] = statements := by
  rw [deletions_succ, bind_eq_ok]
  simp only [mapM_eq_ok, bind_eq_ok, pure_eq_ok]
  constructor
  · rintro ⟨dependents, hdependents, own, hown, h⟩
    exact ⟨dependents, own, hdependents, hown, h⟩
  · rintro ⟨dependents, own, hdependents, hown, h⟩
    exact ⟨dependents, hdependents, own, hown, h⟩

theorem deletions_zero_eq_ok {statements : List Statement} :
    deletions 0 walked rs = .ok statements ↔ ∃ own, rs.deletion = .ok own ∧ [own] = statements := by
  unfold deletions
  simp only [bind_eq_ok, pure_eq_ok]

theorem deletions_of_openDeletes_eq_nil (h : rs.openDeletes walked = []) (n : Nat) :
    deletions n walked rs = deletions 0 walked rs := by
  cases n with
  | zero => rfl
  | succ n =>
    rw [deletions_succ, h]
    rfl

end ResultSet

def Schema.edges (schema : Schema) : List Edge :=
  schema.sources.flatMap fun s => s.followedDeletes.map s.edge

theorem Schema.length_edges (schema : Schema) : schema.edges.length = schema.deleteEdges := by
  unfold edges deleteEdges
  rw [List.length_flatMap, List.length_flatMap]
  simp only [List.length_map]

/-- A walk through a schema with as many edges left as there are relationships not followed yet. -/
structure Budget (schema : Schema) (rs : ResultSet) (walked : List Edge) (n : Nat) : Prop where
  coherent : rs.query.Coherent schema
  nodup : walked.Nodup
  subset : walked ⊆ schema.edges
  enough : schema.deleteEdges ≤ n + walked.length

namespace Budget

variable {schema : Schema} {rs next : ResultSet} {walked : List Edge} {n : Nat} {r : Relationship}

theorem edge_mem (h : Budget schema rs walked n) (hr : r ∈ rs.openDeletes walked) :
    rs.query.source.edge r ∈ schema.edges := by
  obtain ⟨hfollowed, _⟩ := ResultSet.mem_openDeletes.mp hr
  exact List.mem_flatMap.mpr ⟨_, Schema.mem_of_source h.coherent.registered,
    List.mem_map_of_mem hfollowed⟩

theorem follow (h : Budget schema rs walked (n + 1)) (hr : r ∈ rs.openDeletes walked)
    (found : rs.related r.name = .ok next) :
    Budget schema next (walked ++ [rs.query.source.edge r]) n := by
  have hnew := (ResultSet.mem_openDeletes.mp hr).2
  refine ⟨ResultSet.coherent_related h.coherent found, ?_, ?_, ?_⟩
  · rw [← List.concat_eq_append]
    exact List.Nodup.concat hnew h.nodup
  · exact List.append_subset.mpr ⟨h.subset, List.cons_subset.mpr ⟨h.edge_mem hr, List.nil_subset _⟩⟩
  · have henough := h.enough
    rw [List.length_append, List.length_singleton]
    omega

theorem openDeletes_eq_nil (h : Budget schema rs walked 0) : rs.openDeletes walked = [] := by
  apply List.eq_nil_iff_forall_not_mem.mpr
  intro r hr
  have hnew := (ResultSet.mem_openDeletes.mp hr).2
  have hnodup : (rs.query.source.edge r :: walked).Nodup := List.nodup_cons.mpr ⟨hnew, h.nodup⟩
  have hsubset : rs.query.source.edge r :: walked ⊆ schema.edges :=
    List.cons_subset.mpr ⟨h.edge_mem hr, h.subset⟩
  have hlength := (List.subperm_of_subset hnodup hsubset).length_le
  have henough := h.enough
  rw [List.length_cons, schema.length_edges] at hlength
  omega

/-- More edges change nothing. -/
theorem deletions_eq (h : Budget schema rs walked n) {m : Nat} (hle : n ≤ m) :
    ResultSet.deletions m walked rs = ResultSet.deletions n walked rs := by
  induction n generalizing m walked rs with
  | zero => exact ResultSet.deletions_of_openDeletes_eq_nil h.openDeletes_eq_nil m
  | succ n ih =>
    cases m with
    | zero => exact absurd hle (Nat.not_succ_le_zero n)
    | succ m =>
      have hsame : ∀ r ∈ rs.openDeletes walked,
          (rs.related r.name >>= ResultSet.deletions m (walked ++ [rs.query.source.edge r])) =
            (rs.related r.name >>= ResultSet.deletions n (walked ++ [rs.query.source.edge r])) := by
        intro r hr
        cases hfound : rs.related r.name with
        | error e => rfl
        | ok next => exact ih (h.follow hr hfound) (Nat.le_of_succ_le_succ hle)
      rw [ResultSet.deletions_succ, ResultSet.deletions_succ, mapM_congr hsame]

end Budget

end RelQuery
