import RelQuery.JoinTree

/-!
# Distinct join trees

No two siblings of a join tree have one name, however the tree was made, so that a path of names
stands for one relationship to join.
-/

namespace RelQuery

set_option autoImplicit false

namespace JoinTree

def tops : JoinTree → List String
  | .none => []
  | .join name _ rest => name :: rest.tops

def Distinct : JoinTree → Prop
  | .none => True
  | .join name below rest => name ∉ rest.tops ∧ below.Distinct ∧ rest.Distinct

/-- Forests made of paths, of forests below a name, and of unions. -/
inductive Built : JoinTree → Prop
  | none : Built .none
  | addPath {t : JoinTree} (path : String) : Built t → Built (t.addPath path)
  | nest {t below : JoinTree} (name : String) : Built t → Built below → Built (t.nest name below)
  | merge {a b : JoinTree} : Built a → Built b → Built (a.merge b)

variable {a b t fresh : JoinTree} {f : JoinTree → JoinTree}

theorem mem_tops_update {name other : String} :
    other ∈ (t.update name f fresh).tops ↔ other = name ∨ other ∈ t.tops := by
  induction t with
  | none => exact List.mem_cons
  | join top below rest _ ihrest =>
    unfold update
    split
    · rename_i heq
      subst heq
      simp only [tops, List.mem_cons]
      exact ⟨.inr, fun h => h.elim .inl id⟩
    · simp only [tops, List.mem_cons, ihrest]
      exact or_left_comm

theorem distinct_update {name : String} (ht : t.Distinct) (hf : ∀ u, u.Distinct → (f u).Distinct)
    (hfresh : fresh.Distinct) : (t.update name f fresh).Distinct := by
  induction t with
  | none => exact ⟨List.not_mem_nil, hfresh, trivial⟩
  | join top below rest _ ihrest =>
    obtain ⟨htop, hbelow, hrest⟩ := ht
    unfold update
    split
    · exact ⟨htop, hf below hbelow, hrest⟩
    · rename_i hne
      refine ⟨?_, hbelow, ihrest hrest⟩
      intro h
      rcases mem_tops_update.mp h with h | h
      · exact hne h
      · exact htop h

theorem distinct_merge (ha : a.Distinct) (hb : b.Distinct) : (a.merge b).Distinct := by
  induction b generalizing a with
  | none => exact ha
  | join name below rest ihbelow ihrest =>
    obtain ⟨_, hbelow, hrest⟩ := hb
    unfold merge
    exact ihrest (distinct_update ha (fun _ hu => ihbelow hu hbelow) hbelow) hrest

theorem distinct_addNames {names : List String} (ht : t.Distinct) :
    (addNames names t).Distinct := by
  induction names generalizing t with
  | nil => exact ht
  | cons name names ih =>
    unfold addNames
    exact distinct_update ht (fun _ hu => ih hu) (ih trivial)

theorem distinct_nest {name : String} (ha : a.Distinct) (hb : b.Distinct) :
    (a.nest name b).Distinct :=
  distinct_merge ha ⟨List.not_mem_nil, hb, trivial⟩

theorem Built.distinct (h : t.Built) : t.Distinct := by
  induction h with
  | none => exact trivial
  | addPath path _ ih => exact distinct_addNames ih
  | nest name _ _ ih ihbelow => exact distinct_nest ih ihbelow
  | merge _ _ iha ihb => exact distinct_merge iha ihb

theorem built_ofPaths (paths : List String) : (ofPaths paths).Built := by
  have hfold (t : JoinTree) (ht : t.Built) : (paths.foldl addPath t).Built := by
    induction paths generalizing t with
    | nil => exact ht
    | cons path paths ih => exact ih _ (.addPath path ht)
  exact hfold .none .none

theorem top_prefix_of_mem {above path : List String} (h : path ∈ t.pathsFrom above) :
    ∃ name ∈ t.tops, above ++ [name] <+: path := by
  induction t generalizing above with
  | none => exact absurd h List.not_mem_nil
  | join name below rest ihbelow ihrest =>
    rcases List.mem_cons.mp h with rfl | h
    · exact ⟨name, List.mem_cons_self, List.prefix_rfl⟩
    · rcases List.mem_append.mp h with h | h
      · obtain ⟨other, _, hprefix⟩ := ihbelow h
        exact ⟨name, List.mem_cons_self, (List.prefix_append _ _).trans hprefix⟩
      · obtain ⟨other, hother, hprefix⟩ := ihrest h
        exact ⟨other, List.mem_cons_of_mem name hother, hprefix⟩

/-- The names that continue one path are as different as the paths. -/
theorem last_eq_of_isPrefix {above path : List String} {n m : String} (hn : above ++ [n] <+: path)
    (hm : above ++ [m] <+: path) : n = m := by
  have hle : above ++ [n] <+: above ++ [m] := List.prefix_of_prefix_length_le hn hm (by simp)
  have heq := hle.eq_of_length (by simp)
  simpa using heq

theorem nodup_pathsFrom (ht : t.Distinct) (above : List String) : (t.pathsFrom above).Nodup := by
  induction t generalizing above with
  | none => exact List.nodup_nil
  | join name below rest ihbelow ihrest =>
    obtain ⟨hname, hbelow, hrest⟩ := ht
    have hfirst : ∀ path ∈ rest.pathsFrom above, ¬above ++ [name] <+: path := by
      intro path hpath hprefix
      obtain ⟨other, hother, hotherPrefix⟩ := top_prefix_of_mem hpath
      rw [last_eq_of_isPrefix hprefix hotherPrefix] at hname
      exact hname hother
    unfold pathsFrom
    rw [List.nodup_cons, List.nodup_append]
    refine ⟨?_, ihbelow hbelow _, ihrest hrest _, ?_⟩
    · intro h
      rcases List.mem_append.mp h with h | h
      · obtain ⟨other, _, hprefix⟩ := top_prefix_of_mem h
        have hle := hprefix.length_le
        simp at hle
      · exact hfirst _ h List.prefix_rfl
    · rintro path hpath other hother rfl
      obtain ⟨last, _, hprefix⟩ := top_prefix_of_mem hpath
      exact hfirst path hother ((List.prefix_append _ _).trans hprefix)

theorem nodup_names (ht : t.Distinct) : t.names.Nodup := nodup_pathsFrom ht []

theorem ne_nil_of_mem_names {path : List String} (h : path ∈ t.names) : path ≠ [] := by
  obtain ⟨name, _, hprefix⟩ := top_prefix_of_mem h
  rintro rfl
  exact absurd hprefix.length_le (by simp)

theorem pathsFrom_append (t : JoinTree) (above more : List String) :
    t.pathsFrom (above ++ more) = (t.pathsFrom more).map (above ++ ·) := by
  induction t generalizing more with
  | none => rfl
  | join name below rest ihbelow ihrest =>
    unfold pathsFrom
    rw [List.append_assoc, ihbelow, ihrest, List.map_cons, List.map_append]

theorem names_join (name : String) (below rest : JoinTree) :
    (join name below rest).names = [name] :: (below.names.map (name :: ·) ++ rest.names) := by
  have hbelow := pathsFrom_append below [name] []
  unfold names
  rw [pathsFrom, List.nil_append]
  rw [List.append_nil] at hbelow
  rw [hbelow]
  rfl

end JoinTree

end RelQuery
