import Mathlib.Data.List.Perm.Subperm
import Mathlib.Data.List.Nodup
import RelQuery.Aliases

/-!
# Taking aliases

An alias that is taken was not in use, and no relationship has an alias under a parent that is not
in use.
-/

namespace RelQuery

set_option autoImplicit false

namespace Aliases

theorem candidate_injective (base : String) : Function.Injective (candidate base) := by
  intro i j h
  have hchars := congrArg String.toList h
  cases i with
  | zero =>
    cases j with
    | zero => rfl
    | succ j =>
      have hlength := congrArg List.length hchars
      simp [candidate] at hlength
  | succ i =>
    cases j with
    | zero =>
      have hlength := congrArg List.length hchars
      simp [candidate] at hlength
    | succ j =>
      simp only [candidate, String.toList_append] at hchars
      have hdigits := List.append_cancel_left hchars
      have hnumber := congrArg (fun digits => Nat.ofDigitChars 10 digits 0) hdigits
      simpa [Nat.toString_eq_ofList_toDigits] using hnumber

/-- There are more candidates than names in use, so that one of them is free. -/
theorem firstFree_not_mem (used : List String) (base : String) : firstFree used base ∉ used := by
  unfold firstFree
  cases hfound : ((List.range (used.length + 1)).map (candidate base)).find?
      (!used.contains ·) with
  | some name => simpa using List.find?_some hfound
  | none =>
    exfalso
    have hsubset : (List.range (used.length + 1)).map (candidate base) ⊆ used := by
      intro name hname
      simpa using List.find?_eq_none.mp hfound name hname
    have hnodup : ((List.range (used.length + 1)).map (candidate base)).Nodup :=
      (List.nodup_map_iff (candidate_injective base)).mpr List.nodup_range
    have hlength := (List.subperm_of_subset hnodup hsubset).length_le
    rw [List.length_map, List.length_range] at hlength
    omega

/-- The aliases are different, and relationships are joined to aliases in use. -/
structure Sound (t : Aliases) : Prop where
  nodup : t.used.Nodup
  parents : ∀ k ∈ t.joined, k.1.1 ∈ t.used

variable {t : Aliases} {parent name : String}

theorem sound_start : start.Sound :=
  ⟨List.pairwise_singleton _ _, fun _ hk => absurd hk List.not_mem_nil⟩

theorem reserve_used (t : Aliases) (base : String) :
    (t.reserve base).2.used = t.used ++ [(t.reserve base).1] := rfl

theorem reserve_not_mem (t : Aliases) (base : String) : (t.reserve base).1 ∉ t.used :=
  firstFree_not_mem t.used base

theorem Sound.reserve (h : t.Sound) (base : String) : (t.reserve base).2.Sound := by
  constructor
  · rw [reserve_used, ← List.concat_eq_append]
    exact List.Nodup.concat (reserve_not_mem t base) h.nodup
  · exact fun k hk => List.mem_append_left _ (h.parents k hk)

theorem Sound.get?_eq_none (h : t.Sound) (hparent : parent ∉ t.used) (name : String) :
    t.get? parent name = none := by
  apply List.lookup_eq_none_iff.mpr
  intro k hk
  rw [bne_iff_ne]
  intro heq
  have hused := h.parents k hk
  rw [← heq] at hused
  exact hparent hused

theorem join_eq_reserve (h : t.get? parent name = none) :
    t.join parent name = ((t.reserve name).1, true,
      { (t.reserve name).2 with
        joined := t.joined ++ [((parent, name), (t.reserve name).1)] }) := by
  unfold join
  rw [h]
  rfl

theorem Sound.join (h : t.Sound) (hparent : parent ∈ t.used) (hnew : t.get? parent name = none) :
    (t.join parent name).2.2.Sound := by
  rw [join_eq_reserve hnew]
  constructor
  · exact (h.reserve name).nodup
  · intro k hk
    rcases List.mem_append.mp hk with hk | hk
    · exact List.mem_append_left _ (h.parents k hk)
    · rw [List.mem_singleton.mp hk]
      exact List.mem_append_left _ hparent

theorem get?_join_eq_none {other relationship : String} (hnew : t.get? parent name = none)
    (h : t.get? other relationship = none) (hne : other = parent → relationship ≠ name) :
    (t.join parent name).2.2.get? other relationship = none := by
  rw [join_eq_reserve hnew]
  unfold get? at h ⊢
  rw [List.lookup_append, h, Option.none_or]
  apply List.lookup_eq_none_iff.mpr
  intro k hk
  rw [List.mem_singleton.mp hk, bne_iff_ne]
  intro heq
  obtain ⟨hother, hrelationship⟩ := Prod.mk.inj heq
  exact hne hother hrelationship

end Aliases

end RelQuery
