import RelQuery.Proofs.AliasRuns

/-!
# Calls for aliases

What becomes of the aliases of a statement under any calls for them. The aliases that calls take are
in use from then on, so that no two of them clash, and a relationship keeps the alias that the first
call took for it.
-/

namespace RelQuery

set_option autoImplicit false

/-- A call for an alias like `base`, or for that of a relationship joined from a parent alias. -/
inductive AliasCall where
  | reserve (base : String)
  | join (parent relationship : String)
deriving DecidableEq, Repr

structure AliasAnswer where
  name : String
  fresh : Bool
deriving DecidableEq, Repr

namespace Aliases

def call (t : Aliases) : AliasCall → AliasAnswer × Aliases
  | .reserve base => (⟨(t.reserve base).1, true⟩, (t.reserve base).2)
  | .join parent name =>
    (⟨(t.join parent name).1, (t.join parent name).2.1⟩, (t.join parent name).2.2)

def after (t : Aliases) : List AliasCall → Aliases
  | [] => t
  | c :: calls => (t.call c).2.after calls

def answers (t : Aliases) : List AliasCall → List (AliasCall × AliasAnswer)
  | [] => []
  | c :: calls => (c, (t.call c).1) :: (t.call c).2.answers calls

def taken (t : Aliases) (calls : List AliasCall) : List String :=
  ((t.answers calls).filter (·.2.fresh)).map (·.2.name)

/-- The search for a free name as such, with no bound: candidates are tried in order, until one of
them is not in use. -/
inductive Search (used : List String) (base : String) : Nat → String → Prop where
  | free {n : Nat} (h : candidate base n ∉ used) : Search used base n (candidate base n)
  | next {n : Nat} {name : String} (h : candidate base n ∈ used)
    (later : Search used base (n + 1) name) : Search used base n name

section Search

variable {used : List String} {base name : String} {n : Nat}

theorem search_candidate (hfree : candidate base n ∉ used) {start : Nat} (hstart : start ≤ n)
    (hused : ∀ m, start ≤ m → m < n → candidate base m ∈ used) :
    Search used base start (candidate base n) := by
  obtain ⟨steps, rfl⟩ := Nat.exists_eq_add_of_le hstart
  induction steps generalizing start with
  | zero => exact .free hfree
  | succ steps ih =>
    have hn : start + (steps + 1) = start + 1 + steps := by omega
    apply Search.next
    · exact hused start (Nat.le_refl start) (by omega)
    · rw [hn] at hfree hused ⊢
      exact ih hfree (Nat.le_add_right _ _) fun m hm => hused m (by omega)

theorem Search.exists_candidate {start : Nat} (h : Search used base start name) :
    ∃ n, start ≤ n ∧ name = candidate base n ∧ candidate base n ∉ used ∧
      ∀ m, start ≤ m → m < n → candidate base m ∈ used := by
  induction h with
  | @free start hfree => exact ⟨start, Nat.le_refl start, rfl, hfree, fun m hm hlt => by omega⟩
  | @next start name hstart _ ih =>
    obtain ⟨n, hn, hname, hfree, hused⟩ := ih
    refine ⟨n, by omega, hname, hfree, ?_⟩
    intro m hm hlt
    by_cases heq : m = start
    · exact heq ▸ hstart
    · exact hused m (by omega) hlt

theorem search_firstFree (used : List String) (base : String) :
    Search used base 0 (firstFree used base) := by
  have hfree := firstFree_not_mem used base
  unfold firstFree at hfree ⊢
  rw [List.find?_map] at hfree ⊢
  cases hfound : (List.range (used.length + 1)).find? ((!used.contains ·) ∘ candidate base) with
  | none =>
    rw [hfound] at hfree
    exact .free hfree
  | some n =>
    rw [hfound] at hfree
    obtain ⟨_, _, hused⟩ := List.find?_range_eq_some.mp hfound
    apply search_candidate hfree (Nat.zero_le n)
    intro m _ hm
    simpa using hused m hm

end Search

section Calls

variable {t : Aliases} {parent name : String} {c : AliasCall} {calls : List AliasCall}

theorem join_of_get? {joined : String} (h : t.get? parent name = some joined) :
    t.join parent name = (joined, false, t) := by
  unfold join
  rw [h]

theorem call_join_of_some {joined : String} (h : t.get? parent name = some joined) :
    t.call (.join parent name) = (⟨joined, false⟩, t) := by
  unfold call
  dsimp only
  rw [join_of_get? h]

theorem call_join_of_none (h : t.get? parent name = none) :
    t.call (.join parent name) = (⟨(t.reserve name).1, true⟩,
      ⟨t.used ++ [(t.reserve name).1], t.joined ++ [((parent, name), (t.reserve name).1)]⟩) := by
  unfold call
  dsimp only
  rw [join_eq_reserve h]
  rfl

theorem call_cases (t : Aliases) (c : AliasCall) :
    (∃ parent name joined, c = .join parent name ∧ t.get? parent name = some joined ∧
      t.call c = (⟨joined, false⟩, t)) ∨
    ∃ free joined, t.call c = (⟨free, true⟩, ⟨t.used ++ [free], joined⟩) ∧ free ∉ t.used := by
  cases c with
  | reserve base => exact .inr ⟨_, _, rfl, reserve_not_mem t base⟩
  | join parent name =>
    cases hget : t.get? parent name with
    | some joined => exact .inl ⟨parent, name, joined, rfl, hget, call_join_of_some hget⟩
    | none => exact .inr ⟨_, _, call_join_of_none hget, reserve_not_mem t name⟩

theorem used_call (t : Aliases) (c : AliasCall) :
    (t.call c).2.used = t.used ++ if (t.call c).1.fresh then [(t.call c).1.name] else [] := by
  rcases call_cases t c with ⟨_, _, _, _, _, h⟩ | ⟨free, joined, h, _⟩
  · rw [h]
    exact (List.append_nil _).symm
  · rw [h]
    rfl

theorem nodup_call (ht : t.used.Nodup) (c : AliasCall) : (t.call c).2.used.Nodup := by
  rcases call_cases t c with ⟨_, _, _, _, _, h⟩ | ⟨free, joined, h, hfree⟩
  · rw [h]
    exact ht
  · rw [h, ← List.concat_eq_append]
    exact List.Nodup.concat hfree ht

theorem get?_call (t : Aliases) (c : AliasCall) (parent name : String) :
    (t.call c).2.get? parent name = (t.get? parent name).or
      (if .join parent name = c then some (t.call c).1.name else none) := by
  cases c with
  | reserve base =>
    rw [if_neg nofun, Option.or_none]
    rfl
  | join otherParent other =>
    by_cases heq : AliasCall.join parent name = .join otherParent other
    · cases heq
      rw [if_pos rfl]
      cases hget : t.get? parent name with
      | some joined =>
        rw [call_join_of_some hget]
        exact hget
      | none =>
        rw [call_join_of_none hget]
        unfold get? at hget ⊢
        rw [List.lookup_append, hget]
        simp
    · rw [if_neg heq, Option.or_none]
      cases hget : t.get? otherParent other with
      | some joined => rw [call_join_of_some hget]
      | none =>
        have hkey : ((parent, name) == (otherParent, other)) = false := by
          rw [beq_eq_false_iff_ne]
          rintro ⟨⟩
          exact heq rfl
        rw [call_join_of_none hget]
        unfold get?
        rw [List.lookup_append, List.lookup_cons, hkey]
        exact Option.or_none

theorem used_after (t : Aliases) (calls : List AliasCall) :
    (t.after calls).used = t.used ++ t.taken calls := by
  induction calls generalizing t with
  | nil => exact (List.append_nil _).symm
  | cons c calls ih =>
    unfold after taken answers
    rw [ih, used_call, List.append_assoc, List.filter_cons]
    cases (t.call c).1.fresh with
    | true => rfl
    | false => rfl

theorem nodup_after (ht : t.used.Nodup) (calls : List AliasCall) :
    (t.after calls).used.Nodup := by
  induction calls generalizing t with
  | nil => exact ht
  | cons c calls ih => exact ih (nodup_call ht c)

theorem get?_after (t : Aliases) (calls : List AliasCall) (parent name : String) :
    (t.after calls).get? parent name = (t.get? parent name).or
      (((t.answers calls).lookup (.join parent name)).map (·.name)) := by
  induction calls generalizing t with
  | nil => exact Option.or_none.symm
  | cons c calls ih =>
    unfold after answers
    rw [ih, get?_call, Option.or_assoc, List.lookup_cons]
    by_cases hc : AliasCall.join parent name = c
    · rw [if_pos hc, beq_iff_eq.mpr hc]
      rfl
    · rw [if_neg hc, beq_eq_false_iff_ne.mpr hc]
      rfl

theorem map_fst_answers (t : Aliases) (calls : List AliasCall) :
    (t.answers calls).map (·.1) = calls := by
  induction calls generalizing t with
  | nil => rfl
  | cons c calls ih => exact congrArg (c :: ·) (ih _)

theorem after_append (t : Aliases) (calls more : List AliasCall) :
    t.after (calls ++ more) = (t.after calls).after more := by
  induction calls generalizing t with
  | nil => rfl
  | cons c calls ih => exact ih _

theorem get?_after_of_some {joined : String} (h : t.get? parent name = some joined)
    (calls : List AliasCall) : (t.after calls).get? parent name = some joined := by
  rw [get?_after, h, Option.some_or]

theorem get?_join (t : Aliases) (parent name : String) :
    (t.join parent name).2.2.get? parent name = some (t.join parent name).1 := by
  have hcall := get?_call t (.join parent name) parent name
  rw [if_pos rfl] at hcall
  cases hget : t.get? parent name with
  | some joined =>
    rw [join_of_get? hget]
    exact hget
  | none =>
    rw [hget, Option.none_or] at hcall
    exact hcall

theorem join_fresh : (t.join parent name).2.1 = true ↔ t.get? parent name = none := by
  cases hget : t.get? parent name with
  | some joined =>
    rw [join_of_get? hget]
    exact ⟨nofun, nofun⟩
  | none =>
    rw [join_eq_reserve hget]
    exact ⟨fun _ => rfl, fun _ => rfl⟩

theorem get?_after_eq_none : (start.after calls).get? parent name = none ↔
    .join parent name ∉ calls := by
  rw [get?_after, start, get?, List.lookup_nil, Option.none_or, Option.map_eq_none_iff,
    List.lookup_eq_none_iff]
  conv => rhs; rw [← map_fst_answers start calls, List.mem_map]
  constructor
  · intro h hmem
    obtain ⟨answer, hanswer, heq⟩ := hmem
    exact bne_iff_ne.mp (h answer hanswer) heq.symm
  · intro h answer hanswer
    rw [bne_iff_ne]
    intro heq
    exact h ⟨answer, hanswer, heq.symm⟩

end Calls

/-- What calls for aliases have left behind on a new statement, and what the next ones answer. -/
structure KeptApart (calls : List AliasCall) : Prop where
  used_eq : (start.after calls).used = rootAlias :: start.taken calls
  nodup : (rootAlias :: start.taken calls).Nodup
  size_eq : (start.after calls).size = 1 + (start.taken calls).length
  search : ∀ base, Search (start.after calls).used base 0 ((start.after calls).reserve base).1
  reserve_unused : ∀ base, base ∉ (start.after calls).used →
    ((start.after calls).reserve base).1 = base
  reserve_used : ∀ base ∈ (start.after calls).used, ∃ n, 2 ≤ n ∧
    ((start.after calls).reserve base).1 = base ++ "_" ++ toString n ∧
    base ++ "_" ++ toString n ∉ (start.after calls).used ∧
    ∀ m, 2 ≤ m → m < n → base ++ "_" ++ toString m ∈ (start.after calls).used
  get?_eq : ∀ parent name, (start.after calls).get? parent name =
    ((start.answers calls).lookup (.join parent name)).map (·.name)
  get?_eq_none : ∀ parent name, (start.after calls).get? parent name = none ↔
    .join parent name ∉ calls
  join_fresh : ∀ parent name, ((start.after calls).join parent name).2.1 = true ↔
    .join parent name ∉ calls
  /-- A relationship that is joined again later, whatever is called in between. -/
  join_again : ∀ parent name between,
    (start.after (calls ++ .join parent name :: between)).join parent name =
      (((start.after calls).join parent name).1, false,
        start.after (calls ++ .join parent name :: between))

/-- Whatever is called, no two aliases clash and relationships keep theirs. -/
theorem keptApart (calls : List AliasCall) : KeptApart calls := by
  have hused : (start.after calls).used = rootAlias :: start.taken calls := used_after start calls
  have hnodup : (start.after calls).used.Nodup := nodup_after sound_start.nodup calls
  have hsearch (base : String) := search_firstFree (start.after calls).used base
  have hfound (base : String) := (hsearch base).exists_candidate
  constructor
  case used_eq => exact hused
  case nodup => exact hused ▸ hnodup
  case size_eq =>
    unfold size
    rw [hused, List.length_cons, Nat.add_comm]
  case search => exact hsearch
  case reserve_unused =>
    intro base hbase
    obtain ⟨n, _, hname, _, hcandidates⟩ := hfound base
    cases n with
    | zero => exact hname
    | succ n => exact absurd (hcandidates 0 (Nat.le_refl 0) (Nat.succ_pos n)) hbase
  case reserve_used =>
    intro base hbase
    obtain ⟨n, _, hname, hfree, hcandidates⟩ := hfound base
    cases n with
    | zero => exact absurd hbase hfree
    | succ n =>
      refine ⟨n + 2, Nat.le_add_left 2 n, hname, hfree, ?_⟩
      intro m hm hlt
      obtain ⟨k, rfl⟩ := Nat.exists_eq_add_of_le' hm
      exact hcandidates (k + 1) (Nat.zero_le _) (by omega)
  case get?_eq =>
    intro parent name
    rw [get?_after]
    rfl
  case get?_eq_none => exact fun parent name => get?_after_eq_none
  case join_fresh => exact fun parent name => Aliases.join_fresh.trans get?_after_eq_none
  case join_again =>
    intro parent name between
    apply join_of_get?
    rw [after_append]
    exact get?_after_of_some (get?_join _ parent name) between

example : start.taken [.reserve "cds", .reserve "cds_2", .reserve "cds", .join "me" "me",
    .join "me" "me"] = ["cds", "cds_2", "cds_3", "me_2"] := by decide

end Aliases

end RelQuery
