import RelQuery.Expr.Basic

/-!
# Precedence climbing

A reader of expressions that reads an operand and goes on with the joints behind it, as long as they
bind as strongly as it is asked for. What it reads on its own it reads as an operand, between
parentheses and in a row, whatever the tokens are.
-/

namespace RelQuery

set_option autoImplicit false

/-- A reader of expressions over tokens `τ`. A joint goes on with the expression in front of it. The
first number that the functions take bounds the depth. -/
structure Climber (τ κ : Type) where
  joint? : List τ → Option (κ × List τ)
  level : κ → Nat
  climb : Nat → Nat → List τ → Option (Expr × List τ)
  extend : Nat → Nat → Expr → List τ → Option (Expr × List τ)
  complete : Nat → Expr → List τ → κ → Option (Expr × List τ)
  operand : Nat → List τ → Option (Expr × List τ)
  items : Nat → List τ → Option (List Expr × List τ)
  opening : τ
  closing : τ
  comma : List τ
  Closes : List τ → Prop
  climb_succ (n least : Nat) (ts : List τ) : climb (n + 1) least ts =
    (operand n ts).bind fun out => extend n least out.1 out.2
  extend_succ (n least : Nat) (left : Expr) (ts : List τ) : extend (n + 1) least left ts =
    match joint? ts with
    | none => some (left, ts)
    | some (j, rest) =>
      if level j < least then some (left, ts)
      else (complete n left rest j).bind fun out => extend n least out.1 out.2
  operand_opening {n : Nat} {ts rest : List τ} {e : Expr}
    (h : climb n 0 ts = some (e, closing :: rest)) : operand (n + 1) (opening :: ts) = some (e, rest)
  items_closing {n : Nat} {ts rest : List τ} {e : Expr}
    (h : climb n 0 ts = some (e, closing :: rest)) : items (n + 1) ts = some ([e], rest)
  items_comma {n : Nat} {ts rest : List τ} {e : Expr}
    (h : climb n 0 ts = some (e, comma ++ rest)) : items (n + 1) ts =
      (items n rest).map fun out => (e :: out.1, out.2)
  comma_ne_nil : comma ≠ []
  closes_closing (rest : List τ) : Closes (closing :: rest)
  closes_comma (rest : List τ) : Closes (comma ++ rest)
  joint?_closing (rest : List τ) : joint? (closing :: rest) = none
  joint?_comma (rest : List τ) : joint? (comma ++ rest) = none

namespace Climber

variable {τ κ : Type} (g : Climber τ κ)

/-- The tokens `ts` are an expression that no joint up to `level` takes apart: the reader reads it,
and goes on with the joints behind it. -/
def ReadsAs (ts : List τ) (level : Nat) (e : Expr) : Prop :=
  ∀ least rest out k, least ≤ level → g.Closes rest →
    (∀ j ∈ g.joint? rest, g.level j.1 ≤ level) →
    (∀ n ≥ k, g.extend (n + 1) least e rest = some out) →
    ∀ n ≥ k + 2 * ts.length, g.climb (n + 1) least (ts ++ rest) = some out

def ItemsReadAs (ts : List τ) (es : List Expr) : Prop :=
  ∀ rest, ∀ n ≥ 2 * ts.length + 2, g.items n (ts ++ g.closing :: rest) = some (es, rest)

variable {g} {ts ls rs rest : List τ} {e left : Expr} {es : List Expr} {level other least : Nat}

theorem extend_of_weaker (h : ∀ j ∈ g.joint? rest, g.level j.1 < least) (n : Nat) :
    g.extend (n + 1) least e rest = some (e, rest) := by
  rw [g.extend_succ]
  cases hjoint : g.joint? rest with
  | none => rfl
  | some j => exact if_pos (h j hjoint)

/-- An expression in front of a weaker joint, or of none, is read up to there. -/
theorem ReadsAs.climb_eq (h : g.ReadsAs ts level e) (rest : List τ) (hleast : least ≤ level)
    (closes : g.Closes rest) (hrest : ∀ j ∈ g.joint? rest, g.level j.1 < least) :
    ∀ n ≥ 2 * ts.length + 1, g.climb n least (ts ++ rest) = some (e, rest) := by
  intro n hn
  obtain ⟨n, rfl⟩ := Nat.exists_eq_add_of_le' (show 1 ≤ n by omega)
  refine h least rest _ 0 hleast closes (fun j hj => ?_) (fun m _ => ?_) n (by omega)
  · exact Nat.le_trans (Nat.le_of_lt (hrest j hj)) hleast
  · exact extend_of_weaker hrest m

theorem ReadsAs.climb_closing (h : g.ReadsAs ts level e) (rest : List τ) :
    ∀ n ≥ 2 * ts.length + 1, g.climb n 0 (ts ++ g.closing :: rest) = some (e, g.closing :: rest) :=
  h.climb_eq _ (Nat.zero_le _) (g.closes_closing rest) (by simp [g.joint?_closing])

theorem readsAs_of_operand {k : Nat} (hk : k < 2 * ts.length)
    (h : ∀ rest, g.Closes rest → (∀ j ∈ g.joint? rest, g.level j.1 ≤ level) →
      ∀ n ≥ k, g.operand (n + 1) (ts ++ rest) = some (e, rest)) : g.ReadsAs ts level e := by
  intro least rest out l _ closes hrest hgo n hn
  obtain ⟨n, rfl⟩ := Nat.exists_eq_add_of_le' (show 1 ≤ n by omega)
  rw [g.climb_succ, h rest closes hrest n (by omega)]
  exact hgo n (by omega)

theorem ReadsAs.joint {j : κ} {word : List τ} (hne : word ≠ [])
    (hjoint : ∀ rest, g.joint? (word ++ rest) = some (j, rest))
    (hcloses : ∀ rest, g.Closes (word ++ rest)) (hleft : g.ReadsAs ls level left)
    (hlevel : g.level j ≤ level)
    (h : ∀ rest, g.Closes rest → (∀ i ∈ g.joint? rest, g.level i.1 ≤ g.level j) →
      ∀ n ≥ 2 * rs.length + 2, g.complete n left (rs ++ rest) j = some (e, rest)) :
    g.ReadsAs (ls ++ (word ++ rs)) (g.level j) e := by
  intro least rest out k hleast closes hrest hgo n hn
  have hlength := List.length_pos_iff.mpr hne
  have hextend : ∀ m ≥ k + 2 * rs.length + 2,
      g.extend (m + 1) least left (word ++ (rs ++ rest)) = some out := by
    intro m hm
    obtain ⟨m, rfl⟩ := Nat.exists_eq_add_of_le' (show 1 ≤ m by omega)
    rw [g.extend_succ, hjoint]
    simp only [Nat.not_lt.mpr hleast, if_false]
    rw [h rest closes hrest (m + 1) (by omega)]
    exact hgo m (by omega)
  simp only [List.length_append] at hn
  rw [List.append_assoc, List.append_assoc]
  refine hleft least _ out _ (Nat.le_trans hleast hlevel) (hcloses _) ?_ hextend n (by omega)
  intro i hi
  cases (hjoint _).symm.trans hi
  exact hlevel

theorem ReadsAs.paren (h : g.ReadsAs ts level e) :
    g.ReadsAs (g.opening :: (ts ++ [g.closing])) other e := by
  refine readsAs_of_operand (k := 2 * ts.length + 1) (by simp; omega) fun rest _ _ n hn => ?_
  rw [List.cons_append, List.append_assoc, List.singleton_append]
  exact g.operand_opening (h.climb_closing rest n hn)

theorem ReadsAs.last (h : g.ReadsAs ts level e) : g.ItemsReadAs ts [e] := by
  intro rest n hn
  obtain ⟨n, rfl⟩ := Nat.exists_eq_add_of_le' (show 1 ≤ n by omega)
  exact g.items_closing (h.climb_closing rest n (by omega))

theorem ReadsAs.cons (h : g.ReadsAs ts level e) (hes : g.ItemsReadAs rs es) :
    g.ItemsReadAs (ts ++ (g.comma ++ rs)) (e :: es) := by
  intro rest n hn
  have hlength := List.length_pos_iff.mpr g.comma_ne_nil
  simp only [List.length_append] at hn
  obtain ⟨n, rfl⟩ := Nat.exists_eq_add_of_le' (show 1 ≤ n by omega)
  have hclimb := h.climb_eq (g.comma ++ (rs ++ g.closing :: rest)) (Nat.zero_le _)
    (g.closes_comma _) (by simp [g.joint?_comma]) n (by omega)
  rw [List.append_assoc, List.append_assoc, g.items_comma hclimb, hes rest n (by omega)]
  rfl

end Climber

theorem getElem?_of_prefix_drop {α : Type} {v : α} {vs : List α} {n : Nat} (h : [v] <+: vs.drop n) :
    vs[n]? = some v := by
  obtain ⟨rest, hrest⟩ := h
  have hhead := congrArg List.head? hrest
  rw [List.head?_drop] at hhead
  exact hhead.symm

end RelQuery
