import Mathlib.Data.List.Basic
import RelQuery.Expr.Render
import RelQuery.Proofs.Weaving

/-!
# The values of expressions

The values bound in an expression from left to right, and its raw parts. What is written of an
expression binds exactly these values, whatever the style and the scope.
-/

namespace RelQuery

set_option autoImplicit false

namespace Expr

/-- What holds of an expression when it holds of its operands holds of every expression. -/
@[elab_as_elim]
theorem induction {P : Expr → Prop}
    (column : ∀ table name, P (.column table name))
    (literal : ∀ v, P (.literal v))
    (binary : ∀ op left right, P left → P right → P (.binary op left right))
    (unary : ∀ op operand, P operand → P (.unary op operand))
    (call : ∀ function args, (∀ e ∈ args, P e) → P (.call function args))
    (isIn : ∀ operand values negated, P operand → (∀ e ∈ values, P e) →
      P (.isIn operand values negated))
    (between : ∀ operand low high negated, P operand → P low → P high →
      P (.between operand low high negated))
    (isNull : ∀ operand negated, P operand → P (.isNull operand negated))
    (like : ∀ operand pattern negated caseless, P operand →
      P (.like operand pattern negated caseless))
    (raw : ∀ sql values, P (.raw sql values))
    (paren : ∀ inner, P inner → P (.paren inner))
    (countStar : P .countStar) (e : Expr) : P e := by
  refine @Expr.rec P (fun es => ∀ e ∈ es, P e) column literal binary unary call ?isIn between
    isNull like raw paren countStar ?nil ?cons e
  case isIn => exact fun operand values negated h hs => isIn operand values negated h hs
  case nil => exact fun e he => absurd he List.not_mem_nil
  case cons => exact fun e es he hes => List.forall_mem_cons.mpr ⟨he, hes⟩

mutual

def values : Expr → List Value
  | .column _ _ => []
  | .literal v => [v]
  | .binary _ left right => left.values ++ right.values
  | .unary _ operand => operand.values
  | .call _ args => listValues args
  | .isIn operand list _ => operand.values ++ listValues list
  | .between operand low high _ => operand.values ++ low.values ++ high.values
  | .isNull operand _ => operand.values
  | .like operand pattern _ _ => operand.values ++ [.text pattern]
  | .raw _ vs => vs
  | .paren inner => inner.values
  | .countStar => []

def listValues : List Expr → List Value
  | [] => []
  | e :: rest => e.values ++ listValues rest

end

mutual

def raws : Expr → List (String × List Value)
  | .column _ _ => []
  | .literal _ => []
  | .binary _ left right => left.raws ++ right.raws
  | .unary _ operand => operand.raws
  | .call _ args => listRaws args
  | .isIn operand list _ => operand.raws ++ listRaws list
  | .between operand low high _ => operand.raws ++ low.raws ++ high.raws
  | .isNull operand _ => operand.raws
  | .like operand _ _ _ => operand.raws
  | .raw sql vs => [(sql, vs)]
  | .paren inner => inner.raws
  | .countStar => []

def listRaws : List Expr → List (String × List Value)
  | [] => []
  | e :: rest => e.raws ++ listRaws rest

end

theorem listValues_eq_flatMap (es : List Expr) : listValues es = es.flatMap values := by
  induction es with
  | nil => rfl
  | cons e es ih => rw [listValues, ih, List.flatMap_cons]

theorem listRaws_eq_flatMap (es : List Expr) : listRaws es = es.flatMap raws := by
  induction es with
  | nil => rfl
  | cons e es ih => rw [listRaws, ih, List.flatMap_cons]

/-- Every raw part has a `?` for each of its values. -/
def Balanced (e : Expr) : Prop := ∀ r ∈ e.raws, RawBalanced r.1 r.2

instance (e : Expr) : Decidable e.Balanced :=
  inferInstanceAs (Decidable (∀ r ∈ e.raws, RawBalanced r.1 r.2))

section Fragments

open Fragment (numbered_ofText)

variable (style : Style) (scope : Scope)

@[simp] theorem binds_grouped (parent : Nat) (e : Expr) (f : Fragment) :
    (grouped parent e f).binds = f.binds := by
  unfold grouped
  split
  · split <;> simp
  · rfl

@[simp] theorem numbered_grouped {d : Dialect} (parent : Nat) (e : Expr) {f : Fragment} :
    (grouped parent e f).Numbered d ↔ f.Numbered d := by
  unfold grouped
  split
  · split <;> simp
  · rfl

/-- An expression binds its values, from left to right. -/
@[simp] theorem binds_fragment (e : Expr) : (e.fragment style scope).binds = e.values := by
  induction e using Expr.induction with
  | column table name => rfl
  | literal v => rfl
  | binary op left right hl hr =>
    simp only [fragment, values]
    split <;> simp [hl, hr]
  | unary op operand h =>
    simp only [fragment, values]
    split <;> simp [h]
  | call function args h =>
    simp only [fragment, values, fragments_eq_map, listValues_eq_flatMap]
    simpa [List.flatMap_map] using List.flatMap_congr h
  | isIn operand list negated h hs =>
    simp only [fragment, values, fragments_eq_map, listValues_eq_flatMap]
    simpa [List.flatMap_map, h] using List.flatMap_congr hs
  | between operand low high negated h hlow hhigh =>
    simp [fragment, values, h, hlow, hhigh]
  | isNull operand negated h => simp [fragment, values, h]
  | like operand pattern negated caseless h =>
    simp only [fragment, values]
    split
    · simp [h]
    · split <;> simp [h]
  | raw sql vs => simp [fragment, values]
  | paren inner h => simp [fragment, values, h]
  | countStar => rfl

theorem numbered_fragments {es : List Expr} (hraws : ∀ r ∈ listRaws es, RawBalanced r.1 r.2)
    (h : ∀ e ∈ es, e.Balanced → (e.fragment style scope).Numbered style.dialect) :
    ∀ f ∈ fragments style scope es, f.Numbered style.dialect := by
  rw [fragments_eq_map]
  intro f hf
  obtain ⟨e, he, rfl⟩ := List.mem_map.mp hf
  rw [listRaws_eq_flatMap] at hraws
  exact h e he fun r hr => hraws r (List.mem_flatMap_of_mem he hr)

theorem numbered_fragment {e : Expr} (balanced : e.Balanced) :
    (e.fragment style scope).Numbered style.dialect := by
  induction e using Expr.induction with
  | column table name => exact numbered_ofText _ _
  | literal v => simp [fragment]
  | binary op left right hl hr =>
    obtain ⟨bl, br⟩ := List.forall_mem_append.mp balanced
    simp only [fragment]
    split <;> simp [hl bl, hr br]
  | unary op operand h =>
    simp only [fragment]
    split <;> simp [h balanced]
  | call function args h =>
    have hargs := Fragment.numbered_join ", " (numbered_fragments style scope balanced h)
    simp [fragment, hargs]
  | isIn operand list negated h hs =>
    obtain ⟨b, bs⟩ := List.forall_mem_append.mp balanced
    have hlist := Fragment.numbered_join ", " (numbered_fragments style scope bs hs)
    simp [fragment, h b, hlist]
  | between operand low high negated h hlow hhigh =>
    obtain ⟨hbounds, bhigh⟩ := List.forall_mem_append.mp balanced
    obtain ⟨b, blow⟩ := List.forall_mem_append.mp hbounds
    simp [fragment, h b, hlow blow, hhigh bhigh]
  | isNull operand negated h => simp [fragment, h balanced]
  | like operand pattern negated caseless h =>
    simp only [fragment]
    split
    · simp [h balanced]
    · split <;> simp [h balanced]
  | raw sql vs => exact Fragment.numbered_raw (balanced (sql, vs) (List.mem_singleton.mpr rfl))
  | paren inner h => simp [fragment, h balanced]
  | countStar => exact numbered_ofText _ _

end Fragments

theorem col_eq_column (name : String) : ∃ table rest, col name = .column table rest := by
  unfold col
  split
  · exact ⟨_, _, rfl⟩
  · exact ⟨_, _, rfl⟩

theorem balanced_col (name : String) : (col name).Balanced := by
  obtain ⟨table, rest, h⟩ := col_eq_column name
  rw [h]
  exact fun r hr => absurd hr List.not_mem_nil

end Expr

end RelQuery
