import RelQuery.Proofs.BindOrder

/-!
# Spelling

Two styles spell alike up to some characters when identifiers do, and when either the dialects are
the same or no character counts. What is written in such styles binds the same values, and its text
is the same up to those characters.
-/

namespace RelQuery

set_option autoImplicit false

open Fragment (ofText)

def kept (keep : Char → Bool) (s : String) : List Char := s.toList.filter keep

@[simp] theorem kept_append (keep : Char → Bool) (s t : String) :
    kept keep (s ++ t) = kept keep s ++ kept keep t := by
  simp [kept]

theorem kept_eq_nil {keep : Char → Bool} (h : ∀ c, keep c = false) (s : String) :
    kept keep s = [] := by
  simp [kept, h]

theorem kept_quoteWith (quote : Char) (name : String) :
    kept (· != quote) (quoteWith quote name) = kept (· != quote) name := by
  have hbody (cs : List Char) :
      (doubleQuotes quote cs).filter (· != quote) = cs.filter (· != quote) := by
    induction cs with
    | nil => rfl
    | cons c cs ih =>
      rw [doubleQuotes_cons]
      by_cases hc : c = quote
      · simp [hc, ih]
      · simp [hc, ih]
  simp [kept, hbody]

/-- Two styles spell alike up to the characters that `keep` leaves out. -/
structure Style.Alike (keep : Char → Bool) (s t : Style) : Prop where
  ident : ∀ name, kept keep (s.ident name) = kept keep (t.ident name)
  dialect : s.dialect = t.dialect ∨ ∀ c, keep c = false

namespace Style

variable {keep : Char → Bool} {s t : Style}

theorem Alike.qualified (h : s.Alike keep t) (owner column : String) :
    kept keep (s.qualified owner column) = kept keep (t.qualified owner column) := by
  simp [Style.qualified, h.ident]

theorem alike_nothing (s t : Style) : s.Alike (fun _ => false) t where
  ident name := by rw [kept_eq_nil fun _ => rfl, kept_eq_nil fun _ => rfl]
  dialect := .inr fun _ => rfl

theorem alike_quotes (d : Dialect) (a b : Bool) :
    Style.Alike (· != d.quoteChar) ⟨d, a⟩ ⟨d, b⟩ where
  ident name := by
    have hident (q : Bool) :
        kept (· != d.quoteChar) (Style.ident ⟨d, q⟩ name) = kept (· != d.quoteChar) name := by
      cases q with
      | true => exact kept_quoteWith d.quoteChar name
      | false => rfl
    rw [hident, hident]
  dialect := .inl rfl

end Style

namespace Fragment

/-- Fragments that bind the same values, and whose texts are the same up to the characters that
`keep` leaves out. -/
def Alike (keep : Char → Bool) (f g : Fragment) : Prop :=
  f.binds = g.binds ∧ ∀ n, kept keep (f.sql n) = kept keep (g.sql n)

variable {keep : Char → Bool} {f g f' g' : Fragment}

@[refl] theorem Alike.refl (keep : Char → Bool) (f : Fragment) : f.Alike keep f :=
  ⟨rfl, fun _ => rfl⟩

theorem alike_of_binds (h : ∀ c, keep c = false) (hbinds : f.binds = g.binds) : f.Alike keep g :=
  ⟨hbinds, fun n => by rw [kept_eq_nil h, kept_eq_nil h]⟩

theorem alike_ofText {s t : String} (h : kept keep s = kept keep t) :
    (ofText s).Alike keep (ofText t) :=
  ⟨rfl, fun n => by simp [ofText, sql, h]⟩

theorem Alike.append (hf : f.Alike keep f') (hg : g.Alike keep g') :
    (f ++ g).Alike keep (f' ++ g') := by
  constructor
  · rw [binds_append, binds_append, hf.1, hg.1]
  · intro n
    rw [sql_append, sql_append, kept_append, kept_append, hf.2, hf.1, hg.2]

theorem Alike.append_left (h : f.Alike keep g) (p : Fragment) : (p ++ f).Alike keep (p ++ g) :=
  (Alike.refl keep p).append h

theorem Alike.append_right (h : f.Alike keep g) (p : Fragment) : (f ++ p).Alike keep (g ++ p) :=
  h.append (.refl keep p)

theorem Alike.paren (h : f.Alike keep g) : f.paren.Alike keep g.paren :=
  (h.append_left _).append_right _

theorem alike_flatten {fs gs : List Fragment} (h : List.Forall₂ (Alike keep) fs gs) :
    Alike keep fs.flatten gs.flatten := by
  induction h with
  | nil => exact .refl keep _
  | cons h _ ih => exact h.append ih

theorem alike_join (separator : String) {fs gs : List Fragment}
    (h : List.Forall₂ (Alike keep) fs gs) : Alike keep (join separator fs) (join separator gs) := by
  induction h with
  | nil => exact .refl keep _
  | cons h hrest ih =>
    cases hrest with
    | nil => exact h
    | cons h' hrest => exact (h.append_right _).append ih

theorem alike_clause (keyword separator : String) {fs gs : List Fragment}
    (h : List.Forall₂ (Alike keep) fs gs) :
    Alike keep (clause keyword separator fs) (clause keyword separator gs) := by
  unfold clause
  cases h with
  | nil => exact .refl keep _
  | cons h hrest => exact (alike_join separator (.cons h hrest)).append_left _

theorem forall₂_map {α : Type} {as : List α} {fragment fragment' : α → Fragment}
    (h : ∀ a ∈ as, (fragment a).Alike keep (fragment' a)) :
    List.Forall₂ (Alike keep) (as.map fragment) (as.map fragment') := by
  rw [List.forall₂_map_left_iff, List.forall₂_map_right_iff]
  exact List.forall₂_same.mpr h

end Fragment

section Expressions

variable {keep : Char → Bool} {s t : Style}

open Fragment (Alike alike_ofText alike_join forall₂_map)

theorem Expr.alike_grouped {f g : Fragment} (h : f.Alike keep g) (parent : Nat) (e : Expr) :
    (grouped parent e f).Alike keep (grouped parent e g) := by
  unfold grouped
  split
  · split
    · exact h.paren
    · exact h
  · exact h

theorem Expr.alike_fragment (h : s.Alike keep t) (scope : Scope) (e : Expr) :
    (e.fragment s scope).Alike keep (e.fragment t scope) := by
  rcases h.dialect with hd | hnone
  · induction e using Expr.induction with
    | column table name => exact alike_ofText (h.qualified _ _)
    | literal v =>
      rw [fragment, fragment, hd]
    | binary op left right hl hr =>
      have hlhs := alike_grouped hl op.precedence left
      have hrhs := alike_grouped hr (op.precedence + 1) right
      simp only [fragment, hd]
      split
      · exact (((hlhs.append_left _).append_right _).append hrhs).append_right _
      · exact (hlhs.append_right _).append hrhs
    | unary op operand ih =>
      have hf := alike_grouped ih unaryPrecedence operand
      simp only [fragment]
      split
      · exact hf.append_left _
      · exact hf.append_left _
    | call function args ih =>
      simp only [fragment, fragments_eq_map]
      exact ((alike_join ", " (forall₂_map ih)).append_left _).append_right _
    | isIn operand list negated ih ihs =>
      simp only [fragment, fragments_eq_map]
      exact ((ih.append_right _).append (alike_join ", " (forall₂_map ihs))).append_right _
    | between operand low high negated ih ihlow ihhigh =>
      exact (((ih.append_right _).append ihlow).append_right _).append ihhigh
    | isNull operand negated ih => exact ih.append_right _
    | like operand pattern negated caseless ih =>
      simp only [fragment, hd]
      split
      · exact (ih.append_right _).append_right _
      · split
        · exact (ih.append_right _).append_right _
        · exact (((ih.append_left _).append_right _).append_right _).append_right _
    | raw sql vs => rw [fragment, fragment, hd]
    | paren inner ih => exact ih.paren
    | countStar => exact .refl keep _
  · exact Fragment.alike_of_binds hnone (by rw [binds_fragment, binds_fragment])

end Expressions

end RelQuery
