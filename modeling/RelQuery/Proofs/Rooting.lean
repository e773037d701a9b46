import RelQuery.Proofs.ReadBack
import RelQuery.Proofs.Spelling
import RelQuery.Proofs.TextReader

/-!
# Roots

Expressions over columns of the root are written alike in all scopes, but for the root in front of
the dots. Whatever the root is, two texts that are the same with it are the same without it.
-/

namespace RelQuery

set_option autoImplicit false

def withRoot (root cs : List Char) : List Char :=
  cs.flatMap fun c => if c = '.' then root ++ ['.'] else [c]

theorem withRoot_append (root xs ys : List Char) :
    withRoot root (xs ++ ys) = withRoot root xs ++ withRoot root ys := List.flatMap_append

theorem withRoot_singleton (root : List Char) (c : Char) :
    ∃ front, withRoot root [c] = front ++ [c] := by
  by_cases hc : c = '.'
  · exact ⟨root, by simp [withRoot, hc]⟩
  · exact ⟨[], by simp [withRoot, hc]⟩

theorem withRoot_injective (root : List Char) : Function.Injective (withRoot root) := by
  -- from the end, since the root may start like any text
  intro xs
  induction xs using List.reverseRecOn with
  | nil =>
    intro ys h
    rcases List.eq_nil_or_concat' ys with rfl | ⟨ys, y, rfl⟩
    · rfl
    · obtain ⟨front, hy⟩ := withRoot_singleton root y
      rw [withRoot_append, hy] at h
      simp [withRoot] at h
  | append_singleton xs x ih =>
    intro ys h
    obtain ⟨front, hx⟩ := withRoot_singleton root x
    rcases List.eq_nil_or_concat' ys with rfl | ⟨ys, y, rfl⟩
    · rw [withRoot_append, hx] at h
      simp [withRoot] at h
    · obtain ⟨front', hy⟩ := withRoot_singleton root y
      have hlast : x = y := by
        have hends := congrArg List.getLast? h
        simpa [withRoot_append, hx, hy] using hends
      subst hlast
      rw [withRoot_append, withRoot_append] at h
      rw [ih (List.append_cancel_right h)]

def isUnrooted (c : Char) : Bool := c != '.' && c != '"'

/-- A text without dots and quotes is the same under every root. -/
theorem kept_eq_withRoot (root : List Char) {s : String} (h : s.toList.all isUnrooted = true) :
    kept (· != '"') s = withRoot root s.toList := by
  unfold kept
  generalize s.toList = cs at h
  induction cs with
  | nil => rfl
  | cons c cs ih =>
    obtain ⟨hc, hcs⟩ := Bool.and_eq_true_iff.mp h
    obtain ⟨hdot, hquote⟩ := Bool.and_eq_true_iff.mp hc
    have hdot : c ≠ '.' := bne_iff_ne.mp hdot
    rw [List.filter_cons, if_pos hquote, ih hcs, withRoot, withRoot, List.flatMap_cons, if_neg hdot]
    rfl

theorem isUnrooted_of_isIdentRest {c : Char} (h : isIdentRest c = true) : isUnrooted c = true := by
  by_contra hc
  have hcases : c = '.' ∨ c = '"' := by
    by_contra hnone
    rw [not_or] at hnone
    simp [isUnrooted, hnone] at hc
  rcases hcases with rfl | rfl <;> exact absurd h (by decide)

theorem isUnrooted_of_isIdentifier {name : String} (h : isIdentifier name = true) :
    name.toList.all isUnrooted = true := by
  rw [List.all_eq_true]
  intro c hc
  exact isUnrooted_of_isIdentRest (TextReader.isIdentRest_of_isIdentifier h c hc)

namespace Fragment

/-- Without quotes, the text of the one is that of the other with a root in front of every dot. -/
def Rooted (root : List Char) (f g : Fragment) : Prop :=
  f.binds = g.binds ∧ ∀ n, kept (· != '"') (f.sql n) = withRoot root (g.sql n).toList

variable {root : List Char} {f g f' g' : Fragment} {d : Dialect}

theorem Rooted.append (hf : f.Rooted root f') (hg : g.Rooted root g') :
    (f ++ g).Rooted root (f' ++ g') := by
  constructor
  · rw [binds_append, binds_append, hf.1, hg.1]
  · intro n
    rw [sql_append, sql_append, kept_append, String.toList_append, withRoot_append, hf.2, hg.2,
      hf.1]

theorem rooted_ofText {s : String} (h : s.toList.all isUnrooted = true) :
    (ofText s).Rooted root (ofText s) := by
  refine ⟨rfl, fun n => ?_⟩
  rw [sql_ofText]
  exact kept_eq_withRoot root h

theorem Rooted.paren (h : f.Rooted root g) : f.paren.Rooted root g.paren :=
  ((rooted_ofText (by decide)).append h).append (rooted_ofText (by decide))

theorem rooted_join {fs gs : List Fragment} (h : List.Forall₂ (Rooted root) fs gs) :
    Rooted root (join ", " fs) (join ", " gs) := by
  induction h with
  | nil => exact ⟨rfl, fun _ => rfl⟩
  | cons h hrest ih =>
    cases hrest with
    | nil => exact h
    | cons h' hrest => exact (h.append (rooted_ofText (by decide))).append ih

theorem rooted_bind (hd : d ≠ .mysql) (v : Value) : Rooted root [.bind d v] [.bind d v] := by
  refine ⟨rfl, fun n => ?_⟩
  have hsql : sql n [.bind d v] = d.placeholder (n + 1) := by simp [sql]
  rw [hsql]
  apply kept_eq_withRoot
  obtain ⟨c, hc, htext⟩ := TextReader.exists_mark hd (n + 1)
  rw [htext, Nat.toString_eq_ofList_toDigits, String.toList_ofList]
  rw [List.all_eq_true]
  intro a ha
  rcases List.mem_cons.mp ha with rfl | ha
  · rcases hc with rfl | rfl <;> rfl
  · have hdigit : a.isDigit = true := Nat.isDigit_of_mem_toDigits (by decide) (by decide) ha
    apply isUnrooted_of_isIdentRest
    simp [isIdentRest, Char.isAlphanum, hdigit]

end Fragment

namespace Expr

open Fragment (ofText Rooted rooted_ofText rooted_join rooted_bind)

variable {d : Dialect} {root : List Char} {scope : Scope} {e : Expr}

/-- The expressions without raw parts and given parentheses, over columns of the root. All names
are identifiers. -/
inductive Plain : Expr → Prop where
  | column {name : String} (identifier : isIdentifier name = true) : Plain (.column none name)
  | literal (v : Value) : Plain (.literal v)
  | binary (op : BinaryOp) {left right : Expr} (hleft : Plain left) (hright : Plain right) :
    Plain (.binary op left right)
  | unary (op : UnaryOp) {operand : Expr} (h : Plain operand) : Plain (.unary op operand)
  | call {function : String} {args : List Expr} (identifier : isIdentifier function = true)
    (hargs : ∀ e ∈ args, Plain e) : Plain (.call function args)
  | isIn {operand : Expr} {values : List Expr} (negated : Bool) (h : Plain operand)
    (hvalues : ∀ e ∈ values, Plain e) : Plain (.isIn operand values negated)
  | between {operand low high : Expr} (negated : Bool) (h : Plain operand) (hlow : Plain low)
    (hhigh : Plain high) : Plain (.between operand low high negated)
  | isNull {operand : Expr} (negated : Bool) (h : Plain operand) : Plain (.isNull operand negated)
  | like {operand : Expr} (pattern : String) (negated caseless : Bool) (h : Plain operand) :
    Plain (.like operand pattern negated caseless)
  | countStar : Plain .countStar

def bare : Scope := Scope.ofRoot ""

theorem rooted_append_notWord {f g : Fragment} (h : f.Rooted root g) (negated : Bool)
    (front behind : String) (hfront : front.toList.all isUnrooted = true)
    (hbehind : behind.toList.all isUnrooted = true) :
    (f ++ ofText (front ++ notWord negated ++ behind)).Rooted root
      (g ++ ofText (front ++ notWord negated ++ behind)) := by
  have hword : (notWord negated).toList.all isUnrooted = true := by
    cases negated <;> decide
  apply h.append
  apply rooted_ofText
  rw [String.toList_append, String.toList_append, List.all_append, List.all_append, hfront, hword,
    hbehind]
  rfl

theorem rooted_grouped {f g : Fragment} (h : f.Rooted root g) (parent : Nat) (e : Expr) :
    (grouped parent e f).Rooted root (grouped parent e g) := by
  unfold grouped
  split
  · split
    · exact h.paren
    · exact h
  · exact h

theorem rooted_column {name : String} (identifier : isIdentifier name = true) :
    ((column none name).fragment ⟨d, false⟩ scope).Rooted (kept (· != '"') scope.root)
      ((column none name).fragment ⟨d, false⟩ bare) := by
  refine ⟨rfl, fun n => ?_⟩
  have hname := kept_eq_withRoot (kept (· != '"') scope.root)
    (isUnrooted_of_isIdentifier identifier)
  have hsql (s : Scope) :
      ((column none name).fragment ⟨d, false⟩ s).sql n = s.root ++ ("." ++ name) := by
    simp [fragment, Style.qualified, Style.ident, String.append_assoc]
  rw [hsql, hsql, kept_append, kept_append, hname, String.toList_append, String.toList_append,
    withRoot_append, withRoot_append]
  simp [bare, Scope.ofRoot, withRoot, kept]

theorem rooted_list {es : List Expr}
    (h : ∀ a ∈ es, (a.fragment ⟨d, false⟩ scope).Rooted root (a.fragment ⟨d, false⟩ bare)) :
    Rooted root (Fragment.join ", " (fragments ⟨d, false⟩ scope es))
      (Fragment.join ", " (fragments ⟨d, false⟩ bare es)) := by
  rw [fragments_eq_map, fragments_eq_map]
  apply rooted_join
  rw [List.forall₂_map_left_iff, List.forall₂_map_right_iff]
  exact List.forall₂_same.mpr h

theorem rooted_fragment (hd : d ≠ .mysql) (plain : e.Plain) :
    (e.fragment ⟨d, false⟩ scope).Rooted (kept (· != '"') scope.root)
      (e.fragment ⟨d, false⟩ bare) := by
  induction plain with
  | column identifier => exact rooted_column identifier
  | literal v => exact rooted_bind hd v
  | binary op _ _ ihleft ihright =>
    have hsymbol : (" " ++ op.symbol ++ " ").toList.all isUnrooted = true := by
      cases op <;> decide
    rw [fragment_binary hd, fragment_binary hd]
    exact ((rooted_grouped ihleft _ _).append (rooted_ofText hsymbol)).append
      (rooted_grouped ihright _ _)
  | unary op _ ih =>
    have hoperand := rooted_grouped ih unaryPrecedence
    cases op with
    | not => exact (rooted_ofText (by decide)).append (hoperand _)
    | neg => exact (rooted_ofText (by decide)).append (hoperand _)
  | @call function args identifier _ ih =>
    have hfunction : (function ++ "(").toList.all isUnrooted = true := by
      rw [String.toList_append, List.all_append, isUnrooted_of_isIdentifier identifier]
      rfl
    exact ((rooted_ofText hfunction).append (rooted_list ih)).append (rooted_ofText (by decide))
  | @isIn operand values negated _ _ ih ihvalues =>
    have hleft := rooted_append_notWord ih negated " " "IN (" (by decide) (by decide)
    exact (hleft.append (rooted_list ihvalues)).append (rooted_ofText (by decide))
  | between negated _ _ _ ih ihlow ihhigh =>
    have hleft := rooted_append_notWord ih negated " " "BETWEEN " (by decide) (by decide)
    exact ((hleft.append ihlow).append (rooted_ofText (by decide))).append ihhigh
  | isNull negated _ ih =>
    exact rooted_append_notWord ih negated " IS " "NULL" (by decide) (by decide)
  | like pattern negated caseless _ ih =>
    have hmatch := rooted_append_notWord ih negated " "
    have hpattern : Rooted (kept (· != '"') scope.root) [.bind d (.text pattern)]
        [.bind d (.text pattern)] := rooted_bind hd _
    simp only [fragment]
    split
    · exact (hmatch "LIKE " (by decide) (by decide)).append hpattern
    · split
      · exact (hmatch "ILIKE " (by decide) (by decide)).append hpattern
      · have hlower : "LOWER(".toList.all isUnrooted = true := by decide
        have hleft := rooted_append_notWord ((rooted_ofText hlower).append ih) negated ") "
          "LIKE LOWER(" (by decide) (by decide)
        exact (hleft.append hpattern).append (rooted_ofText (by decide))
  | countStar => exact rooted_ofText (by decide)

end Expr

end RelQuery
