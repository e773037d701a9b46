import RelQuery.Proofs.Conjuncts
import RelQuery.Proofs.SubSelects

/-!
# Rendering into one list of values

A statement is rendered with one growing list of bound values: whatever binds a value pushes it onto
the list, and its placeholder is the length of the list. What this gives, behind any values that are
bound already, is the fragment of the statement.
-/

namespace RelQuery

set_option autoImplicit false

open Fragment (ofText)

/-- Renders while values are pushed onto those that are bound already. -/
abbrev Rendering := StateT (List Value) (Except Error)

namespace Rendering

def push (d : Dialect) (v : Value) : Rendering String := do
  modify (· ++ [v])
  return d.placeholder (← get).length

/-- Raw text, whose marks outside of string literals take the values one after the other. Values
that are left over are pushed at the end. -/
def renumber (d : Dialect) : Bool → List Char → List Value → Rendering String
  | _, [], values => do
    modify (· ++ values)
    return ""
  | quoted, c :: cs, values =>
    if c = '\'' then do
      let rest ← renumber d (!quoted) cs values
      return "'" ++ rest
    else match quoted, c, values with
      | false, '?', v :: values => do
        let mark ← push d v
        let rest ← renumber d quoted cs values
        return mark ++ rest
      | _, _, values => do
        let rest ← renumber d quoted cs values
        return String.singleton c ++ rest

/-- Gives a result, and pushes some values behind any that are bound already. -/
def Gives {α : Type} (r : Rendering α) (result : Nat → α) (values : List Value) : Prop :=
  ∀ params, r.run params = .ok (result params.length, params ++ values)

def Writes (r : Rendering String) (f : Fragment) : Prop := r.Gives (f.sql ·) f.binds

section Gives

variable {α β : Type} {r : Rendering α} {k : α → Rendering β} {a b : Nat → α} {c : α → Nat → β}
  {vs ws : List Value}

theorem run_bind_ok {x : α} {params after : List Value} (h : r.run params = .ok (x, after)) :
    (r >>= k).run params = (k x).run after := by
  rw [StateT.run_bind, h]
  rfl

theorem run_bind_error {e : Error} {params : List Value} (h : r.run params = .error e) :
    (r >>= k).run params = .error e := by
  rw [StateT.run_bind, h]
  rfl

theorem Gives.pure (x : α) : Gives (pure x) (fun _ => x) [] := by
  intro params
  rw [List.append_nil]
  rfl

theorem Gives.bind (hr : r.Gives a vs) (hk : ∀ x, (k x).Gives (c x) ws) :
    Gives (r >>= k) (fun n => c (a n) (n + vs.length)) (vs ++ ws) := by
  intro params
  rw [run_bind_ok (hr params), hk, List.length_append, List.append_assoc]

theorem Gives.congr (hr : r.Gives a vs) (result : ∀ n, a n = b n) (values : vs = ws) :
    r.Gives b ws := by
  intro params
  rw [hr params, result, values]

theorem gives_push (d : Dialect) (v : Value) :
    Gives (push d v) (fun n => d.placeholder (n + 1)) [v] := by
  intro params
  simp [push]

end Gives

section Texts

variable {r s : Rendering String} {f g h : Fragment}

theorem writes_pure (text : String) : Writes (pure text) (ofText text) :=
  (Gives.pure text).congr (fun n => (Fragment.sql_ofText n text).symm) rfl

theorem writes_push (d : Dialect) (v : Value) : Writes (push d v) [.bind d v] :=
  (gives_push d v).congr (fun n => by simp [Fragment.sql]) (by simp)

theorem Writes.map (hr : Writes r f) {around : String → String}
    (sql : ∀ n, around (f.sql n) = h.sql n) (binds : f.binds = h.binds) :
    Writes (do return around (← r)) h :=
  (hr.bind fun _ => .pure _).congr sql (by rw [binds, List.append_nil])

theorem Writes.map₂ (hr : Writes r f) (hs : Writes s g) {around : String → String → String}
    (sql : ∀ n, around (f.sql n) (g.sql (n + f.binds.length)) = h.sql n)
    (binds : f.binds ++ g.binds = h.binds) :
    Writes (do return around (← r) (← s)) h :=
  (hr.bind fun _ => hs.bind fun _ => .pure _).congr sql (by rw [← binds, List.append_nil])

end Texts

theorem writes_renumber (d : Dialect) (quoted : Bool) (cs : List Char) (values : List Value) :
    Writes (renumber d quoted cs values) (Fragment.rawFrom d quoted cs values) := by
  fun_induction Fragment.rawFrom d quoted cs values with
  | case1 quoted values =>
    intro params
    have hsilent (n : Nat) : Fragment.sql n (values.map Piece.silent) = "" := by
      induction values generalizing n with
      | nil => rfl
      | cons v values ih => exact ih (n + 1)
    have hbinds := Fragment.binds_rawFrom d quoted [] values
    rw [Fragment.rawFrom] at hbinds
    change _ = Except.ok (Fragment.sql params.length (values.map Piece.silent), _)
    rw [hbinds, hsilent]
    rfl
  | case2 quoted cs values ih =>
    unfold renumber
    rw [if_pos rfl]
    exact ih.map (fun _ => rfl) rfl
  | case3 cs v values hmark ih =>
    rw [renumber, if_neg hmark]
    exact (writes_push d v).map₂ ih (fun n => by simp [Fragment.sql]) (by simp)
  | case4 quoted c cs hquote values hother ih =>
    rw [renumber, if_neg hquote]
    · exact ih.map (fun _ => rfl) (by simp)
    · exact hother

end Rendering

namespace Expr

open Rendering (push renumber Writes)

def writtenOperand (parent : Nat) (e : Expr) (text : String) : String :=
  match e with
  | .binary op _ _ => if op.precedence < parent then "(" ++ text ++ ")" else text
  | _ => text

def writtenBinary (d : Dialect) (op : BinaryOp) (lhs rhs : String) : String :=
  match op, d with
  | .concat, .mysql => "CONCAT(" ++ lhs ++ ", " ++ rhs ++ ")"
  | _, _ => lhs ++ " " ++ op.symbol ++ " " ++ rhs

def writtenLike (d : Dialect) (negated caseless : Bool) (text mark : String) : String :=
  match caseless, d.supportsIlike with
  | true, false => "LOWER(" ++ text ++ ") " ++ notWord negated ++ "LIKE LOWER(" ++ mark ++ ")"
  | true, true => text ++ " " ++ notWord negated ++ "ILIKE " ++ mark
  | false, _ => text ++ " " ++ notWord negated ++ "LIKE " ++ mark

variable (style : Style) (scope : Scope)

mutual

def build : Expr → Rendering String
  | .column table name => return style.qualified (scope.resolve table) name
  | .literal v => push style.dialect v
  | .binary op left right => do
    let lhs := writtenOperand op.precedence left (← left.build)
    let rhs := writtenOperand (op.precedence + 1) right (← right.build)
    return writtenBinary style.dialect op lhs rhs
  | .unary op operand => do
    let text := writtenOperand unaryPrecedence operand (← operand.build)
    match op with
    | .not => return "NOT " ++ text
    | .neg => return "-" ++ text
  | .call function args => do
    let texts ← buildAll args
    return function ++ "(" ++ String.intercalate ", " texts ++ ")"
  | .isIn operand values negated => do
    let lhs ← operand.build
    let texts ← buildAll values
    return lhs ++ " " ++ notWord negated ++ "IN (" ++ String.intercalate ", " texts ++ ")"
  | .between operand low high negated => do
    let text ← operand.build
    let lowText ← low.build
    let highText ← high.build
    return text ++ " " ++ notWord negated ++ "BETWEEN " ++ lowText ++ " AND " ++ highText
  | .isNull operand negated => do
    let text ← operand.build
    return text ++ " IS " ++ notWord negated ++ "NULL"
  | .like operand pattern negated caseless => do
    let text ← operand.build
    let mark ← push style.dialect (.text pattern)
    return writtenLike style.dialect negated caseless text mark
  | .raw sql values => renumber style.dialect false sql.toList values
  | .paren inner => do
    let text ← inner.build
    return "(" ++ text ++ ")"
  | .countStar => return "COUNT(*)"

def buildAll : List Expr → Rendering (List String)
  | [] => return []
  | e :: rest => do
    let text ← e.build
    let texts ← buildAll rest
    return text :: texts

end

theorem sql_grouped (parent : Nat) (e : Expr) (f : Fragment) (n : Nat) :
    (grouped parent e f).sql n = writtenOperand parent e (f.sql n) := by
  cases e with
  | binary op left right =>
    rw [grouped, writtenOperand]
    split
    · exact Fragment.sql_paren n f
    · rfl
  | _ => rfl

theorem gives_buildAll (es : List Expr)
    (h : ∀ e ∈ es, Writes (e.build style scope) (e.fragment style scope)) :
    (buildAll style scope es).Gives (Fragment.texts · (fragments style scope es))
      (listValues es) := by
  induction es with
  | nil => exact .pure []
  | cons e es ih =>
    obtain ⟨he, hes⟩ := List.forall_mem_cons.mp h
    unfold buildAll fragments
    refine (he.bind fun _ => (ih hes).bind fun _ => .pure _).congr (fun n => rfl) ?_
    rw [binds_fragment, List.append_nil, listValues]

/-- An expression is rendered as its fragment is written. -/
theorem writes_build (e : Expr) : Writes (e.build style scope) (e.fragment style scope) := by
  induction e using Expr.induction with
  | column table name => exact Rendering.writes_pure _
  | literal v => exact Rendering.writes_push _ _
  | binary op left right hl hr =>
    unfold build fragment
    refine hl.map₂ hr (fun n => ?_) ?_
    · dsimp only
      unfold writtenBinary
      split
      case h_1 => simp [*, Fragment.sql_append, sql_grouped, String.append_assoc]
      case h_2 => simp [Fragment.sql_append, sql_grouped, String.append_assoc]
    · dsimp only
      split <;> simp
  | unary op operand h =>
    unfold build fragment
    cases op with
    | not => exact h.map (fun n => by simp [Fragment.sql_append, sql_grouped]) (by simp)
    | neg => exact h.map (fun n => by simp [Fragment.sql_append, sql_grouped]) (by simp)
  | call function args h =>
    unfold build fragment
    refine ((gives_buildAll style scope args h).bind fun _ => .pure _).congr (fun n => ?_) ?_
    · simp [Fragment.sql_append, Fragment.sql_join, String.append_assoc]
    · simp [fragments_eq_map, listValues_eq_flatMap, List.flatMap_map]
  | isIn operand list negated h hs =>
    unfold build fragment
    refine (h.bind fun _ => (gives_buildAll style scope list hs).bind fun _ => .pure _).congr
      (fun n => ?_) ?_
    · simp [Fragment.sql_append, Fragment.sql_join, String.append_assoc]
    · simp [fragments_eq_map, listValues_eq_flatMap, List.flatMap_map]
  | between operand low high negated h hlow hhigh =>
    unfold build fragment
    refine (h.bind fun _ => hlow.bind fun _ => hhigh.bind fun _ => .pure _).congr (fun n => ?_) ?_
    · simp [Fragment.sql_append, String.append_assoc, Nat.add_assoc]
    · simp
  | isNull operand negated h =>
    unfold build fragment
    exact h.map (fun n => by simp [Fragment.sql_append, String.append_assoc]) (by simp)
  | like operand pattern negated caseless h =>
    unfold build fragment
    refine h.map₂ (Rendering.writes_push style.dialect (.text pattern)) (fun n => ?_) ?_
    · unfold writtenLike
      cases caseless with
      | false => simp [Fragment.sql_append, Fragment.sql, String.append_assoc]
      | true =>
        cases style.dialect.supportsIlike with
        | false => simp [Fragment.sql_append, Fragment.sql, String.append_assoc]
        | true => simp [Fragment.sql_append, Fragment.sql, String.append_assoc]
    · dsimp only
      split
      · simp
      · split <;> simp
  | raw sql values => exact Rendering.writes_renumber _ _ _ _
  | paren inner h =>
    unfold build fragment
    exact h.map (fun n => (Fragment.sql_paren n _).symm) (Fragment.binds_paren _).symm
  | countStar => exact Rendering.writes_pure _

end Expr
end RelQuery
