import Mathlib.Data.List.SplitBy
import RelQuery.Expr.Basic
import RelQuery.Text.Identifier

/-!
# Tokens

The tokens of a text of SQL: words, runs of operator characters, and single marks. Blanks only
separate. A text that starts or ends in a mark or a blank can be cut there, and the tokens of its
parts are those of the whole.
-/

namespace RelQuery

set_option autoImplicit false

def isOperatorChar (c : Char) : Bool := ['=', '<', '>', '+', '-', '*', '/', '|'].contains c

def isMark (c : Char) : Bool := !isIdentRest c && !isOperatorChar c

def joined (a b : Char) : Bool :=
  isIdentRest a && isIdentRest b || isOperatorChar a && isOperatorChar b

inductive Token where
  | word (s : String)
  | operator (s : String)
  | mark (c : Char)
deriving DecidableEq, Repr

namespace Token

/-- The token of a run of joined characters; none when it is a blank. -/
def ofRun : List Char → Option Token
  | [] => none
  | c :: cs =>
    if isIdentRest c then some (.word (String.ofList (c :: cs)))
    else if isOperatorChar c then some (.operator (String.ofList (c :: cs)))
    else if c = ' ' then none
    else some (.mark c)

def op? : Token → Option BinaryOp
  | .word s | .operator s => BinaryOp.all.find? (·.symbol = s)
  | .mark _ => none

end Token

def tokens (s : String) : List Token := (s.toList.splitBy joined).filterMap Token.ofRun

/-- The last character of one text and the first of another are not parts of one token. -/
def Apart (s t : String) : Prop := ∀ a ∈ s.toList.getLast?, ∀ b ∈ t.toList.head?, joined a b = false

variable {s t : String}

theorem joined_mark_left {a : Char} (h : isMark a = true) (b : Char) : joined a b = false := by
  simp only [isMark, Bool.and_eq_true, Bool.not_eq_true'] at h
  simp [joined, h.1, h.2]

theorem joined_mark_right {b : Char} (h : isMark b = true) (a : Char) : joined a b = false := by
  simp only [isMark, Bool.and_eq_true, Bool.not_eq_true'] at h
  simp [joined, h.1, h.2]

theorem apart_of_getLast (h : ∀ a ∈ s.toList.getLast?, isMark a = true) (t : String) : Apart s t :=
  fun a ha b _ => joined_mark_left (h a ha) b

theorem apart_of_head (s : String) (h : ∀ b ∈ t.toList.head?, isMark b = true) : Apart s t :=
  fun a _ b hb => joined_mark_right (h b hb) a

theorem tokens_append (h : Apart s t) : tokens (s ++ t) = tokens s ++ tokens t := by
  rw [tokens, String.toList_append, List.splitBy_append h, List.filterMap_append]
  rfl

/-- A text between marks or blanks has its tokens between those of the texts around it. -/
theorem tokens_between {p : String} (s t : String) (hne : p ≠ "")
    (hhead : ∀ b ∈ p.toList.head?, isMark b = true)
    (hlast : ∀ a ∈ p.toList.getLast?, isMark a = true) :
    tokens (s ++ p ++ t) = tokens s ++ tokens p ++ tokens t := by
  have hends : Apart (s ++ p) t := by
    refine apart_of_getLast (fun a ha => ?_) t
    have hp : p.toList ≠ [] := by simpa using hne
    rw [String.toList_append, List.getLast?_append_of_ne_nil _ hp] at ha
    exact hlast a ha
  rw [tokens_append hends, tokens_append (apart_of_head s hhead)]

theorem tokens_word {cs : List Char} (hne : cs ≠ []) (h : ∀ c ∈ cs, isIdentRest c = true) :
    tokens (String.ofList cs) = [.word (String.ofList cs)] := by
  have hpairs : ∀ a ∈ cs, ∀ b ∈ cs, joined a b = true := by
    intro a ha b hb
    simp [joined, h a ha, h b hb]
  have hchain : cs.IsChain fun a b => joined a b :=
    (List.pairwise_of_forall_mem_list hpairs).isChain
  rw [tokens, String.toList_ofList, List.splitBy_of_isChain hne hchain]
  cases cs with
  | nil => exact absurd rfl hne
  | cons c cs => simp [Token.ofRun, h c List.mem_cons_self]

theorem tokens_identifier (h : isIdentifier s = true) : tokens s = [.word s] := by
  unfold isIdentifier at h
  cases hs : s.toList with
  | nil => simp [hs, isIdentifierChars] at h
  | cons c cs =>
    simp only [hs, isIdentifierChars, Bool.and_eq_true, List.all_eq_true] at h
    have hrest : ∀ x ∈ c :: cs, isIdentRest x = true :=
      List.forall_mem_cons.mpr ⟨isIdentStart_isIdentRest h.1, h.2⟩
    have hword := tokens_word (List.cons_ne_nil c cs) hrest
    rwa [← hs, String.ofList_toList] at hword

theorem tokens_toString (n : Nat) : tokens (toString n) = [.word (toString n)] := by
  rw [Nat.toString_eq_ofList_toDigits]
  refine tokens_word Nat.toDigits_ne_nil fun c hc => ?_
  have hdigit : c.isDigit = true := Nat.isDigit_of_mem_toDigits (by decide) (by decide) hc
  simp [isIdentRest, Char.isAlphanum, hdigit]

theorem exists_token (op : BinaryOp) : ∃ t : Token, t.op? = some op ∧
    ∀ s u, tokens (s ++ (" " ++ op.symbol ++ " ") ++ u) = tokens s ++ t :: tokens u := by
  have hhead : ∀ b ∈ (" " ++ op.symbol ++ " ").toList.head?, isMark b = true := by
    cases op <;> (rintro _ ⟨⟩; rfl)
  have hlast : ∀ a ∈ (" " ++ op.symbol ++ " ").toList.getLast?, isMark a = true := by
    cases op <;> (rintro _ ⟨⟩; rfl)
  have htoken : ∃ t : Token, tokens (" " ++ op.symbol ++ " ") = [t] ∧ t.op? = some op := by
    cases op <;> exact ⟨_, rfl, rfl⟩
  obtain ⟨t, ht, hop⟩ := htoken
  refine ⟨t, hop, fun s u => ?_⟩
  rw [tokens_between s u (by cases op <;> decide) hhead hlast, ht, List.append_assoc]
  rfl

end RelQuery
