import RelQuery.Error

/-!
# Error hooks

A hook decides what becomes of an error before the caller sees it. A guarded computation hands its
failure to the hook once; when the hook suppresses it, the caller gets a fallback.
-/

namespace RelQuery

set_option autoImplicit false

inductive HookAction where
  | raise (e : Error)
  | suppress

abbrev Hook := Error → HookAction

namespace Hook

def suppressAll : Hook := fun _ => .suppress

def raiseAll : Hook := .raise

def suppressing (p : Error → Bool) : Hook := fun e => if p e then .suppress else .raise e

/-- Raises a text of its own, with the text of the error behind it. -/
def wrapping (head : String) : Hook := fun e => .raise (.custom (head ++ e.text))

def raising (p : Payload) : Hook := fun _ => .raise (.payload p)

end Hook

/-- The error that is left after the hook; none when it is suppressed. -/
def Error.through (hook : Option Hook) (e : Error) : Option Error :=
  match hook with
  | none => some e
  | some hook =>
    match hook e with
    | .raise e => some e
    | .suppress => none

structure Guarded (α : Type) where
  outcome : Except Error α
  seen : List Error

/-- Hands a failure to the hook. A suppressed failure leaves `fallback`. -/
def guarded {α : Type} (hook : Option Hook) (fallback : α) (result : Except Error α) : Guarded α :=
  match result with
  | .ok a => ⟨.ok a, []⟩
  | .error e =>
    ⟨match e.through hook with
      | some e => .error e
      | none => .ok fallback,
    if hook.isSome then [e] else []⟩

def Guarded.map {α β : Type} (f : α → β) (g : Guarded α) : Guarded β :=
  ⟨g.outcome.map f, g.seen⟩

@[simp] theorem guarded_ok {α : Type} (hook : Option Hook) (fallback a : α) :
    guarded hook fallback (.ok a) = ⟨.ok a, []⟩ := rfl

@[simp] theorem guarded_none {α : Type} (fallback : α) (result : Except Error α) :
    guarded none fallback result = ⟨result, []⟩ := by
  cases result <;> rfl

end RelQuery
