/-!
# Numbers of a JSON text

A number without fraction and exponent is an integer where it fits in 64 bits. Any other number is
a double: its leading digits make up a 64-bit significand, further digits count only by their
place, and the significand is scaled by a power of ten.
-/

namespace RelQuery

set_option autoImplicit false

structure NumberText where
  negative : Bool
  whole : List Nat
  fraction : Option (List Nat)
  exponent : Option (Bool × List Nat)
deriving DecidableEq, Repr

inductive Number where
  | int (n : Int)
  | double (bits : UInt64)
deriving DecidableEq, Repr

/-- Appends digits to a number below `bound` as long as it stays below; the rest is returned. -/
def appendDigits (bound : Nat) (n : Nat) : List Nat → Nat × List Nat
  | [] => (n, [])
  | d :: ds => if n * 10 + d < bound then appendDigits bound (n * 10 + d) ds else (n, d :: ds)

def tenTo (e : Nat) : Float := Float.ofScientific 1 false e

/-- Divides by a power of ten, in steps that a double can hold. -/
def divideByTenTo (f : Float) (e : Nat) : Float :=
  if e ≤ 308 then f / tenTo e
  else if f == 0 then f
  else divideByTenTo (f / tenTo 308) (e - 308)
termination_by e

/-- The double nearest to a significand, scaled by a power of ten; none when it is too large. -/
def scaleSignificand? (significand : Nat) (e : Int) : Option Float :=
  let f := significand.toUInt64.toFloat
  if e < 0 then some (divideByTenTo f (-e).toNat)
  else if e ≤ 308 then
    let scaled := f * tenTo e.toNat
    if scaled.isInf then none else some scaled
  else if f == 0 then some f
  else none

def NumberText.double? (t : NumberText) : Option Float :=
  let (head, dropped) := appendDigits UInt64.size 0 t.whole
  let fraction := t.fraction.getD []
  let (significand, unread) := appendDigits UInt64.size head fraction
  let place : Int := (dropped.length : Int) - (fraction.length - unread.length : Nat)
  match t.exponent with
  | none => scaleSignificand? significand place
  | some (negative, digits) =>
    match appendDigits 0x80000000 0 digits with
    | (e, []) => scaleSignificand? significand (if negative then place - e else place + e)
    | _ => if significand = 0 || negative then some 0 else none

def NumberText.read? (t : NumberText) : Option Number :=
  let signed (f : Float) : Number := .double (if t.negative then (-f).toBits else f.toBits)
  match t.fraction, t.exponent, appendDigits UInt64.size 0 t.whole with
  | none, none, (n, []) =>
    if !t.negative then some (.int n)
    else if 0 < n ∧ n ≤ 0x8000000000000000 then some (.int (-n))
    else some (signed n.toUInt64.toFloat)
  | _, _, _ => t.double?.map signed

def doubleBitsOfInt (n : Int) : UInt64 :=
  let f := n.natAbs.toUInt64.toFloat
  if n < 0 then (-f).toBits else f.toBits

end RelQuery
