/-!
# Shortest decimals

The fewest decimal digits that read back as a given double, and of those the nearest. A finite
positive double is `m * 2 ^ q`; the reals that round to it form an interval that holds its ends
exactly when `m` is even. On the grids of 1, 2, … 17 digits the two neighbours of the double are
tried, and the first grid with a neighbour in the interval wins.
-/

namespace RelQuery

set_option autoImplicit false

structure Decimal where
  digits : Nat
  exponent : Int
deriving DecidableEq, Repr

/-- A finite positive double `m * 2 ^ q`, with the half-gaps to its neighbours counted in quarters
of `2 ^ q`: two above, and two or one below. -/
structure Binary where
  m : Nat
  q : Int
  below : Nat

/-- The double of the given bits, its sign apart; none for infinities and for what is no number. -/
def Binary.ofBits? (bits : UInt64) : Option Binary :=
  let fraction : Nat := bits.toNat % 0x10000000000000
  let exponent : Nat := bits.toNat / 0x10000000000000 % 0x800
  if exponent = 2047 then none
  else if exponent = 0 then some ⟨fraction, -1074, 2⟩
  else
    let below := if fraction = 0 ∧ 1 < exponent then 1 else 2
    some ⟨0x10000000000000 + fraction, exponent - 1075, below⟩

def scaled (n b : Nat) (e : Int) : Nat × Nat := (n * b.pow e.toNat, b.pow (-e).toNat)

def compareQuarters (a : Nat) (e : Int) (k : Nat) (q : Int) : Ordering :=
  let left := scaled (4 * a) 10 e
  let right := scaled k 2 q
  compare (left.1 * right.2) (right.1 * left.2)

def Binary.reads (x : Binary) (a : Nat) (e : Int) : Bool :=
  let low := compareQuarters a e (4 * x.m - x.below) x.q
  let high := compareQuarters a e (4 * x.m + 2) x.q
  if x.m % 2 = 0 then low != .lt && high != .gt else low == .gt && high == .lt

def Binary.floorAt (x : Binary) (e : Int) : Nat :=
  let value := scaled x.m 2 x.q
  let unit := scaled 1 10 e
  value.1 * unit.2 / (value.2 * unit.1)

/-- The neighbour of the double on the grid of `10 ^ e` that reads back, the nearer one if both do
and the even one if both are as near. -/
def Binary.onGrid? (x : Binary) (e : Int) : Option Nat :=
  let a := x.floorAt e
  match x.reads a e && 0 < a, x.reads (a + 1) e with
  | true, true =>
    match compareQuarters (2 * a + 1) e (8 * x.m) x.q with
    | .lt => some (a + 1)
    | .gt => some a
    | .eq => some (if a % 2 = 0 then a else a + 1)
  | true, false => some a
  | false, true => some (a + 1)
  | false, false => none

def digitCount (n : Nat) : Nat := (Nat.toDigits 10 n).length

def Binary.leading (x : Binary) : Int :=
  let value := scaled x.m 2 x.q
  let whole := value.1 / value.2
  if 0 < whole then digitCount whole - 1
  else
    let scale := digitCount value.2
    digitCount (value.1 * Nat.pow 10 scale / value.2) - 1 - scale

def stripZeros : Nat → Decimal → Decimal
  | 0, d => d
  | fuel + 1, d =>
    if d.digits % 10 = 0 ∧ 0 < d.digits then stripZeros fuel ⟨d.digits / 10, d.exponent + 1⟩ else d

/-- The shortest decimal that reads back as a positive double. -/
def Binary.shortest (x : Binary) : Decimal :=
  let top := x.leading
  let found := (List.range 17).findSome? fun (n : Nat) =>
    (x.onGrid? (top - n)).map fun a => Decimal.mk a (top - n)
  stripZeros 20 (found.getD ⟨x.floorAt (top - 16), top - 16⟩)

/-- The text of a decimal: positional while the point stands within the first sixteen digits or
four zeros behind it, and otherwise with an exponent. -/
def Decimal.text (d : Decimal) : String :=
  let digits := Nat.toDigits 10 d.digits
  let n := digits.length
  let point : Int := n + d.exponent
  let zeros (k : Int) : List Char := List.replicate k.toNat '0'
  String.ofList <|
    if 0 ≤ d.exponent ∧ point ≤ 16 then digits ++ zeros d.exponent ++ ['.', '0']
    else if 0 < point ∧ point ≤ 16 then
      digits.take point.toNat ++ ['.'] ++ digits.drop point.toNat
    else if -5 < point ∧ point ≤ 0 then ['0', '.'] ++ zeros (-point) ++ digits
    else
      let fraction := if n = 1 then [] else '.' :: digits.drop 1
      digits.take 1 ++ fraction ++ ['e'] ++ (toString (point - 1)).toList

def doubleText? (bits : UInt64) : Option String :=
  let sign := if bits.toNat / 0x8000000000000000 = 1 then "-" else ""
  (Binary.ofBits? bits).map fun x =>
    sign ++ (if x.m = 0 then "0.0" else x.shortest.text)

end RelQuery
