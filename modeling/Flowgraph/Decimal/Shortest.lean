/-!
# Shortest decimals

A finite float stands for the interval of reals that round to it. Its shortest decimal is
found by exact arithmetic: of all grids of multiples of a power of ten, the coarsest one that
meets the interval is taken, and on it the point nearest to the float's own value. A tie
between two points goes to the larger one.
-/

namespace Flowgraph.Decimal

/-- A finite, positive binary value `mantissa * 2 ^ exponent`. -/
structure Binary where
  mantissa : Nat
  exponent : Int
  /-- The value below lies half as far away as the value above. -/
  narrowBelow : Bool
  deriving Repr, DecidableEq

/-- A decimal numeral `digits * 10 ^ exponent`. -/
structure Numeral where
  digits : Nat
  exponent : Int
  deriving Repr, DecidableEq

/-- The magnitude that the bits of a finite float stand for. -/
def Binary.ofBits (bits : UInt64) : Binary :=
  let biased := ((bits >>> 52) &&& 0x7FF).toNat
  let fraction := (bits &&& 0xFFFFFFFFFFFFF).toNat
  if biased = 0 then ⟨fraction, -1074, false⟩
  else ⟨Nat.pow 2 52 + fraction, (biased : Int) - 1075, fraction = 0 ∧ 1 < biased⟩

/-- A binary value and the ends of its interval, in units of a quarter of the last binary
place, over the common scale of one decimal grid: `value / unit`, `low / unit` and
`high / unit` count grid steps. -/
structure Scaled where
  low : Nat
  value : Nat
  high : Nat
  unit : Nat
  /-- The ends of the interval belong to it. -/
  closed : Bool

/-- Measure a binary value in steps of `10 ^ e`. -/
def Binary.scaled (x : Binary) (e : Int) : Scaled :=
  let q := x.exponent - 2
  let up := Nat.pow 2 q.toNat * Nat.pow 10 (-e).toNat
  { low := (4 * x.mantissa - if x.narrowBelow then 1 else 2) * up
    value := 4 * x.mantissa * up
    high := (4 * x.mantissa + 2) * up
    unit := Nat.pow 2 (-q).toNat * Nat.pow 10 e.toNat
    closed := x.mantissa % 2 = 0 }

/-- Whether the grid point with number `n` lies in the interval. -/
def Scaled.contains (s : Scaled) (n : Nat) : Bool :=
  let point := n * s.unit
  (s.low < point && point < s.high) || (s.closed && (point == s.low || point == s.high))

/-- The grid point in the interval that is nearest to the value; of two, the larger. -/
def Scaled.nearest? (s : Scaled) : Option Nat :=
  let below := s.value / s.unit
  match s.contains below, s.contains (below + 1) with
  | true, true => if 2 * s.value < (2 * below + 1) * s.unit then some below else some (below + 1)
  | true, false => some below
  | false, true => some (below + 1)
  | false, false => none

/-- Try the grids `10 ^ e`, `10 ^ (e - 1)`, … in turn. On the grid `10 ^ (-1074)` every float
lies exactly, so that grid ends the search. -/
def Binary.search (x : Binary) : Nat → Int → Numeral
  | 0, _ => ⟨x.mantissa * Nat.pow 2 (x.exponent + 1074).toNat * Nat.pow 5 1074, -1074⟩
  | steps + 1, e =>
    match (x.scaled e).nearest? with
    | some n => ⟨n, e⟩
    | none => x.search steps (e - 1)

/-- The shortest decimal that reads back as a positive value. The first grid tried is coarser
than the value itself. -/
def Binary.shortest (x : Binary) : Numeral :=
  let start := ((Nat.log2 x.mantissa : Int) + 1 + x.exponent).toNat / 3 + 1
  x.search (start + 1075) start

/-- Digits without an exponent: zeros or a point are put in as needed. -/
def Numeral.positional (d : Numeral) : String :=
  let digits := Nat.repr d.digits
  if 0 ≤ d.exponent then
    digits ++ String.ofList (List.replicate d.exponent.toNat '0')
  else
    let places := (-d.exponent).toNat
    let padded := List.replicate (places + 1 - digits.length) '0' ++ digits.toList
    let whole := padded.length - places
    String.ofList (padded.take whole) ++ "." ++ String.ofList (padded.drop whole)

end Flowgraph.Decimal

namespace Flowgraph

/-- A float in positional notation with the fewest digits that read back. Zero keeps its
sign. -/
def renderFloat (x : Float) : String :=
  let bits := x.toBits
  let sign := if bits >>> 63 = 1 then "-" else ""
  if x.isNaN then "NaN"
  else if x.isInf then sign ++ "inf"
  else
    let magnitude := Decimal.Binary.ofBits bits
    if magnitude.mantissa = 0 then sign ++ "0"
    else sign ++ magnitude.shortest.positional

end Flowgraph
