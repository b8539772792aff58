/-!
# Shortest decimals

The fewest decimal digits that read back as a given binary number, the nearest such decimal
among those.  A number `m * 2 ^ e` stands for every real closer to it than to its neighbours,
ends included if `m` is even; each grid of decimals is tried from coarse to fine, and only the
two grid points around the number can be the nearest.
-/

namespace CreationGate

namespace Decimal

/-- A positive binary number `m * 2 ^ e`. -/
structure Binary where
  /-- The significand. -/
  m : Nat
  /-- The exponent. -/
  e : Int
  /-- Whether the number below is only half as far away as the number above. -/
  narrowBelow : Bool

/-- The significand and exponent of a finite float, sign aside; zero has none. -/
def Binary.ofFloat? (f : Float) : Option Binary :=
  let bits := f.toBits.toNat % 1 <<< 63
  let fraction := bits % 1 <<< 52
  let field : Nat := bits >>> 52
  if field = 0 then
    if fraction = 0 then none else some ⟨fraction, -1074, false⟩
  else some ⟨fraction + 1 <<< 52, (field : Int) - 1075, fraction = 0 && 1 < field⟩

/-- A fraction of natural numbers. -/
structure Ratio where
  num : Nat
  den : Nat

namespace Ratio

/-- `n * base ^ k` for an integer `k`. -/
def scaled (n base : Nat) (k : Int) : Ratio :=
  if 0 ≤ k then ⟨n * base.pow k.toNat, 1⟩ else ⟨n, base.pow (-k).toNat⟩

/-- Whether the first is at most the second. -/
def le (a b : Ratio) : Bool := a.num * b.den ≤ b.num * a.den

/-- Whether the first is less than the second. -/
def lt (a b : Ratio) : Bool := a.num * b.den < b.num * a.den

end Ratio

/-- The number of decimal places in front of the point: `10 ^ (k - 1) ≤ r < 10 ^ k`. -/
def magnitude (r : Ratio) : Int :=
  let digits : Nat → Int := fun n => (Nat.toDigits 10 n).length
  let guess := digits r.num - digits r.den
  if (Ratio.scaled 1 10 guess).le r then guess + 1 else guess

/-- Whether a decimal `d * 10 ^ k` reads back as the number. -/
def Binary.readsAs (b : Binary) (d : Nat) (k : Int) : Bool :=
  let low := Ratio.scaled (4 * b.m - if b.narrowBelow then 1 else 2) 2 (b.e - 2)
  let high := Ratio.scaled (4 * b.m + 2) 2 (b.e - 2)
  let x := Ratio.scaled d 10 k
  if b.m % 2 = 0 then low.le x && x.le high else low.lt x && x.lt high

/-- The best decimal on the grid of multiples of `10 ^ k`, if one reads back: the nearer of the
two grid points around the number, or the even one of two that are as near. -/
def Binary.onGrid? (b : Binary) (k : Int) : Option (Nat × Int) :=
  let value := Ratio.scaled b.m 2 b.e
  let steps := Ratio.scaled 1 10 (-k)
  let num := value.num * steps.num
  let den := value.den * steps.den
  let below := num / den
  let twice := 2 * (num % den)
  let first := if twice < den || (twice = den && below % 2 = 0) then below else below + 1
  let second := if first = below then below + 1 else below
  if b.readsAs first k then some (first, k)
  else if b.readsAs second k then some (second, k)
  else none

/-- The shortest decimal `(d, k)`, meaning `d * 10 ^ k`.  Seventeen digits always suffice. -/
def Binary.shortest (b : Binary) : Nat × Int :=
  let place := magnitude (Ratio.scaled b.m 2 b.e)
  ((List.range 17).findSome? fun (n : Nat) => b.onGrid? (place - 1 - n)).getD (0, 0)

/-- Takes zeros off the end of the digits. -/
def trimZeros : (fuel : Nat) → Nat × Int → Nat × Int
  | 0, x => x
  | fuel + 1, (d, k) => if d ≠ 0 ∧ d % 10 = 0 then trimZeros fuel (d / 10, k + 1) else (d, k)

/-- A finite float as text.  Numbers from 0.00001 to below 10^16 are positional and keep a
decimal place; all others have an exponent with its sign. -/
def floatText (f : Float) : String :=
  let sign := if f.toBits.toNat < 1 <<< 63 then "" else "-"
  match Binary.ofFloat? f with
  | none => sign ++ "0.0"
  | some b =>
    let (d, k) := trimZeros 20 b.shortest
    let digits := Nat.toDigits 10 d
    let point : Int := digits.length + k
    let text :=
      if 0 ≤ k && point ≤ 16 then
        String.ofList digits ++ String.ofList (List.replicate k.toNat '0') ++ ".0"
      else if 0 < point && point ≤ 16 then
        String.ofList (digits.take point.toNat) ++ "."
          ++ String.ofList (digits.drop point.toNat)
      else if -5 < point && point ≤ 0 then
        "0." ++ String.ofList (List.replicate (-point).toNat '0') ++ String.ofList digits
      else
        let exponent := (if 0 < point then "e+" else "e") ++ toString (point - 1)
        match digits with
        | [digit] => String.singleton digit ++ exponent
        | digit :: rest => String.singleton digit ++ "." ++ String.ofList rest ++ exponent
        | [] => "0.0"
    sign ++ text

end Decimal

end CreationGate
