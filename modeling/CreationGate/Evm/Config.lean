import CreationGate.Identity

/-!
# Execution settings

The rule set of the chain, its limits, and the block that transactions run in.
-/

namespace CreationGate

/-- A rule set; each one contains those before it. -/
inductive Spec where
  | london
  | merge
  | shanghai
  | cancun
  | prague
  | osaka
deriving DecidableEq

namespace Spec

/-- The place of a rule set in the order in which they came. -/
def rank : Spec → Nat
  | london => 0
  | merge => 1
  | shanghai => 2
  | cancun => 3
  | prague => 4
  | osaka => 5

/-- Whether the rules of `other` are in force. -/
def includes (spec other : Spec) : Bool := other.rank ≤ spec.rank

end Spec

/-- The largest 64-bit number. -/
def maxUInt64 : Nat := UInt64.size - 1

/-- How many 128-bit numbers there are; prices are reckoned in them. -/
def sizeUInt128 : Nat := 1 <<< 128

/-- The largest 128-bit number. -/
def maxUInt128 : Nat := sizeUInt128 - 1

/-- The rules and limits of the chain. -/
structure Config where
  spec : Spec := .prague
  chainId : Nat := 1
  checksChainId : Bool := true
  checksNonce : Bool := true
  codeSizeLimit : Option Nat := none
  initCodeSizeLimit : Option Nat := none
  blobLimit : Option Nat := none
  gasLimitCap : Option Nat := none
deriving DecidableEq

namespace Config

/-- The longest code that may be deployed. -/
def maxCodeSize (config : Config) : Nat := config.codeSizeLimit.getD 24576

/-- The longest initialization code: twice a set limit on deployed code, unless set itself. -/
def maxInitCodeSize (config : Config) : Nat :=
  match config.initCodeSizeLimit, config.codeSizeLimit with
  | some limit, _ => limit
  | none, some limit => min (2 * limit) maxUInt64
  | none, none => 49152

/-- The most gas that a transaction may have. -/
def maxTransactionGas (config : Config) : Nat :=
  config.gasLimitCap.getD (if config.spec.includes .osaka then 16777216 else maxUInt64)

end Config

/-- The block that transactions run in. -/
structure Block where
  beneficiary : Address := .zero
  gasLimit : Nat := maxUInt64
  baseFee : Nat := 0
  hasRandomness : Bool := true
  /-- The blob gas used above target, if the block says so. -/
  excessBlobGas : Option Nat := some 0
deriving DecidableEq

namespace Block

/-- Adds the terms of a power series of `e` from term `i` on to a sum.  Each term is the one
before it times `numerator`, divided by `denominator * i`; products and sums are reckoned
modulo the size of a 128-bit number. -/
private def addSeries (numerator denominator : Nat) : (fuel i term sum : Nat) → Nat
  | 0, _, _, sum => sum
  | fuel + 1, i, term, sum =>
    if term = 0 then sum
    else addSeries numerator denominator fuel (i + 1)
      (term * numerator % sizeUInt128 / (denominator * i))
      ((sum + term) % sizeUInt128)

/-- The integer that stands for `factor * e ^ (numerator / denominator)`: an approximation from
below while all products fit in 128 bits, and a fixed number of no meaning beyond.  From term
`numerator / denominator` on the terms shrink, and they are zero long before
`2 * numerator + 512` of them are added. -/
def fakeExponential (factor numerator denominator : Nat) : Nat :=
  addSeries numerator denominator (2 * numerator + 512) 1 (factor * denominator) 0 / denominator

/-- The price of a unit of blob gas; zero if the block does not say how much was used. -/
def blobGasPrice (block : Block) : Nat :=
  match block.excessBlobGas with
  | some excess => fakeExponential 1 excess 5007716
  | none => 0

end Block

end CreationGate
