import ExprLang.Number.Decimal

/-! Double-precision numbers (IEEE 754 binary64) in exact arithmetic. The finite numbers without a sign are numbered
    upwards from zero; the number of one of them is its bit pattern. -/

namespace ExprLang

/-- How many numbers in a row have the same distance from each other: the fractions of 52 bits. -/
def binade : Nat := Nat.pow 2 52

/-- How many finite numbers without a sign there are. -/
def rankCount : Nat := 2047 * binade

/-- The place of a finite number without a sign among all of them, zero first. -/
abbrev Rank := Fin rankCount

namespace Rank

/-- How many units of `2 ^ -1074`, the least number above zero, make one. -/
def one : Nat := Nat.pow 2 1074

/-- The number at place `rank`, in units. The numbers of the first two binades are one unit apart, and with every
    binade from there on the distance doubles. -/
def units (rank : Nat) : Nat :=
  if rank < binade then rank else (binade + rank % binade) * Nat.pow 2 (rank / binade - 1)

/-- The whole number nearest to `a / b`, the even one of two. -/
def roundedQuotient (a b : Nat) : Nat :=
  let quotient := a / b
  let rest := a % b
  if 2 * rest > b ∨ 2 * rest = b ∧ quotient % 2 = 1 then quotient + 1 else quotient

/-- The place of the number nearest to `a / b`, with an even bit pattern if two are equally near. It is past the last
    place if the quotient is too large. -/
def nearest (a b : Nat) : Nat :=
  let shift := Nat.log2 (a * one / b) - 52
  shift * binade + roundedQuotient (a * one) (b * Nat.pow 2 shift)

/-- The place of the number nearest to a decimal. -/
def ofDecimal (d : Decimal) : Nat := nearest d.digits (Nat.pow 10 d.places)

end Rank

/-- A double-precision number. -/
inductive Binary64
  | nan
  | infinite (negative : Bool)
  | finite (negative : Bool) (rank : Rank)
  deriving DecidableEq, Repr

namespace Binary64

/-- The double nearest to a decimal, infinity beyond the largest one. -/
def ofDecimal (d : Decimal) : Binary64 :=
  let rank := Rank.ofDecimal d
  if h : rank < rankCount then .finite false ⟨rank, h⟩ else .infinite false

/-- The weight of the bit for the sign. -/
def signBit : Nat := 2048 * binade

/-- The double with the 64 bits of a number. -/
def ofBits (bits : Nat) : Binary64 :=
  let negative := bits / signBit % 2 = 1
  let rest := bits % signBit
  if h : rest < rankCount then .finite negative ⟨rest, h⟩
  else if rest = rankCount then .infinite negative
  else .nan

/-- The 64 bits of a double; of the many patterns for `nan` the quiet one without payload. -/
def toBits : Binary64 → Nat
  | .nan => rankCount + binade / 2
  | .infinite negative => negative.toNat * signBit + rankCount
  | .finite negative rank => negative.toNat * signBit + rank

end Binary64

end ExprLang
