import ExprLang.Number.Binary64

/-! The text of a double: a whole number exactly, any other number with the fewest places that read back as it. -/

namespace ExprLang

namespace Rank

/-- The number is whole. -/
def IsWhole (rank : Nat) : Prop := units rank % one = 0

instance (rank : Nat) : Decidable (IsWhole rank) := inferInstanceAs (Decidable (_ = _))

/-- The number itself: every finite one ends within 1074 places. -/
def exact (rank : Nat) : Decimal := ⟨units rank * Nat.pow 5 1074, 1074⟩

/-- Of the two decimals with so many places around the number, the one that reads back as it; of two such the nearer,
    and of two as near the one that ends in an even digit. -/
def withPlaces? (rank places : Nat) : Option Decimal :=
  let scaled := units rank * Nat.pow 10 places
  let below : Decimal := ⟨scaled / one, places⟩
  let above : Decimal := ⟨scaled / one + 1, places⟩
  if ofDecimal below = rank then
    if ofDecimal above = rank then some ⟨roundedQuotient scaled one, places⟩ else some below
  else if ofDecimal above = rank then some above else none

/-- The decimal with the fewest places, one at least, that reads back as the number. -/
def shortest (rank : Nat) : Decimal :=
  ((List.range' 1 1073).findSome? (withPlaces? rank)).getD (exact rank)

/-- A whole number has its digits, any other number a point and its fewest places. -/
def text (rank : Nat) : List Char :=
  if IsWhole rank then Nat.toDigits 10 (units rank / one) else (shortest rank).text

end Rank

namespace Binary64

/-- The text of a double. Zero has no sign. -/
def text : Binary64 → String
  | .nan => "nan"
  | .infinite negative => if negative then "-inf" else "inf"
  | .finite negative rank =>
    let digits := Rank.text rank
    String.ofList (if negative ∧ rank.val ≠ 0 then '-' :: digits else digits)

end Binary64

end ExprLang
