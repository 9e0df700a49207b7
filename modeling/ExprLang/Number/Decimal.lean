/-! Unsigned decimal numbers: digits with a point somewhere among them. Reading knows one form, digits or
    `digits.digits`; writing knows that form and the one with an exponent. -/

namespace ExprLang

/-- The number `digits / 10 ^ places`. -/
structure Decimal where
  digits : Nat
  places : Nat
  deriving DecidableEq, Repr

namespace Decimal

/-- The number that a text of digits, or of digits, a point and digits, stands for. -/
def ofText? (text : List Char) : Option Decimal :=
  let whole := text.takeWhile Char.isDigit
  match whole, text.dropWhile Char.isDigit with
  | _ :: _, [] => some ⟨Nat.ofDigitChars 10 whole 0, 0⟩
  | _ :: _, '.' :: fraction =>
    if fraction ≠ [] ∧ fraction.all Char.isDigit then
      some ⟨Nat.ofDigitChars 10 (whole ++ fraction) 0, fraction.length⟩
    else none
  | _, _ => none

/-- Zeros in front of a text, up to `width` characters in all. -/
def padded (width : Nat) (text : List Char) : List Char :=
  List.replicate (width - text.length) '0' ++ text

/-- The digits of the number with its point, and at least one of them before the point. -/
def positional (d : Decimal) : List Char :=
  let digits := padded (d.places + 1) (Nat.toDigits 10 d.digits)
  let (whole, fraction) := digits.splitAt (digits.length - d.places)
  if fraction = [] then whole else whole ++ '.' :: fraction

/-- How many places stand before the first digit that counts, it included: `0.00012` has four. -/
def lead (d : Decimal) : Nat := d.places + 1 - (Nat.toDigits 10 d.digits).length

/-- One digit before the point, the others after it, and a negative exponent of at least two digits. -/
def scientific (d : Decimal) : List Char :=
  let exponent := 'e' :: '-' :: padded 2 (Nat.toDigits 10 d.lead)
  match Nat.toDigits 10 d.digits with
  | [] => exponent
  | [first] => first :: exponent
  | first :: others => first :: '.' :: others ++ exponent

/-- Positional down to `0.0001`, with an exponent below. -/
def text (d : Decimal) : List Char :=
  if d.lead ≤ 4 then d.positional else d.scientific

end Decimal

end ExprLang
