import ExprLang.Proofs.Lexical.Longest
import ExprLang.Proofs.Number.Characters

/-! # Decimals as they are written

A decimal written with its point alone is a number of the language and is read back with the same digits and the same
places (`ofText?_positional`). With an exponent only what stands before the `e` is a number (`exists_scientific`). How
far the first digit that counts is behind the point decides between the two, and that is a matter of size
(`four_lt_lead_iff`). -/

namespace ExprLang.Decimal

open Lexical

/-! ### With a point alone -/

theorem digits_toDigits (n : Nat) : Digits (Nat.toDigits 10 n) :=
  ⟨Nat.toDigits_ne_nil, fun _ member => Nat.isDigit_of_mem_toDigits (by decide) (by decide) member⟩

theorem ofDigitChars_padded (width n : Nat) : Nat.ofDigitChars 10 (padded width (Nat.toDigits 10 n)) 0 = n := by
  rw [padded, Nat.ofDigitChars_append, Nat.ofDigitChars_replicate_zero, Nat.mul_zero, Nat.ofDigitChars_ten_toDigits]

theorem le_length_padded (width : Nat) (text : List Char) : width ≤ (padded width text).length := by
  rw [padded, List.length_append, List.length_replicate]
  omega

/-- Zeros in front leave a digit before the point, and behind it there are as many as the number has places. -/
theorem exists_positional (d : Decimal) :
    ∃ whole fraction, Digits whole ∧ (∀ c ∈ fraction, c.isDigit = true) ∧ fraction.length = d.places ∧
      Nat.ofDigitChars 10 (whole ++ fraction) 0 = d.digits ∧
      d.positional = if fraction = [] then whole else whole ++ '.' :: fraction := by
  have long := le_length_padded (d.places + 1) (Nat.toDigits 10 d.digits)
  have value := ofDigitChars_padded (d.places + 1) d.digits
  have digit : ∀ c ∈ padded (d.places + 1) (Nat.toDigits 10 d.digits), c.isDigit = true := fun _ => isDigit_of_mem_padded
  rw [positional]
  generalize padded (d.places + 1) (Nat.toDigits 10 d.digits) = text at long value digit
  refine ⟨text.take (text.length - d.places), text.drop (text.length - d.places), ⟨?_, ?_⟩, ?_, ?_, ?_, ?_⟩
  · refine List.ne_nil_of_length_pos ?_
    rw [List.length_take]
    omega
  · exact fun c member => digit c (List.mem_of_mem_take member)
  · exact fun c member => digit c (List.mem_of_mem_drop member)
  · rw [List.length_drop]
    omega
  · rw [List.take_append_drop]
    exact value
  · rw [List.splitAt_eq]

theorem number_positional (d : Decimal) : Number d.positional := by
  obtain ⟨whole, fraction, digits, places, -, -, shape⟩ := exists_positional d
  rw [shape]
  split
  · exact .whole digits
  · next some => exact .fraction digits ⟨some, places⟩

theorem ofText?_positional (d : Decimal) : ofText? d.positional = some d := by
  obtain ⟨whole, fraction, digits, places, count, value, shape⟩ := exists_positional d
  rw [shape]
  split
  · next none =>
    rw [none, List.append_nil] at value
    rw [none, List.length_nil] at count
    rw [ofText?_whole digits, value, count]
  · next some => rw [ofText?_fraction digits ⟨some, places⟩, value, count]

/-! ### With an exponent -/

/-- Before the exponent there is a number, which ends at the `e`. -/
theorem exists_scientific (d : Decimal) :
    ∃ front exponent, d.scientific = front ++ 'e' :: exponent ∧ Longest Number front ('e' :: exponent) := by
  have digits := digits_toDigits d.digits
  have stop : ∀ exponent, Ends Char.isDigit ('e' :: exponent) := fun _ => ends_cons.mpr (by decide)
  have point : ∀ exponent, ¬PointAhead ('e' :: exponent) := by
    rintro exponent ⟨c, rest, eq, -⟩
    cases eq
  unfold scientific
  split
  · next none => exact absurd none digits.1
  · next first eq =>
    rw [eq] at digits
    exact ⟨[first], _, rfl, longest_whole digits (stop _) (point _)⟩
  · next first others more eq =>
    rw [eq] at digits
    obtain ⟨one, places⟩ := List.forall_mem_cons.mp digits.2
    have whole : Digits [first] := ⟨List.cons_ne_nil _ _, List.forall_mem_singleton.mpr one⟩
    exact ⟨[first] ++ '.' :: others, _, rfl, longest_fraction whole ⟨more, places⟩ (stop _)⟩

/-! ### Which of the two -/

/-- An exponent is written for the numbers below `0.0001`. -/
theorem four_lt_lead_iff {d : Decimal} (pos : 0 < d.digits) :
    4 < d.lead ↔ d.digits * Nat.pow 10 4 < Nat.pow 10 d.places := by
  have some : 0 < (Nat.toDigits 10 d.digits).length := Nat.length_toDigits_pos
  rw [lead]
  rcases Nat.lt_or_ge 4 d.places with many | few
  · obtain ⟨k, eq⟩ := Nat.exists_eq_add_of_lt many
    have short : (Nat.toDigits 10 d.digits).length ≤ k + 1 ↔ d.digits < Nat.pow 10 (k + 1) :=
      Nat.length_toDigits_le_iff (by decide) (by omega)
    have places : Nat.pow 10 d.places = Nat.pow 10 (k + 1) * Nat.pow 10 4 := by
      rw [show d.places = k + 1 + 4 by omega]
      exact Nat.pow_add 10 (k + 1) 4
    rw [places, Nat.mul_lt_mul_right (by decide), ← short]
    omega
  · have small : Nat.pow 10 d.places ≤ Nat.pow 10 4 := Nat.pow_le_pow_right (by decide) few
    have large := Nat.le_mul_of_pos_left (Nat.pow 10 4) pos
    omega

end ExprLang.Decimal
