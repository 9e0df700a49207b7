import ExprLang.Number.Shortest

/-! # The characters of a number's text

However a double is written, in full, with a point or with an exponent, its text is not empty and has no other
characters than digits, a point, a sign and the letters of the exponent and of the two values that are no numbers. -/

namespace ExprLang

/-- The characters in which decimals are written. -/
def Decimal.Figure (c : Char) : Prop := c.isDigit = true ∨ c = '.' ∨ c = 'e' ∨ c = '-'

/-- The characters in which doubles are written. -/
def Binary64.Figure (c : Char) : Prop := Decimal.Figure c ∨ c ∈ ['i', 'n', 'f', 'a']

namespace Decimal

variable {c : Char}

theorem isDigit_of_mem_padded {width n : Nat} (h : c ∈ padded width (Nat.toDigits 10 n)) : c.isDigit = true := by
  rcases List.mem_append.mp h with zero | digit
  · rw [List.eq_of_mem_replicate zero]
    decide
  · exact Nat.isDigit_of_mem_toDigits (by decide) (by decide) digit

theorem figure_of_mem_positional {d : Decimal} (h : c ∈ d.positional) : Figure c := by
  simp only [positional, List.splitAt_eq] at h
  split at h
  · exact .inl (isDigit_of_mem_padded (List.mem_of_mem_take h))
  · rcases List.mem_append.mp h with whole | fraction
    · exact .inl (isDigit_of_mem_padded (List.mem_of_mem_take whole))
    · rcases List.mem_cons.mp fraction with point | fraction
      · exact .inr (.inl point)
      · exact .inl (isDigit_of_mem_padded (List.mem_of_mem_drop fraction))

theorem figure_of_mem_scientific {d : Decimal} (h : c ∈ d.scientific) : Figure c := by
  have digit : ∀ c ∈ Nat.toDigits 10 d.digits, Figure c := fun c member =>
    .inl (Nat.isDigit_of_mem_toDigits (by decide) (by decide) member)
  have exponent : ∀ c ∈ 'e' :: '-' :: padded 2 (Nat.toDigits 10 d.lead), Figure c := by
    refine List.forall_mem_cons.mpr ⟨.inr (.inr (.inl rfl)), List.forall_mem_cons.mpr ⟨.inr (.inr (.inr rfl)), ?_⟩⟩
    exact fun c member => .inl (isDigit_of_mem_padded member)
  unfold scientific at h
  split at h
  · exact exponent c h
  · next first eq =>
    rcases List.mem_cons.mp h with rfl | h
    · exact digit c (eq ▸ List.mem_cons_self)
    · exact exponent c h
  · next first others _ eq =>
    rcases List.mem_cons.mp h with rfl | h
    · exact digit c (eq ▸ List.mem_cons_self)
    · rcases List.mem_cons.mp h with rfl | h
      · exact .inr (.inl rfl)
      · rcases List.mem_append.mp h with h | h
        · exact digit c (eq ▸ List.mem_cons_of_mem first h)
        · exact exponent c h

theorem figure_of_mem_text {d : Decimal} (h : c ∈ d.text) : Figure c := by
  unfold text at h
  split at h
  · exact figure_of_mem_positional h
  · exact figure_of_mem_scientific h

theorem positional_ne_nil (d : Decimal) : d.positional ≠ [] := by
  simp only [positional, List.splitAt_eq]
  have long : d.places < (padded (d.places + 1) (Nat.toDigits 10 d.digits)).length := by
    simp only [padded, List.length_append, List.length_replicate]
    omega
  split
  · refine List.ne_nil_of_length_pos ?_
    rw [List.length_take]
    omega
  · exact List.append_ne_nil_of_right_ne_nil _ (List.cons_ne_nil _ _)

theorem scientific_ne_nil (d : Decimal) : d.scientific ≠ [] := by
  unfold scientific
  split <;> exact List.cons_ne_nil _ _

theorem text_ne_nil (d : Decimal) : d.text ≠ [] := by
  unfold text
  split
  · exact d.positional_ne_nil
  · exact d.scientific_ne_nil

end Decimal

theorem Rank.figure_of_mem_text {rank : Nat} {c : Char} (h : c ∈ Rank.text rank) : Decimal.Figure c := by
  unfold text at h
  split at h
  · exact .inl (Nat.isDigit_of_mem_toDigits (by decide) (by decide) h)
  · exact Decimal.figure_of_mem_text h

theorem Rank.text_ne_nil (rank : Nat) : Rank.text rank ≠ [] := by
  unfold text
  split
  · exact Nat.toDigits_ne_nil
  · exact (shortest rank).text_ne_nil

namespace Binary64

theorem figure_of_mem_text {x : Binary64} {c : Char} (h : c ∈ x.text.toList) : Figure c := by
  have named : ∀ text ∈ ["nan", "inf", "-inf"],
      text.toList.all (fun c => c = '-' ∨ c ∈ ['i', 'n', 'f', 'a']) = true := by decide
  have letters : ∀ text ∈ ["nan", "inf", "-inf"], ∀ c ∈ text.toList, Figure c := fun text member c h =>
    (of_decide_eq_true (List.all_eq_true.mp (named text member) c h)).imp (fun sign => .inr (.inr (.inr sign))) id
  cases x with
  | nan => exact letters "nan" (by decide) c h
  | infinite negative =>
    cases negative with
    | true => exact letters "-inf" (by decide) c h
    | false => exact letters "inf" (by decide) c h
  | finite negative rank =>
    rw [text, String.toList_ofList] at h
    split at h
    · rcases List.mem_cons.mp h with sign | h
      · exact .inl (.inr (.inr (.inr sign)))
      · exact .inl (Rank.figure_of_mem_text h)
    · exact .inl (Rank.figure_of_mem_text h)

theorem text_ne_nil (x : Binary64) : x.text.toList ≠ [] := by
  cases x with
  | nan => decide
  | infinite negative => cases negative <;> decide
  | finite negative rank =>
    rw [text, String.toList_ofList]
    split
    · exact List.cons_ne_nil _ _
    · exact Rank.text_ne_nil rank

end Binary64

end ExprLang
