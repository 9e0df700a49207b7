import ExprLang.Proofs.Number.Positional
import ExprLang.Proofs.Number.Rounding

/-! # The decimal that stands for a double

Decimals are rounded in their order (`ofDecimal_le`), so among those with so many places one that reads back as a double
stands next to it, if there is any: `shortest` reads back (`ofDecimal_shortest`), and nothing with fewer places does
(`places_shortest_le`). It has an exponent just if the double is below the one nearest to `0.0001`, which is itself
written without (`four_lt_lead_shortest_iff`). -/

namespace ExprLang.Rank

variable {rank places places' digits digits' : Nat} {d : Decimal}

/-! ### Decimals rounded -/

theorem rounds_ofDecimal (d : Decimal) : Rounds d.digits (Nat.pow 10 d.places) (ofDecimal d) :=
  rounds_nearest (Nat.pow_pos (by decide))

theorem rounds_units (rank : Nat) : Rounds (units rank) one rank := rounds_exact one_pos rfl

theorem ofDecimal_le (le : digits * Nat.pow 10 places' ≤ digits' * Nat.pow 10 places) :
    ofDecimal ⟨digits, places⟩ ≤ ofDecimal ⟨digits', places'⟩ :=
  (rounds_ofDecimal _).le (rounds_ofDecimal _) (Nat.pow_pos (by decide)) (Nat.pow_pos (by decide)) le

theorem ofDecimal_mono (le : digits ≤ digits') : ofDecimal ⟨digits, places⟩ ≤ ofDecimal ⟨digits', places⟩ :=
  ofDecimal_le (Nat.mul_le_mul_right _ le)

theorem ofDecimal_le_rank (le : digits * one ≤ units rank * Nat.pow 10 places) : ofDecimal ⟨digits, places⟩ ≤ rank :=
  (rounds_ofDecimal _).le (rounds_units rank) (Nat.pow_pos (by decide)) one_pos le

theorem rank_le_ofDecimal (le : units rank * Nat.pow 10 places ≤ digits * one) : rank ≤ ofDecimal ⟨digits, places⟩ :=
  (rounds_units rank).le (rounds_ofDecimal _) one_pos (Nat.pow_pos (by decide)) le

/-- A decimal that is the number at a place is rounded to that place. -/
theorem ofDecimal_eq (exact : digits * one = units rank * Nat.pow 10 places) : ofDecimal ⟨digits, places⟩ = rank :=
  (rounds_ofDecimal _).unique (rounds_exact (Nat.pow_pos (by decide)) exact) (Nat.pow_pos (by decide))

theorem digits_pos (read : ofDecimal ⟨digits, places⟩ = rank) (some : rank ≠ 0) : 0 < digits := by
  refine Nat.pos_of_ne_zero fun none => some ?_
  rw [← read, none]
  refine ofDecimal_eq ?_
  rw [units_zero, Nat.zero_mul, Nat.zero_mul]

theorem ofDecimal_scaled {power : Nat} (h : power * one = Nat.pow 10 places) (rank : Nat) :
    ofDecimal ⟨units rank * power, places⟩ = rank :=
  ofDecimal_eq (by rw [Nat.mul_assoc, h])

theorem ofDecimal_exact (rank : Nat) : ofDecimal (exact rank) = rank := ofDecimal_scaled (by decide +kernel) rank

/-! ### So many places -/

/-- With so many places there is a decimal that reads back, or neither of the two around the number does. -/
theorem withPlaces?_cases {found : Option Decimal} (h : withPlaces? rank places = found) :
    (∃ d, found = some d ∧ d.places = places ∧ ofDecimal d = rank) ∨
      found = none ∧ ofDecimal ⟨units rank * Nat.pow 10 places / one, places⟩ ≠ rank ∧
        ofDecimal ⟨units rank * Nat.pow 10 places / one + 1, places⟩ ≠ rank := by
  unfold withPlaces? at h
  extract_lets scaled below above at h
  split at h
  · next lower =>
    split at h
    · next upper =>
      refine .inl ⟨_, h.symm, rfl, ?_⟩
      rcases roundedQuotient_cases (n := scaled) (m := one) with ⟨eq, -⟩ | ⟨eq, -⟩
      · rw [eq]
        exact lower
      · rw [eq]
        exact upper
    · exact .inl ⟨below, h.symm, rfl, lower⟩
  · next lower =>
    split at h
    · next upper => exact .inl ⟨above, h.symm, rfl, upper⟩
    · next upper => exact .inr ⟨h.symm, lower, upper⟩

theorem of_withPlaces? (h : withPlaces? rank places = some d) : d.places = places ∧ ofDecimal d = rank := by
  rcases withPlaces?_cases h with ⟨e, found, spec⟩ | ⟨none, -⟩
  · obtain rfl := Option.some.inj found
    exact spec
  · cases none

/-- Of the decimals with so many places none reads back unless one of the two around the number does. -/
theorem ofDecimal_ne_of_withPlaces? (h : withPlaces? rank places = none) (digits : Nat) :
    ofDecimal ⟨digits, places⟩ ≠ rank := by
  intro same
  rcases withPlaces?_cases h with ⟨e, found, -⟩ | ⟨-, lower, upper⟩
  · cases found
  · have split := Nat.div_add_mod' (units rank * Nat.pow 10 places) one
    have rest := Nat.mod_lt (units rank * Nat.pow 10 places) one_pos
    rcases Nat.lt_or_ge (units rank * Nat.pow 10 places / one) digits with beyond | within
    · refine upper (Nat.le_antisymm (Nat.le_trans (ofDecimal_mono beyond) (Nat.le_of_eq same)) (rank_le_ofDecimal ?_))
      rw [Nat.add_one_mul]
      omega
    · refine lower (Nat.le_antisymm (ofDecimal_le_rank (by omega)) ?_)
      exact Nat.le_trans (Nat.le_of_eq same.symm) (ofDecimal_mono within)

/-! ### The fewest places -/

theorem ofDecimal_shortest (rank : Nat) : ofDecimal (shortest rank) = rank := by
  unfold shortest
  cases found : (List.range' 1 1073).findSome? (withPlaces? rank) with
  | none => exact ofDecimal_exact rank
  | some d =>
    obtain ⟨places, -, h⟩ := List.exists_of_findSome?_eq_some found
    exact (of_withPlaces? h).2

/-- No decimal with fewer places, one at least, reads back. -/
theorem places_shortest_le (some : 0 < d.places) (same : ofDecimal d = rank) : (shortest rank).places ≤ d.places := by
  unfold shortest
  cases found : (List.range' 1 1073).findSome? (withPlaces? rank) with
  | none =>
    refine Nat.le_of_not_lt fun lt => ?_
    have few : d.places < 1074 := lt
    have member : d.places ∈ List.range' 1 1073 := List.mem_range'_1.mpr (by omega)
    exact ofDecimal_ne_of_withPlaces? (List.findSome?_eq_none_iff.mp found d.places member) d.digits same
  | some e =>
    refine Nat.le_of_not_lt fun lt => ?_
    obtain ⟨before, places, after, split, h, none⟩ := List.findSome?_eq_some_iff.mp found
    obtain ⟨count, -, rfl, behind⟩ := List.range'_eq_append_iff.mp split
    obtain ⟨rfl, -⟩ := List.range'_eq_cons_iff.mp behind.symm
    have few : d.places < 1 + count * 1 := (of_withPlaces? h).1 ▸ lt
    exact ofDecimal_ne_of_withPlaces? (none d.places (List.mem_range'_1.mpr (by omega))) d.digits same

/-! ### Whole numbers -/

theorem ofDecimal_whole (whole : IsWhole rank) : ofDecimal ⟨units rank / one, 0⟩ = rank := by
  refine ofDecimal_eq ?_
  rw [Nat.div_mul_cancel (Nat.dvd_of_mod_eq_zero whole)]
  exact (Nat.mul_one _).symm

theorem isWhole_zero : IsWhole 0 := by
  rw [IsWhole, units_zero, Nat.zero_mod]

/-! ### Below and above `0.0001` -/

/-- The place of the double nearest to `0.0001`. -/
def tenThousandth : Nat := ofDecimal ⟨1, 4⟩

theorem shortest_tenThousandth : shortest tenThousandth = ⟨1, 4⟩ := by decide +kernel

theorem tenThousandth_le_whole (whole : IsWhole rank) (some : rank ≠ 0) : tenThousandth ≤ rank := by
  have read := ofDecimal_whole whole
  calc
    tenThousandth ≤ ofDecimal ⟨units rank / one, 0⟩ := ofDecimal_le (Nat.mul_le_mul (digits_pos read some) (by decide))
    _ = rank := read

/-- The shortest decimal has an exponent just if the double is below the one that is written `0.0001`. -/
theorem four_lt_lead_shortest_iff (some : rank ≠ 0) : 4 < (shortest rank).lead ↔ rank < tenThousandth := by
  have read := ofDecimal_shortest rank
  have written := shortest_tenThousandth
  obtain ⟨⟨digits, places⟩, eq⟩ : ∃ d, shortest rank = d := ⟨_, rfl⟩
  rw [eq] at read ⊢
  have size : 4 < (Decimal.mk digits places).lead ↔ digits * Nat.pow 10 4 < Nat.pow 10 places :=
    Decimal.four_lt_lead_iff (digits_pos read some)
  constructor
  · intro exponent
    have le : rank ≤ tenThousandth := by
      rw [← read]
      refine ofDecimal_le ?_
      rw [Nat.one_mul]
      exact Nat.le_of_lt (size.mp exponent)
    refine Nat.lt_of_le_of_ne le fun same => ?_
    rw [same, written] at eq
    cases eq
    revert exponent
    decide
  · intro below
    refine size.mpr (Nat.lt_of_not_le fun large => Nat.not_le_of_lt below ?_)
    rw [← read]
    refine ofDecimal_le ?_
    rw [Nat.one_mul]
    exact large

end ExprLang.Rank
