import ExprLang.Proofs.Lexical.Spaced
import ExprLang.Proofs.Number.Shortest

/-! # From a number to text and back

The text of a double that is zero or at least `0.0001` is one number of the language and rounds to the double again; any
other text has an exponent, at which a second token begins. So the doubles in between are the ones that do not come back
(`text_roundTrip`). -/

namespace ExprLang

open Lexical

/-! ### The text of a place -/

namespace Rank

variable {rank : Nat}

/-- Zero, or a number from `0.0001` on. -/
def Plain (rank : Nat) : Prop := rank = 0 ∨ units tenThousandth ≤ units rank

theorem plain_iff : Plain rank ↔ rank = 0 ∨ tenThousandth ≤ rank := or_congr_right units_le_units_iff

/-- The text is a number that rounds to the place. -/
theorem text_of_plain (plain : Plain rank) :
    Number (text rank) ∧ ∃ d, Decimal.ofText? (text rank) = some d ∧ ofDecimal d = rank := by
  unfold text
  split
  · next whole =>
    have digits := Decimal.digits_toDigits (units rank / one)
    refine ⟨.whole digits, _, ofText?_whole digits, ?_⟩
    rw [Nat.ofDigitChars_ten_toDigits]
    exact ofDecimal_whole whole
  · next fraction =>
    have some : rank ≠ 0 := fun zero => fraction (zero ▸ isWhole_zero)
    have point : (shortest rank).lead ≤ 4 := by
      refine Nat.le_of_not_lt fun exponent => ?_
      have below := (four_lt_lead_shortest_iff some).mp exponent
      exact Nat.not_le_of_lt below ((plain_iff.mp plain).resolve_left some)
    rw [Decimal.text, if_pos point]
    exact ⟨Decimal.number_positional _, _, Decimal.ofText?_positional _, ofDecimal_shortest rank⟩

/-- The text has an exponent. -/
theorem text_of_not_plain (h : ¬Plain rank) :
    ∃ front exponent, text rank = front ++ 'e' :: exponent ∧ Longest Number front ('e' :: exponent) := by
  rw [plain_iff, not_or, Nat.not_le] at h
  obtain ⟨some, below⟩ := h
  have fraction : ¬IsWhole rank := fun whole => Nat.not_le_of_lt below (tenThousandth_le_whole whole some)
  have exponent := (four_lt_lead_shortest_iff some).mpr below
  rw [text, if_neg fraction, Decimal.text, if_neg (Nat.not_le_of_lt exponent)]
  exact Decimal.exists_scientific _

end Rank

/-! ### The text scanned -/

namespace Scanner

theorem tokenize_number {lexeme : List Char} (h : Number lexeme) :
    tokenize (String.ofList lexeme) = ([⟨.number, String.ofList lexeme, 1⟩], []) := by
  have wellFormed : ∀ entry ∈ [(([] : List Char), (⟨.number, String.ofList lexeme, 1⟩ : Token))],
      WellFormed entry.2.kind entry.2.lexeme.toList := by
    rw [List.forall_mem_singleton, String.toList_ofList]
    exact .number h
  have text : layOut [([], ⟨.number, String.ofList lexeme, 1⟩)] = lexeme := by
    simp [layOut, source]
  have tokens := tokenize_layOut wellFormed (by rintro entry ⟨⟩; exact .nil) (List.forall_mem_nil _)
  rw [text] at tokens
  exact tokens

/-- What stands behind the number is a token too. -/
theorem tokenize_exponent {front exponent : List Char} (h : Longest Number front ('e' :: exponent)) (token : Token) :
    (tokenize (String.ofList (front ++ 'e' :: exponent))).1 ≠ [token] := by
  obtain ⟨more, rest⟩ := exists_reading (1 + ([] : List Char).count '\n' + front.count '\n') ('e' :: exponent)
  have reading := Reading.token .nil (.number h) rest
  have tokens : (tokenize (String.ofList (front ++ 'e' :: exponent))).1 = _ :=
    drain_of_reading reading rfl String.toList_ofList
  rw [tokens]
  intro one
  obtain ⟨-, rfl⟩ := List.cons.inj one
  generalize eq : 'e' :: exponent = behind at rest
  -- Without a further token the exponent is a gap, but it begins with a letter.
  cases rest with
  | done final =>
    subst eq
    have length := gapLength_final final
    rw [gapLength_of_not_gapAhead] at length
    · cases length
    · rintro (⟨c, blank, head⟩ | ⟨_, eq⟩)
      · cases head
        revert blank
        decide
      · cases eq

end Scanner

/-! ### Doubles -/

namespace Binary64

/-- Zero without a sign, or a finite number from `0.0001` on. -/
def Plain : Binary64 → Prop
  | .finite false rank => Rank.Plain rank
  | _ => False

/-- The text is a token with nothing to report, and the token's number has the same bits. -/
def ReadsBack (x : Binary64) : Prop :=
  ∃ token, Scanner.tokenize x.text = ([token], []) ∧ token.kind = .number ∧
    ∃ y, token.number = .ok y ∧ y.toBits = x.toBits

theorem text_unsigned (rank : Rank) : (finite false rank).text = String.ofList (Rank.text rank) := by
  simp [text]

theorem ofDecimal_eq_finite {d : Decimal} {rank : Rank} (h : Rank.ofDecimal d = rank) :
    ofDecimal d = .finite false rank := by
  have lt : Rank.ofDecimal d < rankCount := h ▸ rank.isLt
  rw [ofDecimal, dif_pos lt]
  exact congrArg (finite false) (Fin.ext h)

/-- The text of a plain double is a number, and it is the number of that. -/
theorem tokenize_text {x : Binary64} (plain : x.Plain) :
    ∃ token, Scanner.tokenize x.text = ([token], []) ∧ token.kind = .number ∧ token.number = .ok x := by
  match x, plain with
  | .finite false rank, plain =>
    obtain ⟨number, d, read, rounded⟩ := Rank.text_of_plain plain
    refine ⟨⟨.number, String.ofList (Rank.text rank), 1⟩, ?_, rfl, ?_⟩
    · rw [text_unsigned]
      exact Scanner.tokenize_number number
    · rw [Token.number, if_pos rfl, String.toList_ofList, read, ← ofDecimal_eq_finite rounded]

/-- Writing a double and reading the text gives the double again just if it is zero or at least `0.0001`; the text of any
    other finite one without a sign is not even one token. Hence writing, reading and writing again changes nothing
    where a token had such a value, and the texts of two such values are different. -/
theorem text_roundTrip :
    (∀ rank, (ReadsBack (.finite false rank) ↔ Plain (.finite false rank)) ∧
      (¬Plain (.finite false rank) → ∀ token, (Scanner.tokenize (finite false rank).text).1 ≠ [token])) ∧
    (∀ (lexed : Token) value, lexed.number = .ok value → value.Plain →
      ∃ token again, Scanner.tokenize value.text = ([token], []) ∧ token.number = .ok again ∧
        again.text = value.text) ∧
    ∀ (lexed lexed' : Token) value value', lexed.number = .ok value → lexed'.number = .ok value' → value.Plain →
      value'.Plain → value ≠ value' → value.text ≠ value'.text := by
  refine ⟨fun rank => ?_, fun _ value _ plain => ?_, fun _ _ value value' _ _ plain plain' apart same => apart ?_⟩
  · have several : ¬Plain (.finite false rank) → ∀ token, (Scanner.tokenize (finite false rank).text).1 ≠ [token] := by
      intro small token
      obtain ⟨front, exponent, text, longest⟩ := Rank.text_of_not_plain small
      rw [text_unsigned, text]
      exact Scanner.tokenize_exponent longest token
    refine ⟨⟨?_, ?_⟩, several⟩
    · rintro ⟨token, one, -⟩
      refine Classical.byContradiction fun small => several small token ?_
      rw [one]
    · intro plain
      obtain ⟨token, one, kind, number⟩ := tokenize_text plain
      exact ⟨token, one, kind, _, number, rfl⟩
  · obtain ⟨token, one, -, number⟩ := tokenize_text plain
    exact ⟨token, value, one, number, rfl⟩
  · obtain ⟨token, one, -, number⟩ := tokenize_text plain
    obtain ⟨token', one', -, number'⟩ := tokenize_text plain'
    rw [same, one'] at one
    cases one
    exact Except.ok.inj (number.symm.trans number')

example : (ofDecimal ⟨10000, 8⟩).text = "0.0001" ∧ (ofDecimal ⟨9999, 8⟩).text = "9.999e-05" := by decide +kernel

end Binary64

end ExprLang
