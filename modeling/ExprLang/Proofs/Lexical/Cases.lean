import ExprLang.Proofs.Lexical.Longest

/-! # What a text begins with

The tables of the grammar against the functions that look a character or a word up, and the case distinction behind
every scan: a text is a gap to its end, or begins with a gap and a token (`lexes_cases`). -/

namespace ExprLang.Lexical

/-! ### Tables -/

theorem ofSymbol?_of_mem {c : Char} {kind : Kind} (h : (c, kind) ∈ symbols) : Kind.ofSymbol? c = some kind := by
  have table : ∀ entry ∈ symbols, Kind.ofSymbol? entry.1 = some entry.2 := by decide
  exact table _ h

theorem of_ofSymbol? {c : Char} {kind : Kind} (h : Kind.ofSymbol? c = some kind) : (c, kind) ∈ symbols ∨ c = '/' := by
  unfold Kind.ofSymbol? at h
  split at h <;> first | (cases h; decide) | cases h

theorem of_ofOperator? {c : Char} {kinds : Kind × Kind} (h : Kind.ofOperator? c = some kinds) :
    (c, kinds) ∈ operators := by
  unfold Kind.ofOperator? at h
  split at h <;> first | (cases h; decide) | cases h

theorem operator_of_mem {c : Char} {alone withEqual : Kind} (h : (c, alone, withEqual) ∈ operators) :
    Kind.ofSymbol? c = none ∧ Kind.ofOperator? c = some (alone, withEqual) ∧ alone ≠ .illegal ∧
      withEqual ≠ .illegal := by
  have table : ∀ entry ∈ operators, Kind.ofSymbol? entry.1 = none ∧ Kind.ofOperator? entry.1 = some entry.2 ∧
      entry.2.1 ≠ .illegal ∧ entry.2.2 ≠ .illegal := by decide
  exact table _ h

theorem symbol_ne_illegal {c : Char} {kind : Kind} (h : (c, kind) ∈ symbols) : kind ≠ .illegal := by
  have table : ∀ entry ∈ symbols, entry.2 ≠ .illegal := by decide
  exact table _ h

theorem keyword_ne_illegal {word : String} {kind : Kind} (h : (word, kind) ∈ Kind.keywords) : kind ≠ .illegal := by
  have table : ∀ entry ∈ Kind.keywords, entry.2 ≠ .illegal := by decide
  exact table _ h

theorem ofWord_of_mem {word : String} {kind : Kind} (h : (word, kind) ∈ Kind.keywords) : Kind.ofWord word = kind := by
  have table : ∀ entry ∈ Kind.keywords, Kind.ofWord entry.1 = entry.2 := by decide
  exact table _ h

theorem ofWord_of_not_mem {word : String} (h : word ∉ Kind.keywords.map (·.1)) : Kind.ofWord word = .identifier := by
  have : Kind.keywords.lookup word = none := by
    rw [List.lookup_eq_none_iff]
    intro entry he
    rw [bne_iff_ne]
    rintro rfl
    exact h (List.mem_map_of_mem he)
  rw [Kind.ofWord, this, Option.getD_none]

/-- A digit or a letter is none of the characters that are neither. -/
theorem ne_of_class {c d : Char} (h : c.isDigit = true ∨ Text.isLetter c = true)
    (other : d.isDigit = false ∧ Text.isLetter d = false) : c ≠ d := by
  rintro rfl
  rcases h with h | h
  · rw [other.1] at h; cases h
  · rw [other.2] at h; cases h

theorem symbol_class {c : Char} {kind : Kind} (h : (c, kind) ∈ symbols) :
    c.isDigit = false ∧ Text.isLetter c = false := by
  have table : ∀ entry ∈ symbols, entry.1.isDigit = false ∧ Text.isLetter entry.1 = false := by decide
  exact table _ h

theorem operator_class {c : Char} {kinds : Kind × Kind} (h : (c, kinds) ∈ operators) :
    c.isDigit = false ∧ Text.isLetter c = false := by
  have table : ∀ entry ∈ operators, entry.1.isDigit = false ∧ Text.isLetter entry.1 = false := by decide
  exact table _ h

theorem not_blank_of_class {c : Char} (h : c.isDigit = true ∨ Text.isLetter c = true) : c ∉ blanks := by
  intro hm
  simp only [blanks, List.mem_cons, List.not_mem_nil, or_false] at hm
  rcases hm with rfl | rfl | rfl | rfl <;> exact absurd rfl (ne_of_class h (by decide))

theorem unknown_of_class {c : Char} (h : c.isDigit = true ∨ Text.isLetter c = true) :
    Kind.ofSymbol? c = none ∧ Kind.ofOperator? c = none := by
  constructor
  · cases hs : Kind.ofSymbol? c with
    | none => rfl
    | some kind =>
      rcases of_ofSymbol? hs with hm | rfl
      · exact absurd rfl (ne_of_class h (symbol_class hm))
      · exact absurd rfl (ne_of_class h (by decide))
  · cases ho : Kind.ofOperator? c with
    | none => rfl
    | some kinds => exact absurd rfl (ne_of_class h (operator_class (of_ofOperator? ho)))

theorem isDigit_of_isLetter {c : Char} (h : Text.isLetter c = true) : c.isDigit = false := by
  rw [Bool.eq_false_iff]
  intro digit
  simp only [Char.isDigit, Bool.and_eq_true, decide_eq_true_eq, UInt32.le_iff_toNat_le, ge_iff_le] at digit
  have range : 48 ≤ c.toNat ∧ c.toNat ≤ 57 := digit
  rw [Text.isLetter_of_ascii (by omega)] at h
  have unfolded : (decide (65 ≤ c.val ∧ c.val ≤ 90) || decide (97 ≤ c.val) && decide (c.val ≤ 122)) = true := h
  simp only [Bool.or_eq_true, Bool.and_eq_true, decide_eq_true_eq, UInt32.le_iff_toNat_le] at unfolded
  have letters : 65 ≤ c.toNat ∧ c.toNat ≤ 90 ∨ 97 ≤ c.toNat ∧ c.toNat ≤ 122 := unfolded
  omega

theorem Stray.unknown {c : Char} (h : Stray c) : Kind.ofSymbol? c = none ∧ Kind.ofOperator? c = none := by
  constructor
  · cases hs : Kind.ofSymbol? c with
    | none => rfl
    | some kind =>
      rcases of_ofSymbol? hs with hm | rfl
      · exact absurd (List.mem_map_of_mem hm) h.symbol
      · exact absurd rfl h.slash
  · cases ho : Kind.ofOperator? c with
    | none => rfl
    | some kinds => exact absurd (List.mem_map_of_mem (of_ofOperator? ho)) h.operator

theorem Lexes.head {kind : Kind} {lexeme piece after : List Char} (h : Lexes kind lexeme piece after) :
    ∃ c tail, piece = c :: tail ∧ c ∉ blanks ∧ ¬(c = '/' ∧ (tail ++ after).head? = some '/') := by
  have plain : (∀ entry ∈ symbols, entry.1 ∉ blanks ∧ entry.1 ≠ '/') ∧
      ∀ entry ∈ operators, entry.1 ∉ blanks ∧ entry.1 ≠ '/' := by decide
  cases h with
  | symbol hm => exact ⟨_, [], rfl, (plain.1 _ hm).1, fun e => (plain.1 _ hm).2 e.1⟩
  | withEqual hm | alone hm => exact ⟨_, _, rfl, (plain.2 _ hm).1, fun e => (plain.2 _ hm).2 e.1⟩
  | slash stop => exact ⟨'/', [], rfl, by decide, fun e => stop e.2⟩
  | string | unterminated => exact ⟨'"', _, rfl, by decide, fun e => absurd e.1 (by decide)⟩
  | number longest =>
    obtain ⟨d, rest, rfl, digit⟩ := longest.fits.head
    exact ⟨d, rest, rfl, not_blank_of_class (.inl digit), fun e => ne_of_class (.inl digit) (by decide) e.1⟩
  | keyword longest | identifier longest =>
    obtain ⟨c, rest, rfl, letter⟩ := longest.fits.head
    exact ⟨c, rest, rfl, not_blank_of_class (.inr letter), fun e => ne_of_class (.inr letter) (by decide) e.1⟩
  | stray hs => exact ⟨_, [], rfl, hs.blank, fun e => hs.slash e.1⟩

theorem Lexes.not_gapAhead {kind : Kind} {lexeme piece after : List Char} (h : Lexes kind lexeme piece after) :
    ¬GapAhead (piece ++ after) := by
  obtain ⟨c, tail, rfl, blank, slashes⟩ := h.head
  rintro (⟨d, hd, head⟩ | ⟨rest, eq⟩)
  · obtain rfl : c = d := Option.some.inj head
    exact blank hd
  · rw [List.cons_append] at eq
    obtain ⟨rfl, second⟩ := List.cons.inj eq
    exact slashes ⟨rfl, by rw [second]; rfl⟩

/-- A text begins with a gap to its end, or with a gap and a token. -/
theorem lexes_cases (text : List Char) :
    FinalGap text ∨ ∃ gap kind lexeme piece after,
      text = gap ++ piece ++ after ∧ Gap gap ∧ Lexes kind lexeme piece after := by
  rcases gap_cases text with final | ⟨gap, c, rest, rfl, hgap, stop⟩
  · exact .inl final
  · suffices h : ∃ kind lexeme piece after, c :: rest = piece ++ after ∧ Lexes kind lexeme piece after by
      obtain ⟨kind, lexeme, piece, after, eq, lexes⟩ := h
      exact .inr ⟨gap, kind, lexeme, piece, after, by rw [eq, List.append_assoc], hgap, lexes⟩
    by_cases symbol : c ∈ symbols.map (·.1)
    · obtain ⟨⟨_, kind⟩, hm, rfl⟩ := List.mem_map.mp symbol
      exact ⟨kind, [_], [_], rest, rfl, .symbol hm⟩
    by_cases operator : c ∈ operators.map (·.1)
    · obtain ⟨⟨_, alone, withEqual⟩, hm, rfl⟩ := List.mem_map.mp operator
      by_cases equals : rest.head? = some '='
      · obtain ⟨after, rfl⟩ := List.head?_eq_some_iff.mp equals
        exact ⟨withEqual, _, [_, '='], after, rfl, .withEqual hm⟩
      · exact ⟨alone, _, [_], rest, rfl, .alone hm equals⟩
    by_cases slash : c = '/'
    · subst slash
      refine ⟨.slash, _, ['/'], rest, rfl, .slash fun h => stop ?_⟩
      obtain ⟨after, rfl⟩ := List.head?_eq_some_iff.mp h
      exact .inr ⟨after, rfl⟩
    by_cases quote : c = '"'
    · subst quote
      by_cases closed : '"' ∈ rest
      · obtain ⟨inner, after, rfl, inside⟩ := List.eq_append_cons_of_mem closed
        exact ⟨.string, inner, '"' :: inner ++ ['"'], after, by simp, .string inside⟩
      · exact ⟨.illegal, _, '"' :: rest, [], by simp, .unterminated closed⟩
    by_cases digit : c.isDigit = true
    · obtain ⟨piece, after, eq, longest⟩ := exists_longest_number digit rest
      exact ⟨.number, piece, piece, after, eq, .number longest⟩
    by_cases letter : Text.isLetter c = true
    · obtain ⟨piece, after, eq, longest⟩ := exists_longest_word letter rest
      by_cases known : String.ofList piece ∈ Kind.keywords.map (·.1)
      · obtain ⟨⟨_, kind⟩, hm, same⟩ := List.mem_map.mp known
        exact ⟨kind, piece, piece, after, eq, .keyword longest (same ▸ hm)⟩
      · exact ⟨.identifier, piece, piece, after, eq, .identifier longest known⟩
    · refine ⟨.illegal, [c], [c], rest, rfl, .stray ⟨fun hb => stop (.inl ⟨c, hb, rfl⟩), symbol, operator, slash, quote,
        ?_, ?_⟩⟩
      · simpa using digit
      · simpa using letter

end ExprLang.Lexical
