import ExprLang.Proofs.Lexical.Places

/-! # Illegal tokens

A token is illegal for one of two reasons: no token begins with its character, or it is a string that nothing closes
(`Lexes.illegal_cases`). Such a string takes all that is left of the text, so no token follows it, and whatever is
reported of it is reported last. What is reported can be read off the token alone (`complaint`). -/

namespace ExprLang

namespace Lexical

/-- The token begins as a string does. -/
def OpensString (token : Token) : Prop := token.lexeme.toList.head? = some '"'

instance (token : Token) : Decidable (OpensString token) := inferInstanceAs (Decidable (_ = _))

/-- What is said of an illegal token. -/
def complaint (token : Token) : String :=
  s!"[line {token.line}] Error: " ++
    if OpensString token then "Unterminated string." else "Unexpected character '" ++ token.lexeme ++ "'."

/-! ### The two reasons -/

theorem Lexes.illegal_cases {lexeme piece after : List Char} (h : Lexes .illegal lexeme piece after) :
    (∃ inner, lexeme = '"' :: inner ∧ piece = lexeme ∧ '"' ∉ inner ∧ after = []) ∨ ∃ c, lexeme = [c] ∧ c ≠ '"' := by
  generalize same : Kind.illegal = kind at h
  cases h with
  | symbol hm => exact absurd same.symm (symbol_ne_illegal hm)
  | withEqual hm => exact absurd same.symm (operator_of_mem hm).2.2.2
  | alone hm => exact absurd same.symm (operator_of_mem hm).2.2.1
  | keyword _ found => exact absurd same.symm (keyword_ne_illegal found)
  | unterminated inside => exact .inl ⟨_, rfl, rfl, inside, rfl⟩
  | stray hs => exact .inr ⟨_, rfl, hs.quote⟩
  | string | slash | number | identifier => cases same

theorem Reading.of_nil {line : Int} {tokens : List Token} (h : Reading line [] tokens) : tokens = [] := by
  generalize eq : [] = text at h
  cases h with
  | done => rfl
  | token _ lexes =>
    obtain ⟨c, tail, rfl, -⟩ := lexes.head
    exact absurd eq.symm (by simp)

theorem opensString_cons {kind : Kind} {line : Int} {inner : List Char} :
    OpensString ⟨kind, String.ofList ('"' :: inner), line⟩ := by
  simp [OpensString]

theorem not_opensString {kind : Kind} {line : Int} {c : Char} (h : c ≠ '"') :
    ¬OpensString ⟨kind, String.ofList [c], line⟩ := by
  simpa [OpensString] using h

theorem faults_open {line : Int} {inner : List Char} :
    faults ⟨.illegal, String.ofList ('"' :: inner), line⟩ = [⟨line, .unterminatedString⟩] := by
  simp [faults]

theorem faults_character {line : Int} {c : Char} (h : c ≠ '"') :
    faults ⟨.illegal, String.ofList [c], line⟩ = [⟨line, .unexpectedCharacter c⟩] := by
  simp [faults, h]

theorem complaint_open {kind : Kind} {line : Int} {inner : List Char} :
    complaint ⟨kind, String.ofList ('"' :: inner), line⟩ = Diagnostic.text ⟨line, .unterminatedString⟩ := by
  rw [complaint, if_pos opensString_cons]
  rfl

theorem complaint_character {kind : Kind} {line : Int} {c : Char} (h : c ≠ '"') :
    complaint ⟨kind, String.ofList [c], line⟩ = Diagnostic.text ⟨line, .unexpectedCharacter c⟩ := by
  rw [complaint, if_neg (not_opensString h)]
  rfl

theorem Lexes.text_faults {lexeme piece after : List Char} (h : Lexes .illegal lexeme piece after) (line : Int) :
    (faults ⟨.illegal, String.ofList lexeme, line⟩).map Diagnostic.text =
      [complaint ⟨.illegal, String.ofList lexeme, line⟩] := by
  rcases h.illegal_cases with ⟨inner, rfl, -⟩ | ⟨c, rfl, other⟩
  · rw [faults_open, complaint_open]
    rfl
  · rw [faults_character other, complaint_character other]
    rfl

/-! ### What is reported -/

variable {line : Int} {text : List Char} {tokens : List Token}

/-- An illegal token has one character, if it does not open a string. -/
theorem Reading.illegal_character (h : Reading line text tokens) :
    ∀ token ∈ tokens, token.kind = .illegal → ¬OpensString token → ∃ c, token.lexeme.toList = [c] := by
  induction h with
  | done => exact List.forall_mem_nil _
  | @token _ _ lexeme _ _ kind _ _ lexes _ ih =>
    refine List.forall_mem_cons.mpr ⟨fun illegal closed => ?_, ih⟩
    obtain rfl : kind = .illegal := illegal
    rcases lexes.illegal_cases with ⟨inner, rfl, -⟩ | ⟨c, rfl, -⟩
    · exact absurd opensString_cons closed
    · exact ⟨c, String.toList_ofList⟩

/-- Each illegal token is complained of once, in the order of the tokens. -/
theorem Reading.complaints (h : Reading line text tokens) :
    (tokens.flatMap faults).map Diagnostic.text = (tokens.filter (·.kind = .illegal)).map complaint := by
  induction h with
  | done => rfl
  | @token line gap lexeme _ _ kind _ _ lexes _ ih =>
    rw [List.flatMap_cons, List.map_append, ih]
    by_cases illegal : kind = .illegal
    · subst illegal
      rw [lexes.text_faults, List.filter_cons_of_pos (by simp)]
      rfl
    · rw [faults_of_ne illegal, List.filter_cons_of_neg (by simpa using illegal)]
      rfl

/-- No token is behind an open string, which goes to the end of the text. -/
theorem Reading.open_string_last (h : Reading line text tokens) : ∀ front token behind,
    tokens = front ++ token :: behind → token.kind = .illegal → OpensString token →
      behind = [] ∧ token.lexeme.toList <:+ text ∧ token.lexeme.toList.count '"' = 1 := by
  induction h with
  | done =>
    intro front token behind split
    exact absurd split.symm (List.append_ne_nil_of_right_ne_nil front (List.cons_ne_nil token behind))
  | @token _ gap lexeme piece after kind _ _ lexes rest ih =>
    intro front token behind split illegal opens
    cases front with
    | nil =>
      obtain ⟨rfl, rfl⟩ := List.cons.inj split
      obtain rfl : kind = .illegal := illegal
      rcases lexes.illegal_cases with ⟨inner, rfl, rfl, inside, rfl⟩ | ⟨c, rfl, other⟩
      · refine ⟨rest.of_nil, ?_, ?_⟩
        · rw [List.append_nil, String.toList_ofList]
          exact List.suffix_append gap _
        · rw [String.toList_ofList, List.count_cons_self, List.count_eq_zero.mpr inside]
      · exact absurd opens (not_opensString other)
    | cons first front =>
      obtain ⟨-, split⟩ := List.cons.inj split
      obtain ⟨last, suffix, once⟩ := ih front token behind split illegal opens
      exact ⟨last, suffix.trans (List.suffix_append _ after), once⟩

/-- Nothing is reported behind an open string. -/
theorem Reading.unterminated_last (h : Reading line text tokens) : ∀ front diagnostic behind,
    tokens.flatMap faults = front ++ diagnostic :: behind → diagnostic.problem = .unterminatedString → behind = [] := by
  induction h with
  | done =>
    intro front diagnostic behind split
    exact absurd split.symm (List.append_ne_nil_of_right_ne_nil front (List.cons_ne_nil diagnostic behind))
  | @token line gap lexeme piece after kind others _ lexes rest ih =>
    intro front diagnostic behind split open_
    rw [List.flatMap_cons] at split
    by_cases illegal : kind = .illegal
    · subst illegal
      rcases lexes.illegal_cases with ⟨inner, rfl, -, -, rfl⟩ | ⟨c, rfl, other⟩
      · -- Nothing is left to be reported, so the one diagnostic there is ends the list.
        rw [faults_open, rest.of_nil] at split
        cases front with
        | nil => exact (List.cons.inj split).2.symm
        | cons first front =>
          have none := (List.cons.inj split).2
          exact absurd none.symm (List.append_ne_nil_of_right_ne_nil front (List.cons_ne_nil diagnostic behind))
      · rw [faults_character other] at split
        cases front with
        | nil =>
          obtain ⟨rfl, -⟩ := List.cons.inj split
          cases open_
        | cons first front => exact ih front diagnostic behind (List.cons.inj split).2 open_
    · rw [faults_of_ne illegal] at split
      exact ih front diagnostic behind split open_

theorem Reading.reports_nothing_iff (h : Reading line text tokens) :
    tokens.flatMap faults = [] ↔ ∀ token ∈ tokens, token.kind ≠ .illegal := by
  rw [← List.map_eq_nil_iff, h.complaints, List.map_eq_nil_iff, List.filter_eq_nil_iff]
  simp

end Lexical

namespace Scanner

open Lexical

/-- What a scanner reports of a text are the complaints of its illegal tokens, one for each and in their order. One that
    does not open a string is a single character; one that does is the last token of the text and all of its end, and
    its complaint is the last, and the only one of its sort. -/
theorem tokenize_complaints (text : String) :
    (tokenize text).2.map Diagnostic.text = ((tokenize text).1.filter (·.kind = .illegal)).map complaint ∧
      (∀ token ∈ (tokenize text).1, token.kind = .illegal → ¬OpensString token →
        ∃ c, token.lexeme.toList = [c]) ∧
      (∀ front token behind, (tokenize text).1 = front ++ token :: behind → token.kind = .illegal →
        OpensString token →
          behind = [] ∧ token.lexeme.toList <:+ text.toList ∧ token.lexeme.toList.count '"' = 1) ∧
      (∀ front diagnostic behind, (tokenize text).2 = front ++ diagnostic :: behind →
        diagnostic.problem = .unterminatedString →
          behind = [] ∧ ∀ other ∈ front, other.problem ≠ .unterminatedString) ∧
      ((tokenize text).2 = [] ↔ ∀ token ∈ (tokenize text).1, token.kind ≠ .illegal) := by
  have reading := reading_tokenize text
  rw [tokenize_snd]
  refine ⟨reading.complaints, reading.illegal_character, reading.open_string_last, ?_, reading.reports_nothing_iff⟩
  intro front diagnostic behind split open_
  refine ⟨reading.unterminated_last front diagnostic behind split open_, fun other member open' => ?_⟩
  obtain ⟨before, between, rfl⟩ := List.append_of_mem member
  rw [List.append_assoc] at split
  have none := reading.unterminated_last before other _ split open'
  exact absurd none (List.append_ne_nil_of_right_ne_nil between (List.cons_ne_nil diagnostic behind))

example : (tokenize "@ 1 \"open").2 = [⟨1, .unexpectedCharacter '@'⟩, ⟨1, .unterminatedString⟩] := by decide +kernel

end Scanner

end ExprLang
