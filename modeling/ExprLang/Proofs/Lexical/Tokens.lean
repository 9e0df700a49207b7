import ExprLang.Proofs.Lexical.Scan

/-! # All tokens of a text

Draining a scanner reads the whole text as the grammar does (`Scanner.reading_drain`), and the grammar reads it in one
way only. Two views of the same run follow: the tokens with the places where they begin and end, each the longest match
of the grammar at its place, and the text as an alternation of gaps and tokens in which no character is missing. -/

namespace ExprLang

open Lexical

/-! ### The grammar reads a text in one way -/

namespace Lexical

theorem Lexes.unique {kind kind' : Kind} {lexeme lexeme' piece piece' after after' : List Char}
    (h : Lexes kind lexeme piece after) (h' : Lexes kind' lexeme' piece' after')
    (eq : piece ++ after = piece' ++ after') : kind = kind' ∧ lexeme = lexeme' ∧ piece = piece' ∧ after = after' := by
  have first := Scanner.next_eq (s := { rest := piece ++ after }) rfl .nil h
  have second := Scanner.next_eq (s := { rest := piece ++ after }) eq .nil h'
  rw [first, Prod.mk.injEq, Option.some.injEq, Token.mk.injEq] at second
  obtain ⟨⟨same, text, -⟩, scanner⟩ := second
  refine ⟨same, ?_, congrArg Scanner.taken scanner, congrArg Scanner.rest scanner⟩
  simpa using congrArg String.toList text

theorem exists_reading (line : Int) (text : List Char) : ∃ tokens, Reading line text tokens := by
  rcases lexes_cases text with final | ⟨gap, kind, lexeme, piece, after, rfl, hgap, lexes⟩
  · exact ⟨[], .done final⟩
  · have shorter : after.length < (gap ++ piece ++ after).length := by
      obtain ⟨c, tail, rfl, -⟩ := lexes.head
      simp only [List.length_append, List.length_cons]
      omega
    obtain ⟨tokens, rest⟩ := exists_reading (line + gap.count '\n' + piece.count '\n') after
    exact ⟨_, .token hgap lexes rest⟩
termination_by text.length

theorem tables_lack : ∀ kind ∈ [Kind.string, .number, .endOfInput], (∀ entry ∈ symbols, entry.2 ≠ kind) ∧
    (∀ entry ∈ operators, entry.2.1 ≠ kind ∧ entry.2.2 ≠ kind) ∧ ∀ entry ∈ Kind.keywords, entry.2 ≠ kind := by
  decide

/-- A token's lexeme gives back the piece of the text that it takes. -/
theorem Lexes.source_eq {kind : Kind} {lexeme piece after : List Char} (h : Lexes kind lexeme piece after)
    (line : Int) : source ⟨kind, String.ofList lexeme, line⟩ = piece := by
  have tables := tables_lack .string (by decide)
  cases h with
  | symbol hm => simp [source, tables.1 _ hm]
  | withEqual hm => simp [source, (tables.2.1 _ hm).2]
  | alone hm => simp [source, (tables.2.1 _ hm).1]
  | keyword _ found => simp [source, tables.2.2 _ found]
  | string | slash | unterminated | number | identifier | stray => simp [source]

end Lexical

namespace Scanner

theorem drain_of_token {s : Scanner} {gap lexeme piece after : List Char} {kind : Kind}
    (rest : s.rest = gap ++ piece ++ after) (hgap : Gap gap) (lexes : Lexes kind lexeme piece after) :
    let token : Token := ⟨kind, String.ofList lexeme, s.line + gap.count '\n'⟩
    s.drain = (token :: (s.behind gap piece after token).drain.1, (s.behind gap piece after token).drain.2) := by
  intro token
  have first : s.next = (some token, s.behind gap piece after token) := next_eq rest hgap lexes
  exact drain_of_next_some first

theorem drain_of_final {s : Scanner} (h : FinalGap s.rest) : s.drain = ([], s.readOver s.rest []) :=
  drain_of_next_none (next_eq_none h)

/-- What the grammar reads is what the scanner returns. -/
theorem drain_of_reading {line : Int} {text : List Char} {tokens : List Token} (h : Reading line text tokens) :
    ∀ {s : Scanner}, s.line = line → s.rest = text → s.drain.1 = tokens := by
  induction h with
  | done final =>
    rintro s - rfl
    rw [drain_of_final final]
  | token hgap lexes _ ih =>
    rintro s rfl rest
    rw [drain_of_token rest hgap lexes]
    exact congrArg _ (ih rfl rfl)

theorem reading_drain (s : Scanner) : Reading s.line s.rest s.drain.1 := by
  obtain ⟨tokens, h⟩ := exists_reading s.line s.rest
  rw [drain_of_reading h rfl rfl]
  exact h

theorem reading_tokenize (text : String) : Reading 1 text.toList (tokenize text).1 := reading_drain (ofText text)

end Scanner

/-! ### Numbers and lines -/

namespace Lexical

theorem Lexes.number_of_kind {kind : Kind} {lexeme piece after : List Char} (h : Lexes kind lexeme piece after)
    (number : kind = .number) : Number lexeme := by
  have tables := tables_lack .number (by decide)
  cases h with
  | symbol hm => exact absurd number (tables.1 _ hm)
  | withEqual hm => exact absurd number (tables.2.1 _ hm).2
  | alone hm => exact absurd number (tables.2.1 _ hm).1
  | keyword _ found => exact absurd number (tables.2.2 _ found)
  | number longest => exact longest.fits
  | string | slash | unterminated | identifier | stray => cases number

theorem Reading.exists_number {line : Int} {text : List Char} {tokens : List Token} (h : Reading line text tokens) :
    ∀ token ∈ tokens, token.kind = .number → ∃ value, token.number = .ok value := by
  induction h with
  | done => exact List.forall_mem_nil _
  | token _ lexes _ ih =>
    intro token member number
    rcases List.mem_cons.mp member with rfl | member
    · obtain ⟨decimal, read⟩ := (lexes.number_of_kind number).exists_decimal
      refine ⟨.ofDecimal decimal, ?_⟩
      rw [Token.number, if_pos number, String.toList_ofList, read]
    · exact ih token member number

theorem Reading.line_le {line : Int} {text : List Char} {tokens : List Token} (h : Reading line text tokens) :
    ∀ token ∈ tokens, line ≤ token.line := by
  induction h with
  | done => exact List.forall_mem_nil _
  | @token line gap _ _ _ _ _ _ _ _ ih =>
    intro token member
    rcases List.mem_cons.mp member with rfl | member
    · show line ≤ line + gap.count '\n'
      omega
    · have := ih token member
      omega

end Lexical

/-! ### Places -/

/-- A token and the places in the text where it begins and ends. -/
structure Lexical.Span where
  token : Token
  start : Nat
  stop : Nat

/-- At `start` the text begins with a token that ends at `stop`. -/
def Lexical.LexesAt (text : List Char) (start stop : Nat) (kind : Kind) (lexeme : List Char) : Prop :=
  ∃ piece, text.drop start = piece ++ text.drop stop ∧ stop = start + piece.length ∧
    Lexes kind lexeme piece (text.drop stop)

namespace Scanner

/-- All tokens from here on with their places, as the scanner has them when it returns the token. -/
def spans (s : Scanner) : List Span :=
  match h : s.next with
  | (none, _) => []
  | (some token, after) =>
    have := length_rest_next_lt h
    ⟨token, after.start, after.current⟩ :: after.spans
termination_by s.rest.length

theorem map_token_spans (s : Scanner) : s.spans.map (·.token) = s.drain.1 := by
  fun_induction spans s with
  | case1 s after h => rw [drain_of_next_none h, List.map_nil]
  | case2 s token after h lt ih => rw [drain_of_next_some h, List.map_cons, ih]

/-- Every token stands where the scanner says, if the scanner's place is where the rest of the text begins. -/
theorem lexesAt_of_mem_spans (s : Scanner) {text : List Char} (place : s.rest = text.drop s.current) :
    ∀ span ∈ s.spans, LexesAt text span.start span.stop span.token.kind span.token.lexeme.toList := by
  fun_induction spans s with
  | case1 => intro span h; cases h
  | case2 s token after h lt ih =>
    obtain ⟨gap, kind, lexeme, piece, behind, rest, hgap, lexes, rfl, rfl⟩ := exists_of_next_some h
    have start : text.drop (s.current + gap.length) = piece ++ behind := by
      rw [← List.drop_drop, ← place, rest, List.append_assoc, List.drop_left]
    have stop : text.drop (s.current + gap.length + piece.length) = behind := by
      rw [← List.drop_drop, start, List.drop_left]
    intro span hm
    rcases List.mem_cons.mp hm with rfl | hm
    · refine ⟨piece, ?_, rfl, ?_⟩
      · show text.drop (s.current + gap.length) = piece ++ text.drop (s.current + gap.length + piece.length)
        rw [start, stop]
      · show Lexes kind (String.ofList lexeme).toList piece (text.drop (s.current + gap.length + piece.length))
        rw [stop, String.toList_ofList]
        exact lexes
    · exact ih stop.symm span hm

/-- The tokens of a text with their places. -/
def spansOf (text : String) : List Span := (ofText text).spans

end Scanner

theorem Lexical.LexesAt.unique {text : List Char} {start stop stop' : Nat} {kind kind' : Kind}
    {lexeme lexeme' : List Char} (h : LexesAt text start stop kind lexeme)
    (h' : LexesAt text start stop' kind' lexeme') :
    kind = kind' ∧ lexeme = lexeme' ∧ stop = stop' := by
  obtain ⟨piece, eq, rfl, lexes⟩ := h
  obtain ⟨piece', eq', rfl, lexes'⟩ := h'
  obtain ⟨rfl, rfl, rfl, -⟩ := lexes.unique lexes' (eq.symm.trans eq')
  exact ⟨rfl, rfl, rfl⟩

theorem Lexical.Lexes.ne_endOfInput {kind : Kind} {lexeme piece after : List Char} (h : Lexes kind lexeme piece after) :
    kind ≠ .endOfInput := by
  have tables := tables_lack .endOfInput (by decide)
  cases h with
  | symbol hm => exact tables.1 _ hm
  | withEqual hm => exact (tables.2.1 _ hm).2
  | alone hm => exact (tables.2.1 _ hm).1
  | keyword _ found => exact tables.2.2 _ found
  | string | slash | unterminated | number | identifier | stray => simp

theorem Lexical.Reading.ne_endOfInput {line : Int} {text : List Char} {tokens : List Token}
    (h : Reading line text tokens) : ∀ token ∈ tokens, token.kind ≠ .endOfInput := by
  induction h with
  | done => exact List.forall_mem_nil _
  | token _ lexes _ ih => exact List.forall_mem_cons.mpr ⟨lexes.ne_endOfInput, ih⟩

namespace Scanner

/-- Scanning is longest match: the tokens of a text stand at places where the grammar finds one token, these are the
    kind, the lexeme and the end that it finds, and no token stands for the end of the text. -/
theorem tokenize_longest_match (text : String) :
    (spansOf text).map (·.token) = (tokenize text).1 ∧
      ∀ span ∈ spansOf text, span.token.kind ≠ .endOfInput ∧ ∀ kind lexeme stop,
        LexesAt text.toList span.start stop kind lexeme ↔
          kind = span.token.kind ∧ lexeme = span.token.lexeme.toList ∧ stop = span.stop := by
  refine ⟨map_token_spans _, fun span hm => ?_⟩
  have place : (ofText text).rest = text.toList.drop 0 := rfl
  have lexes := lexesAt_of_mem_spans (ofText text) place span hm
  have real : span.token.kind ≠ .endOfInput := by
    obtain ⟨piece, -, -, found⟩ := lexes
    exact found.ne_endOfInput
  refine ⟨real, fun kind lexeme stop => ⟨fun other => other.unique lexes, ?_⟩⟩
  rintro ⟨rfl, rfl, rfl⟩
  exact lexes

end Scanner

/-! ### Gaps and tokens -/

theorem Lexical.Reading.layout {line : Int} {text : List Char} {tokens : List Token} (h : Reading line text tokens) :
    ∃ gaps last, gaps.length = tokens.length ∧
      text = (List.zipWith (fun gap token => gap ++ source token) gaps tokens).flatten ++ last ∧
      (∀ gap ∈ gaps, Gap gap) ∧ FinalGap last ∧ ∀ token ∈ tokens, source token ≠ [] := by
  induction h with
  | done final => exact ⟨[], _, rfl, rfl, by simp, final, by simp⟩
  | @token line gap lexeme piece after kind tokens hgap lexes _ ih =>
    obtain ⟨gaps, last, count, text, closed, final, filled⟩ := ih
    have shown := lexes.source_eq (line + gap.count '\n')
    refine ⟨gap :: gaps, last, by simp [count], ?_, ?_, final, ?_⟩
    · rw [List.zipWith_cons_cons, List.flatten_cons, shown, List.append_assoc (gap ++ piece), ← text]
    · intro g hg
      rcases List.mem_cons.mp hg with rfl | hg
      · exact hgap
      · exact closed g hg
    · intro t ht
      rcases List.mem_cons.mp ht with rfl | ht
      · obtain ⟨c, tail, rfl, -⟩ := lexes.head
        rw [shown]
        exact List.cons_ne_nil c tail
      · exact filled t ht

namespace Scanner

/-- No character is lost, doubled or moved: a text is its tokens' sources in order, none of them empty, with a gap in
    front of each and one behind the last, and only this one may end inside a comment. -/
theorem tokenize_layout (text : String) :
    ∃ gaps last, gaps.length = (tokenize text).1.length ∧
      text.toList = (List.zipWith (fun gap token => gap ++ source token) gaps (tokenize text).1).flatten ++ last ∧
      (∀ gap ∈ gaps, Gap gap) ∧ FinalGap last ∧ ∀ token ∈ (tokenize text).1, source token ≠ [] :=
  (reading_tokenize text).layout

end Scanner

end ExprLang
