import ExprLang.Proofs.Lexical.Spaced

/-! # A separator put into a text

Where a token begins or ends, blanks, newlines and whole comments can be put in. The tokens in front of the place stay
as they are, since none sees past a blank; those behind it are read as before, as many lines further down as were put
in (`lowers_insertAt`). The end of an open string is no such place: the string would go on. -/

namespace ExprLang

/-- The token, some lines further down. -/
def Token.lowered (lines : Nat) (token : Token) : Token := { token with line := token.line + lines }

@[inherit_doc Token.lowered]
def Diagnostic.lowered (lines : Nat) (diagnostic : Diagnostic) : Diagnostic :=
  { diagnostic with line := diagnostic.line + lines }

@[simp] theorem Token.lowered_zero (token : Token) : token.lowered 0 = token := by simp [lowered]

namespace Lexical

/-- An illegal token that begins with a quote takes all that is left of the text. -/
def Unterminated (token : Token) : Prop := token.kind = .illegal ∧ token.lexeme.toList.head? = some '"'

/-- Reports of a token move with it. -/
theorem faults_lowered (lines : Nat) (token : Token) :
    faults (token.lowered lines) = (faults token).map (Diagnostic.lowered lines) := by
  by_cases illegal : token.kind = .illegal
  · cases eq : token.lexeme.toList <;> simp [faults, Token.lowered, Diagnostic.lowered, illegal, eq]
  · simp [faults, Token.lowered, illegal]

theorem Lexes.after_eq_nil {kind : Kind} {lexeme piece after : List Char} (h : Lexes kind lexeme piece after)
    (illegal : kind = .illegal) (quote : lexeme.head? = some '"') : after = [] := by
  cases h with
  | symbol hm => exact absurd illegal (symbol_ne_illegal hm)
  | withEqual hm => exact absurd illegal (operator_of_mem hm).2.2.2
  | alone hm => exact absurd illegal (operator_of_mem hm).2.2.1
  | keyword _ found => exact absurd illegal (keyword_ne_illegal found)
  | stray other => exact absurd (Option.some.inj quote) other.quote
  | unterminated => rfl
  | slash | string | number | identifier => cases illegal

/-! ### Readings further down -/

variable {line : Int} {text : List Char} {tokens : List Token}

theorem Reading.lowered (h : Reading line text tokens) (lines : Nat) :
    Reading (line + lines) text (tokens.map (Token.lowered lines)) := by
  induction h with
  | done final => exact .done final
  | @token line gap _ piece _ _ _ hgap lexes _ ih =>
    have same :
        line + gap.count '\n' + piece.count '\n' + lines = line + lines + gap.count '\n' + piece.count '\n' := by
      omega
    rw [same] at ih
    have reading := Reading.token hgap lexes ih
    rwa [Int.add_right_comm] at reading

theorem Reading.behind_gap {gap : List Char} (hgap : Gap gap)
    (h : Reading (line + gap.count '\n') text tokens) : Reading line (gap ++ text) tokens := by
  generalize start : line + gap.count '\n' = line' at h
  cases h with
  | done final => exact .done (.append hgap final)
  | @token _ more _ _ _ _ _ hmore lexes rest =>
    have lines : line' + more.count '\n' = line + (gap ++ more).count '\n' := by
      rw [List.count_append]
      omega
    rw [lines] at rest ⊢
    have reading := Reading.token (hgap.append hmore) lexes rest
    rwa [List.append_assoc gap, List.append_assoc gap] at reading

end Lexical

namespace Scanner

open Lexical

variable {s : Scanner}

theorem spans_of_final (h : FinalGap s.rest) : s.spans = [] := by
  rw [spans]
  split
  · rfl
  · next eq => rw [next_eq_none h] at eq; cases eq

theorem spans_of_token {gap lexeme piece after : List Char} {kind : Kind} (rest : s.rest = gap ++ piece ++ after)
    (hgap : Gap gap) (lexes : Lexes kind lexeme piece after) :
    let token : Token := ⟨kind, String.ofList lexeme, s.line + gap.count '\n'⟩
    s.spans = ⟨token, s.current + gap.length, s.current + gap.length + piece.length⟩ ::
      (s.behind gap piece after token).spans := by
  intro token
  have first : s.next = (some token, s.behind gap piece after token) := next_eq rest hgap lexes
  rw [spans]
  split
  · next eq => rw [first] at eq; cases eq
  · next eq =>
    rw [first] at eq
    cases eq
    rfl

/-- Tokens stand where the scanner is or behind it. -/
theorem le_start_of_mem_spans (s : Scanner) : ∀ span ∈ s.spans, s.current ≤ span.start ∧ span.start ≤ span.stop := by
  fun_induction spans s with
  | case1 => exact List.forall_mem_nil _
  | case2 s token after h lt ih =>
    obtain ⟨gap, kind, lexeme, piece, behind, -, -, -, rfl, rfl⟩ := exists_of_next_some h
    have first : s.current ≤ s.current + gap.length := Nat.le_add_right _ _
    have stop : s.current + gap.length ≤ s.current + gap.length + piece.length := Nat.le_add_right _ _
    refine List.forall_mem_cons.mpr ⟨⟨first, stop⟩, fun span member => ?_⟩
    obtain ⟨start, ends⟩ := ih span member
    exact ⟨Nat.le_trans (Nat.le_trans first stop) start, ends⟩

end Scanner

namespace Lexical

open Scanner

/-- A place where a token begins, or where one ends that is no open string. -/
def Border (spans : List Span) (offset : Nat) : Prop :=
  ∃ span ∈ spans, offset = span.start ∨ offset = span.stop ∧ ¬Unterminated span.token

/-- The text with a piece put in. -/
def insertAt (text : String) (offset : Nat) (piece : List Char) : String :=
  String.ofList (text.toList.take offset ++ piece ++ text.toList.drop offset)

/-- By how many lines a token moves down: it begins at the offset or behind it, or else it stays. -/
def Span.fall (offset lines : Nat) (span : Span) : Nat := if offset ≤ span.start then lines else 0

def Span.moved (offset lines : Nat) (span : Span) : Token := span.token.lowered (span.fall offset lines)

section

variable {offset lines start stop : Nat} {token : Token}

theorem Span.moved_of_le (h : offset ≤ start) : Span.moved offset lines ⟨token, start, stop⟩ = token.lowered lines := by
  rw [moved, fall, if_pos h]

theorem Span.moved_of_lt (h : start < offset) : Span.moved offset lines ⟨token, start, stop⟩ = token := by
  rw [moved, fall, if_neg (Nat.not_le_of_lt h), Token.lowered_zero]

end

theorem map_moved_of_le {s : Scanner} {offset lines : Nat} (h : offset ≤ s.current) :
    s.spans.map (Span.moved offset lines) = s.drain.1.map (Token.lowered lines) := by
  rw [← map_token_spans, List.map_map]
  refine List.map_congr_left fun span member => ?_
  exact Span.moved_of_le (Nat.le_trans h (le_start_of_mem_spans s span member).1)

section

variable {line : Int} {gap lexeme lexed after piece : List Char} {kind : Kind} {tokens : List Token}

/-- In front of a token the gap grows, and everything from the token on moves down. -/
theorem Reading.insert_before (hgap : Gap gap) (lexes : Lexes kind lexeme lexed after)
    (rest : Reading (line + gap.count '\n' + lexed.count '\n') after tokens) (separator : Separator piece) :
    Reading line (gap ++ (piece ++ (lexed ++ after)))
      ((⟨kind, String.ofList lexeme, line + gap.count '\n'⟩ :: tokens).map (Token.lowered (piece.count '\n'))) := by
  have here : Reading (line + gap.count '\n') (lexed ++ after)
      (⟨kind, String.ofList lexeme, line + gap.count '\n'⟩ :: tokens) := by
    have reading : Reading (line + gap.count '\n') ([] ++ lexed ++ after) (_ :: tokens) :=
      .token .nil lexes (by simpa using rest)
    simpa using reading
  exact ((here.lowered _).behind_gap separator.gap).behind_gap hgap

/-- Behind a token everything else moves down. -/
theorem Reading.insert_behind (hgap : Gap gap) (lexes : Lexes kind lexeme lexed after)
    (rest : Reading (line + gap.count '\n' + lexed.count '\n') after tokens) (separator : Separator piece)
    (closed : kind = .illegal → lexeme.head? ≠ some '"') : Reading line (gap ++ lexed ++ (piece ++ after))
      (⟨kind, String.ofList lexeme, line + gap.count '\n'⟩ :: tokens.map (Token.lowered (piece.count '\n'))) := by
  obtain ⟨b, others, shape, blank⟩ := separator.head
  have here : Lexes kind lexeme lexed (piece ++ after) := by
    have none : Lexes kind lexeme lexed ([] ++ after) := lexes
    rw [shape]
    exact none.insert closed blank
  exact .token hgap here ((rest.lowered _).behind_gap separator.gap)

end

/-- A separator put in at a border of the rest of a text. -/
theorem Reading.insert {line : Int} {text : List Char} {tokens : List Token} (h : Reading line text tokens)
    {piece : List Char} (separator : Separator piece) : ∀ {s : Scanner}, s.line = line → s.rest = text →
      ∀ {offset : Nat}, Border s.spans offset → Reading line
        (text.take (offset - s.current) ++ piece ++ text.drop (offset - s.current))
        (s.spans.map (Span.moved offset (piece.count '\n'))) := by
  induction h with
  | done final =>
    rintro s - rfl offset ⟨span, member, -⟩
    rw [spans_of_final final] at member
    cases member
  | @token line gap lexeme lexed after kind tokens hgap lexes rest ih =>
    rintro s rfl text_eq offset ⟨span, member, place⟩
    rw [spans_of_token text_eq hgap lexes] at member ⊢
    -- Of the scanner behind the token only its place, its line and what is left matter.
    generalize next : s.behind gap lexed after ⟨kind, String.ofList lexeme, s.line + gap.count '\n'⟩ = s' at member ⊢
    have current : s'.current = s.current + (gap ++ lexed).length := by
      rw [← next, List.length_append, ← Nat.add_assoc]
      rfl
    have line : s'.line = s.line + gap.count '\n' + lexed.count '\n' := by rw [← next]; rfl
    have left : s'.rest = after := by rw [← next]; rfl
    have drained : s'.drain.1 = tokens := drain_of_reading rest line left
    have filled : gap.length < (gap ++ lexed).length := by
      obtain ⟨c, tail, rfl, -⟩ := lexes.head
      simp
    rw [List.map_cons]
    rcases List.mem_cons.mp member with rfl | member
    · rcases place with before | ⟨behind, closed⟩
      · obtain rfl : offset = s.current + gap.length := before
        rw [Nat.add_sub_cancel_left, List.append_assoc gap, List.take_left, List.drop_left,
          Span.moved_of_le (Nat.le_refl _), map_moved_of_le (by omega), drained, List.append_assoc gap]
        exact .insert_before hgap lexes rest separator
      · obtain rfl : offset = s.current + gap.length + lexed.length := behind
        rw [Nat.add_assoc, ← List.length_append, Nat.add_sub_cancel_left, List.take_left, List.drop_left,
          Span.moved_of_lt (Nat.add_lt_add_left filled _), map_moved_of_le (Nat.le_of_eq current.symm), drained,
          List.append_assoc]
        exact .insert_behind hgap lexes rest separator fun illegal quote => closed ⟨illegal, by simpa using quote⟩
    · -- Further behind: the token is read as before, wherever the blank stands that follows.
      obtain ⟨b, others, shape, blank⟩ := separator.head
      obtain ⟨start, stop⟩ := le_start_of_mem_spans s' span member
      have beyond : s'.current ≤ offset := by omega
      obtain ⟨n, rfl⟩ := Nat.exists_eq_add_of_le beyond
      have later := ih line left ⟨span, member, place⟩
      have closed : kind = .illegal → lexeme.head? ≠ some '"' := by
        intro illegal quote
        have final : FinalGap s'.rest := by
          rw [left, lexes.after_eq_nil illegal quote]
          exact .closed .nil
        rw [spans_of_final final] at member
        cases member
      have here : Lexes kind lexeme lexed (after.take n ++ piece ++ after.drop n) := by
        have split : Lexes kind lexeme lexed (after.take n ++ after.drop n) := by rwa [List.take_append_drop]
        rw [List.append_assoc, shape]
        exact split.insert closed blank
      have place : s'.current + n - s.current = (gap ++ lexed).length + n := by omega
      rw [Nat.add_sub_cancel_left] at later
      rw [place, List.take_length_add_append, List.drop_length_add_append, Span.moved_of_lt (by omega),
        List.append_assoc _ _ piece, List.append_assoc (gap ++ lexed)]
      exact .token hgap here later

/-- The tokens of the second text and what is reported of it are those of the first, those from the offset on some
    lines further down. -/
structure Lowers (text text' : String) (offset lines : Nat) : Prop where
  before : (tokenize text).1 = (spansOf text).map (·.token)
  after : (tokenize text').1 = (spansOf text).map (Span.moved offset lines)
  reported : (tokenize text).2 = (spansOf text).flatMap fun span => faults span.token
  reported_after : (tokenize text').2 = (spansOf text).flatMap fun span =>
    (faults span.token).map (Diagnostic.lowered (span.fall offset lines))

theorem lowers_insertAt {text : String} {offset : Nat} {piece : List Char} (separator : Separator piece)
    (border : Border (spansOf text) offset) :
    Lowers text (insertAt text offset piece) offset (piece.count '\n') := by
  have reading := (reading_tokenize text).insert separator (s := ofText text) rfl rfl border
  have shown : (insertAt text offset piece).toList = _ := String.toList_ofList
  have start : (ofText text).current = 0 := rfl
  rw [start, Nat.sub_zero, ← shown] at reading
  have before : (tokenize text).1 = (spansOf text).map (·.token) := (map_token_spans _).symm
  have after : (tokenize (insertAt text offset piece)).1 = _ := drain_of_reading reading rfl rfl
  refine ⟨before, after, ?_, ?_⟩
  · rw [tokenize_snd, before, List.flatMap_map]
  · rw [tokenize_snd, after, List.flatMap_map]
    exact congrArg (fun f => (spansOf text).flatMap f) (funext fun span => faults_lowered _ span.token)

end Lexical

end ExprLang
