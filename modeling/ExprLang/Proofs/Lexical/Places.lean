import ExprLang.Proofs.Lexical.Diagnostics

/-! # Places and lines

A scanner counts how far it has come and on which line it is. Both counts are those of the text (`Placed`): what is left
to read begins at the place, and the line is one more than the newlines in front of it, whether these stand between
tokens, in a comment or in a string. The scanner comes from one place to the next by reading single characters, none of
them past the end (`Walk`), and a single character keeps the counts right. -/

namespace ExprLang

open Lexical

/-- The line of a place. -/
def Lexical.lineAt (text : List Char) (place : Nat) : Int := 1 + (text.take place).count '\n'

namespace Scanner

/-- The scanner's counts are those of the text. -/
structure Placed (text : List Char) (s : Scanner) : Prop where
  rest : s.rest = text.drop s.current
  within : s.current ≤ text.length
  line : s.line = lineAt text s.current

/-- Characters read one at a time, each found in the text and each newline counted. In between a token may begin and a
    problem be reported. -/
inductive Walk : Scanner → Scanner → Prop
  | refl (s : Scanner) : Walk s s
  | read {s t after : Scanner} {c : Char} (found : s.advance = (some c, t))
    (rest : Walk { t with line := t.line + [c].count '\n' } after) : Walk s after
  | begin {s after : Scanner} (rest : Walk s.begin after) : Walk s after
  | report {s after : Scanner} {problem : Problem} {line : Int} (rest : Walk (s.report problem line) after) :
    Walk s after

variable {text : List Char} {s t after : Scanner}

/-! ### What a walk keeps -/

theorem placed_ofText (text : String) : Placed text.toList (ofText text) where
  rest := rfl
  within := Nat.zero_le _
  line := by simp [ofText, lineAt]

theorem lineAt_add {place : Nat} {piece behind : List Char} (h : text.drop place = piece ++ behind) :
    lineAt text (place + piece.length) = lineAt text place + piece.count '\n' := by
  simp [lineAt, List.take_add, h, Int.add_assoc]

theorem Placed.readOver {piece behind : List Char} (h : Placed text s) (eq : s.rest = piece ++ behind) :
    Placed text (s.readOver piece behind) where
  rest := by
    show behind = text.drop (s.current + piece.length)
    rw [← List.drop_drop, ← h.rest, eq, List.drop_left]
  within := by
    show s.current + piece.length ≤ text.length
    have length := congrArg List.length (h.rest.symm.trans eq)
    have within := h.within
    rw [List.length_drop, List.length_append] at length
    omega
  line := by
    show s.line + piece.count '\n' = lineAt text (s.current + piece.length)
    rw [lineAt_add (h.rest.symm.trans eq), h.line]

theorem advance_cons {c : Char} {behind : List Char} (h : s.rest = c :: behind) :
    s.advance = (some c, { s with current := s.current + 1, taken := s.taken ++ [c], rest := behind }) := by
  simp [advance, h]

/-- A character read in the text leaves the scanner in the text. -/
theorem Placed.read {c : Char} (h : Placed text s) (found : s.advance = (some c, t)) :
    Placed text { t with line := t.line + [c].count '\n' } := by
  unfold advance at found
  split at found
  · cases found
  · next eq =>
    cases found
    have placed : Placed text (s.readOver [c] _) := h.readOver eq
    exact placed

theorem Placed.walk (h : Placed text s) (walk : Walk s after) : Placed text after := by
  induction walk with
  | refl => exact h
  | read found _ ih => exact ih (h.read found)
  | begin _ ih => exact ih ⟨h.rest, h.within, h.line⟩
  | report _ ih => exact ih ⟨h.rest, h.within, h.line⟩

/-! ### The scanner walks -/

theorem Walk.trans (h : Walk s t) (h' : Walk t after) : Walk s after := by
  induction h with
  | refl => exact h'
  | read found _ ih => exact .read found (ih h')
  | begin _ ih => exact .begin (ih h')
  | report _ ih => exact .report (ih h')

theorem readOver_append (s : Scanner) (piece more middle behind : List Char) :
    (s.readOver piece middle).readOver more behind = s.readOver (piece ++ more) behind := by
  simp [readOver, Nat.add_assoc, Int.add_assoc]

theorem walk_readOver {piece behind : List Char} (h : s.rest = piece ++ behind) : Walk s (s.readOver piece behind) := by
  induction piece generalizing s with
  | nil =>
    rw [readOver_nil (List.nil_append behind ▸ h)]
    exact .refl s
  | cons c piece ih =>
    have further : Walk (s.readOver [c] (piece ++ behind)) _ := ih rfl
    rw [readOver_append] at further
    exact .read (advance_cons h) further

theorem walk_reporting (s : Scanner) (token : Token) : Walk s (s.reporting token) := by
  unfold reporting faults
  split
  · split
    · simpa using Walk.refl s
    · exact .report (.refl _)
  · simpa using Walk.refl s

theorem behind_eq {gap piece after : List Char} {token : Token} (s : Scanner) (middle : List Char) :
    s.behind gap piece after token = ((s.readOver gap middle).begin.readOver piece after).reporting token := by
  simp [Scanner.behind, Scanner.readOver, begin, reporting]

theorem walk_next (s : Scanner) : Walk s s.next.2 := by
  rcases lexes_cases s.rest with final | ⟨gap, kind, lexeme, piece, behind, rest, hgap, lexes⟩
  · rw [next_eq_none final]
    exact walk_readOver (List.append_nil _).symm
  · rw [next_eq rest hgap lexes, behind_eq s (piece ++ behind)]
    rw [List.append_assoc] at rest
    have passed : Walk s (s.readOver gap (piece ++ behind)) := walk_readOver rest
    have taken : Walk (s.readOver gap (piece ++ behind)).begin _ := walk_readOver rfl
    exact passed.trans (.begin (taken.trans (walk_reporting _ _)))

/-! ### Tokens on their lines -/

/-- A token stands where the scanner says, on the line of that place. -/
theorem Placed.next {token : Token} (h : Placed text s) (found : s.next = (some token, after)) :
    source token <+: text.drop after.start ∧ token.line = lineAt text after.start := by
  obtain ⟨gap, kind, lexeme, piece, behind, rest, -, lexes, rfl, rfl⟩ := exists_of_next_some found
  rw [List.append_assoc] at rest
  have begins := h.readOver rest
  rw [lexes.source_eq]
  exact ⟨⟨behind, begins.rest⟩, begins.line⟩

theorem Placed.after_next (h : Placed text s) {token : Option Token} (found : s.next = (token, after)) :
    Placed text after := by
  have walk := walk_next s
  rw [found] at walk
  exact h.walk walk

theorem Placed.spans (h : Placed text s) : ∀ span ∈ s.spans,
    source span.token <+: text.drop span.start ∧ span.token.line = lineAt text span.start := by
  fun_induction Scanner.spans s with
  | case1 => exact List.forall_mem_nil _
  | case2 s token after found lt ih => exact List.forall_mem_cons.mpr ⟨h.next found, ih (h.after_next found)⟩

/-- Where no token is left the scanner is at the end of the text, and stays there. -/
theorem Placed.drain (h : Placed text s) :
    s.drain.2.line = 1 + text.count '\n' ∧ s.drain.2.next = (none, s.drain.2) := by
  fun_induction Scanner.drain s with
  | case1 s after found =>
    have placed := h.after_next found
    have ended := rest_of_next_eq_none found
    have place : text.length ≤ after.current := List.drop_eq_nil_iff.mp (placed.rest.symm.trans ended)
    refine ⟨?_, next_of_rest_nil ended⟩
    rw [placed.line, lineAt, List.take_of_length_le place]
  | case2 s token after found lt tokens last rest ih =>
    rw [rest] at ih
    exact ih (h.after_next found)

end Scanner

/-! ### Lines of what is reported -/

namespace Lexical

theorem Lexes.lexeme_ne_nil {kind : Kind} {lexeme piece after : List Char} (h : Lexes kind lexeme piece after)
    (other : kind ≠ .string) : lexeme ≠ [] := by
  have shown := h.source_eq 1
  rw [source, if_neg other, String.toList_ofList] at shown
  obtain ⟨c, tail, filled, -⟩ := h.head
  rw [shown, filled]
  exact List.cons_ne_nil c tail

theorem faults_of_illegal {token : Token} (illegal : token.kind = .illegal) (filled : token.lexeme.toList ≠ []) :
    ∃ diagnostic, faults token = [diagnostic] ∧ diagnostic.line = token.line := by
  obtain ⟨c, tail, eq⟩ := List.exists_cons_of_ne_nil filled
  exact ⟨_, by rw [faults, if_pos illegal, eq], rfl⟩

theorem Reading.filled {line : Int} {text : List Char} {tokens : List Token} (h : Reading line text tokens) :
    ∀ token ∈ tokens, token.kind = .illegal → token.lexeme.toList ≠ [] := by
  induction h with
  | done => exact List.forall_mem_nil _
  | @token _ _ _ _ _ kind _ _ lexes _ ih =>
    refine List.forall_mem_cons.mpr ⟨fun illegal => ?_, ih⟩
    obtain rfl : kind = .illegal := illegal
    rw [String.toList_ofList]
    exact lexes.lexeme_ne_nil Kind.noConfusion

/-- Illegal tokens bring a diagnostic each, which carries their line; others bring none. -/
theorem faults_illegal {tokens : List Token} (filled : ∀ token ∈ tokens, token.kind = .illegal →
    token.lexeme.toList ≠ []) :
    (tokens.flatMap faults).map (fun diagnostic => [diagnostic]) = (tokens.filter (·.kind = .illegal)).map faults ∧
      (tokens.flatMap faults).map (·.line) = (tokens.filter (·.kind = .illegal)).map (·.line) := by
  induction tokens with
  | nil => exact ⟨rfl, rfl⟩
  | cons token tokens ih =>
    obtain ⟨here, behind⟩ := List.forall_mem_cons.mp filled
    obtain ⟨each, lines⟩ := ih behind
    by_cases illegal : token.kind = .illegal
    · obtain ⟨diagnostic, reported, line⟩ := faults_of_illegal illegal (here illegal)
      simp [reported, line, illegal, each, lines]
    · simp [faults_of_ne illegal, illegal, each, lines]

end Lexical

namespace Scanner

/-- Every token of a text stands on the line of the place where its source begins, every diagnostic is on the line of
    the illegal token it belongs to, and the scanner ends on the last line of the text. Lines end at newlines alone. -/
theorem tokenize_lines (text : String) :
    (spansOf text).map (·.token) = (tokenize text).1 ∧
      (∀ span ∈ spansOf text, source span.token <+: text.toList.drop span.start ∧
        span.token.line = 1 + (text.toList.take span.start).count '\n') ∧
      (tokenize text).2.map (fun diagnostic => [diagnostic]) =
        ((tokenize text).1.filter (·.kind = .illegal)).map faults ∧
      (tokenize text).2.map (·.line) = ((tokenize text).1.filter (·.kind = .illegal)).map (·.line) ∧
      (ofText text).drain.2.line = 1 + text.toList.count '\n' ∧
      (ofText text).drain.2.next = (none, (ofText text).drain.2) := by
  have placed := placed_ofText text
  obtain ⟨each, lines⟩ := faults_illegal (reading_tokenize text).filled
  rw [← tokenize_snd] at each lines
  exact ⟨map_token_spans _, placed.spans, each, lines, placed.drain⟩

example : (tokenize "// one\n\"two\nthree\" @\n\"").1.map (·.line) = [2, 3, 4] := by decide +kernel

end Scanner

end ExprLang
