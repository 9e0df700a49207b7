import ExprLang.Proofs.Lexical.Insertion
import ExprLang.Proofs.Lexical.Requests

/-! # Going on from anywhere

Wherever requests have left a scanner, in a string, in a comment or past the end, what it still returns is decided by the
text ahead of it: it returns the tokens of that text by itself, as many lines further down as the scanner has counted
(`drain_resumes`). The grammar says what these are (`reading_drain`), and it knows nothing of what lies behind. -/

namespace ExprLang

open Lexical

/-- The text from a place on. Past the end there is none. -/
def Lexical.textFrom (text : String) (place : Nat) : String := String.ofList (text.toList.drop place)

namespace Scanner

variable {s t after : Scanner}

/-! ### What is ahead decides -/

/-- Scanners on the same line with the same text ahead return the same tokens. -/
theorem drain_eq_of_rest (line : t.line = s.line) (rest : t.rest = s.rest) : t.drain.1 = s.drain.1 :=
  drain_of_reading (reading_drain s) line rest

theorem drain_lowered {above : Nat} (line : s.line = 1 + above) :
    s.drain.1 = (tokenize (String.ofList s.rest)).1.map (Token.lowered above) := by
  have reading := (reading_tokenize (String.ofList s.rest)).lowered above
  rw [String.toList_ofList] at reading
  exact drain_of_reading reading line rfl

theorem diagnostics_lowered {above : Nat} (line : s.line = 1 + above) :
    s.drain.2.diagnostics.toList =
      s.diagnostics.toList ++ (tokenize (String.ofList s.rest)).2.map (Diagnostic.lowered above) := by
  have moved : ∀ token, faults (token.lowered above) = (faults token).map (Diagnostic.lowered above) :=
    faults_lowered above
  rw [diagnostics_drain, drain_lowered line, tokenize_snd, List.flatMap_map, List.map_flatMap]
  simp only [moved]

/-! ### The end -/

theorem rest_drain (s : Scanner) : s.drain.2.rest = [] := by
  fun_induction drain s with
  | case1 s after found => exact rest_of_next_eq_none found
  | case2 s token after found lt tokens last rest ih =>
    rw [rest] at ih
    exact ih

/-- What a drained scanner has come to, seen from where it was before. -/
theorem drain_ends (s : Scanner) : s.drain.2.current = s.current + s.rest.length ∧
    s.drain.2.line = s.line + s.rest.count '\n' := by
  have whole := (walk_drain s).whole
  simpa [rest_drain s] using whole

/-! ### Any place that requests lead to -/

/-- The scanner goes on as a new one does on the text ahead, so many lines further down, and ends behind the text for good.
    Where the token in hand begins, what has been taken and what was reported make no difference. -/
structure Resumes (text : String) (s : Scanner) (above : Nat) : Prop where
  tokens : s.drain.1 = (tokenize (textFrom text s.current)).1.map (Token.lowered above)
  reported : s.drain.2.diagnostics.toList =
    s.diagnostics.toList ++ (tokenize (textFrom text s.current)).2.map (Diagnostic.lowered above)
  current : s.drain.2.current = max s.current text.toList.length
  line : s.drain.2.line = s.line + (text.toList.drop s.current).count '\n'
  ended : s.drain.2.next = (none, s.drain.2)
  regardless : ∀ t : Scanner, t.line = s.line → t.rest = s.rest →
    t.drain.1 = s.drain.1 ∧ t.drain.2.line = s.drain.2.line ∧ ∃ reported,
      s.drain.2.diagnostics.toList = s.diagnostics.toList ++ reported ∧
      t.drain.2.diagnostics.toList = t.diagnostics.toList ++ reported

/-- Whatever has been asked of a scanner over a text, it can be drained as if it were new on the text ahead. -/
theorem drain_resumes (text : String) (operations : List Operation) :
    ∃ above : Nat, (performAll operations (ofText text)).line = 1 + above ∧
      Resumes text (performAll operations (ofText text)) above := by
  obtain ⟨cuts, onward⟩ := (Cuts.ofText text).performAll operations
  generalize performAll operations (ofText text) = s at cuts onward
  obtain ⟨above, line⟩ := Int.le.dest onward.line
  have counted : s.line = 1 + above := line.symm
  have ahead : String.ofList s.rest = textFrom text s.current := congrArg String.ofList cuts.rest
  obtain ⟨current, last⟩ := drain_ends s
  refine ⟨above, counted, ?_, ?_, ?_, ?_, next_of_rest_nil (rest_drain s), fun t same rest => ?_⟩
  · rw [← ahead]
    exact drain_lowered counted
  · rw [← ahead]
    exact diagnostics_lowered counted
  · rw [current, cuts.length_rest]
    omega
  · rw [last, cuts.rest]
  · have tokens := drain_eq_of_rest same rest
    refine ⟨tokens, ?_, s.drain.1.flatMap faults, diagnostics_drain s, ?_⟩
    · rw [last, (drain_ends t).2, same, rest]
    · rw [diagnostics_drain, tokens]

end Scanner

end ExprLang
