import ExprLang.Proofs.Lexical.Tokens

/-! # What is reported with the tokens

A scanner reports something exactly when it returns an illegal token, and what it reports is read off that token
(`faults`). Hence the diagnostics of a run are those of its tokens, one token after another. -/

namespace ExprLang

open Lexical

namespace Scanner

variable {s after : Scanner}

theorem diagnostics_of_next_some {token : Token} (h : s.next = (some token, after)) :
    after.diagnostics.toList = s.diagnostics.toList ++ faults token := by
  obtain ⟨gap, kind, lexeme, piece, behind, -, -, -, rfl, rfl⟩ := exists_of_next_some h
  simp [Scanner.behind]

theorem diagnostics_of_next_none (h : s.next = (none, after)) : after.diagnostics = s.diagnostics := by
  obtain ⟨-, rfl⟩ := of_next_none h
  rfl

theorem diagnostics_drain (s : Scanner) :
    s.drain.2.diagnostics.toList = s.diagnostics.toList ++ s.drain.1.flatMap faults := by
  fun_induction drain s with
  | case1 s after h => simp [diagnostics_of_next_none h]
  | case2 s token after h lt tokens last rest ih =>
    rw [rest] at ih
    rw [ih, diagnostics_of_next_some h, List.flatMap_cons, List.append_assoc]

/-- What is wrong with a text is what is wrong with its tokens. -/
theorem tokenize_snd (text : String) : (tokenize text).2 = (tokenize text).1.flatMap faults :=
  diagnostics_drain (ofText text)

end Scanner

end ExprLang
