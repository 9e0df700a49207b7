import ExprLang.Proofs.Lexical.Insertion

/-! # A text below another

What stands above a line decides on which line its tokens are and on nothing else, unless a string is left open there.
No token sees past the newline that ends its line (`Lexes.insert`), and what may follow the last token of a text is a
gap with that newline, a comment too. Hence two texts with a newline between them have the tokens of the upper one,
then those of the lower one further down (`tokenize_below`). -/

namespace ExprLang

namespace Lexical

/-- The newline behind a text ends its last comment. -/
theorem FinalGap.newline {gap : List Char} (h : FinalGap gap) : Gap (gap ++ ['\n']) := by
  cases h with
  | closed g => exact g.append (.blank (by decide) .nil)
  | openComment g line =>
    rw [List.append_assoc]
    exact g.append (.comment line .nil)

variable {line : Int} {above below : List Char} {tokens more : List Token}

/-- A text without an open string is read to its end whatever stands below. -/
theorem Reading.append (h : Reading line above tokens) (closed : ∀ token ∈ tokens, ¬Unterminated token)
    (rest : Reading (line + (above ++ ['\n']).count '\n') below more) :
    Reading line (above ++ ['\n'] ++ below) (tokens ++ more) := by
  induction h with
  | done final => exact rest.behind_gap final.newline
  | @token line gap lexeme piece after kind tokens hgap lexes _ ih =>
    obtain ⟨here, behind⟩ := List.forall_mem_cons.mp closed
    have lines : line + (gap ++ piece ++ after ++ ['\n']).count '\n' =
        line + gap.count '\n' + piece.count '\n' + (after ++ ['\n']).count '\n' := by
      simp only [List.append_assoc, List.count_append]
      omega
    rw [lines] at rest
    have next : Lexes kind lexeme piece (after ++ ['\n'] ++ below) := by
      have whole : Lexes kind lexeme piece (after ++ []) := (List.append_nil after).symm ▸ lexes
      rw [List.append_assoc]
      exact whole.insert (fun illegal quote => here ⟨illegal, by simpa using quote⟩) (by decide)
    have reading := Reading.token hgap next (ih behind rest)
    simpa only [List.append_assoc, List.cons_append] using reading

/-- An open string is reported as one. -/
theorem exists_open_of_unterminated {token : Token} (h : Unterminated token) :
    ∃ diagnostic ∈ faults token, diagnostic.problem = .unterminatedString := by
  obtain ⟨illegal, quote⟩ := h
  obtain ⟨tail, lexeme⟩ := List.head?_eq_some_iff.mp quote
  rw [faults, if_pos illegal, lexeme]
  exact ⟨_, List.mem_singleton_self _, rfl⟩

end Lexical

namespace Scanner

open Lexical

/-- Scanning is compositional over lines: of two texts one below the other, the tokens and what is reported are those of
    the upper one, unless a string is left open in it, and then those of the lower one, as many lines further down as
    the upper one has. -/
theorem tokenize_below {above : String}
    (closed : ∀ diagnostic ∈ (tokenize above).2, diagnostic.problem ≠ .unterminatedString) (below : String) :
    tokenize (above ++ "\n" ++ below) =
      ((tokenize above).1 ++ (tokenize below).1.map (Token.lowered (1 + above.toList.count '\n')),
        (tokenize above).2 ++ (tokenize below).2.map (Diagnostic.lowered (1 + above.toList.count '\n'))) := by
  have ended : ∀ token ∈ (tokenize above).1, ¬Unterminated token := by
    intro token member unterminated
    obtain ⟨diagnostic, reported, problem⟩ := exists_open_of_unterminated unterminated
    refine closed diagnostic ?_ problem
    rw [tokenize_snd]
    exact List.mem_flatMap_of_mem member reported
  have lines : (1 : Int) + ((1 + above.toList.count '\n' : Nat) : Int) =
      1 + ((above.toList ++ ['\n']).count '\n' : Nat) := by
    rw [List.count_append, List.count_singleton_self, Nat.add_comm]
  have rest := (reading_tokenize below).lowered (1 + above.toList.count '\n')
  rw [lines] at rest
  have reading := (reading_tokenize above).append ended rest
  have text : (above ++ "\n" ++ below).toList = above.toList ++ ['\n'] ++ below.toList := by
    simp only [String.toList_append]
    rfl
  have tokens : (tokenize (above ++ "\n" ++ below)).1 = _ := drain_of_reading (text ▸ reading) rfl rfl
  refine Prod.ext tokens ?_
  rw [tokenize_snd, tokens, List.flatMap_append, tokenize_snd, tokenize_snd, List.flatMap_map, List.map_flatMap]
  exact congrArg (_ ++ ·) (congrArg (List.flatMap · _) (funext (faults_lowered _)))

/-- A point, an operator and a comment end with their line: no number, `<=` or string goes on below. -/
theorem tokenize_below_open_ends : tokenize ("1.\n< // \"" ++ "\n" ++ "= 5\" @") =
    ([⟨.number, "1", 1⟩, ⟨.dot, ".", 1⟩, ⟨.less, "<", 2⟩, ⟨.assign, "=", 3⟩, ⟨.number, "5", 3⟩,
      ⟨.illegal, "\" @", 3⟩], [⟨3, .unterminatedString⟩]) := by
  have closed : ∀ diagnostic ∈ (tokenize "1.\n< // \"").2, diagnostic.problem ≠ .unterminatedString := by
    decide +kernel
  rw [tokenize_below closed]
  decide +kernel

end Scanner

end ExprLang
