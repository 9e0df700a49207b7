import ExprLang.Proofs.Parser.Rounds

/-! # The lines that are named

A token is on a line that its scanner comes to, a report is on the line of its token, and a complaint names the next
token, or else the end on the line of the token used last. So no line is named that the text does not have. None of the
steps of a parser leads off these lines (`Step.numbered`), not even the one that loses a token. -/

namespace ExprLang

open ExprLang.Parser Lexical Syntax

variable {last : Int}

/-- The line is one of so many. -/
def OnLine (last line : Int) : Prop := 1 ≤ line ∧ line ≤ last

/-! ### Scanners -/

namespace Lexical

theorem line_of_mem_faults {token : Token} : ∀ diagnostic ∈ faults token, diagnostic.line = token.line := by
  rw [faults]
  split
  · split
    · exact List.forall_mem_nil _
    · exact List.forall_mem_singleton.mpr rfl
  · exact List.forall_mem_nil _

theorem Reading.line_le_last {line : Int} {text : List Char} {tokens : List Token} (h : Reading line text tokens) :
    ∀ token ∈ tokens, token.line ≤ line + text.count '\n' := by
  induction h with
  | done => exact List.forall_mem_nil _
  | @token line gap _ piece after _ _ _ _ _ ih =>
    simp only [List.count_append]
    intro token member
    rcases List.mem_cons.mp member with rfl | member
    · show line + gap.count '\n' ≤ _
      omega
    · have := ih token member
      omega

end Lexical

namespace Scanner

variable {s t : Scanner}

/-- The scanner is on one of the lines, those behind it are among them, and so are those it has reported. -/
structure Numbered (last : Int) (s : Scanner) : Prop where
  first : 1 ≤ s.line
  behind : s.line + s.rest.count '\n' ≤ last
  reports : ∀ diagnostic ∈ s.diagnostics.toList, OnLine last diagnostic.line

theorem Walk.line_le (walk : Walk s t) : s.line ≤ t.line := by
  induction walk with
  | refl => exact Int.le_refl _
  | @read s t _ c found _ ih =>
    obtain ⟨behind, -, rfl⟩ := eq_of_advance_some found
    refine Int.le_trans ?_ ih
    show s.line ≤ s.line + _
    omega
  | begin _ ih => exact ih
  | report _ ih => exact ih

theorem Numbered.drain (h : Numbered last s) :
    ∀ token ∈ s.drain.1, OnLine last token.line ∧ token.kind ≠ .endOfInput := by
  intro token member
  have reading := reading_drain s
  have low := reading.line_le token member
  have high := reading.line_le_last token member
  exact ⟨⟨Int.le_trans h.first low, Int.le_trans high h.behind⟩, reading.ne_endOfInput token member⟩

/-- A walk stays on the lines, and reports on them if it reports what is wrong with the next token. -/
theorem Numbered.walk (h : Numbered last s) (walk : Walk s t)
    (reports : t.diagnostics.toList <+: s.next.2.diagnostics.toList) : Numbered last t where
  first := Int.le_trans h.first walk.line_le
  behind := walk.whole.2 ▸ h.behind
  reports diagnostic member := by
    have reported := reports.mem member
    cases next : s.next with
    | mk token after =>
      rw [next] at reported
      cases token with
      | none => exact h.reports diagnostic (diagnostics_of_next_none next ▸ reported)
      | some token =>
        rw [diagnostics_of_next_some next] at reported
        rcases List.mem_append.mp reported with before | here
        · exact h.reports diagnostic before
        · have first : token ∈ s.drain.1 := by rw [drain_of_next_some next]; exact List.mem_cons_self
          exact line_of_mem_faults diagnostic here ▸ (h.drain token first).1

/-- The lines of a text. -/
def lastLine (text : String) : Int := 1 + text.toList.count '\n'

theorem numbered_ofText (text : String) : Numbered (lastLine text) (ofText text) where
  first := Int.le_refl 1
  behind := Int.le_refl _
  reports := List.forall_mem_nil _

theorem numbered_tokenize (text : String) :
    ∀ diagnostic ∈ (tokenize text).2, OnLine (lastLine text) diagnostic.line := by
  intro diagnostic member
  rw [tokenize_snd] at member
  obtain ⟨token, inside, reported⟩ := List.mem_flatMap.mp member
  exact line_of_mem_faults diagnostic reported ▸ ((numbered_ofText text).drain token inside).1

end Scanner

/-! ### Parsers -/

namespace Parser

variable {stack : Stack} {lossy : Bool} {p q : Parser} {used : List Token}

/-- The scanner and the tokens ahead are on the lines. -/
structure Numbered (last : Int) (p : Parser) : Prop where
  scanner : p.scanner.Numbered last
  ahead : ∀ token ∈ p.unread, OnLine last token.line ∧ token.kind ≠ .endOfInput

theorem numbered_ofText (text : String) : Numbered (Scanner.lastLine text) (ofText text) where
  scanner := Scanner.numbered_ofText text
  ahead := (Scanner.numbered_ofText text).drain

theorem Numbered.peek {token : Option Token} (h : Numbered last p) (next : p.peek = (token, q)) : Numbered last q where
  scanner := by
    unfold Parser.peek at next
    split at next
    · cases next
      exact h.scanner
    · cases next
      exact h.scanner.walk (Scanner.walk_next _) List.prefix_rfl
  ahead := (Moves.look next).unread_same ▸ h.ahead

/-- A step leads to no other line. -/
theorem Step.numbered (h : Step lossy p used q) (numbered : Numbered last p) :
    Numbered last q ∧ ∀ token ∈ used, OnLine last token.line := by
  have pulled : ∀ {needs : Scanner.Needs} {room : Nat} {shortage : Scanner.Shortage},
      pull needs room p = .error (.stackOverflow shortage) q → Numbered last q := by
    intro needs room shortage ended
    have walk := walk_of_pull_error ended
    obtain ⟨fresh, t, eq, rfl⟩ := of_pull_error ended
    have reports := p.scanner.diagnostics_nextWithin_prefix needs room
    rw [eq] at reports
    have scanner := numbered.scanner.walk walk reports
    exact ⟨scanner, by simpa [unread, fresh] using scanner.drain⟩
  cases h with
  | look h => exact ⟨numbered.peek h, List.forall_mem_nil _⟩
  | use h | pass h =>
    have seen := numbered.peek h
    have split := unread_shift h
    have all := numbered.ahead
    rw [split] at all
    obtain ⟨first, rest⟩ := List.forall_mem_cons.mp all
    exact ⟨⟨seen.scanner, rest⟩, List.forall_mem_singleton.mpr first.1⟩
  | record => exact ⟨⟨numbered.scanner, numbered.ahead⟩, List.forall_mem_nil _⟩
  | stop h | lose _ h => exact ⟨pulled h, List.forall_mem_nil _⟩

theorem Run.numbered (h : Run lossy p used q) :
    Numbered last p → Numbered last q ∧ ∀ token ∈ used, OnLine last token.line := by
  induction h with
  | refl => exact fun numbered => ⟨numbered, List.forall_mem_nil _⟩
  | step first _ ih =>
    intro numbered
    obtain ⟨numbered, here⟩ := first.numbered numbered
    obtain ⟨numbered, there⟩ := ih numbered
    exact ⟨numbered, List.forall_mem_append.mpr ⟨here, there⟩⟩

/-! ### Complaints -/

/-- A complaint made here would name the line that the scanner has come to: nothing is left, and no token was used whose
    line could be named. -/
def FallsBack (p : Parser) : Prop := p.unread = [] ∧ p.current.line = 0

/-- An expression is given up here with an error that names the next token, or the end on the line of the token used
    last. -/
structure Complains (last : Int) (q : Parser) (error : SyntaxError) : Prop where
  numbered : Numbered last q
  token : error.token = q.upcoming
  current : q.unread = [] → OnLine last q.current.line

namespace Complains

variable {error : SyntaxError}

theorem not_fallsBack (h : Complains last q error) : ¬q.FallsBack := by
  rintro ⟨ended, line⟩
  have positive := (h.current ended).1
  omega

theorem token_eq (h : Complains last q error) : error.token = q.unread.headD ⟨.endOfInput, "", q.current.line⟩ := by
  rw [h.token, upcoming]
  cases ended : q.unread with
  | cons => rfl
  | nil =>
    have used : q.current.line ≠ 0 := fun line => h.not_fallsBack ⟨ended, line⟩
    rw [if_neg used]

theorem line (h : Complains last q error) : OnLine last error.token.line := by
  rw [h.token_eq]
  cases ended : q.unread with
  | nil => exact h.current ended
  | cons token tokens => exact (h.numbered.ahead token (ended ▸ List.mem_cons_self)).1

end Complains

theorem Tried.complains {error : SyntaxError} (h : Tried stack p (.error (.syntaxError error) q))
    (numbered : Numbered last p) (filled : p.unread ≠ []) : Complains last q error := by
  obtain ⟨used, noted, -, named, still⟩ := h.noted (.inl rfl)
  obtain ⟨numbered, lines⟩ := noted.run.numbered numbered
  refine ⟨numbered, named error q rfl, fun ended => ?_⟩
  -- Something was left before, so a token has been used since, and the one used last is the current one.
  have some : used ≠ [] := fun none => filled (still none ▸ ended)
  have current : q.current = used.getLastD p.current := noted.current
  rw [current, List.getLastD_eq_getLast?, List.getLast?_eq_some_getLast some]
  exact lines _ (List.getLast_mem some)

theorem Stated.complains {error : SyntaxError} (h : Stated stack p (.error (.syntaxError error) q))
    (numbered : Numbered last p) (filled : p.unread ≠ []) : Complains last q error := by
  cases h with
  | refused tried => exact tried.complains numbered filled
  | interrupted moves _ next =>
    have run : Run true p _ q := .of_moves moves
    refine ⟨(run.numbered numbered).1, ?_, fun ended => ?_⟩
    · rw [upcoming, next]
      rfl
    · rw [next] at ended
      cases ended

/-- Reading the first expression of a text, nothing is reported or recorded but on its lines. -/
theorem lines_of_parse {text : String} {tree : Expr} (run : parse stack (ofText text) = .ok tree q) :
    (∀ diagnostic ∈ q.scanner.diagnostics.toList, OnLine (Scanner.lastLine text) diagnostic.line) ∧
      ∀ error ∈ q.errors.toList, OnLine (Scanner.lastLine text) error.token.line := by
  have readable : (ofText text).Readable := .of_fresh rfl
  obtain ⟨used, noted, -⟩ := parse_noted run readable (.inl rfl)
  refine ⟨(noted.run.numbered (numbered_ofText text)).1.scanner.reports, ?_⟩
  rcases parse_cases stack readable with ⟨r, next, eq⟩ |
      ⟨token, start, next, ⟨tree, r, tried, -, eq⟩ | ⟨error, r, tried, -, eq⟩⟩
  · rw [run] at eq
    cases eq
    rw [(Moves.look next).errors_nil]
    exact List.forall_mem_nil _
  · rw [run] at eq
    cases eq
    have same : q.errors = start.errors := tried.errors_eq
    rw [same, (Moves.look next).errors_nil]
    exact List.forall_mem_nil _
  · rw [run] at eq
    cases eq
    have look := Moves.look next
    have same : r.errors = start.errors := tried.errors_eq
    have filled : start.unread ≠ [] := look.unread_same ▸ unread_ne_nil_of_peek next
    have complains := tried.complains ((numbered_ofText text).peek next) filled
    rw [errors_recovered (.refl r), same, look.errors_nil]
    exact List.forall_mem_singleton.mpr complains.line

end Parser

end ExprLang
