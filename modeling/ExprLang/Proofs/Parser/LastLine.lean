import ExprLang.Proofs.Lexical.Places
import ExprLang.Proofs.Parser.Numbered

/-! # Errors at the end of a text

An error that stands at the end of a text names the line of the token used last, never the one that the scanner has come
to, and with such an error nothing is left, so no error can follow it (`Located`). Unless the room ends inside a token,
the token used last is then the last one of the text, so the line is the one on which that begins, however much layout
follows. -/

namespace ExprLang.Parser

open Lexical Syntax

variable {stack : Stack} {last : Int} {text : String} {p q : Parser}

/-! ### Where errors stand -/

/-- Errors are on the lines, and one that stands at the end is the last of them: nothing is left behind it, and its line
    is that of the token used last. -/
structure Located (last : Int) (p : Parser) : Prop where
  lines : ∀ error ∈ p.errors.toList, OnLine last error.token.line
  atEnd {front more : List SyntaxError} {error : SyntaxError} (eq : p.errors.toList = front ++ error :: more)
    (ends : error.token.kind = .endOfInput) :
    more = [] ∧ p.unread = [] ∧ error.token = ⟨.endOfInput, "", p.current.line⟩

namespace Located

theorem nil (none : p.errors.toList = []) : Located last p where
  lines := none ▸ List.forall_mem_nil _
  atEnd eq := absurd (none.symm.trans eq).symm (List.append_ne_nil_of_right_ne_nil _ (List.cons_ne_nil _ _))

/-- Before something is left no error stands at the end. -/
theorem inside (h : Located last p) (filled : p.unread ≠ []) :
    ∀ error ∈ p.errors.toList, error.token.kind ≠ .endOfInput := by
  intro error member ends
  obtain ⟨front, more, eq⟩ := List.append_of_mem member
  exact filled (h.atEnd eq ends).2.1

/-- Where no error is added the errors stay where they may be, as long as something is left or nothing is used. -/
theorem of_same (h : Located last p) (errors : q.errors = p.errors)
    (still : p.unread ≠ [] ∨ q.unread = p.unread ∧ q.current = p.current) : Located last q where
  lines := errors ▸ h.lines
  atEnd {front more error} eq ends := by
    rw [errors] at eq
    rcases still with filled | ⟨unread, current⟩
    · exact absurd ends (h.inside filled error (by simp [eq]))
    · rw [unread, current]
      exact h.atEnd eq ends

/-- An error is recorded where something was left, and recovered from. -/
theorem recovered {error : SyntaxError} (h : Located last p) (filled : p.unread ≠ []) (errors : q.errors = p.errors)
    (complains : Complains last q error) : Located last (q.record error).synchronize := by
  obtain ⟨dropped, moves, -⟩ := (q.record error).synchronize_moves
  have recorded : (q.record error).synchronize.errors.toList = p.errors.toList ++ [error] := by
    rw [errors_recovered (.refl q), errors]
  constructor
  · rw [recorded]
    exact List.forall_mem_append.mpr ⟨h.lines, List.forall_mem_singleton.mpr complains.line⟩
  · intro front more error' eq ends
    rw [recorded] at eq
    rcases List.eq_nil_or_concat more with rfl | ⟨init, final, rfl⟩
    · obtain ⟨-, same⟩ := List.append_inj' eq rfl
      obtain rfl := List.singleton_inj.mp same
      have unread := moves.unread_eq
      have current := moves.current_eq
      cases ended : q.unread with
      | nil =>
        -- At the end nothing is dropped.
        have here : (q.record error).unread = [] := ended
        rw [here] at unread
        obtain ⟨rfl, none⟩ := List.append_eq_nil_iff.mp unread.symm
        refine ⟨rfl, none, ?_⟩
        rw [current, complains.token_eq, ended]
        rfl
      | cons token tokens =>
        have real := (complains.numbered.ahead token (ended ▸ List.mem_cons_self)).2
        rw [complains.token_eq, ended] at ends
        exact absurd ends real
    · -- Then the error stands in front of the new one, where something was left.
      have split : p.errors.toList ++ [error] = front ++ error' :: init ++ [final] := by simpa using eq
      obtain ⟨same, -⟩ := List.append_inj' split rfl
      exact absurd ends (h.inside filled error' (by simp [same]))

end Located

theorem Round.located {tree : Option Expr} (h : Round stack p tree q) (readable : p.Readable)
    (numbered : Numbered last p) (located : Located last p) : Located last q := by
  have filled := h.unread_ne_nil
  cases h with
  | separator next => exact located.of_same (Moves.one next).errors_eq (.inl filled)
  | @statement start _ _ _ next _ ran =>
    have look := Moves.look next
    have ahead : start.unread ≠ [] := look.unread_same ▸ filled
    rcases recovering_cases stack (look.readable readable) with ⟨tree, r, stated, eq⟩ | ⟨error, mid, stated, eq⟩
    · rw [ran] at eq
      cases eq
      exact located.of_same (stated.errors_eq.trans look.errors_eq) (.inl filled)
    · rw [ran] at eq
      cases eq
      have same : mid.errors = p.errors := stated.errors_eq.trans look.errors_eq
      exact located.recovered filled same (stated.complains (numbered.peek next) ahead)

theorem Rounds.located {trees : List Expr} (h : Rounds stack p trees q) :
    p.Readable → Numbered last p → Located last p → Located last q := by
  induction h with
  | refl => exact fun _ _ located => located
  | round first _ ih =>
    intro readable numbered located
    obtain ⟨used, -, noted⟩ := first.noted readable (.inl rfl)
    exact ih (first.readable readable) (noted.run.numbered numbered).1 (first.located readable numbered located)

theorem Located.of_idles (located : Located last p) (idles : Idles p q) : Located last q :=
  located.of_same idles.errors (.inr ⟨idles.unread, idles.current⟩)

/-- A call leaves errors only where they may stand. -/
theorem Located.perform (located : Located last p) (stack : Stack) (call : Call) (readable : p.Readable)
    (numbered : Numbered last p) : Located last (p.perform stack call.operation).2 := by
  cases call with
  | parse =>
    rcases parse_cases stack readable with ⟨q, next, run⟩ |
        ⟨token, start, next, ⟨tree, q, tried, -, run⟩ | ⟨error, q, tried, -, run⟩⟩
    · have after : (p.perform stack .parse).2 = q := congrArg Prod.snd (ofWork_of_ok run)
      rw [Call.operation, after]
      exact located.of_idles (idles_of_peek_none next)
    · have after : (p.perform stack .parse).2 = q := congrArg Prod.snd (ofWork_of_ok run)
      rw [Call.operation, after]
      exact located.of_same (tried.errors_eq.trans (Moves.look next).errors_eq) (.inl (unread_ne_nil_of_peek next))
    · have after : (p.perform stack .parse).2 = (q.record error).synchronize := congrArg Prod.snd (ofWork_of_ok run)
      have look := Moves.look next
      have filled := unread_ne_nil_of_peek next
      have same : q.errors = p.errors := tried.errors_eq.trans look.errors_eq
      rw [Call.operation, after]
      exact located.recovered filled same (tried.complains (numbered.peek next) (look.unread_same ▸ filled))
  | parseAll =>
    obtain ⟨trees, q, run⟩ := exists_parseAll stack readable
    obtain ⟨final, rounds, next⟩ := parseAll_eq_ok_iff.mp run
    have after : (p.perform stack .parseAll).2 = q := congrArg Prod.snd (ofWork_of_ok run)
    rw [Call.operation, after]
    exact (rounds.located readable numbered located).of_idles (idles_of_peek_none next)

/-! ### Behind any calls -/

/-- Calls made one after another leave errors only where they may stand. -/
theorem located_performAll : ∀ (calls : List (Stack × Call)) {p : Parser}, p.Readable → Numbered last p →
    Located last p → Located last (performAll (calls.map (Prod.map id Call.operation)) p)
  | [], _, _, _, located => located
  | (stack, call) :: calls, p, readable, numbered, located => by
    obtain ⟨used, replies⟩ := exists_replies stack readable call.operation
    exact located_performAll calls (replies.run.readable readable) (replies.run.numbered numbered).1
      (located.perform stack call readable numbered)

/-- Where a call tries to read an expression, and by which work. -/
inductive Call.Works (stack : Stack) (p : Parser) : Call → Work Expr → Parser → Prop
  | parse {q : Parser} {token : Token} (next : p.peek = (some token, q)) :
    Call.Works stack p .parse (bounded (expression stack).run) q
  | parseAll {q : Parser} (tries : Tries stack p q) : Call.Works stack p .parseAll (statement stack) q

theorem Call.Works.complains {call : Call} {work : Work Expr} {start : Parser} {failure : Failure}
    (h : call.Works stack p work start) (readable : p.Readable) (numbered : Numbered last p)
    (failed : work start = .error failure q) : ∃ error, failure = .syntaxError error ∧ Complains last q error := by
  cases h with
  | parse next =>
    have look := Moves.look next
    have tried := tried_expression stack (look.readable readable)
    have filled : start.unread ≠ [] := look.unread_same ▸ unread_ne_nil_of_peek next
    rw [failed] at tried
    obtain ⟨error, rfl⟩ := tried.syntaxError
    exact ⟨error, rfl, tried.complains (numbered.peek next) filled⟩
  | parseAll tries =>
    obtain ⟨before, mid, token, rounds, next, -⟩ := tries
    obtain ⟨used, noted⟩ := rounds.noted readable (.inl rfl)
    have look := Moves.look next
    have stated := stated_statement stack (look.readable (rounds.readable readable))
    have filled : start.unread ≠ [] := look.unread_same ▸ unread_ne_nil_of_peek next
    have numbered := (noted.run.numbered numbered).1.peek next
    rw [failed] at stated
    obtain ⟨error, rfl⟩ := stated.syntaxError
    exact ⟨error, rfl, stated.complains numbered filled⟩

/-- Where the errors of a parser stand, and how further calls name where they fail. -/
structure NamesLines (text : String) (p : Parser) : Prop where
  /-- An error at the end is the last one: nothing is left, and it names the line of the token used last. -/
  atEnd {front more : List SyntaxError} {error : SyntaxError} (eq : p.errors.toList = front ++ error :: more)
    (ends : error.token.kind = .endOfInput) :
    more = [] ∧ p.unread = [] ∧ error.token = ⟨.endOfInput, "", p.current.line⟩
  line : ∀ error ∈ p.errors.toList, 1 ≤ error.token.line ∧ error.token.line ≤ 1 + text.toList.count '\n'
  /-- Where a call gives up an expression it names the next token, or else the end, on the line of the token used last
      and never on the one that the scanner has come to. -/
  complaint {stack : Stack} {call : Call} {work : Work Expr} {start q : Parser} {failure : Failure}
    (works : call.Works stack p work start) (failed : work start = .error failure q) : ¬q.FallsBack ∧
      ∃ complaint, failure = .syntaxError ⟨q.unread.headD ⟨.endOfInput, "", q.current.line⟩, complaint⟩

/-- An error at the end names the line on which the last token of the text begins. -/
def EndsOnLastLine (text : String) (p : Parser) : Prop :=
  ∀ error ∈ p.errors.toList, error.token.kind = .endOfInput →
    ∃ span, (Scanner.spansOf text).getLast? = some span ∧ (Scanner.tokenize text).1.getLast? = some span.token ∧
      error.token = ⟨.endOfInput, "", span.token.line⟩ ∧ span.token.line = lineAt text.toList span.start

theorem exists_lastSpan {final : Token} (tail : (Scanner.tokenize text).1.getLast? = some final) :
    ∃ span, (Scanner.spansOf text).getLast? = some span ∧ span.token = final ∧
      span.token.line = lineAt text.toList span.start := by
  have tokens : (Scanner.spansOf text).map (·.token) = (Scanner.tokenize text).1 := Scanner.map_token_spans _
  rw [← tokens, List.getLast?_map] at tail
  obtain ⟨span, found, same⟩ := Option.map_eq_some_iff.mp tail
  have placed := (Scanner.placed_ofText text).spans span (List.mem_of_getLast? found)
  exact ⟨span, found, same, placed.2⟩

/-- No call passes over a token without using it. -/
theorem noted_perform (call : Call) (readable : p.Readable) (whole : ¬call.operation.Loses stack p) :
    ∃ used, Noted false p used (p.perform stack call.operation).2 := by
  obtain ⟨used, replies⟩ := perform_replies stack readable (.inr whole)
  refine ⟨used, replies.run, ?_⟩
  rcases replies.current with used | ⟨same, -⟩
  · exact used
  · cases call <;> cases same

theorem noted_performAll : ∀ (calls : List (Stack × Call)) {p : Parser}, p.Readable →
    Unbroken (calls.map (Prod.map id Call.operation)) p →
    ∃ used, Noted false p used (performAll (calls.map (Prod.map id Call.operation)) p)
  | [], p, _, _ => ⟨[], .refl p⟩
  | (stack, call) :: calls, p, readable, unbroken => by
    obtain ⟨used, noted⟩ := noted_perform call readable unbroken.1
    obtain ⟨more, rest⟩ := noted_performAll calls (noted.run.readable readable) unbroken.2
    exact ⟨used ++ more, noted.trans rest⟩

theorem Located.endsOnLastLine {used : List Token} (located : Located last p) (noted : Noted false (ofText text) used p) :
    EndsOnLastLine text p := by
  intro error member ends
  obtain ⟨front, more, eq⟩ := List.append_of_mem member
  obtain ⟨-, ended, here⟩ := located.atEnd eq ends
  have whole : (Scanner.tokenize text).1 = used := by
    rw [← unread_ofText, noted.run.unread_eq, ended, List.append_nil]
  have current := noted.current
  have line := (located.lines error member).1
  rw [here] at line
  rcases List.eq_nil_or_concat used with rfl | ⟨init, final, rfl⟩
  · -- Without any token used there would be no line to be named.
    rw [current] at line
    have none : (1 : Int) ≤ 0 := line
    omega
  · have tail : (Scanner.tokenize text).1.getLast? = some final := by rw [whole]; simp
    obtain ⟨span, found, rfl, line⟩ := exists_lastSpan tail
    refine ⟨span, found, tail, ?_, line⟩
    rw [here, current]
    simp

/-- Whatever calls are made, errors name lines of the text: at most one of them stands at the end, as the last one, and
    it names the line of the token used last, never the one that the scanner has come to. If the room never ends inside a
    token, that is the line on which the last token begins. -/
theorem reached_namesLines (text : String) (calls : List (Stack × Call)) :
    NamesLines text (reached text calls) ∧
      (Unbroken (calls.map (Prod.map id Call.operation)) (ofText text) →
        EndsOnLastLine text (reached text calls)) := by
  have fresh : (ofText text).Readable := .of_fresh rfl
  have readable := readable_reached text calls
  obtain ⟨used, run⟩ := run_performAll (calls.map (Prod.map id Call.operation)) fresh
  have numbered := (run.numbered (numbered_ofText text)).1
  have located := located_performAll calls fresh (numbered_ofText text) (.nil rfl)
  refine ⟨⟨located.atEnd, located.lines, fun works failed => ?_⟩, fun unbroken => ?_⟩
  · obtain ⟨error, rfl, complains⟩ := works.complains readable numbered failed
    exact ⟨complains.not_fallsBack, error.complaint, by rw [← complains.token_eq]⟩
  · obtain ⟨used, noted⟩ := noted_performAll calls fresh unbroken
    exact located.endsOnLastLine noted

example : (reached "1; (\"two\nlines\"\n\n// end" [(.standard, .parse), (.standard, .parseAll)]).errors.toList.map
    SyntaxError.text = ["[line 1] Error at end: Expect ')' after expression."] := by decide +kernel

end ExprLang.Parser
