import ExprLang.Scanner.Operation
import ExprLang.Proofs.Lexical.Places

/-! # Any sequence of requests

A scanner may be asked anything anywhere: inside a string or a comment, where its line is not that of its place, or past
the end. Whatever it is asked, it reads characters that are there (`Careful`), except that `advance` may be asked for one
more than there are (`perform_cases`). All else follows from what a single character changes: the scanner holds what the
text has between its places and behind them (`Cuts`), no place and no line goes back (`Onward`), and only `advance`
leaves the text. -/

namespace ExprLang.Scanner

/-- The scanner after some requests. -/
def performAll (operations : List Operation) (s : Scanner) : Scanner :=
  operations.foldl (fun s operation => (s.perform operation).2) s

/-- What has been taken stands in the text between the two places, and what is left behind the second. Past the end both
    are cut off. -/
structure Cuts (text : List Char) (s : Scanner) : Prop where
  ordered : s.start ≤ s.current
  taken : s.taken = (text.take s.current).drop s.start
  rest : s.rest = text.drop s.current

/-- Nothing goes back: places and lines only grow, and reports are added behind those there are. -/
structure Onward (s t : Scanner) : Prop where
  start : s.start ≤ t.start
  current : s.current ≤ t.current
  line : s.line ≤ t.line
  diagnostics : s.diagnostics.toList <+: t.diagnostics.toList

/-- Every character between the two scanners is there. Newlines among them are counted, or there is one character alone
    and its newline is not. -/
def Careful (s t : Scanner) : Prop := Walk s t ∨ ∃ c, s.advance = (some c, t)

variable {text : List Char} {s t u after : Scanner} {c : Char}

/-! ### What one character changes -/

theorem eq_of_advance_some (found : s.advance = (some c, t)) :
    ∃ behind, s.rest = c :: behind ∧
      t = { s with current := s.current + 1, taken := s.taken ++ [c], rest := behind } := by
  unfold advance at found
  split at found
  · cases found
  · next behind eq =>
    cases found
    exact ⟨behind, eq, rfl⟩

theorem Cuts.ofText (text : String) : Cuts text.toList (ofText text) where
  ordered := Nat.le_refl 0
  taken := rfl
  rest := rfl

theorem Cuts.length_rest (h : Cuts text s) : s.rest.length = text.length - s.current := by
  rw [h.rest, List.length_drop]

theorem Cuts.rest_eq_nil_iff (h : Cuts text s) : s.rest = [] ↔ text.length ≤ s.current := by
  rw [h.rest, List.drop_eq_nil_iff]

theorem Cuts.read (h : Cuts text s) (found : s.advance = (some c, t)) (line : Int) :
    Cuts text { t with line } := by
  obtain ⟨behind, left, rfl⟩ := eq_of_advance_some found
  have split : text.drop s.current = c :: behind := h.rest.symm.trans left
  have inside : s.current < text.length := by
    have filled : s.rest ≠ [] := left ▸ List.cons_ne_nil c behind
    simpa [h.rest_eq_nil_iff] using filled
  have far : s.start ≤ (text.take s.current).length := by
    rw [List.length_take_of_le (Nat.le_of_lt inside)]
    exact h.ordered
  refine ⟨Nat.le_succ_of_le h.ordered, ?_, ?_⟩
  · show s.taken ++ [c] = (text.take (s.current + 1)).drop s.start
    rw [List.take_add, split, List.take_succ_cons, List.take_zero, List.drop_append_of_le_length far, h.taken]
  · show behind = text.drop (s.current + 1)
    rw [← List.drop_drop, split, List.drop_succ_cons, List.drop_zero]

theorem Cuts.past (h : Cuts text s) (ended : s.rest = []) : Cuts text { s with current := s.current + 1 } := by
  have place : text.length ≤ s.current := h.rest_eq_nil_iff.mp ended
  have further : text.length ≤ s.current + 1 := Nat.le_succ_of_le place
  refine ⟨Nat.le_succ_of_le h.ordered, ?_, ?_⟩
  · show s.taken = (text.take (s.current + 1)).drop s.start
    rw [h.taken, List.take_of_length_le place, List.take_of_length_le further]
  · show s.rest = text.drop (s.current + 1)
    rw [ended, List.drop_of_length_le further]

theorem Cuts.begin (h : Cuts text s) : Cuts text s.begin where
  ordered := Nat.le_refl _
  taken := by simp [Scanner.begin]
  rest := h.rest

theorem Onward.refl (s : Scanner) : Onward s s :=
  ⟨Nat.le_refl _, Nat.le_refl _, Int.le_refl _, List.prefix_refl _⟩

theorem Onward.trans (h : Onward s t) (h' : Onward t u) : Onward s u where
  start := Nat.le_trans h.start h'.start
  current := Nat.le_trans h.current h'.current
  line := Int.le_trans h.line h'.line
  diagnostics := h.diagnostics.trans h'.diagnostics

theorem onward_read (found : s.advance = (some c, t)) (lines : Nat) :
    Onward s { t with line := t.line + lines } := by
  obtain ⟨behind, -, rfl⟩ := eq_of_advance_some found
  exact ⟨Nat.le_refl _, Nat.le_succ _, Int.le_add_of_nonneg_right (Int.natCast_nonneg lines), List.prefix_refl _⟩

/-! ### Walks -/

theorem Cuts.walk (h : Cuts text s) (walk : Walk s after) : Cuts text after := by
  induction walk with
  | refl => exact h
  | read found _ ih => exact ih (h.read found _)
  | begin _ ih => exact ih h.begin
  | report _ ih => exact ih ⟨h.ordered, h.taken, h.rest⟩

/-- A token begins where the scanner is, hence not before the last one. -/
theorem Cuts.onward_walk (h : Cuts text s) (walk : Walk s after) : Onward s after := by
  induction walk with
  | refl => exact .refl _
  | read found _ ih => exact (onward_read found _).trans (ih (h.read found _))
  | @begin s _ _ ih =>
    have begun : Onward s s.begin := ⟨h.ordered, Nat.le_refl _, Int.le_refl _, List.prefix_refl _⟩
    exact begun.trans (ih h.begin)
  | @report s _ problem line _ ih =>
    have reported : Onward s (s.report problem line) :=
      ⟨Nat.le_refl _, Nat.le_refl _, Int.le_refl _, by simp [report]⟩
    exact reported.trans (ih ⟨h.ordered, h.taken, h.rest⟩)

/-- What is read is no longer left, and its newlines are counted. -/
theorem Walk.whole (walk : Walk s after) : after.current + after.rest.length = s.current + s.rest.length ∧
    after.line + after.rest.count '\n' = s.line + s.rest.count '\n' := by
  induction walk with
  | refl => exact ⟨rfl, rfl⟩
  | @read s t _ c found _ ih =>
    obtain ⟨behind, left, rfl⟩ := eq_of_advance_some found
    have counted : (c :: behind).count '\n' = [c].count '\n' + behind.count '\n' := by
      rw [← List.count_append, List.singleton_append]
    refine ⟨ih.1.trans ?_, ih.2.trans ?_⟩
    · show s.current + 1 + behind.length = s.current + s.rest.length
      rw [left, List.length_cons, Nat.add_assoc, Nat.add_comm 1]
    · show s.line + [c].count '\n' + behind.count '\n' = s.line + s.rest.count '\n'
      rw [left, counted, Int.natCast_add, Int.add_assoc]
  | begin _ ih => exact ih
  | report _ ih => exact ih

theorem walk_pass (s : Scanner) (n : Nat) : Walk s (s.pass n) := by
  have walk : Walk s (s.readOver (s.rest.take n) (s.rest.drop n)) := walk_readOver (List.take_append_drop n s.rest).symm
  exact walk

theorem walk_advanceUntil (s : Scanner) (expected : String) : Walk s (s.advanceUntil expected).2 := walk_pass s _

theorem walk_string (s : Scanner) : Walk s s.string.2 := by
  have walk := walk_advanceUntil s "\""
  unfold string
  split
  · next closing eq =>
    rw [eq] at walk
    exact walk.trans (walk_pass closing 1)
  · next unclosed eq =>
    rw [eq] at walk
    exact walk.trans (.report (.refl _))

theorem walk_drain (s : Scanner) : Walk s s.drain.2 := by
  fun_induction drain s with
  | case1 s after found =>
    have walk := walk_next s
    rwa [found] at walk
  | case2 s token after found lt tokens last rest ih =>
    have walk := walk_next s
    rw [found] at walk
    rw [rest] at ih
    exact walk.trans ih

/-! ### One request -/

theorem careful_accept (s : Scanner) (expected : String) : Careful s (s.accept expected).2 := by
  unfold accept
  split
  · exact .inl (.refl s)
  · next c behind left =>
    split
    · exact .inr ⟨c, advance_cons left⟩
    · exact .inl (.refl s)

/-- No request but `advance` goes past the end. -/
theorem careful_perform {operation : Operation} (other : operation ≠ .advance) :
    (s.perform operation).1 ≠ .pastTheEnd ∧ Careful s (s.perform operation).2 := by
  cases operation with
  | advance => exact absurd rfl other
  | accept expected => exact ⟨Reply.noConfusion, careful_accept s expected⟩
  | advanceUntil expected => exact ⟨Reply.noConfusion, .inl (walk_advanceUntil s expected)⟩
  | skipGap | number | word => exact ⟨Reply.noConfusion, .inl (walk_pass s _)⟩
  | string => exact ⟨Reply.noConfusion, .inl (walk_string s)⟩
  | next => exact ⟨Reply.noConfusion, .inl (walk_next s)⟩
  | drain => exact ⟨Reply.noConfusion, .inl (walk_drain s)⟩
  | report message line => exact ⟨Reply.noConfusion, .inl (.report (.refl _))⟩
  | atEnd | peek | peekNext | token => exact ⟨Reply.noConfusion, .inl (.refl s)⟩

/-- A request reads what is there, or it is `advance` at the end, which only moves on. -/
theorem perform_cases (s : Scanner) (operation : Operation) :
    (operation = .advance → s.rest ≠ []) ∧ (s.perform operation).1 ≠ .pastTheEnd ∧ Careful s (s.perform operation).2 ∨
      operation = .advance ∧ s.rest = [] ∧
        s.perform operation = (.pastTheEnd, { s with current := s.current + 1 }) := by
  by_cases same : operation = .advance
  · subst same
    cases left : s.rest with
    | nil => exact .inr ⟨rfl, rfl, by simp [perform, advance, left]⟩
    | cons c behind =>
      have found := advance_cons left
      have performed : s.perform .advance = (.character (some c), s.advance.2) := by rw [perform, found]
      rw [performed, found]
      exact .inl ⟨fun _ => List.cons_ne_nil c behind, Reply.noConfusion, .inr ⟨c, found⟩⟩
  · exact .inl ⟨fun advances => absurd advances same, careful_perform same⟩

/-! ### Requests one after another -/

theorem Careful.cuts (careful : Careful s t) (h : Cuts text s) : Cuts text t := by
  rcases careful with walk | ⟨c, found⟩
  · exact h.walk walk
  · exact h.read found t.line

theorem Careful.onward (careful : Careful s t) (h : Cuts text s) : Onward s t := by
  rcases careful with walk | ⟨c, found⟩
  · exact h.onward_walk walk
  · simpa using onward_read found 0

/-- Reading what is there does not leave the text. -/
theorem Careful.within (careful : Careful s t) (h : Cuts text s) : t.current ≤ max s.current text.length := by
  have left := h.length_rest
  rcases careful with walk | ⟨c, found⟩
  · have whole := walk.whole.1
    omega
  · obtain ⟨behind, rest, rfl⟩ := eq_of_advance_some found
    rw [rest, List.length_cons] at left
    show s.current + 1 ≤ max s.current text.length
    omega

theorem Cuts.perform (h : Cuts text s) (operation : Operation) :
    Cuts text (s.perform operation).2 ∧ Onward s (s.perform operation).2 := by
  rcases perform_cases s operation with ⟨-, -, careful⟩ | ⟨-, ended, eq⟩
  · exact ⟨careful.cuts h, careful.onward h⟩
  · rw [eq]
    exact ⟨h.past ended, Nat.le_refl _, Nat.le_succ _, Int.le_refl _, List.prefix_refl _⟩

theorem Cuts.performAll : ∀ (operations : List Operation) {s : Scanner}, Cuts text s →
    Cuts text (performAll operations s) ∧ Onward s (performAll operations s)
  | [], s, h => ⟨h, .refl s⟩
  | operation :: operations, _, h => by
    obtain ⟨cuts, first⟩ := h.perform operation
    obtain ⟨last, rest⟩ := performAll operations cuts
    exact ⟨last, first.trans rest⟩

/-- What can be relied on wherever the scanner is in the text. `advance` and nothing else is refused, where no character is
    left, and only moves on; everything else stays with the characters there are, and a token takes one at least. -/
structure Steady (text : String) (s : Scanner) : Prop where
  cuts : Cuts text.toList s
  onward : ∀ operations, Onward s (performAll operations s)
  refused : ∀ operation, (s.perform operation).1 = .pastTheEnd ↔ operation = .advance ∧ text.toList.length ≤ s.current
  moved : text.toList.length ≤ s.current → (s.perform .advance).2 = { s with current := s.current + 1 }
  careful : ∀ operation, (s.perform operation).1 ≠ .pastTheEnd → Careful s (s.perform operation).2
  within : ∀ operation, operation ≠ .advance → (s.perform operation).2.current ≤ max s.current text.toList.length
  consumes : ∀ token after, s.next = (some token, after) → s.current < after.current

theorem Cuts.refused_iff (h : Cuts text s) (operation : Operation) :
    (s.perform operation).1 = .pastTheEnd ↔ operation = .advance ∧ text.length ≤ s.current := by
  rw [← h.rest_eq_nil_iff]
  rcases perform_cases s operation with ⟨left, answered, -⟩ | ⟨same, ended, eq⟩
  · exact iff_of_false answered fun refused => left refused.1 refused.2
  · exact iff_of_true (congrArg Prod.fst eq) ⟨same, ended⟩

theorem lt_current_of_next {token : Token} (found : s.next = (some token, after)) : s.current < after.current := by
  have shorter := length_rest_next_lt found
  have whole := (walk_next s).whole.1
  rw [found] at whole
  dsimp only at whole
  omega

/-- Whatever has been asked of a scanner, and whatever is asked next: its places are in order and go forward, its line and
    its reports too, nothing but `advance` asks for a character past the end, and every token takes a character. -/
theorem performAll_steady (text : String) (operations : List Operation) :
    Steady text (performAll operations (ofText text)) := by
  obtain ⟨cuts, -⟩ := (Cuts.ofText text).performAll operations
  generalize performAll operations (ofText text) = s at cuts
  refine ⟨cuts, fun more => (cuts.performAll more).2, cuts.refused_iff, fun ended => ?_, fun operation answered => ?_,
    fun operation other => ?_, fun _ _ => lt_current_of_next⟩
  · simp [perform, advance, cuts.rest_eq_nil_iff.mpr ended]
  · rcases perform_cases s operation with ⟨-, -, careful⟩ | ⟨-, -, eq⟩
    · exact careful
    · exact absurd (congrArg Prod.fst eq) answered
  · exact (careful_perform other).2.within cuts

end ExprLang.Scanner
