import ExprLang.Proofs.Parser.Conservation

/-! # The verdict on a whole text

Reading all of a text uses up its tokens, so everything the scanner has to report is reported by then, unless the room
ends inside a token. A syntax error is recorded exactly if some chunk between semicolons is no expression, or if the
depth is complained about (`recorded_iff`), and then some chunk is too deep (`ReadsAll.deep`); an illegal token makes its
chunk one of the former, since expressions have none. -/

namespace ExprLang

open ExprLang.Parser Lexical Syntax

/-! ### Chunks that are no expressions -/

namespace Syntax

/-- There is something in the chunk, and it is no expression. -/
def Chunk.Faulty (chunk : Chunk) : Prop := chunk.tokens ≠ [] ∧ ∀ tree, ¬Derives .equality chunk.tokens tree

variable {stack : Stack} {chunk : Chunk} {chunks : List Chunk} {trees : List Expr} {errors : List SyntaxError}

theorem Shallow.nil : Shallow [] := List.forall_mem_nil _

theorem Reads.errors_ne_nil_iff (h : Reads stack chunk trees errors) : errors ≠ [] ↔ chunk.Faulty ∨ ¬Shallow errors := by
  cases h with
  | empty => exact iff_of_false (not_not_intro rfl) (not_or.mpr ⟨fun faulty => faulty.1 rfl, not_not_intro .nil⟩)
  | tree derives =>
    exact iff_of_false (not_not_intro rfl) (not_or.mpr ⟨fun faulty => faulty.2 _ derives, not_not_intro .nil⟩)
  | failed some none => exact iff_of_true (List.cons_ne_nil _ _) (.inl ⟨some, none⟩)
  | tooDeep =>
    exact iff_of_true (List.cons_ne_nil _ _) (.inr fun shallow => shallow _ List.mem_cons_self rfl)

theorem ReadsAll.errors_ne_nil_iff (h : ReadsAll stack chunks trees errors) :
    errors ≠ [] ↔ (∃ chunk ∈ chunks, chunk.Faulty) ∨ ¬Shallow errors := by
  induction h with
  | nil =>
    exact iff_of_false (not_not_intro rfl)
      (not_or.mpr ⟨fun ⟨_, member, _⟩ => List.not_mem_nil member, not_not_intro .nil⟩)
  | @cons chunk chunks _ _ errors errors' first _ ih =>
    have whole : Shallow (errors ++ errors') ↔ Shallow errors ∧ Shallow errors' := List.forall_mem_append
    rw [ne_eq, List.append_eq_nil_iff, Classical.not_and_iff_not_or_not, whole, Classical.not_and_iff_not_or_not]
    simp only [List.mem_cons, exists_eq_or_imp]
    rw [← ne_eq, ← ne_eq, first.errors_ne_nil_iff, ih]
    exact or_or_or_comm

/-- Every token but a semicolon is in some chunk. -/
theorem exists_chunk_of_mem {ending token : Token} {tokens : List Token} (member : token ∈ tokens)
    (other : token.kind ≠ .semicolon) : ∃ chunk ∈ cut ending tokens, token ∈ chunk.tokens := by
  induction tokens with
  | nil => cases member
  | cons first tokens ih =>
    by_cases closes : first.kind = .semicolon
    · have behind : token ∈ tokens := (List.mem_cons.mp member).resolve_left fun same => other (same ▸ closes)
      obtain ⟨chunk, inside, found⟩ := ih behind
      rw [cut, if_pos closes]
      exact ⟨chunk, List.mem_cons_of_mem _ inside, found⟩
    · -- The first token joins the chunk in front of which it stands, and no other chunk changes.
      rw [cut, if_neg closes]
      cases rest : cut ending tokens with
      | nil =>
        refine ⟨_, List.mem_singleton_self _, ?_⟩
        rcases List.mem_cons.mp member with rfl | behind
        · exact List.mem_cons_self
        · obtain ⟨chunk, inside, -⟩ := ih behind
          rw [rest] at inside
          cases inside
      | cons head chunks =>
        rcases List.mem_cons.mp member with rfl | behind
        · exact ⟨_, List.mem_cons_self, List.mem_cons_self⟩
        · obtain ⟨chunk, inside, found⟩ := ih behind
          rw [rest] at inside
          rcases List.mem_cons.mp inside with rfl | inside
          · exact ⟨_, List.mem_cons_self, List.mem_cons_of_mem _ found⟩
          · exact ⟨chunk, List.mem_cons_of_mem _ inside, found⟩

/-- The chunk is too deep: some of its tokens begin an expression for which there is no room, and an error that names
    the depth stands in it or at its end. -/
structure Chunk.Deep (stack : Stack) (errors : List SyntaxError) (chunk : Chunk) : Prop where
  begins : ∃ before opener behind, chunk.tokens = before ++ [opener] ++ behind ∧
    TooDeep stack .equality stack.room before opener
  named : ∃ error ∈ errors, error.complaint = .nestedTooDeeply ∧ error.token ∈ chunk.tokens ++ [chunk.stop]

theorem Chunk.Deep.not_shallow (h : chunk.Deep stack errors) : ¬Shallow errors := by
  obtain ⟨error, member, deep, -⟩ := h.named
  exact fun shallow => shallow error member deep

theorem Chunk.Deep.mono {errors' : List SyntaxError} (h : chunk.Deep stack errors) (more : errors ⊆ errors') :
    chunk.Deep stack errors' := by
  obtain ⟨error, member, deep, inside⟩ := h.named
  exact ⟨h.begins, error, more member, deep, inside⟩

theorem shallow_followUps (tokens : List Token) : Shallow (followUps tokens) := by
  refine List.forall_mem_map.mpr fun token _ => ?_
  exact Complaint.noConfusion

theorem Reads.deep (h : Reads stack chunk trees errors) (deep : ¬Shallow errors) : chunk.Deep stack errors := by
  cases h with
  | empty | tree => exact absurd .nil deep
  | failed _ _ _ fails =>
    refine absurd (fun error member => ?_) deep
    rcases List.mem_cons.mp member with rfl | behind
    · exact fails.shallow
    · exact shallow_followUps _ error behind
  | @tooDeep tokens before behind stop opener offending eq tooDeep =>
    have inside : offending ∈ tokens ++ [stop] := eq ▸ List.mem_append_right _ List.mem_cons_self
    refine ⟨?_, _, List.mem_cons_self, rfl, inside⟩
    have short : (before ++ [opener]).length ≤ tokens.length := by
      have := congrArg List.length eq
      simp only [List.length_append, List.length_cons, List.length_nil] at this ⊢
      omega
    obtain ⟨more, front⟩ := List.prefix_of_prefix_length_le ⟨_, eq.symm⟩ (List.prefix_append tokens [stop]) short
    exact ⟨before, opener, more, front.symm, tooDeep⟩

/-- Where the depth is complained about there is a chunk that is too deep. -/
theorem ReadsAll.deep (h : ReadsAll stack chunks trees errors) (deep : ¬Shallow errors) :
    ∃ chunk ∈ chunks, chunk.Deep stack errors := by
  induction h with
  | nil => exact absurd .nil deep
  | @cons chunk chunks _ _ errors errors' first _ ih =>
    by_cases shallow : Shallow errors
    · have there : ¬Shallow errors' := fun shallow' => deep (List.forall_mem_append.mpr ⟨shallow, shallow'⟩)
      obtain ⟨found, member, deep⟩ := ih there
      exact ⟨found, List.mem_cons_of_mem _ member, deep.mono (List.subset_append_right _ _)⟩
    · exact ⟨chunk, List.mem_cons_self, (first.deep shallow).mono (List.subset_append_left _ _)⟩

/-- A chunk that is an expression for which there is no room is too deep. -/
theorem ReadsAll.deep_of_derives (h : ReadsAll stack chunks trees errors) (member : chunk ∈ chunks)
    (beyond : ∀ tree, Derives .equality chunk.tokens tree → stack.room < tree.frames stack + stack.needs.gap)
    {tree : Expr} (derives : Derives .equality chunk.tokens tree) : chunk.Deep stack errors := by
  induction h with
  | nil => cases member
  | @cons first chunks _ _ errors errors' reads _ ih =>
    rcases List.mem_cons.mp member with rfl | behind
    · refine (reads.deep fun shallow => ?_).mono (List.subset_append_left _ _)
      cases reads with
      | empty => exact derives.ne_nil rfl
      | tree derives' fits =>
        have short := beyond _ derives'
        omega
      | failed _ none => exact none _ derives
      | tooDeep => exact shallow _ List.mem_cons_self rfl
    · exact (ih behind).mono (List.subset_append_right _ _)

theorem Chunk.faulty_of_illegal {token : Token} (member : token ∈ chunk.tokens) (illegal : token.kind = .illegal) :
    chunk.Faulty := by
  have none : .illegal ∉ kinds := by decide
  refine ⟨List.ne_nil_of_mem member, fun tree derives => ?_⟩
  exact none (illegal ▸ derives.mem_kinds token member)

end Syntax

/-! ### Texts read to their end -/

namespace Parser

variable {stack : Stack} {text : String} {q : Parser} {trees : List Expr}

/-- The scanner has reported all there is when the last token is used. -/
theorem diagnostics_of_parseAll (intact : Intact stack (ofText text))
    (run : parseAll stack (ofText text) = .ok trees q) :
    q.scanner.diagnostics.toList = (Scanner.tokenize text).2 := by
  have readable : (ofText text).Readable := .of_fresh rfl
  obtain ⟨⟨consumed, noted⟩, ended⟩ := parseAll_noted run readable (.inr intact)
  obtain ⟨tokens, reported⟩ := noted.run.balance
  have ended : q.lookahead.toList ++ q.scanner.drain.1 = [] := ended
  rw [(List.append_eq_nil_iff.mp ended).2, List.append_nil] at tokens
  rw [Scanner.tokenize_snd, ← tokens]
  exact reported

/-- A text is read without a syntax error exactly if none of its chunks is faulty and none too deep. -/
theorem recorded_iff (run : parseAll stack (ofText text) = .ok trees q) :
    q.errors.toList ≠ [] ↔
      (∃ chunk ∈ chunksOf (Scanner.tokenize text).1, chunk.Faulty) ∨ ¬Shallow q.errors.toList := by
  by_cases shallow : Shallow q.errors.toList
  · exact (readsAll_of_parseAll run shallow).errors_ne_nil_iff
  · refine iff_of_true (fun none => shallow ?_) (.inr shallow)
    rw [none]
    exact .nil

theorem exists_faulty_of_illegal {tokens : List Token} (h : ∃ token ∈ tokens, token.kind = .illegal) :
    ∃ chunk ∈ chunksOf tokens, chunk.Faulty := by
  obtain ⟨token, member, illegal⟩ := h
  have other : token.kind ≠ .semicolon := by
    rw [illegal]
    decide
  obtain ⟨chunk, inside, found⟩ := exists_chunk_of_mem member other
  exact ⟨chunk, inside, Chunk.faulty_of_illegal found illegal⟩

end Parser

end ExprLang
