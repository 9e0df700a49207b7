import ExprLang.Proofs.Syntax.Failure

/-! # Sentences

The kinds of the tokens of an expression, in order, are a sentence. Which outlook tokens leave depends on their kinds
alone (`Outlook.follow_eq_of_kinds`), hence what is known of a stuck rule's own tokens holds of all tokens of these
kinds: the kinds used begin a sentence, no sentence goes on with the kind ahead, and the last kind used tells what is
missing. -/

namespace ExprLang.Syntax

open ExprLang.Parser Outlook

/-- The kinds are those of an expression's tokens. -/
def Sentence (kinds : List Kind) : Prop :=
  ∃ tokens tree, Derives .equality tokens tree ∧ tokens.map (·.kind) = kinds

/-- The kinds behind which an operand has to stand: an opening parenthesis, every sign and every binary operator. -/
def heralds : List Kind := .leftParen :: signs ++ Level.equality.absorbed

/-- An operand has to stand behind the tokens. -/
def OperandDue (tokens : List Token) : Prop := ∀ last, tokens.getLast? = some last → last.kind ∈ heralds

theorem operandDue_nil : OperandDue [] := by
  intro last eq
  cases eq

theorem operandDue_concat {tokens : List Token} {last : Token} :
    OperandDue (tokens ++ [last]) ↔ last.kind ∈ heralds := by
  simp [OperandDue]

/-! ### Outlooks by kinds -/

namespace Outlook

variable {stack : Stack} {limit : Option Nat} {outlook behind : Outlook}

theorem follow_eq_of_kinds {tokens tokens' : List Token} (same : tokens.map (·.kind) = tokens'.map (·.kind)) :
    outlook.follow stack limit tokens = outlook.follow stack limit tokens' := by
  have byKinds : ∀ tokens : List Token, outlook.follow stack limit tokens =
      (tokens.map (·.kind)).foldlM (fun outlook kind => outlook.step stack limit kind) outlook := fun tokens => by
    rw [List.foldlM_map]
    rfl
  rw [byKinds, byKinds, same]

theorem enter_eq_some {base depth : Nat} {outer : List Nat} (h : enter limit base outer depth = some behind) :
    behind = .operand base outer depth := by
  unfold enter at h
  split at h
  · exact (Option.some.inj h).symm
  · cases h

/-- Whether an operand is expected next can be seen from the last token alone. -/
theorem complaint_step {kind : Kind} (h : outlook.step stack limit kind = some behind) :
    behind.complaint = .expectExpression ↔ kind ∈ heralds := by
  have sides : (∀ kind ∈ leaves, kind ∉ heralds) ∧ (∀ kind ∈ signs, kind ∈ heralds) ∧ .leftParen ∈ heralds ∧
      (∀ kind ∈ Level.equality.absorbed, kind ∈ heralds) ∧ .rightParen ∉ heralds := by decide
  obtain ⟨leaf, sign, opening, operator, closing⟩ := sides
  have complete : ∀ base outer, (Outlook.operator base outer).complaint ≠ .expectExpression := by
    intro base outer
    cases outer <;> exact fun same => Complaint.noConfusion same
  cases outlook with
  | operand base outer depth =>
    simp only [step] at h
    split at h
    · next member =>
      cases h
      exact iff_of_false (complete _ _) (leaf _ member)
    · split at h
      · next member =>
        rw [enter_eq_some h]
        exact iff_of_true rfl (sign _ member)
      · split at h
        · next opens =>
          rw [enter_eq_some h, opens]
          exact iff_of_true rfl opening
        · cases h
  | operator base outer =>
    simp only [step] at h
    split at h
    · next member =>
      rw [enter_eq_some h]
      exact iff_of_true rfl (operator _ member)
    · split at h
      · next closes =>
        rw [closes]
        cases outer with
        | nil => cases h
        | cons =>
          cases h
          exact iff_of_false (complete _ _) closing
      · cases h

theorem complaint_follow {tokens : List Token} (h : follow stack limit tokens (.operand 0 [] 0) = some behind) :
    behind.complaint = .expectExpression ↔ OperandDue tokens := by
  rcases List.eq_nil_or_concat tokens with rfl | ⟨front, last, rfl⟩
  · cases h
    exact iff_of_true rfl operandDue_nil
  · rw [List.concat_eq_append] at h ⊢
    rw [follow_append] at h
    obtain ⟨before, -, step⟩ := Option.bind_eq_some_iff.mp h
    rw [follow_singleton] at step
    exact (complaint_step step).trans operandDue_concat.symm

end Outlook

/-! ### Sentences and stuck rules -/

theorem Begins.sentence {tokens : List Token} (h : Begins .equality tokens) :
    ∃ more, Sentence (tokens.map (·.kind) ++ more) := by
  obtain ⟨more, tree, derives⟩ := h
  exact ⟨more.map (·.kind), _, tree, derives, List.map_append⟩

/-- A sentence that goes on with the kinds of some tokens begins with tokens that leave an outlook. -/
theorem Sentence.outlook {tokens : List Token} {more : List Kind} (h : Sentence (tokens.map (·.kind) ++ more))
    (stack : Stack) : ∃ outlook, follow stack none tokens (.operand 0 [] 0) = some outlook := by
  obtain ⟨whole, tree, derives, eq⟩ := h
  -- The sentence belongs to other tokens than these; only the kinds are the same.
  obtain ⟨front, behind, rfl, same, -⟩ := List.map_eq_append_iff.mp eq
  have begins : Begins .equality front := ⟨behind, tree, derives⟩
  obtain ⟨outlook, through⟩ := begins.outlook stack
  exact ⟨outlook, (follow_eq_of_kinds same.symm).trans through⟩

theorem Sentence.outlook_end {tokens : List Token} (h : Sentence (tokens.map (·.kind))) (stack : Stack) :
    follow stack none tokens (.operand 0 [] 0) = some (.operator 0 []) := by
  obtain ⟨whole, tree, derives, same⟩ := h
  rw [follow_eq_of_kinds same.symm]
  exact derives.outlook (fun _ => rfl) (Nat.le_refl _) (allows_none _)

section

variable {used : List Token} {next : Option Kind} {complaint : Complaint}

/-- What is missing is one of the two things that expressions are stuck for, and the tokens used tell which. -/
theorem Stuck.complaint_due (h : Stuck .equality used next complaint) :
    complaint = .expectExpression ∧ OperandDue used ∨ complaint = .expectClosingParen ∧ ¬OperandDue used := by
  obtain ⟨missed, misses, begins⟩ := h.begins_missed
  obtain ⟨behind, through⟩ := begins.outlook .standard
  rw [follow_append] at through
  obtain ⟨outlook, before, step⟩ := Option.bind_eq_some_iff.mp through
  rw [follow_singleton] at step
  have due := complaint_follow before
  rw [misses.complaint_eq step] at due
  cases misses with
  | expression => exact .inl ⟨rfl, due.mp rfl⟩
  | closing => exact .inr ⟨rfl, fun operand => Complaint.noConfusion (due.mpr operand)⟩

theorem Stuck.not_sentence_next {token : Token} (h : Stuck .equality used (some token.kind) complaint)
    (more : List Kind) : ¬Sentence (used.map (·.kind) ++ token.kind :: more) := by
  intro sentence
  have whole : Sentence ((used ++ [token]).map (·.kind) ++ more) := by simpa using sentence
  obtain ⟨outlook, through⟩ := whole.outlook .standard
  have dead : follow .standard none (used ++ [token]) (.operand 0 [] 0) = none :=
    h.dead rfl (fun same => absurd same (by decide)) (fun _ => rfl) (Nat.le_refl _)
  rw [dead] at through
  cases through

/-- An expression that is stuck is not complete: at its end only an operator could stand, and that is not missed. -/
theorem Stuck.not_sentence (h : Stuck .equality used next complaint) : ¬Sentence (used.map (·.kind)) := by
  intro sentence
  obtain ⟨missed, misses, begins⟩ := h.begins_missed
  obtain ⟨behind, through⟩ := begins.outlook .standard
  rw [follow_behind (sentence.outlook_end .standard), follow_singleton] at through
  have impossible := misses.complaint_eq through
  cases misses <;> cases impossible

end

end ExprLang.Syntax
