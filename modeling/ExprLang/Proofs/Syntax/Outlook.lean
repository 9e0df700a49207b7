import ExprLang.Proofs.Syntax.Grammar

/-! # What may stand next

Between two tokens of an expression either an operand is expected or an operator. An `Outlook` is that, with the depths
of the parentheses still open, and every token changes it in at most one way. A depth is what the signs and parentheses
around take of a stack, and there may be a limit to it. A derivation goes through the outlooks from an operand to the
operator behind it (`Derives.outlook`). Where a rule is stuck the token ahead leaves no outlook, though there be no limit
(`Stuck.dead`); where the room ends the tokens used leave none within the limit of that room (`Deep.tooFar`). -/

namespace ExprLang.Syntax

open ExprLang.Parser

/-- What is expected next. `base` is the depth right behind the innermost open parenthesis, `outer` are those of the
    parentheses around it, and `depth` counts the signs in front of the operand as well. -/
inductive Outlook
  | operand (base : Nat) (outer : List Nat) (depth : Nat)
  | operator (base : Nat) (outer : List Nat)
  deriving DecidableEq, Repr

namespace Outlook

/-- The depth is within the limit, if there is one. -/
def Allows (limit : Option Nat) (depth : Nat) : Prop := ∀ most ∈ limit, depth ≤ most

instance (limit : Option Nat) (depth : Nat) : Decidable (Allows limit depth) :=
  inferInstanceAs (Decidable (∀ most ∈ limit, depth ≤ most))

/-- An operand at a depth, if the limit allows the depth. -/
def enter (limit : Option Nat) (base : Nat) (outer : List Nat) (depth : Nat) : Option Outlook :=
  if Allows limit depth then some (.operand base outer depth) else none

/-- What is expected behind a token that was expected. -/
def step (stack : Stack) (limit : Option Nat) (kind : Kind) : Outlook → Option Outlook
  | .operand base outer depth =>
    if kind ∈ leaves then some (.operator base outer)
    else if kind ∈ signs then enter limit base outer (depth + stack.sign)
    else if kind = .leftParen then enter limit (depth + stack.paren) (base :: outer) (depth + stack.paren)
    else none
  | .operator base outer =>
    if kind ∈ Level.equality.absorbed then enter limit base outer base
    else if kind = .rightParen then
      match outer with
      | [] => none
      | base :: outer => some (.operator base outer)
    else none

def follow (stack : Stack) (limit : Option Nat) (tokens : List Token) (outlook : Outlook) : Option Outlook :=
  tokens.foldlM (fun outlook token => outlook.step stack limit token.kind) outlook

/-! ### Steps -/

section

variable {stack : Stack} {limit : Option Nat} {base depth : Nat} {outer : List Nat} {kind : Kind}

theorem allows_none (depth : Nat) : Allows none depth := by
  intro most h
  cases h

theorem Allows.mono {depth' : Nat} (h : Allows limit depth) (le : depth' ≤ depth) : Allows limit depth' :=
  fun most eq => Nat.le_trans le (h most eq)

theorem enter_bind {next : Outlook → Option Outlook} (h : Allows limit depth) :
    enter limit base outer depth >>= next = next (.operand base outer depth) := by
  rw [enter, if_pos h]
  rfl

theorem enter_none_bind {next : Outlook → Option Outlook} :
    enter none base outer depth >>= next = next (.operand base outer depth) := enter_bind (allows_none depth)

theorem enter_unlimited {behind : Outlook} (h : enter limit base outer depth = some behind) :
    enter none base outer depth = some behind := by
  unfold enter at h
  split at h
  · exact (if_pos (allows_none depth)).trans h
  · cases h

theorem enter_of_lt {most : Nat} (h : most < depth) : enter (some most) base outer depth = none :=
  if_neg fun allows => absurd (allows most rfl) (Nat.not_le_of_lt h)

theorem step_leaf (h : kind ∈ leaves) :
    step stack limit kind (.operand base outer depth) = some (.operator base outer) := if_pos h

theorem step_sign (h : kind ∈ signs) :
    step stack limit kind (.operand base outer depth) = enter limit base outer (depth + stack.sign) := by
  have disjoint : ∀ kind ∈ signs, kind ∉ leaves := by decide
  simp only [step, if_neg (disjoint _ h), if_pos h]

theorem step_opening : step stack limit .leftParen (.operand base outer depth) =
    enter limit (depth + stack.paren) (base :: outer) (depth + stack.paren) := rfl

theorem step_binary (h : kind ∈ Level.equality.absorbed) :
    step stack limit kind (.operator base outer) = enter limit base outer base := if_pos h

theorem step_closing :
    step stack limit .rightParen (.operator depth (base :: outer)) = some (.operator base outer) := rfl

theorem step_operand_eq_none (h : kind ∉ Level.equality.starters) :
    step stack limit kind (.operand base outer depth) = none := by
  simp only [Level.starters, List.mem_append, List.mem_singleton, not_or] at h
  simp only [step, if_neg h.1, if_neg h.2.1, if_neg h.2.2]

theorem step_operator_eq_none (h : kind ∉ Level.equality.absorbed) (h' : kind = .rightParen → outer = []) :
    step stack limit kind (.operator base outer) = none := by
  simp only [step, if_neg h]
  split
  · next closes => rw [h' closes]
  · rfl

end

section

variable {stack : Stack} {limit : Option Nat} {tokens more : List Token} {outlook behind : Outlook}

theorem follow_append (outlook : Outlook) : outlook.follow stack limit (tokens ++ more) =
    outlook.follow stack limit tokens >>= follow stack limit more := List.foldlM_append

theorem follow_behind (h : outlook.follow stack limit tokens = some behind) :
    outlook.follow stack limit (tokens ++ more) = behind.follow stack limit more := by
  rw [follow_append, h]
  rfl

theorem follow_cons {token : Token} (outlook : Outlook) : outlook.follow stack limit (token :: tokens) =
    outlook.step stack limit token.kind >>= follow stack limit tokens := List.foldlM_cons

/-- Whatever is expected under a limit is expected without. -/
theorem step_unlimited {kind : Kind} (h : outlook.step stack limit kind = some behind) :
    outlook.step stack none kind = some behind := by
  cases outlook with
  | operand base outer depth =>
    simp only [step] at h ⊢
    split
    · next leaf => rwa [if_pos leaf] at h
    · next leaf =>
      rw [if_neg leaf] at h
      split
      · next sign =>
        rw [if_pos sign] at h
        exact enter_unlimited h
      · next sign =>
        rw [if_neg sign] at h
        split
        · next opens =>
          rw [if_pos opens] at h
          exact enter_unlimited h
        · next opens => rwa [if_neg opens] at h
  | operator base outer =>
    simp only [step] at h ⊢
    split
    · next operator =>
      rw [if_pos operator] at h
      exact enter_unlimited h
    · next operator => rwa [if_neg operator] at h

theorem follow_unlimited (h : outlook.follow stack limit tokens = some behind) :
    outlook.follow stack none tokens = some behind := by
  induction tokens generalizing outlook with
  | nil => exact h
  | cons token tokens ih =>
    rw [follow_cons] at h ⊢
    obtain ⟨mid, step, rest⟩ := Option.bind_eq_some_iff.mp h
    exact Option.bind_eq_some_iff.mpr ⟨mid, step_unlimited step, ih rest⟩

theorem follow_singleton {token : Token} (outlook : Outlook) :
    outlook.follow stack limit [token] = outlook.step stack limit token.kind := by
  rw [follow_cons]
  cases outlook.step stack limit token.kind <;> rfl

end

end Outlook

open Outlook

/-! ### Derivations -/

theorem mem_absorbed_equality {level : Level} {kind : Kind} (h : kind ∈ level.operators) :
    kind ∈ Level.equality.absorbed := by
  have all : ∀ kind ∈ level.operators, kind ∈ Level.equality.absorbed := by cases level <;> decide
  exact all kind h

theorem tighter_ne_primary {level : Level} (h : level.operators ≠ []) : level.tighter ≠ .primary := by
  cases level with
  | unary | primary => exact absurd rfl h
  | equality | comparison | sum | product => decide

/-- Behind an expression that the limit allows an operator is expected. Only behind signs, where nothing but an operand
    without binary operators stands, is the depth not that of the innermost parenthesis. -/
theorem Derives.outlook {stack : Stack} {level : Level} {tokens : List Token} {tree : Expr}
    (h : Derives level tokens tree) : ∀ {limit : Option Nat} {base depth : Nat} {outer : List Nat},
      (level.operators ≠ [] → depth = base) → base ≤ depth → Allows limit (depth + tree.frames stack) →
      follow stack limit tokens (.operand base outer depth) = some (.operator base outer) := by
  induction h with
  | leaf payload =>
    intro limit base depth outer _ _ _
    rw [follow_singleton, step_leaf payload.mem_leaves]
  | @grouping _ _ _ inner opens closes _ ih =>
    intro limit base depth outer _ _ within
    have inside : Allows limit (depth + stack.paren + inner.frames stack) :=
      within.mono (by simp only [Expr.frames]; omega)
    rw [List.cons_append, follow_cons, opens, step_opening, enter_bind (inside.mono (by omega)),
      follow_behind (ih (fun _ => rfl) (Nat.le_refl _) inside), follow_singleton, closes, step_closing]
  | @sign _ _ operand member _ ih =>
    intro limit base depth outer _ low within
    have inside : Allows limit (depth + stack.sign + operand.frames stack) :=
      within.mono (by simp only [Expr.frames]; omega)
    rw [follow_cons, step_sign member, enter_bind (inside.mono (by omega))]
    exact ih (fun levels => absurd rfl levels) (by omega) inside
  | @operand level _ _ _ _ ih =>
    intro limit base depth outer same low within
    refine ih ?_ low within
    intro levels
    cases level with
    | unary | primary => exact absurd rfl levels
    | equality | comparison | sum | product => exact same (List.cons_ne_nil _ _)
  | @binary level operator _ _ _ _ member _ _ ih ih' =>
    intro limit base depth outer same low within
    obtain rfl := same (List.ne_nil_of_mem member)
    simp only [Expr.frames] at within
    rw [follow_behind (ih same low (within.mono (by omega))), follow_cons, step_binary (mem_absorbed_equality member),
      enter_bind (within.mono (by omega))]
    exact ih' (fun _ => rfl) low (within.mono (by omega))

/-! ### Dead ends -/

/-- The end of the tokens is a token of its own kind. -/
theorem Stuck.atEnd {level : Level} {used : List Token} {next : Option Kind} {complaint : Complaint}
    (h : Stuck level used next complaint) (ended : next = none) : Stuck level used (some .endOfInput) complaint := by
  induction h with
  | @missing level =>
    refine .missing fun kind eq => ?_
    cases eq
    cases level <;> decide
  | unclosed opens body =>
    refine .unclosed opens body fun kind eq => ?_
    cases eq
    decide
  | inside opens _ ih => exact .inside opens (ih ended)
  | sign member _ ih => exact .sign member (ih ended)
  | unsigned some _ ih => exact .unsigned some (ih ended)
  | left levels _ ih => exact .left levels (ih ended)
  | right member first _ ih => exact .right member first (ih ended)

/-- Where a rule is stuck the token ahead cannot stand. -/
theorem Stuck.dead {stack : Stack} {level : Level} {used : List Token} {next : Option Kind} {complaint : Complaint}
    (h : Stuck level used next complaint) {token : Token} (ahead : next = some token.kind) :
    ∀ {base start : Nat} {outer : List Nat}, (level = .primary → used ≠ []) → (level.operators ≠ [] → start = base) →
      base ≤ start → follow stack none (used ++ [token]) (.operand base outer start) = none := by
  induction h with
  | @missing level next starter =>
    -- A sign starts no primary expression, but it could stand here; hence the condition on the tokens used.
    intro base start outer signed _ _
    have other : level ≠ .primary := fun same => absurd rfl (signed same)
    have absent := starter _ ahead
    rw [List.nil_append, follow_singleton, step_operand_eq_none]
    cases level with
    | primary => exact absurd rfl other
    | equality | comparison | sum | product | unary => exact absent
  | unclosed opens body stop =>
    intro base start outer _ _ _
    obtain ⟨closing, operator⟩ := stop _ ahead
    rw [List.cons_append, follow_cons, opens, step_opening, enter_none_bind,
      follow_behind (body.outlook (fun _ => rfl) (Nat.le_refl _) (allows_none _)), follow_singleton]
    exact step_operator_eq_none operator (fun closes => absurd closes closing)
  | inside opens _ ih =>
    intro base start outer _ _ _
    rw [List.cons_append, follow_cons, opens, step_opening, enter_none_bind]
    exact ih ahead (fun same => absurd same (by decide)) (fun _ => rfl) (Nat.le_refl _)
  | sign member _ ih =>
    intro base start outer _ _ low
    rw [List.cons_append, follow_cons, step_sign member, enter_none_bind]
    exact ih ahead (fun same => absurd same (by decide)) (fun levels => absurd rfl levels) (by omega)
  | unsigned some _ ih =>
    intro base start outer _ _ low
    exact ih ahead (fun _ => some) (fun levels => absurd rfl levels) low
  | @left level _ _ _ levels _ ih =>
    intro base start outer _ same low
    exact ih ahead (fun primary => absurd primary (tighter_ne_primary levels)) (fun _ => same levels) low
  | @right level operator lefts used _ _ _ member first _ ih =>
    intro base start outer _ same low
    have levels : level.operators ≠ [] := List.ne_nil_of_mem member
    obtain rfl := same levels
    rw [List.append_assoc, follow_behind (first.outlook same low (allows_none _)), List.cons_append, follow_cons,
      step_binary (mem_absorbed_equality member), enter_none_bind]
    exact ih ahead (fun primary => absurd primary (tighter_ne_primary levels)) (fun _ => rfl) low

/-- Where the room ends no outlook is left within the limit that it sets, whatever the token ahead. -/
theorem Deep.tooFar {stack : Stack} {level : Level} {room : Nat} {used : List Token} (h : Deep stack level room used) :
    ∀ {limit base start : Nat} {outer : List Nat}, (level.operators ≠ [] → start = base) → base ≤ start →
      limit + stack.needs.most ≤ start + room →
      enter (some limit) base outer start >>= follow stack (some limit) used = none := by
  -- Beyond the limit there is no outlook in any case, so each case may suppose that the operand is within.
  have within : ∀ {limit base start : Nat} {outer : List Nat} {next : Outlook → Option Outlook},
      (start ≤ limit → next (.operand base outer start) = none) →
      enter (some limit) base outer start >>= next = none := by
    intro limit base start outer next dead
    by_cases high : start ≤ limit
    · rw [enter_bind (fun most eq => Option.some.inj eq ▸ high)]
      exact dead high
    · rw [enter_of_lt (Nat.lt_of_not_le high)]
      rfl
  induction h with
  | here short =>
    intro limit base start outer _ _ full
    rw [enter_of_lt (by omega)]
    rfl
  | inside opens _ _ ih =>
    intro limit base start outer _ _ full
    refine within fun _ => ?_
    rw [follow_cons, opens, step_opening]
    exact ih (fun _ => rfl) (Nat.le_refl _) (by omega)
  | sign member _ _ ih =>
    intro limit base start outer _ low full
    refine within fun _ => ?_
    rw [follow_cons, step_sign member]
    exact ih (fun levels => absurd rfl levels) (by omega) (by omega)
  | unsigned _ ih =>
    intro limit base start outer _ low full
    exact ih (fun levels => absurd rfl levels) low full
  | left levels _ ih =>
    intro limit base start outer same low full
    exact ih (fun _ => same levels) low full
  | @right _ _ lefts _ _ _ member first _ _ ih =>
    intro limit base start outer same low full
    obtain rfl := same (List.ne_nil_of_mem member)
    refine within fun _ => ?_
    cases through : follow stack (some limit) lefts (.operand start outer start) with
    | none =>
      rw [follow_append, through]
      rfl
    | some behind =>
      obtain rfl : behind = .operator start outer := Option.some.inj <|
        (follow_unlimited through).symm.trans (first.outlook same low (allows_none _))
      rw [follow_behind through, follow_cons, step_binary (mem_absorbed_equality member)]
      exact ih (fun _ => rfl) low full

end ExprLang.Syntax
