import ExprLang.Parser.Error

/-! The parser's place in a text. It takes tokens from a scanner of its own, one ahead of those it has used. -/

namespace ExprLang

structure Parser where
  scanner : Scanner
  /-- The token taken from the scanner and not used yet. -/
  lookahead : Option Token := none
  /-- The token used last; before the first one, a token without a line. -/
  current : Token := ⟨.endOfInput, "", 0⟩
  /-- The syntax errors recorded so far. -/
  errors : Array SyntaxError := #[]
  deriving DecidableEq, Repr

namespace Parser

/-- A parser at the beginning of a text. -/
def ofText (text : String) : Parser := { scanner := .ofText text }

/-- A syntax error has been recorded. -/
def hadError (p : Parser) : Bool := !p.errors.isEmpty

/-- The next token, which stays the next. -/
def peek (p : Parser) : Option Token × Parser :=
  match p.lookahead with
  | some token => (some token, p)
  | none =>
    let (token, scanner) := p.scanner.next
    (token, { p with scanner, lookahead := token })

def atEnd (p : Parser) : Bool × Parser :=
  let (token, p) := p.peek
  (token.isNone, p)

/-- The next token, or at the end a token for the end, on the line of the token used last. -/
def peekOrEnd (p : Parser) : Token × Parser :=
  match p.peek with
  | (some token, p) => (token, p)
  | (none, p) => (⟨.endOfInput, "", if p.current.line = 0 then p.scanner.line else p.current.line⟩, p)

/-- Uses the token in front. -/
def shift (p : Parser) (token : Token) : Parser := { p with lookahead := none, current := token }

/-- Uses the next token if `f` makes something of it. -/
def takeMap {α : Type} (f : Token → Option α) (p : Parser) : Option α × Parser :=
  match p.peek with
  | (none, p) => (none, p)
  | (some token, p) =>
    match f token with
    | none => (none, p)
    | some a => (some a, p.shift token)

/-- Uses the next token if it is of one of the kinds. -/
def take (kinds : List Kind) : Parser → Option Token × Parser :=
  takeMap fun token => if token.kind ∈ kinds then some token else none

def record (p : Parser) (error : SyntaxError) : Parser := { p with errors := p.errors.push error }

/-- Work of the parser that may fail. What was read before a failure stays read. -/
abbrev Work := EStateM Failure Parser

/-- Fails at the next token. -/
def fail {α : Type} (complaint : Complaint) : Work α := fun p =>
  let (token, p) := p.peekOrEnd
  .error (.syntaxError ⟨token, complaint⟩) p

/-- Has the scanner scan the next token, if it has not done so, in the room there is. -/
def pull (needs : Scanner.Needs) (room : Nat) : Work Unit := fun p =>
  match p.lookahead with
  | some _ => .ok () p
  | none =>
    match p.scanner.nextWithin needs room with
    | (.ok token, scanner) => .ok () { p with scanner, lookahead := token }
    | (.error shortage, scanner) => .error (.stackOverflow shortage) { p with scanner }

/-- The next token, whatever it is. It is not taken as used last. -/
def advance : Work Token := fun p =>
  match p.peek with
  | (some token, p) => .ok token { p with lookahead := none }
  | (none, p) => .error .noTokenLeft p

/-- Uses the next token, which has to be of a kind. -/
def consume (kind : Kind) (complaint : Complaint) : Work Token := do
  match ← modifyGet (take [kind]) with
  | some token => return token
  | none => fail complaint

/-! ### What is left to read -/

/-- A bound on the number of tokens that are left. -/
def remaining (p : Parser) : Nat := p.scanner.rest.length + p.lookahead.toList.length

@[simp] theorem remaining_record (p : Parser) (error : SyntaxError) :
    (p.record error).remaining = p.remaining := rfl

theorem remaining_peek_le (p : Parser) : p.peek.2.remaining ≤ p.remaining := by
  unfold peek
  split
  · exact Nat.le_refl _
  · next none_ahead =>
    cases eq : p.scanner.next with
    | mk token scanner =>
      cases token with
      | none => simp [remaining, none_ahead, Scanner.rest_of_next_eq_none eq]
      | some token =>
        have := Scanner.length_rest_next_lt eq
        simp [remaining, none_ahead]
        omega

theorem remaining_le_of_peek {p q : Parser} {token : Option Token} (h : p.peek = (token, q)) :
    q.remaining ≤ p.remaining := by
  have := remaining_peek_le p
  rwa [h] at this

/-- Where there is room enough, pulling is looking ahead. -/
theorem peek_of_pull {needs : Scanner.Needs} {room : Nat} {p q : Parser} (h : pull needs room p = .ok () q) :
    p.peek.2 = q := by
  unfold pull at h
  split at h
  · next ahead =>
    cases h
    simp [peek, ahead]
  · next ahead =>
    split at h
    · next found =>
      cases h
      simp [peek, ahead, Scanner.next_of_nextWithin found]
    · cases h

theorem lookahead_peek (p : Parser) : p.peek.2.lookahead = p.peek.1 := by
  unfold peek
  split <;> simp_all

/-- After the last token nothing is left. -/
theorem remaining_of_peek_eq_none {p q : Parser} (h : p.peek = (none, q)) : q.remaining = 0 := by
  unfold peek at h
  split at h
  · simp at h
  · next none_ahead =>
    cases eq : p.scanner.next with
    | mk token scanner =>
      simp only [eq, Prod.mk.injEq] at h
      obtain ⟨rfl, rfl⟩ := h
      simp [remaining, Scanner.rest_of_next_eq_none eq]

/-- Using the token in front leaves less. -/
theorem remaining_shift_lt {p q : Parser} {token : Token} (h : p.peek = (some token, q)) :
    (q.shift token).remaining < p.remaining := by
  have le := remaining_peek_le p
  have ahead := lookahead_peek p
  simp only [h] at le ahead
  have : q.remaining = (q.shift token).remaining + 1 := by simp [remaining, shift, ahead]
  omega

theorem remaining_takeMap {α : Type} (f : Token → Option α) (p : Parser) :
    (p.takeMap f).2.remaining + (p.takeMap f).1.toList.length ≤ p.remaining := by
  have le := remaining_peek_le p
  unfold takeMap
  split
  · next q eq => simpa [eq] using le
  · next token q eq =>
    have lt := remaining_shift_lt eq
    split
    · simpa [eq] using le
    · exact lt

theorem remaining_take_lt {p q : Parser} {kinds : List Kind} {token : Token} (h : p.take kinds = (some token, q)) :
    q.remaining < p.remaining := by
  have le := remaining_takeMap (fun token => if token.kind ∈ kinds then some token else none) p
  simp only [take] at h
  simp only [h] at le
  exact le

theorem remaining_take_le {p q : Parser} {kinds : List Kind} {token : Option Token} (h : p.take kinds = (token, q)) :
    q.remaining ≤ p.remaining := by
  have le := remaining_takeMap (fun token => if token.kind ∈ kinds then some token else none) p
  simp only [take] at h
  simp only [h] at le
  exact Nat.le_trans (Nat.le_add_right _ _) le

/-- The work uses at least `n` tokens when it succeeds, and puts none back when it fails. -/
def Uses {α : Type} (n : Nat) (work : Work α) : Prop :=
  (∀ p a q, work p = .ok a q → q.remaining + n ≤ p.remaining) ∧
  (∀ p failure q, work p = .error failure q → q.remaining ≤ p.remaining)

namespace Uses

variable {α β : Type} {n : Nat}

theorem zero {work : Work α} (h : Uses n work) : Uses 0 work :=
  ⟨fun p a q eq => Nat.le_trans (Nat.le_add_right _ _) (h.1 p a q eq), h.2⟩

protected theorem pure (a : α) : Uses 0 (pure a : Work α) := by
  constructor
  · intro p b q eq
    cases eq
    exact Nat.le_refl _
  · intro p failure q eq
    cases eq

protected theorem throw (failure : Failure) : Uses n (throw failure : Work α) := by
  constructor
  · intro p b q eq
    cases eq
  · intro p failure q eq
    cases eq
    exact Nat.le_refl _

theorem add {m : Nat} {work : Work α} {next : α → Work β} (h : Uses m work) (h' : ∀ a, Uses n (next a)) :
    Uses (m + n) (work >>= next) := by
  constructor
  · intro p b q eq
    simp only [Bind.bind, EStateM.bind] at eq
    split at eq
    · next a mid first =>
      have := h.1 _ _ _ first
      have := (h' a).1 _ _ _ eq
      omega
    · cases eq
  · intro p failure q eq
    simp only [Bind.bind, EStateM.bind] at eq
    split at eq
    · next a mid first =>
      have := h.1 _ _ _ first
      have := (h' a).2 _ _ _ eq
      omega
    · next first =>
      cases eq
      exact h.2 _ _ _ first

theorem bind {work : Work α} {next : α → Work β} (h : Uses n work) (h' : ∀ a, Uses 0 (next a)) :
    Uses n (work >>= next) := h.add h'

theorem before {work : Work α} {next : α → Work β} (h : Uses 0 work) (h' : ∀ a, Uses n (next a)) :
    Uses n (work >>= next) := Nat.zero_add n ▸ h.add h'

theorem fail (complaint : Complaint) : Uses n (fail complaint : Work α) := by
  constructor
  · intro p a q eq
    cases eq
  · intro p failure q eq
    simp only [Parser.fail, peekOrEnd] at eq
    have le := remaining_peek_le p
    split at eq <;> cases eq <;> simp_all

/-- If the next token is used, the work that goes on with it uses one more. -/
theorem takeMap {f : Token → Option α} {next : Option α → Work β} (found : ∀ a, Uses n (next (some a)))
    (otherwise : Uses (n + 1) (next none)) : Uses (n + 1) (modifyGet (Parser.takeMap f) >>= next) := by
  have run : ∀ p, (modifyGet (Parser.takeMap f) >>= next) p = next (p.takeMap f).1 (p.takeMap f).2 := fun _ => rfl
  constructor
  · intro p b q eq
    have le := remaining_takeMap f p
    rw [run] at eq
    rcases taken : p.takeMap f with ⟨_ | a, mid⟩ <;> simp only [taken] at eq le
    · have := otherwise.1 _ _ _ eq
      omega
    · have := (found a).1 _ _ _ eq
      simp only [Option.toList_some, List.length_singleton] at le
      omega
  · intro p failure q eq
    have le := remaining_takeMap f p
    rw [run] at eq
    rcases taken : p.takeMap f with ⟨_ | a, mid⟩ <;> simp only [taken] at eq le
    · have := otherwise.2 _ _ _ eq
      omega
    · have := (found a).2 _ _ _ eq
      omega

theorem take {kinds : List Kind} {next : Option Token → Work β} (found : ∀ token, Uses n (next (some token)))
    (otherwise : Uses (n + 1) (next none)) : Uses (n + 1) (modifyGet (Parser.take kinds) >>= next) :=
  takeMap found otherwise

theorem pull (needs : Scanner.Needs) (room : Nat) : Uses 0 (Parser.pull needs room) := by
  constructor
  · intro p a q eq
    exact peek_of_pull eq ▸ remaining_peek_le p
  · intro p failure q eq
    unfold Parser.pull at eq
    split at eq
    · cases eq
    · split at eq
      · cases eq
      · next short =>
        cases eq
        have := Scanner.length_rest_nextWithin_le needs room p.scanner
        rw [short] at this
        simpa [remaining] using this

theorem atEnd : Uses 0 (modifyGet Parser.atEnd) :=
  ⟨fun p _ _ eq => by cases eq; exact remaining_peek_le p, fun _ _ _ eq => by cases eq⟩

theorem consume (kind : Kind) (complaint : Complaint) : Uses 1 (Parser.consume kind complaint) :=
  Uses.take Uses.pure (Uses.fail complaint)

end Uses

end Parser

end ExprLang
