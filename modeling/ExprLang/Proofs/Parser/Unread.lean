import ExprLang.Parser.Grammar
import ExprLang.Proofs.Lexical.Shortage

/-! # The tokens still to be read

A parser is seen through the tokens it has not used yet: the one ahead and those its scanner would still return. All
it does to them, as long as there is room, is to look at the first one and to use it (`Moves`); looking changes nothing
that can be seen, and using takes the first one away. Each way of taking a token is described once, by the moves it makes.
Where the room ends in front of a token, looking at it again is as if nothing had happened (`peek_of_pull_before`). -/

namespace ExprLang

namespace Scanner

/-- Whatever tokens are left, a scanner returns them when it has returned those in front. -/
theorem exists_drain : ∀ {front tokens : List Token} {s : Scanner}, s.drain.1 = front ++ tokens →
    ∃ after : Scanner, after.drain.1 = tokens
  | [], _, s, h => ⟨s, h⟩
  | first :: front, tokens, s, h => by
    cases eq : s.next with
    | mk token after =>
      cases token with
      | none =>
        rw [drain_of_next_none eq] at h
        cases h
      | some token =>
        rw [drain_of_next_some eq] at h
        exact exists_drain (List.cons.inj h).2

end Scanner

namespace Parser

/-- The tokens not used yet. -/
def unread (p : Parser) : List Token := p.lookahead.toList ++ p.scanner.drain.1

/-- The token a complaint names: the next one, or one for the end on the line of the token used last. -/
def upcoming (p : Parser) : Token :=
  p.unread.headD ⟨.endOfInput, "", if p.current.line = 0 then p.scanner.line else p.current.line⟩

/-- The kind of the next token. -/
def ahead (p : Parser) : Option Kind := p.unread.head?.map (·.kind)

/-- Every number ahead can be read. The scanner makes no others, a token made by hand may be one. -/
def Readable (p : Parser) : Prop := ∀ token ∈ p.unread, token.kind = .number → ∃ value, token.number = .ok value

/-! ### Looking ahead -/

theorem peek_of_nil {p : Parser} (h : p.unread = []) :
    ∃ q, p.peek = (none, q) ∧ q.unread = [] ∧ q.current = p.current ∧ q.errors = p.errors := by
  obtain ⟨ahead, rest⟩ := List.append_eq_nil_iff.mp h
  have no_token : p.lookahead = none := by simpa using ahead
  cases eq : p.scanner.next with
  | mk token scanner =>
    cases token with
    | some token =>
      rw [Scanner.drain_of_next_some eq] at rest
      cases rest
    | none =>
      refine ⟨{ p with scanner, lookahead := none }, by simp [peek, no_token, eq], ?_, rfl, rfl⟩
      have ended := Scanner.next_of_rest_nil (Scanner.rest_of_next_eq_none eq)
      simp [unread, Scanner.drain_of_next_none ended]

theorem peek_of_cons {p : Parser} {token : Token} {tokens : List Token} (h : p.unread = token :: tokens) :
    ∃ q, p.peek = (some token, q) ∧ q.lookahead = some token ∧ q.scanner.drain.1 = tokens ∧
      q.current = p.current ∧ q.errors = p.errors := by
  cases ahead : p.lookahead with
  | some first =>
    rw [unread, ahead, Option.toList_some, List.singleton_append] at h
    obtain ⟨rfl, rest⟩ := List.cons.inj h
    exact ⟨p, by simp [peek, ahead], ahead, rest, rfl, rfl⟩
  | none =>
    rw [unread, ahead, Option.toList_none, List.nil_append] at h
    cases eq : p.scanner.next with
    | mk first scanner =>
      cases first with
      | none =>
        rw [Scanner.drain_of_next_none eq] at h
        cases h
      | some first =>
        rw [Scanner.drain_of_next_some eq] at h
        obtain ⟨rfl, rest⟩ := List.cons.inj h
        exact ⟨{ p with scanner, lookahead := some first }, by simp [peek, ahead, eq], rfl, rest, rfl, rfl⟩

theorem unread_peek (p : Parser) : p.peek.2.unread = p.unread := by
  cases h : p.unread with
  | nil =>
    obtain ⟨q, eq, rest, -⟩ := peek_of_nil h
    rw [eq]
    exact rest
  | cons token tokens =>
    obtain ⟨q, eq, ahead, rest, -⟩ := peek_of_cons h
    rw [eq]
    simp [unread, ahead, rest]

theorem head?_unread (p : Parser) : p.peek.1 = p.unread.head? := by
  cases h : p.unread with
  | nil =>
    obtain ⟨q, eq, -⟩ := peek_of_nil h
    rw [eq]
    rfl
  | cons token tokens =>
    obtain ⟨q, eq, -⟩ := peek_of_cons h
    rw [eq]
    rfl

theorem unread_of_peek_none {p q : Parser} (h : p.peek = (none, q)) : p.unread = [] := by
  have head := head?_unread p
  rw [h] at head
  exact List.head?_eq_none_iff.mp head.symm

theorem current_peek (p : Parser) : p.peek.2.current = p.current := by
  unfold peek
  split <;> rfl

theorem errors_peek (p : Parser) : p.peek.2.errors = p.errors := by
  unfold peek
  split <;> rfl

theorem unread_shift {p q : Parser} {token : Token} (h : p.peek = (some token, q)) :
    p.unread = token :: (q.shift token).unread := by
  cases eq : p.unread with
  | nil =>
    obtain ⟨_, none, -⟩ := peek_of_nil eq
    rw [h] at none
    cases none
  | cons first tokens =>
    obtain ⟨_, found, -, rest, -⟩ := peek_of_cons eq
    rw [h] at found
    cases found
    simp [unread, shift, rest]

/-! ### Moves -/

/-- Looking at the next token and using it, any number of times; the tokens are those used. -/
inductive Moves : Parser → List Token → Parser → Prop
  | refl (p : Parser) : Moves p [] p
  | peek {p q r : Parser} {token : Option Token} {used : List Token} (h : p.peek = (token, q)) (rest : Moves q used r) :
    Moves p used r
  | shift {p q r : Parser} {token : Token} {used : List Token} (h : p.peek = (some token, q))
    (rest : Moves (q.shift token) used r) : Moves p (token :: used) r

namespace Moves

variable {p q r : Parser} {used more : List Token}

theorem trans (h : Moves p used q) (h' : Moves q more r) : Moves p (used ++ more) r := by
  induction h with
  | refl => exact h'
  | peek look _ ih => exact .peek look (ih h')
  | shift look _ ih => exact .shift look (ih h')

theorem unread_eq (h : Moves p used q) : p.unread = used ++ q.unread := by
  induction h with
  | refl => rfl
  | @peek p q _ _ _ look _ ih =>
    have := unread_peek p
    rw [look] at this
    rw [← this, ih]
  | shift look _ ih => rw [unread_shift look, ih, List.cons_append]

/-- Looking ahead leaves the same tokens. -/
theorem unread_same (h : Moves p [] q) : p.unread = q.unread := h.unread_eq

theorem of_one {first token : Token} {tokens : List Token} (h : Moves p [first] q) (eq : p.unread = token :: tokens) :
    token = first ∧ tokens = q.unread := List.cons.inj (eq.symm.trans h.unread_eq)

theorem errors_eq (h : Moves p used q) : q.errors = p.errors := by
  induction h with
  | refl => rfl
  | @peek p q _ _ _ look _ ih =>
    have := errors_peek p
    rw [look] at this
    rw [ih, this]
  | @shift p q _ _ _ look _ ih =>
    have := errors_peek p
    rw [look] at this
    rw [ih]
    exact this

/-- The token used last is the current one. -/
theorem current_eq (h : Moves p used q) : q.current = used.getLastD p.current := by
  induction h with
  | refl => rfl
  | @peek p q _ _ _ look _ ih =>
    have := current_peek p
    rw [look] at this
    rw [ih, this]
  | shift look _ ih =>
    rw [ih, List.getLastD_cons]
    rfl

theorem readable (h : Moves p used q) (readable : p.Readable) : q.Readable := fun token member =>
  readable token (h.unread_eq ▸ List.mem_append_right used member)

theorem one {token : Token} (h : p.peek = (some token, q)) : Moves p [token] (q.shift token) := .shift h (.refl _)

theorem look {token : Option Token} (h : p.peek = (token, q)) : Moves p [] q := .peek h (.refl _)

end Moves

/-! ### Taking a token -/

/-- The token in front, if there is one, is none of those in question. -/
def Lacks (p : Parser) (wanted : Token → Prop) : Prop := ∀ token, p.unread.head? = some token → ¬wanted token

theorem Lacks.ahead {p : Parser} {kinds : List Kind} (h : p.Lacks (·.kind ∈ kinds)) :
    ∀ kind, p.ahead = some kind → kind ∉ kinds := by
  intro kind eq
  obtain ⟨token, head, rfl⟩ := Option.map_eq_some_iff.mp eq
  exact h token head

theorem Lacks.not_first {p q : Parser} {wanted : Token → Prop} {token : Token} {tokens : List Token}
    (h : q.Lacks wanted) (moves : Moves p [] q) (eq : p.unread = token :: tokens) : ¬wanted token := by
  have same := moves.unread_same
  exact h token (by rw [← same, eq]; rfl)

theorem takeMap_cases {α : Type} (f : Token → Option α) (p : Parser) :
    (∃ token a q, f token = some a ∧ Moves p [token] q ∧ q.lookahead = none ∧ p.takeMap f = (some a, q)) ∨
      ∃ q, q.Lacks (fun token => ∃ a, f token = some a) ∧ Moves p [] q ∧ p.takeMap f = (none, q) := by
  cases eq : p.peek with
  | mk first q =>
    have look := Moves.look eq
    have head : first = q.unread.head? := by
      have := head?_unread p
      rw [eq, look.unread_eq] at this
      exact this
    cases first with
    | none =>
      refine .inr ⟨q, ?_, look, by simp [takeMap, eq]⟩
      intro token ht
      rw [← head] at ht
      cases ht
    | some token =>
      cases found : f token with
      | some a => exact .inl ⟨token, a, q.shift token, found, .one eq, rfl, by simp [takeMap, eq, found]⟩
      | none =>
        refine .inr ⟨q, ?_, look, by simp [takeMap, eq, found]⟩
        rintro other ht ⟨a, ha⟩
        rw [← head] at ht
        cases ht
        rw [found] at ha
        cases ha

theorem take_cases (kinds : List Kind) (p : Parser) :
    (∃ token q, token.kind ∈ kinds ∧ Moves p [token] q ∧ q.lookahead = none ∧ p.take kinds = (some token, q)) ∨
      ∃ q, q.Lacks (·.kind ∈ kinds) ∧ Moves p [] q ∧ p.take kinds = (none, q) := by
  rcases takeMap_cases (fun token => if token.kind ∈ kinds then some token else none) p with
    ⟨token, a, q, found, moves, fresh, eq⟩ | ⟨q, lacks, moves, eq⟩
  · split at found
    · next member =>
      cases found
      exact .inl ⟨token, q, member, moves, fresh, eq⟩
    · cases found
  · exact .inr ⟨q, fun token head member => lacks token head ⟨token, if_pos member⟩, moves, eq⟩

/-! ### Work -/

variable {α β : Type}

theorem bind_of_ok {work : Work α} {next : α → Work β} {p q : Parser} {a : α} (h : work p = .ok a q) :
    (work >>= next) p = next a q := by
  simp [Bind.bind, EStateM.bind, h]

theorem bind_of_error {work : Work α} {next : α → Work β} {p q : Parser} {failure : Failure}
    (h : work p = .error failure q) : (work >>= next) p = .error failure q := by
  simp [Bind.bind, EStateM.bind, h]

theorem modifyGet_eq {f : Parser → α × Parser} {p q : Parser} {a : α} (h : f p = (a, q)) :
    (modifyGet f : Work α) p = .ok a q := by
  show EStateM.Result.ok (f p).1 (f p).2 = _
  rw [h]

theorem fail_cases (complaint : Complaint) (p : Parser) :
    ∃ q, Moves p [] q ∧ (fail complaint : Work α) p = .error (.syntaxError ⟨q.upcoming, complaint⟩) q := by
  cases eq : p.peek with
  | mk first q =>
    have look := Moves.look eq
    have head : first = q.unread.head? := by
      have := head?_unread p
      rw [eq, look.unread_eq] at this
      exact this
    refine ⟨q, look, ?_⟩
    cases first with
    | none =>
      have ended : q.unread = [] := List.head?_eq_none_iff.mp head.symm
      simp [fail, peekOrEnd, eq, upcoming, ended]
    | some token =>
      obtain ⟨tokens, more⟩ := List.head?_eq_some_iff.mp head.symm
      simp [fail, peekOrEnd, eq, upcoming, more]

theorem consume_cases (kind : Kind) (complaint : Complaint) (p : Parser) :
    (∃ token q, token.kind = kind ∧ Moves p [token] q ∧ consume kind complaint p = .ok token q) ∨
      ∃ q, q.Lacks (·.kind = kind) ∧ Moves p [] q ∧
        consume kind complaint p = .error (.syntaxError ⟨q.upcoming, complaint⟩) q := by
  rcases take_cases [kind] p with ⟨token, q, member, moves, -, eq⟩ | ⟨q, lacks, moves, eq⟩
  · refine .inl ⟨token, q, List.mem_singleton.mp member, moves, ?_⟩
    rw [consume, bind_of_ok (modifyGet_eq eq)]
    rfl
  · obtain ⟨r, more, failed⟩ := fail_cases (α := Token) complaint q
    refine .inr ⟨r, ?_, moves.trans more, ?_⟩
    · intro token head same
      rw [← List.nil_append r.unread, ← more.unread_eq] at head
      exact lacks token head (List.mem_singleton.mpr same)
    · rw [consume, bind_of_ok (modifyGet_eq eq)]
      exact failed

/-! ### The end of the room -/

section

variable {needs : Scanner.Needs} {room : Nat} {p q : Parser}

theorem pull_cases (needs : Scanner.Needs) (room : Nat) (p : Parser) :
    (∃ q, pull needs room p = .ok () q ∧ Moves p [] q ∧ (p.lookahead = none → needs.gap ≤ room)) ∨
      p.lookahead = none ∧ room < needs.most ∧
        ∃ shortage q, pull needs room p = .error (.stackOverflow shortage) q := by
  cases ahead : p.lookahead with
  | some token =>
    refine .inl ⟨p, by simp [pull, ahead], .refl p, ?_⟩
    intro none
    cases none
  | none =>
    rcases p.scanner.nextWithin_cases needs room with ⟨enough, eq⟩ | ⟨t, short, eq, -⟩ | ⟨t, short, eq, -⟩
    · have pulled : pull needs room p = .ok () { p with scanner := p.scanner.next.2, lookahead := p.scanner.next.1 } := by
        simp [pull, ahead, eq]
      exact .inl ⟨_, pulled, peek_of_pull pulled ▸ .look rfl, fun _ => enough⟩
    · exact .inr ⟨rfl, short, .before, { p with scanner := t }, by simp [pull, ahead, eq]⟩
    · exact .inr ⟨rfl, short, .inside, { p with scanner := t }, by simp [pull, ahead, eq]⟩

/-- What is left where the room ends. -/
theorem of_pull_error {shortage : Scanner.Shortage} (h : pull needs room p = .error (.stackOverflow shortage) q) :
    p.lookahead = none ∧ ∃ t, p.scanner.nextWithin needs room = (.error shortage, t) ∧ q = { p with scanner := t } := by
  unfold pull at h
  split at h
  · cases h
  · next ahead =>
    split at h
    · cases h
    · next t eq =>
      cases h
      exact ⟨ahead, t, eq, rfl⟩

theorem peek_of_pull_before (h : pull needs room p = .error (.stackOverflow .before) q) : q.peek = p.peek := by
  obtain ⟨ahead, t, eq, rfl⟩ := of_pull_error h
  rcases p.scanner.nextWithin_cases needs room with ⟨-, eq'⟩ | ⟨t', -, eq', same, -⟩ | ⟨t', -, eq', -⟩
  · rw [eq] at eq'
    cases eq'
  · rw [eq] at eq'
    cases eq'
    simp only [peek, ahead, same]
  · rw [eq] at eq'
    cases eq'

theorem unread_of_pull_before (h : pull needs room p = .error (.stackOverflow .before) q) : q.unread = p.unread := by
  rw [← unread_peek q, peek_of_pull_before h, unread_peek]

theorem reports_of_pull_before (h : pull needs room p = .error (.stackOverflow .before) q) :
    q.lookahead = p.lookahead ∧ q.scanner.diagnostics = p.scanner.diagnostics := by
  obtain ⟨-, t, eq, rfl⟩ := of_pull_error h
  rcases p.scanner.nextWithin_cases needs room with ⟨-, eq'⟩ | ⟨t', -, eq', -, -, same⟩ | ⟨t', -, eq', -⟩
  · rw [eq] at eq'
    cases eq'
  · rw [eq] at eq'
    cases eq'
    exact ⟨rfl, same⟩
  · rw [eq] at eq'
    cases eq'

theorem walk_of_pull_error {shortage : Scanner.Shortage}
    (h : pull needs room p = .error (.stackOverflow shortage) q) : Scanner.Walk p.scanner q.scanner := by
  obtain ⟨-, t, eq, rfl⟩ := of_pull_error h
  rcases p.scanner.nextWithin_cases needs room with ⟨-, eq'⟩ | ⟨t', -, eq', -, walk, -⟩ | ⟨t', -, eq', walk⟩
  · rw [eq] at eq'
    cases eq'
  · rw [eq] at eq'
    cases eq'
    exact walk
  · rw [eq] at eq'
    cases eq'
    exact walk

/-- A complaint depends on what is seen ahead alone. -/
theorem fail_eq_of_peek {complaint : Complaint} (h : q.peek = p.peek) :
    (fail complaint : Work α) q = fail complaint p := by
  rw [fail, fail, peekOrEnd, peekOrEnd, h]

end

theorem atEnd_cases (p : Parser) : ∃ q, Moves p [] q ∧ p.atEnd = (p.unread.isEmpty, q) := by
  refine ⟨p.peek.2, .look rfl, ?_⟩
  show (p.peek.1.isNone, p.peek.2) = _
  rw [head?_unread]
  cases p.unread <;> rfl

end Parser

end ExprLang
