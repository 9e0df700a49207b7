import ExprLang.Proofs.Parser.Attempts
import ExprLang.Proofs.Syntax.Chunks
import ExprLang.Proofs.Syntax.Sentence

/-! # What the parser makes of a whole text

A statement is read from the front of a chunk. If the chunk is an expression its tree is returned and the chunk is used
up; otherwise the error stands where the grammar's expression fails or becomes too deep, and recovering leaves either
what is behind the chunk or a rest of it that begins with a keyword. In both cases what is left is a text again, one
with fewer tokens, so the results of all chunks follow by induction over the rounds (`Rounds.reads`). This holds as long
as the room never ends inside a token; where it does, an error is recorded that names the depth
(`intact_of_shallow`). -/

namespace ExprLang

open ExprLang.Parser Syntax

/-! ### Dropping a statement -/

namespace Parser

/-- The tokens from the next keyword that opens a statement, or else behind the next semicolon. -/
def behindStatement : List Token → List Token
  | [] => []
  | token :: tokens =>
    if token.kind ∈ Kind.statementOpeners then token :: tokens
    else if token.kind = .semicolon then tokens
    else behindStatement tokens

/-- The tokens left when the first one was wrong. -/
def behindFailure : List Token → List Token
  | [] => []
  | token :: tokens => if token.kind = .semicolon then tokens else behindStatement tokens

theorem skipStatement_moves (p : Parser) : ∃ used, Moves p used p.skipStatement ∧ p.skipStatement.unread =
    if p.current.kind = .semicolon then p.unread else behindStatement p.unread := by
  fun_induction skipStatement p with
  | case1 p q next =>
    have look := Moves.look next
    refine ⟨[], look, ?_⟩
    have same := look.unread_same
    rw [← same, unread_of_peek_none next]
    split <;> rfl
  | case2 p token q next stop =>
    have look := Moves.look next
    refine ⟨[], look, ?_⟩
    have same := look.unread_same
    have current : q.current = p.current := look.current_eq
    rw [current] at stop
    rw [← same]
    split
    · rfl
    · next open_ =>
      rcases stop with closed | opens
      · exact absurd closed open_
      · rw [unread_shift next, behindStatement, if_pos opens]
  | case3 p token q next stop lt ih =>
    obtain ⟨used, moves, behind⟩ := ih
    have current : q.current = p.current := (Moves.look next).current_eq
    rw [current, not_or] at stop
    refine ⟨token :: used, .shift next moves, ?_⟩
    rw [behind, if_neg stop.1, unread_shift next, behindStatement, if_neg stop.2]
    rfl

theorem synchronize_moves (p : Parser) : ∃ used, Moves p used p.synchronize ∧ (used = [] → p.unread = []) ∧
    p.synchronize.unread = behindFailure p.unread := by
  unfold synchronize
  split
  · next q next =>
    have look := Moves.look next
    have ended := unread_of_peek_none next
    have same := look.unread_same
    refine ⟨[], look, fun _ => ended, ?_⟩
    rw [← same, ended]
    rfl
  · next token q next =>
    obtain ⟨used, moves, behind⟩ := skipStatement_moves (q.shift token)
    refine ⟨token :: used, .shift next moves, fun empty => absurd empty (List.cons_ne_nil _ _), ?_⟩
    rw [behind, unread_shift next]
    rfl

end Parser

namespace Syntax

variable {ending stop : Token} {tokens inside after : List Token}

/-- Dropping the rest of a chunk ends behind it or in front of its next keyword. -/
theorem Cut.behindStatement_cases (h : Cut ending tokens ⟨inside, stop⟩ after) :
    (followUps inside = [] ∧ behindStatement tokens = after) ∨
      ∃ opener more, opener.kind ∈ Kind.statementOpeners ∧ followUps inside = followUps (opener :: more) ∧
        Cut ending (behindStatement tokens) ⟨opener :: more, stop⟩ after := by
  induction tokens generalizing inside with
  | nil =>
    obtain ⟨eq, rfl⟩ := h.of_nil
    cases eq
    exact .inl ⟨rfl, rfl⟩
  | cons token tokens ih =>
    by_cases closes : token.kind = .semicolon
    · have closed : token.kind ∉ Kind.statementOpeners := by rw [closes]; decide
      obtain ⟨eq, rfl⟩ := h.first closes
      cases eq
      refine .inl ⟨rfl, ?_⟩
      rw [behindStatement, if_neg closed, if_pos closes]
    · obtain ⟨rest, _, eq, behind⟩ := h.uncons closes
      cases eq
      by_cases opens : token.kind ∈ Kind.statementOpeners
      · refine .inr ⟨token, rest, opens, rfl, ?_⟩
        rw [behindStatement, if_pos opens]
        exact h
      · rw [behindStatement, if_neg opens, if_neg closes, followUps_cons_other opens]
        exact ih behind

theorem Cut.stop_closed (h : Cut ending tokens ⟨inside, stop⟩ after) (ends : ending.kind = .endOfInput) :
    stop.kind ∉ Kind.statementOpeners := by
  cases h with
  | semicolon _ closes => rw [closes]; decide
  | last => rw [ends]; decide

/-- A chunk whose next token is wrong: which one that is, and what is left when it and the rest are dropped. -/
theorem Cut.behindFailure_cases (h : Cut ending tokens ⟨inside, stop⟩ after) (ends : ending.kind = .endOfInput) :
    ∃ behind, inside ++ [stop] = tokens.headD ending :: behind ∧
      ((followUps behind = [] ∧ behindFailure tokens = after) ∨
        ∃ opener more, opener.kind ∈ Kind.statementOpeners ∧ followUps behind = followUps (opener :: more) ∧
          Cut ending (behindFailure tokens) ⟨opener :: more, stop⟩ after) := by
  have closed := h.stop_closed ends
  cases tokens with
  | nil =>
    obtain ⟨eq, rfl⟩ := h.of_nil
    cases eq
    exact ⟨[], rfl, .inl ⟨rfl, rfl⟩⟩
  | cons token tokens =>
    by_cases closes : token.kind = .semicolon
    · obtain ⟨eq, rfl⟩ := h.first closes
      cases eq
      exact ⟨[], rfl, .inl ⟨rfl, if_pos closes⟩⟩
    · obtain ⟨rest, _, eq, behind⟩ := h.uncons closes
      cases eq
      refine ⟨rest ++ [stop], rfl, ?_⟩
      rw [behindFailure, if_neg closes, followUps_append, followUps_cons_other closed, followUps_nil, List.append_nil]
      exact behind.behindStatement_cases

end Syntax

/-! ### One statement -/

namespace Parser

variable {stack : Stack} {p q : Parser} {ending stop : Token} {inside after : List Token}

/-- A statement that is read is all of its chunk. -/
theorem Stated.of_ok {tree : Expr} (h : Stated stack p (.ok tree q)) (cuts : Cut ending p.unread ⟨inside, stop⟩ after) :
    Derives .equality inside tree ∧ tree.frames stack + stack.needs.gap ≤ stack.room ∧ (∃ used, Moves p used q) ∧
      q.unread = after := by
  cases h with
  | @read _ used last _ moves derives fits ends =>
    rw [moves.unread_eq, List.append_assoc] at cuts
    obtain ⟨remaining, rfl, left⟩ := cuts.split_kinds derives.mem_kinds
    rcases ends with ⟨rfl, none⟩ | ⟨stop', rfl, closes⟩
    · rw [none] at left
      obtain ⟨eq, rfl⟩ := left.of_nil
      cases eq
      exact ⟨by rwa [List.append_nil], fits, ⟨_, moves⟩, none⟩
    · obtain ⟨eq, rfl⟩ := left.first closes
      cases eq
      exact ⟨by rwa [List.append_nil], fits, ⟨_, moves⟩, rfl⟩

theorem ahead_cases (p : Parser) :
    p.ahead = some p.upcoming.kind ∨ p.ahead = none ∧ p.upcoming.kind = .endOfInput := by
  rw [ahead, upcoming]
  cases p.unread with
  | nil => exact .inr ⟨rfl, rfl⟩
  | cons => exact .inl rfl

theorem stuck_upcoming {level : Level} {used : List Token} {complaint : Complaint}
    (h : Stuck level used p.ahead complaint) : Stuck level used (some p.upcoming.kind) complaint := by
  rcases p.ahead_cases with next | ⟨next, ends⟩
  · exact next ▸ h
  · exact ends ▸ h.atEnd next

/-- Why a chunk with these tokens is no statement, when the tokens in front of the offending one have been used. -/
inductive Unfit (stack : Stack) (tokens front : List Token) (error : SyntaxError) : Prop
  | failed (none : ∀ tree, ¬Derives .equality tokens tree) (fails : Fails front error.token error.complaint)
  | tooDeep {before : List Token} {opener : Token} (eq : front = before ++ [opener])
    (deep : TooDeep stack .equality stack.room before opener) (named : error.complaint = .nestedTooDeeply)

/-- A statement that is given up is so where its chunk fails or becomes too deep. -/
theorem Stated.of_error {error : SyntaxError} (h : Stated stack p (.error (.syntaxError error) q))
    (intact : ¬Tears (expression stack).run p) (cuts : Cut ending p.unread ⟨inside, stop⟩ after) :
    ∃ front remaining, Moves p front q ∧ error.token = q.upcoming ∧ inside = front ++ remaining ∧
      Cut ending q.unread ⟨remaining, stop⟩ after ∧ Unfit stack inside front error := by
  cases h with
  | @interrupted _ used tokens token tree moves derives next other stops =>
    have named : token = q.upcoming := by rw [upcoming, next]; rfl
    have fails := derives.fails stops
    rw [moves.unread_eq] at cuts
    obtain ⟨remaining, rfl, left⟩ := cuts.split_kinds derives.mem_kinds
    obtain ⟨more, _, eq, -⟩ := (next ▸ left).uncons other
    cases eq
    refine ⟨used, _, moves, named, rfl, left, .failed (fun whole derives' => ?_) fails⟩
    exact (fails.cases .standard).2.1 ⟨more, whole, by rwa [List.append_assoc]⟩
  | refused tried =>
    cases tried with
    | @stuck _ used complaint moves stuck =>
      have fails := (stuck_upcoming stuck).fails
      rw [moves.unread_eq] at cuts
      obtain ⟨remaining, rfl, left⟩ := cuts.split_kinds fails.begins.mem_kinds
      refine ⟨used, remaining, moves, rfl, rfl, left, .failed (fun whole derives => ?_) fails⟩
      cases remaining with
      | nil =>
        rw [List.append_nil] at derives
        exact stuck.not_sentence ⟨used, whole, derives, rfl⟩
      | cons token remaining =>
        obtain ⟨tail, eq, -⟩ := left.tail
        have next : q.upcoming = token := by rw [upcoming, eq]; rfl
        exact (fails.cases .standard).2.1 ⟨remaining, whole, by rwa [next, List.append_assoc]⟩
    | @tooDeep _ before opener moves deep =>
      rw [moves.unread_eq] at cuts
      obtain ⟨remaining, rfl, left⟩ := cuts.split_kinds deep.begins.mem_kinds
      exact ⟨_, remaining, moves, rfl, rfl, left, .tooDeep rfl deep rfl⟩
    | torn _ _ _ _ tears => exact absurd tears intact

/-! ### One round after another -/

theorem line_ne_zero {text : String} {token : Token} (h : token ∈ (Scanner.tokenize text).1) : token.line ≠ 0 := by
  have := (Scanner.reading_tokenize text).line_le token h
  omega

/-- At the end the complaint names the end of the text. -/
theorem Moves.upcoming_eq {text : String} {front : List Token} (moves : Moves p front q)
    (some : p.unread ≠ []) (suffix : p.unread <:+ (Scanner.tokenize text).1) :
    q.upcoming = q.unread.headD (endOf (Scanner.tokenize text).1) := by
  have eq := moves.unread_eq
  have current := moves.current_eq
  rw [upcoming]
  cases ended : q.unread with
  | cons => rfl
  | nil =>
    rw [ended, List.append_nil] at eq
    obtain ⟨before, whole⟩ := suffix
    rcases List.eq_nil_or_concat front with empty | ⟨init, last, rfl⟩
    · exact absurd (eq.trans empty) some
    · rw [List.concat_eq_append] at eq current
      have member : last ∈ (Scanner.tokenize text).1 := by simp [← whole, eq]
      have line := line_ne_zero member
      have here : q.current = last := by simpa using current
      simp [endOf, ← whole, eq, here, line]

/-- Recovering from an error adds that error to those before. -/
theorem errors_recovered {used : List Token} (moves : Moves p used q) (error : SyntaxError) :
    (q.record error).synchronize.errors.toList = p.errors.toList ++ [error] := by
  obtain ⟨dropped, more, -⟩ := (q.record error).synchronize_moves
  rw [more.errors_eq, ← moves.errors_eq]
  exact Array.toList_push

theorem unread_ne_nil_of_peek {token : Token} (next : p.peek = (some token, q)) : p.unread ≠ [] := by
  rw [unread_shift next]
  exact List.cons_ne_nil _ _

/-- Where a round begins inside a chunk, it uses the chunk, or fails in it and leaves what begins with a later keyword
    of it; then all keywords from there on are still to fail. -/
theorem Round.reads {text : String} {tree : Option Expr} (h : Round stack p tree q) (intact : Intact stack p)
    (suffix : p.unread <:+ (Scanner.tokenize text).1)
    (cuts : Cut (endOf (Scanner.tokenize text).1) p.unread ⟨inside, stop⟩ after) :
    ∃ errors, q.errors.toList = p.errors.toList ++ errors ∧ q.unread <:+ p.unread ∧
      (Reads stack ⟨inside, stop⟩ tree.toList errors ∧ q.unread = after ∨
        ∃ opener more, opener.kind ∈ Kind.statementOpeners ∧
          Reads stack ⟨inside, stop⟩ tree.toList (errors ++ followUps (opener :: more)) ∧
          Cut (endOf (Scanner.tokenize text).1) q.unread ⟨opener :: more, stop⟩ after) := by
  have readable := readable_of_suffix suffix
  cases h with
  | @separator mid token next closes =>
    have moves := Moves.one next
    rw [moves.unread_eq] at cuts
    obtain ⟨eq, rfl⟩ := cuts.first closes
    cases eq
    exact ⟨[], by rw [moves.errors_eq, List.append_nil], ⟨_, moves.unread_eq.symm⟩, .inl ⟨.empty, rfl⟩⟩
  | @statement start _ token _ next other ran =>
    have look := Moves.look next
    have filled := unread_ne_nil_of_peek next
    have unread := look.unread_same
    rw [unread_shift next] at cuts
    obtain ⟨others, _, eq, -⟩ := cuts.uncons other
    cases eq
    rw [← unread_shift next, unread] at cuts
    rw [unread] at suffix filled ⊢
    rcases recovering_cases stack (look.readable readable) with ⟨tree, r, stated, eq⟩ | ⟨error, mid, stated, eq⟩
    · rw [ran] at eq
      cases eq
      obtain ⟨derives, fits, ⟨used, moves⟩, behind⟩ := stated.of_ok cuts
      refine ⟨[], ?_, ⟨used, moves.unread_eq.symm⟩, .inl ⟨.tree derives fits, behind⟩⟩
      rw [moves.errors_eq, look.errors_eq, List.append_nil]
    · rw [ran] at eq
      cases eq
      obtain ⟨front, remaining, moves, named, split, left, unfit⟩ := stated.of_error (intact.here next other) cuts
      obtain ⟨behind, rest, cases⟩ := left.behindFailure_cases rfl
      rw [← moves.upcoming_eq filled suffix, ← named] at rest
      obtain ⟨used, more, -, dropped⟩ := (mid.record error).synchronize_moves
      have stands : token :: others ++ [stop] = front ++ error.token :: behind := by
        rw [split, List.append_assoc, rest]
      have failed : Reads stack ⟨token :: others, stop⟩ [] (error :: followUps behind) := by
        obtain ⟨offending, complaint⟩ := error
        cases unfit with
        | failed none fails => exact .failed (List.cons_ne_nil _ _) none stands fails
        | tooDeep eq deep named =>
          obtain rfl : complaint = .nestedTooDeeply := named
          exact .tooDeep (eq ▸ stands) deep
      refine ⟨[error], ?_, ?_, ?_⟩
      · rw [errors_recovered moves, look.errors_eq]
      · refine ⟨front ++ used, ?_⟩
        have through := more.unread_eq
        rw [List.append_assoc, ← through]
        exact moves.unread_eq.symm
      · rw [dropped]
        rcases cases with ⟨quiet, after_eq⟩ | ⟨opener, others, opens, same, cuts'⟩
        · rw [quiet] at failed
          exact .inl ⟨failed, after_eq⟩
        · rw [same] at failed
          exact .inr ⟨opener, others, opens, failed, cuts'⟩

/-- What the chunks behind a round give is what its own chunk has still to give and what all further chunks give. -/
theorem Round.reads_behind {text : String} {tree : Option Expr} {trees : List Expr} {errors' : List SyntaxError}
    (h : Round stack p tree q) (intact : Intact stack p) (suffix : p.unread <:+ (Scanner.tokenize text).1)
    (cuts : Cut (endOf (Scanner.tokenize text).1) p.unread ⟨inside, stop⟩ after)
    (rest : ReadsAll stack (cut (endOf (Scanner.tokenize text).1) q.unread) trees errors') :
    ∃ errors more further, q.errors.toList = p.errors.toList ++ errors ∧ errors' = more ++ further ∧
      Reads stack ⟨inside, stop⟩ tree.toList (errors ++ more) ∧
      ReadsAll stack (cut (endOf (Scanner.tokenize text).1) after) trees further := by
  obtain ⟨errors, recorded, -, ⟨result, rfl⟩ | ⟨opener, more, opens, result, cuts'⟩⟩ := h.reads intact suffix cuts
  · exact ⟨errors, [], errors', recorded, rfl, by rwa [List.append_nil], rest⟩
  · -- The rest of the chunk has been read as a chunk of its own, and failed at each of its keywords.
    rw [cuts'.cut_eq (cuts'.ne_nil (List.cons_ne_nil _ _))] at rest
    cases rest with
    | cons keyword rest =>
      obtain ⟨rfl, rfl⟩ := keyword.of_opener opens (cuts'.stop_closed rfl)
      exact ⟨errors, _, _, recorded, rfl, result, rest⟩

theorem Round.unread_ne_nil {tree : Option Expr} (h : Round stack p tree q) : p.unread ≠ [] := by
  cases h with
  | separator next | statement next => exact unread_ne_nil_of_peek next

theorem Round.suffix {text : String} {tree : Option Expr} (h : Round stack p tree q) (intact : Intact stack p)
    (suffix : p.unread <:+ (Scanner.tokenize text).1) : q.unread <:+ (Scanner.tokenize text).1 := by
  obtain ⟨⟨inside, stop⟩, after, cuts⟩ := exists_cut (endOf (Scanner.tokenize text).1) p.unread
  obtain ⟨-, -, behind, -⟩ := h.reads intact suffix cuts
  exact behind.trans suffix

/-- From every place of a text all chunks behind it are read, each as if it stood alone. -/
theorem Rounds.reads {text : String} {trees : List Expr} {last : Parser} (h : Rounds stack p trees last) :
    Intact stack p → p.unread <:+ (Scanner.tokenize text).1 → last.unread = [] → ∃ errors,
      last.errors.toList = p.errors.toList ++ errors ∧
        ReadsAll stack (cut (endOf (Scanner.tokenize text).1) p.unread) trees errors := by
  induction h with
  | refl p =>
    intro _ _ ended
    rw [ended]
    exact ⟨[], (List.append_nil _).symm, .nil⟩
  | @round p q last tree trees first _ ih =>
    intro intact suffix ended
    obtain ⟨errors', recorded', rest⟩ := ih (intact.behind first) (first.suffix intact suffix) ended
    obtain ⟨⟨inside, stop⟩, after, cuts⟩ := exists_cut (endOf (Scanner.tokenize text).1) p.unread
    obtain ⟨errors, more, further, recorded, rfl, result, rest⟩ := first.reads_behind intact suffix cuts rest
    refine ⟨errors ++ more ++ further, ?_, ?_⟩
    · rw [recorded', recorded, List.append_assoc, List.append_assoc]
    · rw [cuts.cut_eq first.unread_ne_nil]
      exact .cons result rest

/-! ### Whole texts -/

theorem Round.readable {tree : Option Expr} (h : Round stack p tree q) (readable : p.Readable) : q.Readable := by
  cases h with
  | separator next => exact (Moves.one next).readable readable
  | @statement start _ _ _ next _ ran =>
    have ahead := (Moves.look next).readable readable
    rcases recovering_cases stack ahead with ⟨tree, r, stated, eq⟩ | ⟨error, mid, stated, eq⟩
    · rw [ran] at eq
      cases eq
      exact stated.readable ahead
    · rw [ran] at eq
      cases eq
      obtain ⟨used, more, -⟩ := (mid.record error).synchronize_moves
      have left : (mid.record error).Readable := stated.readable ahead
      exact more.readable left

/-- A tree that comes of a round is that of an expression. -/
theorem Round.derives {tree : Option Expr} (h : Round stack p tree q) (readable : p.Readable) :
    ∀ found ∈ tree.toList, ∃ used, Derives .equality used found := by
  cases h with
  | separator => exact List.forall_mem_nil _
  | @statement start _ _ _ next _ ran =>
    rcases recovering_cases stack ((Moves.look next).readable readable) with ⟨tree, r, stated, eq⟩ | ⟨error, mid, -, eq⟩
    · rw [ran] at eq
      cases eq
      cases stated with
      | read _ derives => exact List.forall_mem_singleton.mpr ⟨_, derives⟩
    · rw [ran] at eq
      cases eq
      exact List.forall_mem_nil _

theorem Rounds.derives {trees : List Expr} (h : Rounds stack p trees q) :
    p.Readable → ∀ tree ∈ trees, ∃ used, Derives .equality used tree := by
  induction h with
  | refl => exact fun _ => List.forall_mem_nil _
  | round first _ ih =>
    intro readable
    exact List.forall_mem_append.mpr ⟨first.derives readable, ih (first.readable readable)⟩

/-- All of a text can be read. -/
theorem exists_parseAll (stack : Stack) {p : Parser} (readable : p.Readable) :
    ∃ trees q, parseAll stack p = .ok trees q := by
  fun_induction parseAll stack p with
  | case1 p q next => exact ⟨[], q, rfl⟩
  | case2 p token q next lt le closes ih => exact ih ((Moves.one next).readable readable)
  | case3 p token q next lt le other failure r ran =>
    rcases recovering_cases stack ((Moves.look next).readable readable) with ⟨_, _, -, eq⟩ | ⟨_, _, -, eq⟩
    · rw [ran] at eq
      cases eq
    · rw [ran] at eq
      cases eq
  | case4 p token q next lt le other tree r ran less failure last rest ih =>
    obtain ⟨trees, last', run⟩ := ih (Round.readable (.statement next other ran) readable)
    rw [rest] at run
    cases run
  | case5 p token q next lt le other tree r ran less trees last => exact ⟨_, last, rfl⟩

/-- A round adds one tree or one error, or neither. -/
theorem Round.errors {tree : Option Expr} (h : Round stack p tree q) (readable : p.Readable) :
    ∃ errors, q.errors.toList = p.errors.toList ++ errors ∧ tree.toList.length + errors.length ≤ 1 := by
  cases h with
  | separator next => exact ⟨[], by rw [(Moves.one next).errors_eq, List.append_nil], Nat.zero_le 1⟩
  | @statement start _ _ _ next _ ran =>
    have look := Moves.look next
    rcases recovering_cases stack (look.readable readable) with ⟨tree, r, stated, eq⟩ | ⟨error, mid, stated, eq⟩
    · rw [ran] at eq
      cases eq
      have same : q.errors = start.errors := stated.errors_eq
      exact ⟨[], by rw [same, look.errors_eq, List.append_nil], Nat.le_refl 1⟩
    · rw [ran] at eq
      cases eq
      have same : mid.errors = start.errors := stated.errors_eq
      exact ⟨[error], by rw [errors_recovered (.refl mid), same, look.errors_eq], Nat.le_refl 1⟩

theorem Rounds.errors {trees : List Expr} (h : Rounds stack p trees q) :
    p.Readable → ∃ errors, q.errors.toList = p.errors.toList ++ errors := by
  induction h with
  | refl => exact fun _ => ⟨[], (List.append_nil _).symm⟩
  | round first _ ih =>
    intro readable
    obtain ⟨errors, recorded, -⟩ := first.errors readable
    obtain ⟨more, recorded'⟩ := ih (first.readable readable)
    exact ⟨errors ++ more, by rw [recorded', recorded, List.append_assoc]⟩

theorem Rounds.readable {trees : List Expr} (h : Rounds stack p trees q) : p.Readable → q.Readable := by
  induction h with
  | refl => exact id
  | round first _ ih => exact fun readable => ih (first.readable readable)

/-- Rounds to the end of a text go through every state that rounds lead to. -/
theorem Rounds.split {before : List Expr} {mid last : Parser} (h : Rounds stack p before mid) :
    ∀ {trees}, Rounds stack p trees last → last.unread = [] →
      ∃ rest, trees = before ++ rest ∧ Rounds stack mid rest last := by
  induction h with
  | refl => exact fun all _ => ⟨_, rfl, all⟩
  | round first _ ih =>
    intro trees all ended
    cases all with
    | refl => exact absurd ended first.unread_ne_nil
    | round first' rest =>
      obtain ⟨rfl, rfl⟩ := first.unique first'
      obtain ⟨others, rfl, behind⟩ := ih rest ended
      exact ⟨others, (List.append_assoc _ _ _).symm, behind⟩

/-- Where the room ends inside a token, an error is recorded that names the depth. -/
theorem intact_of_shallow {trees : List Expr} (readable : p.Readable) (run : parseAll stack p = .ok trees q)
    (shallow : Shallow q.errors.toList) : Intact stack p := by
  rintro start ⟨before, mid, token, rounds, next, other⟩ tears
  obtain ⟨last, all, ended⟩ := parseAll_eq_ok_iff.mp run
  obtain ⟨rest, -, behind⟩ := rounds.split all (unread_of_peek_none ended)
  obtain ⟨error, r, deep, failed⟩ := bounded_of_tears tears
  have given_up : recovering (statement stack) start = .ok none (r.record error).synchronize := by
    rw [recovering, statement, bind_of_error failed]
  have first : Round stack mid none _ := .statement next other given_up
  cases behind with
  | refl =>
    rw [ended] at next
    cases next
  | round first' rest =>
    obtain ⟨-, rfl⟩ := first.unique first'
    obtain ⟨errors, recorded⟩ := rest.errors (first.readable (rounds.readable readable))
    have member : error ∈ q.errors.toList := by
      rw [(Moves.look ended).errors_eq, recorded, errors_recovered (.refl r)]
      simp
    exact shallow error member deep

/-- A text gives what its chunks read. -/
theorem parseAll_reads {text : String} {trees : List Expr} (run : parseAll stack (ofText text) = .ok trees q)
    (intact : Intact stack (ofText text)) :
    ReadsAll stack (chunksOf (Scanner.tokenize text).1) trees q.errors.toList := by
  have start : (ofText text).unread <:+ (Scanner.tokenize text).1 := unread_ofText text ▸ List.suffix_refl _
  obtain ⟨last, rounds, ended⟩ := parseAll_eq_ok_iff.mp run
  obtain ⟨errors, recorded, reads⟩ := rounds.reads intact start (unread_of_peek_none ended)
  obtain rfl : q.errors.toList = errors := by
    rw [(Moves.look ended).errors_eq, recorded]
    rfl
  exact reads

theorem readsAll_of_parseAll {text : String} {trees : List Expr} (run : parseAll stack (ofText text) = .ok trees q)
    (shallow : Shallow q.errors.toList) :
    ReadsAll stack (chunksOf (Scanner.tokenize text).1) trees q.errors.toList :=
  parseAll_reads run (intact_of_shallow (.of_fresh rfl) run shallow)

/-- A chunk of a text is an expression in one way at most. -/
theorem chunk_unique {text : String} {chunk : Chunk} (h : chunk ∈ chunksOf (Scanner.tokenize text).1)
    (tree tree' : Expr) (derives : Derives .equality chunk.tokens tree)
    (derives' : Derives .equality chunk.tokens tree') : tree = tree' := by
  obtain ⟨rest, after, suffix, cuts⟩ := exists_cut_of_mem _ h
  obtain ⟨p, ahead⟩ := exists_unread suffix
  obtain ⟨tail, eq, stops, -⟩ := cuts.tail
  rw [← ahead] at eq
  exact (Splits.unique ⟨eq, derives, stops⟩ ⟨eq, derives', stops⟩).2.1

/-- A text as a whole gives the trees and the errors of its chunks, in their order, and nothing else, if the room never
    ends inside a token. Where no chunk is too deep the grammar alone determines them. -/
theorem parseAll_ofText {text : String} (intact : Intact stack (ofText text)) :
    ∃ trees errors q, parseAll stack (ofText text) = .ok trees q ∧ q.errors.toList = errors ∧
      ReadsAll stack (chunksOf (Scanner.tokenize text).1) trees errors ∧
      ∀ trees' errors', ReadsAll stack (chunksOf (Scanner.tokenize text).1) trees' errors' →
        Shallow errors → Shallow errors' → trees' = trees ∧ errors' = errors := by
  obtain ⟨trees, q, run⟩ := exists_parseAll stack (p := ofText text) (.of_fresh rfl)
  have reads := parseAll_reads run intact
  refine ⟨trees, _, q, run, rfl, reads, fun trees' errors' reads' shallow shallow' => ?_⟩
  exact reads'.unique (fun _ member => chunk_unique member) reads shallow' shallow

/-- What has been read of a text, and the errors. -/
def outcome {α : Type} (work : Work α) (text : String) : Option (α × List SyntaxError) :=
  match work (ofText text) with
  | .ok a q => some (a, q.errors.toList)
  | .error _ _ => none

theorem parseAll_ofText_interrupted : Intact .standard (ofText "1 +; - 2; 3 let") ∧ ∃ trees errors,
    ReadsAll .standard (chunksOf (Scanner.tokenize "1 +; - 2; 3 let").1) trees errors ∧
      trees = [.unary ⟨.minus, "-", 1⟩ (.literal (.number (.ofDecimal ⟨2, 0⟩)))] ∧
      errors = [⟨⟨.semicolon, ";", 1⟩, .expectExpression⟩, ⟨⟨.letWord, "let", 1⟩, .expectSemicolon⟩] := by
  have seen : outcome (parseAll .standard) "1 +; - 2; 3 let" =
      some ([.unary ⟨.minus, "-", 1⟩ (.literal (.number (.ofDecimal ⟨2, 0⟩)))],
        [⟨⟨.semicolon, ";", 1⟩, .expectExpression⟩, ⟨⟨.letWord, "let", 1⟩, .expectSemicolon⟩]) := by decide +kernel
  have readable : (ofText "1 +; - 2; 3 let").Readable := .of_fresh rfl
  obtain ⟨trees, q, run⟩ := exists_parseAll .standard readable
  rw [outcome, run] at seen
  obtain ⟨rfl, errors⟩ := Prod.mk.inj (Option.some.inj seen)
  have intact : Intact .standard (ofText "1 +; - 2; 3 let") :=
    intact_of_shallow readable run (by rw [errors]; decide)
  obtain ⟨trees, errors', q', run', recorded, reads, -⟩ := parseAll_ofText intact
  rw [run] at run'
  cases run'
  exact ⟨intact, _, errors', reads, rfl, recorded ▸ errors⟩

end Parser

end ExprLang
