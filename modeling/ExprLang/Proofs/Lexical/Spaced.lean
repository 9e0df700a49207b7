import ExprLang.Proofs.Lexical.Diagnostics

/-! # Blanks between tokens

A token never needs to see past a blank: where it is read, it is read also if the text behind it is cut off anywhere and
a blank put there (`Lexes.insert`). Hence lexemes that tokens can have come back as they were when they are written out
with a blank or more between neighbours (`reading_layOut`). -/

namespace ExprLang.Lexical

/-- A gap that keeps apart what stands around it: a comment behind a slash would not. -/
structure Separator (piece : List Char) : Prop where
  gap : Gap piece
  filled : piece ≠ []
  plain : piece.head? ≠ some '/'

theorem Separator.head {piece : List Char} (h : Separator piece) : ∃ b rest, piece = b :: rest ∧ b ∈ blanks := by
  cases h.gap with
  | nil => exact absurd rfl h.filled
  | blank member => exact ⟨_, _, rfl, member⟩
  | comment => exact absurd rfl h.plain

theorem separator_blank : Separator [' '] where
  gap := .blank (by decide) .nil
  filled := List.cons_ne_nil _ _
  plain := by decide

/-- A kind and a lexeme that a token of the kind can have. -/
inductive WellFormed : Kind → List Char → Prop
  | symbol {c : Char} {kind : Kind} (h : (c, kind) ∈ symbols) : WellFormed kind [c]
  | withEqual {c : Char} {alone withEqual : Kind} (h : (c, alone, withEqual) ∈ operators) :
    WellFormed withEqual [c, '=']
  | alone {c : Char} {alone withEqual : Kind} (h : (c, alone, withEqual) ∈ operators) : WellFormed alone [c]
  | slash : WellFormed .slash ['/']
  | string {inner : List Char} (h : '"' ∉ inner) : WellFormed .string inner
  | number {lexeme : List Char} (h : Number lexeme) : WellFormed .number lexeme
  | keyword {lexeme : List Char} {kind : Kind} (h : (String.ofList lexeme, kind) ∈ Kind.keywords) :
    WellFormed kind lexeme
  | identifier {lexeme : List Char} (h : Word lexeme) (other : String.ofList lexeme ∉ Kind.keywords.map (·.1)) :
    WellFormed .identifier lexeme

theorem WellFormed.ne_illegal {kind : Kind} {lexeme : List Char} (h : WellFormed kind lexeme) : kind ≠ .illegal := by
  cases h with
  | symbol hm => exact symbol_ne_illegal hm
  | withEqual hm => exact (operator_of_mem hm).2.2.2
  | alone hm => exact (operator_of_mem hm).2.2.1
  | keyword hm => exact keyword_ne_illegal hm
  | slash | string | number | identifier => exact fun same => Kind.noConfusion same

/-! ### A blank behind a token -/

section

variable {b : Char} {front behind rest : List Char}

theorem head_insert (behind : List Char) {c : Char} (h : (front ++ b :: rest).head? = some c) :
    c = b ∨ (front ++ behind).head? = some c := by
  cases front with
  | nil => exact .inl (Option.some.inj h).symm
  | cons => exact .inr h

theorem head_insert_ne {c : Char} (h : (front ++ behind).head? ≠ some c) (other : b ≠ c) :
    (front ++ b :: rest).head? ≠ some c := by
  intro head
  rcases head_insert behind head with same | head
  · exact other same.symm
  · exact h head

theorem Ends.insert {p : Char → Bool} (h : Ends p (front ++ behind)) (blank : p b = false) :
    Ends p (front ++ b :: rest) := by
  intro c head
  rcases head_insert behind head with rfl | head
  · exact blank
  · exact h c head

theorem PointAhead.of_insert (h : PointAhead (front ++ b :: rest)) (point : b ≠ '.') (digit : b.isDigit = false) :
    PointAhead (front ++ behind) := by
  obtain ⟨d, more, eq, found⟩ := h
  match front with
  | [] =>
    obtain ⟨same, -⟩ := List.cons.inj eq
    exact absurd same point
  | [first] =>
    obtain ⟨-, second⟩ := List.cons.inj eq
    obtain ⟨rfl, -⟩ := List.cons.inj second
    rw [digit] at found
    cases found
  | first :: second :: front =>
    obtain ⟨rfl, tail⟩ := List.cons.inj eq
    obtain ⟨rfl, -⟩ := List.cons.inj tail
    exact ⟨second, front ++ behind, rfl, found⟩

theorem blank_class (h : b ∈ blanks) : b.isDigit = false ∧ Text.isLetter b = false ∧ b ≠ '.' ∧ b ≠ '=' ∧ b ≠ '/' := by
  simp only [blanks, List.mem_cons, List.not_mem_nil, or_false] at h
  rcases h with rfl | rfl | rfl | rfl <;> decide

theorem Longest.number_insert {piece : List Char} (h : Longest Number piece (front ++ behind)) (blank : b ∈ blanks) :
    Longest Number piece (front ++ b :: rest) := by
  obtain ⟨digit, -, point, -⟩ := blank_class blank
  obtain ⟨stop, ⟨digits, whole⟩ | ⟨digits, places, rfl, some_digits, some_places⟩⟩ := h.number_cases
  · exact longest_whole digits (stop.insert digit) fun ahead => whole (ahead.of_insert point digit)
  · exact longest_fraction some_digits some_places (stop.insert digit)

theorem Longest.word_insert {piece : List Char} (h : Longest Word piece (front ++ behind)) (blank : b ∈ blanks) :
    Longest Word piece (front ++ b :: rest) := by
  obtain ⟨word, stop⟩ := longest_word_iff.mp h
  exact longest_word_iff.mpr ⟨word, stop.insert (blank_class blank).2.1⟩

/-- A token other than an open string, which has the end of the text behind it, is not changed by a blank put anywhere
    behind it. -/
theorem Lexes.insert {kind : Kind} {lexeme piece : List Char} (h : Lexes kind lexeme piece (front ++ behind))
    (closed : kind = .illegal → lexeme.head? ≠ some '"') (blank : b ∈ blanks) :
    Lexes kind lexeme piece (front ++ b :: rest) := by
  obtain ⟨-, -, -, equals, slash⟩ := blank_class blank
  generalize eq : front ++ behind = after at h
  cases h with
  | symbol hm => exact .symbol hm
  | withEqual hm => exact .withEqual hm
  | alone hm stop => exact .alone hm (head_insert_ne (eq ▸ stop) equals)
  | slash stop => exact .slash (head_insert_ne (eq ▸ stop) slash)
  | string inside => exact .string inside
  | unterminated => exact absurd rfl (closed rfl)
  | number longest => exact .number ((eq ▸ longest).number_insert blank)
  | keyword longest found => exact .keyword ((eq ▸ longest).word_insert blank) found
  | identifier longest other => exact .identifier ((eq ▸ longest).word_insert blank) other
  | stray other => exact .stray other

end

/-! ### Tokens written out -/

theorem keyword_word {word : String} {kind : Kind} (h : (word, kind) ∈ Kind.keywords) : Word word.toList := by
  have table : ∀ entry ∈ Kind.keywords, entry.1.toList ≠ [] ∧ entry.1.toList.all Text.isLetter = true := by decide
  obtain ⟨some, letters⟩ := table _ h
  exact ⟨some, List.all_eq_true.mp letters⟩

/-- At the end of a text a token stands with its lexeme. -/
theorem WellFormed.lexes_last {token : Token} (h : WellFormed token.kind token.lexeme.toList) :
    Lexes token.kind token.lexeme.toList (source token) [] := by
  suffices lexes : ∃ piece, Lexes token.kind token.lexeme.toList piece [] by
    obtain ⟨piece, lexes⟩ := lexes
    have shown := lexes.source_eq token.line
    rw [String.ofList_toList] at shown
    exact shown ▸ lexes
  generalize token.kind = kind, token.lexeme.toList = lexeme at h
  cases h with
  | symbol hm => exact ⟨_, .symbol hm⟩
  | withEqual hm => exact ⟨_, .withEqual hm⟩
  | alone hm => exact ⟨_, .alone hm (by simp)⟩
  | slash => exact ⟨_, .slash (by simp)⟩
  | string inside => exact ⟨_, .string inside⟩
  | number form =>
    cases form with
    | whole digits =>
      refine ⟨_, .number (longest_whole digits ends_nil ?_)⟩
      rintro ⟨_, _, none, -⟩
      cases none
    | fraction digits places => exact ⟨_, .number (longest_fraction digits places ends_nil)⟩
  | keyword found =>
    have word := keyword_word found
    rw [String.toList_ofList] at word
    exact ⟨_, .keyword (longest_word_iff.mpr ⟨word, ends_nil⟩) found⟩
  | identifier word other => exact ⟨_, .identifier (longest_word_iff.mpr ⟨word, ends_nil⟩) other⟩

theorem WellFormed.lexes {token : Token} (h : WellFormed token.kind token.lexeme.toList) {after : List Char}
    (stop : ∀ c, after.head? = some c → c ∈ blanks) : Lexes token.kind token.lexeme.toList (source token) after := by
  cases after with
  | nil => exact h.lexes_last
  | cons b rest =>
    have last : Lexes token.kind token.lexeme.toList (source token) ([] ++ []) := h.lexes_last
    exact last.insert (fun illegal => absurd illegal h.ne_illegal) (stop b rfl)

/-- The sources of tokens, with a gap in front of each. -/
def layOut (entries : List (List Char × Token)) : List Char := entries.flatMap fun (gap, token) => gap ++ source token

/-- The tokens with the lines on which they stand if they are laid out from a line on. -/
def relined (line : Int) : List (List Char × Token) → List Token
  | [] => []
  | (gap, token) :: entries =>
    { token with line := line + gap.count '\n' } ::
      relined (line + gap.count '\n' + (source token).count '\n') entries

theorem layOut_cons (gap : List Char) (token : Token) (entries : List (List Char × Token)) :
    layOut ((gap, token) :: entries) = gap ++ source token ++ layOut entries := List.flatMap_cons

/-- Well-formed tokens with separators between them are read back from the text they make. -/
theorem reading_layOut {entries : List (List Char × Token)} :
    ∀ {line : Int} {gap : List Char} {token : Token}, Gap gap →
      (∀ entry ∈ (gap, token) :: entries, WellFormed entry.2.kind entry.2.lexeme.toList) →
      (∀ entry ∈ entries, Separator entry.1) →
      Reading line (layOut ((gap, token) :: entries)) (relined line ((gap, token) :: entries)) := by
  induction entries with
  | nil =>
    intro line gap token hgap wellFormed _
    have lexes := (wellFormed _ List.mem_cons_self).lexes_last
    have reading : Reading line (gap ++ source token ++ []) [_] := .token hgap lexes (.done (.closed .nil))
    rw [String.ofList_toList] at reading
    rw [layOut_cons]
    exact reading
  | cons entry entries ih =>
    obtain ⟨gap', token'⟩ := entry
    intro line gap token hgap wellFormed separated
    obtain ⟨here, behind⟩ := List.forall_mem_cons.mp wellFormed
    obtain ⟨first, others⟩ := List.forall_mem_cons.mp separated
    have rest : Reading (line + gap.count '\n' + (source token).count '\n') _ _ := ih first.gap behind others
    have stop : ∀ c, (layOut ((gap', token') :: entries)).head? = some c → c ∈ blanks := by
      obtain ⟨b, tail, rfl, blank⟩ := first.head
      intro c head
      obtain rfl : b = c := Option.some.inj head
      exact blank
    have reading := Reading.token hgap (here.lexes stop) rest
    rw [String.ofList_toList] at reading
    rw [layOut_cons]
    exact reading

/-! ### Their text scanned -/

/-- Only the lines of tokens depend on what is written in front of them. -/
theorem relined_map {α : Type} (f : Token → α) (same : ∀ token line, f { token with line } = f token) (line : Int)
    (entries : List (List Char × Token)) : (relined line entries).map f = entries.map (f ·.2) := by
  induction entries generalizing line with
  | nil => rfl
  | cons entry entries ih => rw [relined, List.map_cons, List.map_cons, ih, same]

theorem relined_append (gap : List Char) (token : Token) (behind : List (List Char × Token)) :
    ∀ (line : Int) (front : List (List Char × Token)), (relined line (front ++ (gap, token) :: behind))[front.length]? =
      some { token with line := line + (layOut front ++ gap).count '\n' }
  | line, [] => rfl
  | line, (gap', token') :: front => by
    have rest := relined_append gap token behind (line + gap'.count '\n' + (source token').count '\n') front
    rw [List.cons_append, relined, List.length_cons, List.getElem?_cons_succ, rest, layOut_cons]
    simp [Int.add_assoc]

theorem tokenize_layOut {entries : List (List Char × Token)}
    (wellFormed : ∀ entry ∈ entries, WellFormed entry.2.kind entry.2.lexeme.toList)
    (first : ∀ entry, entries.head? = some entry → Gap entry.1)
    (separated : ∀ entry ∈ entries.tail, Separator entry.1) :
    Scanner.tokenize (String.ofList (layOut entries)) = (relined 1 entries, []) := by
  have reading : Reading 1 (String.ofList (layOut entries)).toList (relined 1 entries) := by
    rw [String.toList_ofList]
    cases entries with
    | nil => exact .done (.closed .nil)
    | cons entry entries => exact reading_layOut (first entry rfl) wellFormed separated
  have tokens : (Scanner.tokenize (String.ofList (layOut entries))).1 = relined 1 entries :=
    Scanner.drain_of_reading reading rfl rfl
  refine Prod.ext tokens ?_
  -- No kind is the illegal one, so no token is reported.
  rw [Scanner.tokenize_snd, tokens, List.flatMap_eq_nil_iff]
  intro token member
  have kind : token.kind ∈ (relined 1 entries).map (·.kind) := List.mem_map_of_mem member
  rw [relined_map (·.kind) fun _ _ => rfl] at kind
  obtain ⟨entry, here, same⟩ := List.mem_map.mp kind
  exact faults_of_ne (same ▸ (wellFormed entry here).ne_illegal)

/-- Tokens with what is written in front of each: nothing in front of the first, then the separators. -/
def separatedBy (separators : List (List Char)) (tokens : List Token) : List (List Char × Token) :=
  ([] :: separators).zip tokens

/-- The sources of tokens, joined by separators. -/
def joined (separators : List (List Char)) (tokens : List Token) : String :=
  String.ofList (layOut (separatedBy separators tokens))

/-- Scanning undoes writing tokens out: they come back in order, nothing is reported, and each stands on the line one
    more than the newlines written in front of it. -/
theorem tokenize_joined {separators : List (List Char)} {tokens : List Token}
    (wellFormed : ∀ token ∈ tokens, WellFormed token.kind token.lexeme.toList)
    (separated : ∀ separator ∈ separators, Separator separator) (enough : tokens.length ≤ separators.length + 1) :
    (Scanner.tokenize (joined separators tokens)).1.map (fun token => (token.kind, token.lexeme)) =
        tokens.map (fun token => (token.kind, token.lexeme)) ∧
      (Scanner.tokenize (joined separators tokens)).2 = [] ∧
      ∀ front gap token behind, separatedBy separators tokens = front ++ (gap, token) :: behind →
        (Scanner.tokenize (joined separators tokens)).1[front.length]? =
          some { token with line := 1 + (layOut front ++ gap).count '\n' } := by
  have entries : ∀ entry ∈ separatedBy separators tokens, WellFormed entry.2.kind entry.2.lexeme.toList :=
    fun entry member => wellFormed entry.2 (List.of_mem_zip member).2
  have first : ∀ entry, (separatedBy separators tokens).head? = some entry → Gap entry.1 := by
    intro entry head
    cases tokens with
    | nil => cases head
    | cons => cases head; exact .nil
  have others : ∀ entry ∈ (separatedBy separators tokens).tail, Separator entry.1 := by
    intro entry member
    cases tokens with
    | nil => cases member
    | cons => exact separated entry.1 (List.of_mem_zip member).1
  have shown : (separatedBy separators tokens).map (·.2) = tokens := List.map_snd_zip enough
  rw [joined, tokenize_layOut entries first others]
  refine ⟨?_, rfl, fun front gap token behind eq => ?_⟩
  · have pairs := congrArg (List.map fun token => (token.kind, token.lexeme)) shown
    rw [List.map_map] at pairs
    exact (relined_map _ (fun _ _ => rfl) 1 _).trans pairs
  · rw [eq]
    exact relined_append gap token behind 1 front

theorem tokenize_joined_comment : (Scanner.tokenize "\"//\n\\\"\n// one\n\t1.5 /").2 = [] ∧
    (Scanner.tokenize "\"//\n\\\"\n// one\n\t1.5 /").1[1]? = some ⟨.number, "1.5", 4⟩ := by
  have body : '\n' ∉ " one".toList := by decide
  have comment : Separator "\n// one\n\t".toList :=
    ⟨.blank (by decide) (.comment body (.blank (by decide) .nil)), by decide, by decide⟩
  have inside : '"' ∉ "//\n\\".toList := by decide
  have one : Digits ['1'] := ⟨List.cons_ne_nil _ _, List.forall_mem_singleton.mpr rfl⟩
  have five : Digits ['5'] := ⟨List.cons_ne_nil _ _, List.forall_mem_singleton.mpr rfl⟩
  have number : Number "1.5".toList := .fraction one five
  have wellFormed : ∀ token ∈ [⟨.string, "//\n\\", 0⟩, ⟨.number, "1.5", 0⟩, (⟨.slash, "/", 0⟩ : Token)],
      WellFormed token.kind token.lexeme.toList :=
    List.forall_mem_cons.mpr ⟨.string inside, List.forall_mem_cons.mpr ⟨.number number,
      List.forall_mem_singleton.mpr .slash⟩⟩
  have separated : ∀ separator ∈ ["\n// one\n\t".toList, [' ']], Separator separator :=
    List.forall_mem_cons.mpr ⟨comment, List.forall_mem_singleton.mpr separator_blank⟩
  obtain ⟨-, clean, lines⟩ := tokenize_joined wellFormed separated (by decide)
  exact ⟨clean, lines [_] _ _ [_] rfl⟩

end ExprLang.Lexical
