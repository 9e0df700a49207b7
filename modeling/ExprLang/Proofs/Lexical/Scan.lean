import ExprLang.Proofs.Lexical.Cases

/-! # One token scanned

Whatever gap and whatever token the grammar finds in front of a text, the scanner passes over that gap and returns that
token: `Scanner.next_eq` gives the token and every field of the scanner behind it. Where the text is a gap to its end
there is no token (`Scanner.next_eq_none`). By `Lexical.lexes_cases` one of the two holds of every text, so these say
all that one call of the scanner can do. -/

namespace ExprLang

open Lexical

/-- What the scanner reports of a token: an illegal one that begins with a quote is an open string. -/
def Lexical.faults (token : Token) : List Diagnostic :=
  if token.kind = .illegal then
    match token.lexeme.toList with
    | [] => []
    | c :: _ => [⟨token.line, if c = '"' then .unterminatedString else .unexpectedCharacter c⟩]
  else []

theorem Lexical.faults_of_ne {token : Token} (h : token.kind ≠ .illegal) : faults token = [] := if_neg h

namespace Scanner

/-- The scanner that has read over a piece of the text. -/
def readOver (s : Scanner) (piece after : List Char) : Scanner :=
  { s with
    current := s.current + piece.length
    line := s.line + piece.count '\n'
    taken := s.taken ++ piece
    rest := after }

/-- The scanner that has reported what is wrong with a token. -/
def reporting (s : Scanner) (token : Token) : Scanner :=
  { s with diagnostics := s.diagnostics ++ (faults token).toArray }

theorem readOver_nil {s : Scanner} {after : List Char} (h : s.rest = after) : s.readOver [] after = s := by
  cases s
  simp_all [readOver]

theorem reporting_of_ne {s : Scanner} {token : Token} (h : token.kind ≠ .illegal) : s.reporting token = s := by
  simp [reporting, faults_of_ne h]

theorem pass_eq {s : Scanner} {piece after : List Char} {n : Nat} (h : s.rest = piece ++ after)
    (len : n = piece.length) :
    s.pass n = s.readOver piece after := by
  subst len
  simp [pass, readOver, h]

/-! ### Gaps -/

theorem gapLength_comment {body : List Char} (h : '\n' ∉ body) (rest : List Char) :
    gapLength true (body ++ '\n' :: rest) = body.length + 1 + gapLength false rest := by
  induction body with
  | nil =>
    simp [gapLength]
    omega
  | cons c body ih =>
    simp only [List.mem_cons, not_or] at h
    have hc : c ≠ '\n' := fun e => h.1 e.symm
    simp [gapLength, hc, ih h.2]
    omega

theorem gapLength_lastComment {body : List Char} (h : '\n' ∉ body) : gapLength true body = body.length := by
  induction body with
  | nil => rfl
  | cons c body ih =>
    simp only [List.mem_cons, not_or] at h
    have hc : c ≠ '\n' := fun e => h.1 e.symm
    simp [gapLength, hc, ih h.2]

theorem gapLength_slashes (rest : List Char) :
    gapLength false ('/' :: '/' :: rest) = gapLength true rest + 2 := by
  simp [gapLength]

theorem gapLength_gap {gap : List Char} (h : Gap gap) (rest : List Char) :
    gapLength false (gap ++ rest) = gap.length + gapLength false rest := by
  induction h with
  | nil => simp
  | @blank c gap hc _ ih =>
    have slash : c ≠ '/' := by
      rintro rfl
      revert hc
      decide
    have member : c ∈ [' ', '\t', '\r', '\n'] := hc
    simp only [List.cons_append, gapLength, slash, member, Bool.false_eq_true, false_and, ↓reduceIte, ih,
      List.length_cons]
    omega
  | @comment body gap line _ ih =>
    have shape : '/' :: '/' :: body ++ '\n' :: gap ++ rest = '/' :: '/' :: (body ++ '\n' :: (gap ++ rest)) := by simp
    rw [shape, gapLength_slashes, gapLength_comment line, ih]
    simp only [List.length_append, List.length_cons]
    omega

theorem gapLength_final {gap : List Char} (h : FinalGap gap) : gapLength false gap = gap.length := by
  cases h with
  | closed g => simpa [gapLength] using gapLength_gap g []
  | openComment g line =>
    rw [gapLength_gap g, gapLength_slashes, gapLength_lastComment line]
    simp only [List.length_append, List.length_cons]

theorem gapLength_of_not_gapAhead {text : List Char} (h : ¬GapAhead text) : gapLength false text = 0 := by
  cases text with
  | nil => rfl
  | cons c rest =>
    have slashes : ¬(c = '/' ∧ rest.head? = some '/') := by
      rintro ⟨rfl, hr⟩
      obtain ⟨more, rfl⟩ := List.head?_eq_some_iff.mp hr
      exact h (.inr ⟨more, rfl⟩)
    have blank : c ∉ [' ', '\t', '\r', '\n'] := fun hb => h (.inl ⟨c, hb, rfl⟩)
    simp only [gapLength, Bool.false_eq_true, ↓reduceIte, slashes, blank]

/-! ### Tokens -/

theorem numberLength_eq {digit : Char} {tail after : List Char} (h : Longest Number (digit :: tail) after) :
    numberLength (tail ++ after) = tail.length := by
  obtain ⟨stop, ⟨digits, point⟩ | ⟨digits, places, eq, hd, hp⟩⟩ := h.number_cases
  · have all : ∀ c ∈ tail, c.isDigit = true := fun c hc => digits.2 c (List.mem_cons_of_mem _ hc)
    simp only [numberLength, takeWhile_of_ends all stop, List.drop_left]
    split
    · next rest =>
      rw [takeWhile_eq_nil (ends_of_not_pointAhead point)]
      rfl
    · rfl
  · obtain ⟨first, others, rfl⟩ := List.exists_cons_of_ne_nil hd.1
    rw [List.cons_append] at eq
    obtain ⟨rfl, rfl⟩ := List.cons.inj eq
    have all : ∀ c ∈ others, c.isDigit = true := fun c hc => hd.2 c (List.mem_cons_of_mem _ hc)
    have some_places : places.length ≠ 0 := by simpa using hp.1
    rw [List.append_assoc, List.cons_append]
    simp only [numberLength, takeWhile_of_ends all ends_point, List.drop_left, takeWhile_of_ends hp.2 stop,
      if_neg some_places, List.length_append, List.length_cons]
    omega

theorem accept_equals {s : Scanner} {after : List Char} (h : s.rest = '=' :: after) :
    s.accept "=" = (true, s.readOver ['='] after) := by
  simp [accept, h, readOver]

theorem accept_other {s : Scanner} (h : s.rest.head? ≠ some '=') : s.accept "=" = (false, s) := by
  unfold accept
  split
  · rfl
  · next c rest eq =>
    rw [eq] at h
    have other : ¬"=" = String.singleton c := fun same => h (by simpa using (congrArg String.toList same).symm)
    rw [if_neg other]

theorem advanceUntil_quote {s : Scanner} {inner rest : List Char} (h : s.rest = inner ++ rest) (inside : '"' ∉ inner)
    (stop : Ends (fun c => "\"" ≠ String.singleton c) rest) :
    s.advanceUntil "\"" = (!rest.isEmpty, s.readOver inner rest) := by
  have all : ∀ c ∈ inner, decide ("\"" ≠ String.singleton c) = true := fun c hc => by
    refine decide_eq_true fun same => inside ?_
    have : ['"'] = [c] := by simpa using congrArg String.toList same
    obtain rfl := (List.cons.inj this).1
    exact hc
  have taken : s.rest.takeWhile (fun c => decide ("\"" ≠ String.singleton c)) = inner := by
    rw [h]
    exact takeWhile_of_ends all stop
  simp only [advanceUntil, taken, pass_eq h rfl, atEnd, readOver]

theorem string_closed {s : Scanner} {inner after : List Char} (rest : s.rest = inner ++ '"' :: after)
    (inside : '"' ∉ inner) (taken : s.taken = ['"']) :
    s.string = (⟨.string, String.ofList inner, s.line⟩, s.readOver (inner ++ ['"']) after) := by
  have found : s.advanceUntil "\"" = (true, s.readOver inner ('"' :: after)) :=
    advanceUntil_quote rest inside (ends_cons.mpr (by decide))
  have passed : (s.readOver inner ('"' :: after)).pass 1 = s.readOver (inner ++ ['"']) after := by
    simp [pass, readOver, Nat.add_assoc]
  rw [string, found]
  simp only [passed]
  simp [readOver, taken]

theorem string_open {s : Scanner} (inside : '"' ∉ s.rest) (taken : s.taken = ['"']) :
    s.string = (⟨.illegal, String.ofList ('"' :: s.rest), s.line⟩,
      (s.readOver s.rest []).report .unterminatedString s.line) := by
  have found : s.advanceUntil "\"" = (false, s.readOver s.rest []) :=
    advanceUntil_quote (by simp) inside ends_nil
  simp [string, found, readOver, taken]

theorem tokenFrom_word {s : Scanner} {c : Char} {tail after : List Char} (h : Longest Word (c :: tail) after)
    (rest : s.rest = tail ++ after) (taken : s.taken = [c]) :
    s.tokenFrom c =
      (⟨.ofWord (String.ofList (c :: tail)), String.ofList (c :: tail), s.line⟩, s.readOver tail after) := by
  obtain ⟨word, stop⟩ := longest_word_iff.mp h
  have letter : Text.isLetter c = true := word.2 c (by simp)
  obtain ⟨symbol, operator⟩ := unknown_of_class (.inr letter)
  have quote : c ≠ '"' := ne_of_class (.inr letter) (by decide)
  have digit : c.isDigit = false := isDigit_of_isLetter letter
  have run : s.rest.takeWhile Text.isLetter = tail := by
    rw [rest]
    exact takeWhile_of_ends (fun d hd => word.2 d (List.mem_cons_of_mem _ hd)) stop
  have passed : s.pass (s.rest.takeWhile Text.isLetter).length = s.readOver tail after :=
    pass_eq rest (by rw [run])
  have sameLine : tail.count '\n' = 0 :=
    List.count_eq_zero.mpr fun hm => word.oneLine (List.mem_cons_of_mem _ hm)
  simp [tokenFrom, symbol, operator, quote, digit, letter, Scanner.word, passed, token, taken, readOver, sameLine]

/-- Behind the first character of a token the scanner goes on to its end. -/
theorem tokenFrom_eq {s : Scanner} {kind : Kind} {lexeme piece tail after : List Char} {c : Char}
    (h : Lexes kind lexeme piece after) (shape : piece = c :: tail) (rest : s.rest = tail ++ after)
    (taken : s.taken = [c]) :
    s.tokenFrom c = (⟨kind, String.ofList lexeme, s.line⟩,
      (s.readOver tail after).reporting ⟨kind, String.ofList lexeme, s.line⟩) := by
  cases h with
  | symbol hm =>
    obtain ⟨rfl, rfl⟩ := List.cons.inj shape
    rw [List.nil_append] at rest
    rw [readOver_nil rest, reporting_of_ne (symbol_ne_illegal hm)]
    simp [tokenFrom, ofSymbol?_of_mem hm, token, taken]
  | withEqual hm =>
    obtain ⟨rfl, rfl⟩ := List.cons.inj shape
    obtain ⟨none, found, -, legal⟩ := operator_of_mem hm
    rw [reporting_of_ne legal]
    simp [tokenFrom, none, found, accept_equals rest, token, taken, readOver]
  | alone hm stop =>
    obtain ⟨rfl, rfl⟩ := List.cons.inj shape
    obtain ⟨none, found, legal, -⟩ := operator_of_mem hm
    rw [List.nil_append] at rest
    rw [readOver_nil rest, reporting_of_ne legal]
    simp [tokenFrom, none, found, accept_other (s := s) (rest ▸ stop), token, taken]
  | slash stop =>
    obtain ⟨rfl, rfl⟩ := List.cons.inj shape
    rw [List.nil_append] at rest
    rw [readOver_nil rest, reporting_of_ne (by simp)]
    simp [tokenFrom, Kind.ofSymbol?, token, taken]
  | string inside =>
    rw [List.cons_append] at shape
    obtain ⟨rfl, rfl⟩ := List.cons.inj shape
    rw [List.append_assoc, List.singleton_append] at rest
    rw [reporting_of_ne (by simp)]
    simp [tokenFrom, Kind.ofSymbol?, Kind.ofOperator?, string_closed rest inside taken]
  | unterminated inside =>
    obtain ⟨rfl, rfl⟩ := List.cons.inj shape
    rw [List.append_nil] at rest
    subst rest
    simp [tokenFrom, Kind.ofSymbol?, Kind.ofOperator?, string_open inside taken, report, reporting, faults, readOver]
  | number longest =>
    subst shape
    obtain ⟨d, _, same, digit⟩ := longest.fits.head
    obtain ⟨rfl, -⟩ := List.cons.inj same
    obtain ⟨symbol, operator⟩ := unknown_of_class (.inl digit)
    have quote : c ≠ '"' := ne_of_class (.inl digit) (by decide)
    have passed : s.pass (numberLength s.rest) = s.readOver tail after :=
      pass_eq rest (rest ▸ numberLength_eq longest)
    have sameLine : tail.count '\n' = 0 :=
      List.count_eq_zero.mpr fun hm => longest.fits.oneLine (List.mem_cons_of_mem _ hm)
    rw [reporting_of_ne (by simp)]
    simp [tokenFrom, symbol, operator, quote, digit, number, passed, token, taken, readOver, sameLine]
  | keyword longest found =>
    subst shape
    rw [tokenFrom_word longest rest taken, ofWord_of_mem found, reporting_of_ne (keyword_ne_illegal found)]
  | identifier longest other =>
    subst shape
    rw [tokenFrom_word longest rest taken, ofWord_of_not_mem other, reporting_of_ne (by simp)]
  | stray hs =>
    obtain ⟨rfl, rfl⟩ := List.cons.inj shape
    rw [List.nil_append] at rest
    obtain ⟨symbol, operator⟩ := hs.unknown
    rw [readOver_nil rest]
    simp [tokenFrom, symbol, operator, hs.quote, hs.digit, hs.letter, token, taken, report, reporting, faults]

/-- The scanner behind a gap and a token. -/
def behind (s : Scanner) (gap piece after : List Char) (token : Token) : Scanner where
  start := s.current + gap.length
  current := s.current + gap.length + piece.length
  line := s.line + gap.count '\n' + piece.count '\n'
  taken := piece
  rest := after
  diagnostics := s.diagnostics ++ (faults token).toArray

theorem next_eq {s : Scanner} {gap lexeme piece after : List Char} {kind : Kind} (rest : s.rest = gap ++ piece ++ after)
    (hgap : Gap gap) (lexes : Lexes kind lexeme piece after) :
    s.next = (some ⟨kind, String.ofList lexeme, s.line + gap.count '\n'⟩,
      s.behind gap piece after ⟨kind, String.ofList lexeme, s.line + gap.count '\n'⟩) := by
  obtain ⟨c, tail, rfl, blank, -⟩ := lexes.head
  rw [List.append_assoc] at rest
  have length : gapLength false s.rest = gap.length := by
    rw [rest, gapLength_gap hgap, gapLength_of_not_gapAhead lexes.not_gapAhead, Nat.add_zero]
  have skipped : s.skipGap = s.readOver gap (c :: tail ++ after) := pass_eq rest length
  have newline : c ≠ '\n' := by
    rintro rfl
    exact blank (by decide)
  have first : ((s.readOver gap (c :: tail ++ after)).begin.pass 1).tokenFrom c = _ :=
    tokenFrom_eq lexes rfl (by simp [readOver]) (by simp [pass, begin, readOver])
  have found : s.next = (some (((s.readOver gap (c :: tail ++ after)).begin.pass 1).tokenFrom c).1,
      (((s.readOver gap (c :: tail ++ after)).begin.pass 1).tokenFrom c).2) := by
    rw [next, skipped]
    rfl
  rw [found, first]
  simp [behind, readOver, reporting, pass, begin, newline, Nat.add_assoc, Nat.add_comm 1]

theorem next_eq_none {s : Scanner} (h : FinalGap s.rest) : s.next = (none, s.readOver s.rest []) := by
  have skipped : s.skipGap = s.readOver s.rest [] := pass_eq (by simp) (gapLength_final h)
  rw [next, skipped]
  rfl

/-- What stood in front of a scanner that returned a token. -/
theorem exists_of_next_some {s after : Scanner} {token : Token} (h : s.next = (some token, after)) :
    ∃ gap kind lexeme piece behind, s.rest = gap ++ piece ++ behind ∧ Gap gap ∧ Lexes kind lexeme piece behind ∧
      token = ⟨kind, String.ofList lexeme, s.line + gap.count '\n'⟩ ∧ after = s.behind gap piece behind token := by
  rcases lexes_cases s.rest with final | ⟨gap, kind, lexeme, piece, behind, rest, hgap, lexes⟩
  · rw [next_eq_none final] at h
    cases h
  · rw [next_eq rest hgap lexes] at h
    cases h
    exact ⟨gap, kind, lexeme, piece, behind, rest, hgap, lexes, rfl, rfl⟩

theorem of_next_none {s after : Scanner} (h : s.next = (none, after)) :
    FinalGap s.rest ∧ after = s.readOver s.rest [] := by
  rcases lexes_cases s.rest with final | ⟨gap, kind, lexeme, piece, behind, rest, hgap, lexes⟩
  · rw [next_eq_none final] at h
    cases h
    exact ⟨final, rfl⟩
  · rw [next_eq rest hgap lexes] at h
    cases h

end Scanner

end ExprLang
