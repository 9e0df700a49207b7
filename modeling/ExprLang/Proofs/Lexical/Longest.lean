import ExprLang.Proofs.Lexical.Grammar

/-! # Longest numbers and words

Whether a number or a word could go on is decided by at most two characters behind it. The scanner looks at these
alone, the grammar at every longer piece of the text; here the two are shown to agree. -/

namespace ExprLang.Lexical

/-- The text does not begin with a character of the class. -/
def Ends (p : Char → Bool) (text : List Char) : Prop := ∀ c, text.head? = some c → p c = false

theorem ends_nil {p : Char → Bool} : Ends p [] := by
  intro c h
  cases h

theorem ends_cons {p : Char → Bool} {c : Char} {text : List Char} : Ends p (c :: text) ↔ p c = false := by
  constructor
  · intro h
    exact h c rfl
  · intro h d hd
    obtain rfl : c = d := Option.some.inj hd
    exact h

theorem not_ends {p : Char → Bool} {text : List Char} (h : ¬Ends p text) :
    ∃ c rest, text = c :: rest ∧ p c = true := by
  cases text with
  | nil => exact absurd ends_nil h
  | cons c rest =>
    rw [ends_cons, Bool.not_eq_false] at h
    exact ⟨c, rest, rfl, h⟩

theorem ends_dropWhile (p : Char → Bool) (text : List Char) : Ends p (text.dropWhile p) := by
  intro c h
  cases eq : text.dropWhile p with
  | nil => rw [eq] at h; cases h
  | cons d rest =>
    rw [eq] at h
    obtain rfl : d = c := Option.some.inj h
    have := List.head_dropWhile_not p (l := text) (by simp [eq])
    simpa [eq] using this

theorem takeWhile_of_ends {p : Char → Bool} {piece after : List Char} (all : ∀ c ∈ piece, p c = true)
    (h : Ends p after) : (piece ++ after).takeWhile p = piece := by
  rw [List.takeWhile_append_of_pos all]
  cases after with
  | nil => simp
  | cons c rest => simp [ends_cons.mp h]

theorem dropWhile_of_ends {p : Char → Bool} {piece after : List Char} (all : ∀ c ∈ piece, p c = true)
    (h : Ends p after) : (piece ++ after).dropWhile p = after := by
  rw [List.dropWhile_append_of_pos all]
  cases after with
  | nil => rfl
  | cons c rest => simp [ends_cons.mp h]

theorem takeWhile_eq_nil {p : Char → Bool} {text : List Char} (h : Ends p text) : text.takeWhile p = [] := by
  have none : ∀ c ∈ ([] : List Char), p c = true := by simp
  exact takeWhile_of_ends none h

/-- A run of a class that stands in front of a text goes no further than the longest one. -/
theorem length_le_of_prefix {p : Char → Bool} {run piece after : List Char} (all : ∀ c ∈ run, p c = true)
    (h : Ends p after) (pre : run <+: piece ++ after) : run.length ≤ piece.length := by
  obtain ⟨more, eq⟩ := pre
  rcases List.append_eq_append_iff.mp eq with ⟨left, rfl, -⟩ | ⟨extra, rfl, rfl⟩
  · simp
  · cases extra with
    | nil => simp
    | cons c extra =>
      have := ends_cons.mp h
      rw [all c (by simp)] at this
      cases this

/-- Two runs of a class in front of the same text, each with something else behind it, are the same. -/
theorem run_unique {p : Char → Bool} {run run' after after' : List Char} (all : ∀ c ∈ run, p c = true)
    (all' : ∀ c ∈ run', p c = true) (h : Ends p after) (h' : Ends p after') (eq : run ++ after = run' ++ after') :
    run = run' ∧ after = after' := by
  have first := takeWhile_of_ends all h
  have second := takeWhile_of_ends all' h'
  rw [eq, second] at first
  subst first
  exact ⟨rfl, List.append_cancel_left eq⟩

/-! ### Words -/

theorem longest_word_iff {piece after : List Char} :
    Longest Word piece after ↔ Word piece ∧ Ends Text.isLetter after := by
  constructor
  · intro h
    refine ⟨h.fits, ?_⟩
    refine Classical.byContradiction fun more => ?_
    obtain ⟨c, rest, rfl, letter⟩ := not_ends more
    have longer : Word (piece ++ [c]) := by
      refine ⟨by simp, fun d hd => ?_⟩
      rcases List.mem_append.mp hd with hd | hd
      · exact h.fits.2 d hd
      · obtain rfl := List.mem_singleton.mp hd
        exact letter
    have := h.longest _ longer ⟨rest, by simp⟩
    simp only [List.length_append, List.length_singleton] at this
    omega
  · rintro ⟨word, stop⟩
    exact ⟨word, fun candidate hc pre => length_le_of_prefix hc.2 stop pre⟩

/-! ### Numbers -/

/-- A point with a digit behind it is in front. -/
def PointAhead (text : List Char) : Prop := ∃ d rest, text = '.' :: d :: rest ∧ d.isDigit = true

theorem ends_of_not_pointAhead {rest : List Char} (h : ¬PointAhead ('.' :: rest)) : Ends Char.isDigit rest := by
  refine Classical.byContradiction fun more => ?_
  obtain ⟨d, text, rfl, digit⟩ := not_ends more
  exact h ⟨d, text, rfl, digit⟩

theorem ends_point {rest : List Char} : Ends Char.isDigit ('.' :: rest) := ends_cons.mpr (by decide)

theorem Number.append_digit {piece : List Char} {c : Char} (h : Number piece) (digit : c.isDigit = true) :
    Number (piece ++ [c]) := by
  have grow : ∀ {text}, Digits text → Digits (text ++ [c]) := by
    intro text hd
    refine ⟨by simp, fun d hmem => ?_⟩
    rcases List.mem_append.mp hmem with hmem | hmem
    · exact hd.2 d hmem
    · obtain rfl := List.mem_singleton.mp hmem
      exact digit
  cases h with
  | whole hd => exact .whole (grow hd)
  | fraction hd hp =>
    rw [List.append_assoc]
    exact .fraction hd (grow hp)

theorem longest_whole {digits after : List Char} (h : Digits digits) (stop : Ends Char.isDigit after)
    (point : ¬PointAhead after) : Longest Number digits after := by
  refine ⟨.whole h, fun candidate hc pre => ?_⟩
  cases hc with
  | whole hd => exact length_le_of_prefix hd.2 stop pre
  | @fraction whole places hd hp =>
    exfalso
    obtain ⟨more, eq⟩ := pre
    rw [List.append_assoc, List.cons_append] at eq
    obtain ⟨-, rfl⟩ := run_unique hd.2 h.2 ends_point stop eq
    obtain ⟨d, places, rfl⟩ := List.exists_cons_of_ne_nil hp.1
    exact point ⟨d, places ++ more, rfl, hp.2 d (by simp)⟩

theorem longest_fraction {digits places after : List Char} (h : Digits digits) (h' : Digits places)
    (stop : Ends Char.isDigit after) : Longest Number (digits ++ '.' :: places) after := by
  refine ⟨.fraction h h', fun candidate hc pre => ?_⟩
  rw [List.append_assoc, List.cons_append] at pre
  cases hc with
  | whole hd =>
    have := length_le_of_prefix hd.2 ends_point pre
    simp only [List.length_append]
    omega
  | @fraction whole fraction hd hp =>
    obtain ⟨more, eq⟩ := pre
    rw [List.append_assoc, List.cons_append] at eq
    obtain ⟨rfl, same⟩ := run_unique hd.2 h.2 ends_point ends_point eq
    have := length_le_of_prefix hp.2 stop ⟨more, (List.cons.inj same).2⟩
    simp only [List.length_append, List.length_cons]
    omega

/-- Behind the longest number there is no digit, and behind one without a point no point with a digit either. -/
theorem Longest.number_cases {piece after : List Char} (h : Longest Number piece after) :
    Ends Char.isDigit after ∧ (Digits piece ∧ ¬PointAhead after ∨
      ∃ digits places, piece = digits ++ '.' :: places ∧ Digits digits ∧ Digits places) := by
  refine ⟨?_, ?_⟩
  · refine Classical.byContradiction fun more => ?_
    obtain ⟨c, rest, rfl, digit⟩ := not_ends more
    have := h.longest _ (h.fits.append_digit digit) ⟨rest, by simp⟩
    simp only [List.length_append, List.length_singleton] at this
    omega
  · rcases h.fits with hd | ⟨hd, hp⟩
    · refine .inl ⟨hd, ?_⟩
      rintro ⟨d, rest, rfl, digit⟩
      have longer : Number (piece ++ '.' :: [d]) := .fraction hd ⟨by simp, by simpa using digit⟩
      have := h.longest _ longer ⟨rest, by simp⟩
      simp only [List.length_append, List.length_cons] at this
      omega
    · exact .inr ⟨_, _, rfl, hd, hp⟩

theorem Number.head {piece : List Char} (h : Number piece) : ∃ d rest, piece = d :: rest ∧ d.isDigit = true := by
  cases h with
  | whole hd =>
    obtain ⟨d, rest, rfl⟩ := List.exists_cons_of_ne_nil hd.1
    exact ⟨d, rest, rfl, hd.2 d (by simp)⟩
  | @fraction digits places hd _ =>
    obtain ⟨d, rest, rfl⟩ := List.exists_cons_of_ne_nil hd.1
    exact ⟨d, rest ++ '.' :: places, rfl, hd.2 d (by simp)⟩

theorem ofText?_whole {digits : List Char} (h : Digits digits) :
    Decimal.ofText? digits = some ⟨Nat.ofDigitChars 10 digits 0, 0⟩ := by
  obtain ⟨d, tail, rfl⟩ := List.exists_cons_of_ne_nil h.1
  have front := takeWhile_of_ends h.2 ends_nil
  have behind := dropWhile_of_ends h.2 ends_nil
  rw [List.append_nil] at front behind
  simp [Decimal.ofText?, front, behind]

theorem ofText?_fraction {digits places : List Char} (h : Digits digits) (h' : Digits places) :
    Decimal.ofText? (digits ++ '.' :: places) = some ⟨Nat.ofDigitChars 10 (digits ++ places) 0, places.length⟩ := by
  obtain ⟨d, tail, rfl⟩ := List.exists_cons_of_ne_nil h.1
  have places_digits : places ≠ [] ∧ places.all Char.isDigit := ⟨h'.1, List.all_eq_true.mpr h'.2⟩
  rw [Decimal.ofText?, takeWhile_of_ends h.2 ends_point, dropWhile_of_ends h.2 ends_point]
  exact if_pos places_digits

theorem Number.exists_decimal {piece : List Char} (h : Number piece) :
    ∃ decimal, Decimal.ofText? piece = some decimal := by
  cases h with
  | whole digits => exact ⟨_, ofText?_whole digits⟩
  | fraction digits places => exact ⟨_, ofText?_fraction digits places⟩

theorem Word.head {piece : List Char} (h : Word piece) : ∃ c rest, piece = c :: rest ∧ Text.isLetter c = true := by
  obtain ⟨c, rest, rfl⟩ := List.exists_cons_of_ne_nil h.1
  exact ⟨c, rest, rfl, h.2 c (by simp)⟩

theorem Word.oneLine {piece : List Char} (h : Word piece) : '\n' ∉ piece := fun hm => by
  have := h.2 _ hm
  revert this
  decide

theorem Digits.oneLine {text : List Char} (h : Digits text) : '\n' ∉ text := fun hm => by
  have := h.2 _ hm
  revert this
  decide

theorem Number.oneLine {piece : List Char} (h : Number piece) : '\n' ∉ piece := by
  cases h with
  | whole hd => exact hd.oneLine
  | fraction hd hp => simp [hd.oneLine, hp.oneLine]

/-! ### The two in front of a text -/

theorem exists_longest_word {c : Char} (h : Text.isLetter c = true) (rest : List Char) :
    ∃ piece after, c :: rest = piece ++ after ∧ Longest Word piece after := by
  refine ⟨(c :: rest).takeWhile Text.isLetter, (c :: rest).dropWhile Text.isLetter,
    List.takeWhile_append_dropWhile.symm, longest_word_iff.mpr ⟨⟨?_, ?_⟩, ends_dropWhile _ _⟩⟩
  · simp [h]
  · intro d hd
    exact List.all_eq_true.mp List.all_takeWhile d hd

theorem exists_longest_number {c : Char} (h : c.isDigit = true) (rest : List Char) :
    ∃ piece after, c :: rest = piece ++ after ∧ Longest Number piece after := by
  have digits : ∀ text : List Char, ∀ d ∈ text.takeWhile Char.isDigit, d.isDigit = true := fun text d hd =>
    List.all_eq_true.mp List.all_takeWhile d hd
  have whole : Digits ((c :: rest).takeWhile Char.isDigit) := ⟨by simp [h], digits _⟩
  have split : c :: rest = (c :: rest).takeWhile Char.isDigit ++ (c :: rest).dropWhile Char.isDigit :=
    List.takeWhile_append_dropWhile.symm
  by_cases point : PointAhead ((c :: rest).dropWhile Char.isDigit)
  · obtain ⟨d, more, eq, digit⟩ := point
    refine ⟨(c :: rest).takeWhile Char.isDigit ++ '.' :: (d :: more).takeWhile Char.isDigit,
      (d :: more).dropWhile Char.isDigit, ?_, longest_fraction whole ⟨by simp [digit], digits _⟩ (ends_dropWhile _ _)⟩
    rw [List.append_assoc, List.cons_append, List.takeWhile_append_dropWhile, ← eq]
    exact split
  · exact ⟨_, _, split, longest_whole whole (ends_dropWhile _ _) point⟩

end ExprLang.Lexical
