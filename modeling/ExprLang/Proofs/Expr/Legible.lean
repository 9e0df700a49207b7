import ExprLang.Proofs.Expr.Visits
import ExprLang.Proofs.Lexical.Longest
import ExprLang.Proofs.Number.Characters
import Mathlib.Data.List.Forall2

/-! # Reading printed trees

The text of a tree tells which tree it is, up to what no text shows (`Alike`). Blanks, parentheses and line ends stand
between the words of a text and never in one, hence a word ends where the next of them begins. A tree is read off the
front of a text in one way, whatever follows it, if it is followed by one of these or by nothing
(`shown_append_inj`). -/

namespace ExprLang

/-- The characters between the words of a tree's text, and between the texts of trees. -/
def Expr.separators : List Char := ['(', ')', ' ', '\n']

namespace Expr

open Lexical

/-- A character of a word. -/
def isInner (c : Char) : Bool := c ∉ separators

/-- The text is a word. -/
def IsWord (text : List Char) : Prop := text ≠ [] ∧ ∀ c ∈ text, isInner c = true

/-- The lexemes of operators. -/
def operatorTexts : List String := ["!=", "==", ">", "<", ">=", "<=", "+", "-", "*", "/", "!"]

/-- The value is shown as one word. Only a text could be anything else. -/
def ShownAsWord (value : Literal) : Prop :=
  ∀ text, value = .text text → text ≠ "" ∧ ∀ c ∈ text.toList, c ∉ separators

/-- No node is bare, operators have lexemes of operators, and leaves are shown as one word each. -/
inductive Legible : Expr → Prop
  | literal {value : Literal} (word : ShownAsWord value) : Legible (.literal value)
  | grouping {inner : Expr} (h : Legible inner) : Legible (.grouping inner)
  | unary {operator : Token} {operand : Expr} (lexeme : operator.lexeme ∈ operatorTexts) (h : Legible operand) :
    Legible (.unary operator operand)
  | binary {left right : Expr} {operator : Token} (lexeme : operator.lexeme ∈ operatorTexts) (first : Legible left)
    (second : Legible right) : Legible (.binary left operator right)

/-- Trees of the same shape, with the same lexemes of operators and with leaves that are shown alike. -/
inductive Alike : Expr → Expr → Prop
  | literal {value value' : Literal} (h : value.show = value'.show) : Alike (.literal value) (.literal value')
  | grouping {inner inner' : Expr} (h : Alike inner inner') : Alike (.grouping inner) (.grouping inner')
  | unary {operator operator' : Token} {operand operand' : Expr} (lexeme : operator.lexeme = operator'.lexeme)
    (h : Alike operand operand') : Alike (.unary operator operand) (.unary operator' operand')
  | binary {left left' right right' : Expr} {operator operator' : Token} (lexeme : operator.lexeme = operator'.lexeme)
    (first : Alike left left') (second : Alike right right') :
    Alike (.binary left operator right) (.binary left' operator' right')

/-! ### The text of a tree -/

/-- A word and what follows it, in parentheses. -/
def enclosed (word behind : List Char) : List Char := '(' :: (word ++ ' ' :: behind ++ [')'])

/-- The characters of a tree's text. -/
def shown : Expr → List Char
  | .literal value => value.show.toList
  | .grouping inner => enclosed "group".toList inner.shown
  | .unary operator operand => enclosed operator.lexeme.toList operand.shown
  | .binary left operator right => enclosed operator.lexeme.toList (left.shown ++ ' ' :: right.shown)
  | .bare => []

theorem parenthesized_one (name : String) (text : List Char) :
    parenthesized name [.ok (String.ofList text)] = .ok (String.ofList (enclosed name.toList text)) := by
  have joined : "(" ++ name ++ " " ++ " ".intercalate [String.ofList text] ++ ")" =
      String.ofList (enclosed name.toList text) := String.toList_inj.mp (by simp [enclosed])
  rw [← joined]
  rfl

theorem parenthesized_two (name : String) (text text' : List Char) :
    parenthesized name [.ok (String.ofList text), .ok (String.ofList text')] =
      .ok (String.ofList (enclosed name.toList (text ++ ' ' :: text'))) := by
  have joined : "(" ++ name ++ " " ++ " ".intercalate [String.ofList text, String.ofList text'] ++ ")" =
      String.ofList (enclosed name.toList (text ++ ' ' :: text')) :=
    String.toList_inj.mp (by simp [enclosed])
  rw [← joined]
  rfl

variable {stack : Stack} {tree tree' : Expr} {trees trees' : List Expr}

/-- A text in parentheses is there if the text inside is, and if that is too deep so is the whole. -/
theorem parenthesized_cases (name : String) {texts : List (Except Visitor.Failure String)} {behind : List Char}
    (h : parenthesized name texts = .ok (String.ofList (enclosed name.toList behind)) ∨
      parenthesized name texts = .error .stackOverflow) (room : Nat) :
    Visitor.enter stack room (parenthesized name texts) = .ok (String.ofList (enclosed name.toList behind)) ∨
      Visitor.enter stack room (parenthesized name texts) = .error .stackOverflow := by
  rw [Visitor.enter]
  split
  · exact .inr rfl
  · exact h

/-- A legible tree has its own text, unless it is too deep. -/
theorem Legible.accept_cases (h : Legible tree) : ∀ room,
    tree.acceptWithin stack printer room = .ok (String.ofList tree.shown) ∨
      tree.acceptWithin stack printer room = .error .stackOverflow := by
  induction h with
  | @literal value =>
    intro room
    by_cases short : room < stack.node
    · exact .inr (if_pos short)
    · rw [shown, String.ofList_toList]
      exact .inl (if_neg short)
  | @grouping inner _ ih =>
    intro room
    refine parenthesized_cases "group" ?_ room
    rcases ih (room - stack.child) with text | overflow
    · exact .inl (text ▸ parenthesized_one "group" inner.shown)
    · exact .inr (by rw [overflow]; rfl)
  | @unary operator operand _ _ ih =>
    intro room
    refine parenthesized_cases operator.lexeme ?_ room
    rcases ih (room - stack.child) with text | overflow
    · exact .inl (text ▸ parenthesized_one operator.lexeme operand.shown)
    · exact .inr (by rw [overflow]; rfl)
  | @binary left right operator _ _ _ ih ih' =>
    intro room
    refine parenthesized_cases operator.lexeme ?_ room
    rcases ih (room - stack.child) with text | overflow
    · rcases ih' (room - stack.child) with text' | overflow
      · exact .inl (text ▸ text' ▸ parenthesized_two operator.lexeme left.shown right.shown)
      · exact .inr (by rw [text, overflow]; rfl)
    · exact .inr (by rw [overflow]; rfl)

theorem Legible.print_cases (h : Legible tree) :
    tree.print stack = .ok (String.ofList tree.shown) ∨ tree.print stack = .error .stackOverflow :=
  h.accept_cases stack.visits

/-- Trees that are alike become text alike, or neither does. -/
theorem Alike.accept_eq (h : Alike tree tree') : ∀ room,
    tree.acceptWithin stack printer room = tree'.acceptWithin stack printer room := by
  induction h with
  | literal same =>
    intro room
    exact congrArg (fun text => Visitor.enter stack room (.ok text : Except Visitor.Failure String)) same
  | @grouping inner inner' _ ih =>
    intro room
    exact congrArg (fun text => Visitor.enter stack room (parenthesized "group" [text])) (ih _)
  | @unary operator operator' operand operand' lexeme _ ih =>
    intro room
    show Visitor.enter stack room (parenthesized operator.lexeme [operand.acceptWithin stack printer _]) = _
    rw [ih, lexeme]
    rfl
  | @binary left left' right right' operator operator' lexeme _ _ ih ih' =>
    intro room
    show Visitor.enter stack room (parenthesized operator.lexeme
      [left.acceptWithin stack printer _, right.acceptWithin stack printer _]) = _
    rw [ih, ih', lexeme]
    rfl

/-- The texts of trees, each with a line end in front. -/
def shownBelow (trees : List Expr) : List Char := trees.flatMap fun tree => '\n' :: tree.shown

theorem toList_intercalate_shown (tree : Expr) (trees : List Expr) :
    ("\n".intercalate ((tree :: trees).map fun tree => String.ofList tree.shown)).toList =
      tree.shown ++ shownBelow trees := by
  induction trees generalizing tree with
  | nil => simp [shownBelow]
  | cons next trees ih =>
    have below := ih next
    rw [List.map_cons] at below
    rw [List.map_cons, List.map_cons, String.intercalate_cons_cons, String.toList_append, below]
    simp [shownBelow]

theorem mapM_print_cases (h : ∀ tree ∈ trees, Legible tree) :
    trees.mapM (print stack) = .ok (trees.map fun tree => String.ofList tree.shown) ∨
      trees.mapM (print stack) = .error .stackOverflow := by
  induction trees with
  | nil => exact .inl rfl
  | cons tree trees ih =>
    obtain ⟨here, behind⟩ := List.forall_mem_cons.mp h
    rw [List.mapM_cons]
    rcases here.print_cases with text | overflow
    · rcases ih behind with texts | overflow
      · exact .inl (by rw [text, texts]; rfl)
      · exact .inr (by rw [text, overflow]; rfl)
    · exact .inr (by rw [overflow]; rfl)

/-- The text of legible trees, if they have one. -/
theorem eq_of_printAll {text : String} (h : ∀ tree ∈ trees, Legible tree) (shown : printAll stack trees = .ok text) :
    text = "\n".intercalate (trees.map fun tree => String.ofList tree.shown) := by
  rw [printAll] at shown
  rcases mapM_print_cases h with texts | overflow
  · rw [texts] at shown
    cases shown
    rfl
  · rw [overflow] at shown
    cases shown

theorem Alike.mapM_print_eq (h : List.Forall₂ Alike trees trees') :
    trees.mapM (print stack) = trees'.mapM (print stack) := by
  induction h with
  | nil => rfl
  | @cons tree tree' _ _ alike _ ih =>
    have same : tree.print stack = tree'.print stack := alike.accept_eq stack.visits
    rw [List.mapM_cons, List.mapM_cons, same, ih]

theorem Legible.whole (h : Legible tree) : tree.Whole := by
  induction h with
  | literal => exact whole_literal _
  | grouping _ ih => exact ih.grouping
  | unary _ _ ih => exact ih.unary _
  | binary _ _ _ ih ih' => exact ih.binary _ ih'

/-! ### Words -/

theorem isWord_iff {text : List Char} : IsWord text ↔ text ≠ [] ∧ text.all isInner = true := by
  rw [IsWord, List.all_eq_true]

theorem ShownAsWord.isWord {value : Literal} (word : ShownAsWord value) : IsWord value.show.toList := by
  have named : ∀ text ∈ ["null", "true", "false", "ILLEGAL"], IsWord text.toList := by
    simp only [isWord_iff]
    decide
  cases value with
  | null => exact named "null" (by decide)
  | illegal => exact named "ILLEGAL" (by decide)
  | bool value =>
    cases value with
    | true => exact named "true" (by decide)
    | false => exact named "false" (by decide)
  | number value =>
    refine ⟨value.text_ne_nil, fun c member => ?_⟩
    have separate : ∀ c ∈ separators, c.isDigit = false ∧ c ∉ ['.', 'e', '-', 'i', 'n', 'f', 'a'] := by
      simp [separators]
    refine decide_eq_true fun separator => ?_
    obtain ⟨digit, other⟩ := separate c separator
    rcases Binary64.figure_of_mem_text member with (figure | figure) | letter
    · rw [digit] at figure
      cases figure
    · have sign : c ∈ ['.', 'e', '-'] := by simpa using figure
      exact other (List.mem_append_left ['i', 'n', 'f', 'a'] sign)
    · exact other (List.mem_append_right ['.', 'e', '-'] letter)
  | text text =>
    obtain ⟨some, inner⟩ := word text rfl
    exact ⟨fun none => some (String.toList_eq_nil_iff.mp none), fun c member => decide_eq_true (inner c member)⟩

theorem isWord_operator {lexeme : String} (h : lexeme ∈ operatorTexts) :
    IsWord lexeme.toList ∧ lexeme.toList ≠ "group".toList := by
  have all : ∀ lexeme ∈ operatorTexts, IsWord lexeme.toList ∧ lexeme.toList ≠ "group".toList := by
    simp only [isWord_iff]
    decide
  exact all lexeme h

/-- A word ends where a separator stands, or where the text does. -/
theorem IsWord.append_inj {word word' rest rest' : List Char} (h : IsWord word) (h' : IsWord word')
    (stop : Ends isInner rest) (stop' : Ends isInner rest') (eq : word ++ rest = word' ++ rest') :
    word = word' ∧ rest = rest' := run_unique h.2 h'.2 stop stop' eq

theorem ends_separator {c : Char} {rest : List Char} (h : c ∈ separators) : Ends isInner (c :: rest) :=
  ends_cons.mpr (by simpa [isInner] using h)

theorem enclosed_append (word behind rest : List Char) :
    enclosed word behind ++ rest = '(' :: (word ++ ' ' :: (behind ++ ')' :: rest)) := by
  simp [enclosed]

/-- No word is an enclosed text. -/
theorem IsWord.append_ne_enclosed {word behind word' rest rest' : List Char} (h : IsWord word) :
    word ++ rest ≠ enclosed word' behind ++ rest' := by
  obtain ⟨some, inner⟩ := h
  obtain ⟨c, word, rfl⟩ := List.exists_cons_of_ne_nil some
  rw [enclosed_append, List.cons_append]
  intro eq
  obtain ⟨rfl, -⟩ := List.cons.inj eq
  have letter := inner '(' List.mem_cons_self
  revert letter
  decide

theorem enclosed_append_inj {word word' behind behind' rest rest' : List Char} (h : IsWord word) (h' : IsWord word')
    (eq : enclosed word behind ++ rest = enclosed word' behind' ++ rest') :
    word = word' ∧ behind ++ ')' :: rest = behind' ++ ')' :: rest' := by
  rw [enclosed_append, enclosed_append] at eq
  have blank : ∀ text, Ends isInner (' ' :: text) := fun _ => ends_separator (by decide)
  obtain ⟨same, below⟩ := h.append_inj h' (blank _) (blank _) (List.cons.inj eq).2
  exact ⟨same, (List.cons.inj below).2⟩

/-! ### Trees in front of a text -/

theorem isWord_group : IsWord "group".toList := isWord_iff.mpr (by decide)

/-- The tree in front of a text and what follows it can be told from the text. -/
theorem Legible.shown_append_inj (h : Legible tree) (h' : Legible tree') {rest rest' : List Char}
    (stop : Ends isInner rest) (stop' : Ends isInner rest') (eq : tree.shown ++ rest = tree'.shown ++ rest') :
    Alike tree tree' ∧ rest = rest' := by
  have closing : ∀ text, Ends isInner (')' :: text) := fun _ => ends_separator (by decide)
  have blank : ∀ text, Ends isInner (' ' :: text) := fun _ => ends_separator (by decide)
  induction h generalizing tree' rest rest' with
  | literal word =>
    have leaf := word.isWord
    cases h' with
    | literal word' =>
      obtain ⟨same, behind⟩ := leaf.append_inj word'.isWord stop stop' eq
      exact ⟨.literal (String.toList_inj.mp same), behind⟩
    | grouping | unary | binary => exact absurd eq leaf.append_ne_enclosed
  | grouping _ ih =>
    cases h' with
    | literal word' => exact absurd eq.symm word'.isWord.append_ne_enclosed
    | grouping inner' =>
      obtain ⟨-, below⟩ := enclosed_append_inj isWord_group isWord_group eq
      obtain ⟨alike, behind⟩ := ih inner' (closing _) (closing _) below
      exact ⟨.grouping alike, (List.cons.inj behind).2⟩
    | unary lexeme' | binary lexeme' =>
      obtain ⟨word', other⟩ := isWord_operator lexeme'
      exact absurd (enclosed_append_inj isWord_group word' eq).1.symm other
  | unary lexeme _ ih =>
    obtain ⟨word, other⟩ := isWord_operator lexeme
    cases h' with
    | literal word' => exact absurd eq.symm word'.isWord.append_ne_enclosed
    | grouping => exact absurd (enclosed_append_inj word isWord_group eq).1 other
    | unary lexeme' operand' =>
      obtain ⟨same, below⟩ := enclosed_append_inj word (isWord_operator lexeme').1 eq
      obtain ⟨alike, behind⟩ := ih operand' (closing _) (closing _) below
      exact ⟨.unary (String.toList_inj.mp same) alike, (List.cons.inj behind).2⟩
    | binary lexeme' left' =>
      -- One operand is closed where the other tree has a blank and a second operand.
      obtain ⟨-, below⟩ := enclosed_append_inj word (isWord_operator lexeme').1 eq
      rw [List.append_assoc, List.cons_append] at below
      obtain ⟨-, behind⟩ := ih left' (closing _) (blank _) below
      cases (List.cons.inj behind).1
  | binary lexeme _ _ ih ih' =>
    obtain ⟨word, other⟩ := isWord_operator lexeme
    cases h' with
    | literal word' => exact absurd eq.symm word'.isWord.append_ne_enclosed
    | grouping => exact absurd (enclosed_append_inj word isWord_group eq).1 other
    | unary lexeme' operand' =>
      obtain ⟨-, below⟩ := enclosed_append_inj word (isWord_operator lexeme').1 eq
      rw [List.append_assoc, List.cons_append] at below
      obtain ⟨-, behind⟩ := ih operand' (blank _) (closing _) below
      cases (List.cons.inj behind).1
    | binary lexeme' left' right' =>
      obtain ⟨same, below⟩ := enclosed_append_inj word (isWord_operator lexeme').1 eq
      rw [List.append_assoc, List.cons_append, List.append_assoc, List.cons_append] at below
      obtain ⟨first, second⟩ := ih left' (blank _) (blank _) below
      obtain ⟨alike, behind⟩ := ih' right' (closing _) (closing _) (List.cons.inj second).2
      exact ⟨.binary (String.toList_inj.mp same) first alike, (List.cons.inj behind).2⟩

theorem Legible.shown_ne_nil (h : Legible tree) : tree.shown ≠ [] := by
  cases h with
  | literal word => exact word.isWord.1
  | grouping | unary | binary => exact List.cons_ne_nil _ _

/-! ### Trees one below another -/

theorem ends_shownBelow (trees : List Expr) : Ends isInner (shownBelow trees) := by
  cases trees with
  | nil => exact ends_nil
  | cons tree trees => exact ends_separator (by decide)

theorem shownBelow_inj (h : ∀ tree ∈ trees, Legible tree) (h' : ∀ tree ∈ trees', Legible tree)
    (eq : shownBelow trees = shownBelow trees') : List.Forall₂ Alike trees trees' := by
  induction trees generalizing trees' with
  | nil =>
    cases trees' with
    | nil => exact .nil
    | cons tree' trees' => cases eq
  | cons tree trees ih =>
    cases trees' with
    | nil => cases eq
    | cons tree' trees' =>
      obtain ⟨here, behind⟩ := List.forall_mem_cons.mp h
      obtain ⟨here', behind'⟩ := List.forall_mem_cons.mp h'
      obtain ⟨alike, below⟩ :=
        here.shown_append_inj here' (ends_shownBelow trees) (ends_shownBelow trees') (List.cons.inj eq).2
      exact .cons alike (ih behind behind' below)

/-- The text of trees one below another is theirs without the line end in front. -/
theorem intercalate_eq_iff (h : ∀ tree ∈ trees, Legible tree) (h' : ∀ tree ∈ trees', Legible tree) :
    "\n".intercalate (trees.map fun tree => String.ofList tree.shown) =
        "\n".intercalate (trees'.map fun tree => String.ofList tree.shown) ↔
      shownBelow trees = shownBelow trees' := by
  have empty : ("\n".intercalate ([] : List String)).toList = [] := by simp
  have filled : ∀ {tree : Expr} {trees : List Expr}, Legible tree → tree.shown ++ shownBelow trees ≠ [] :=
    fun legible => List.append_ne_nil_of_left_ne_nil legible.shown_ne_nil _
  rw [← String.toList_inj]
  cases trees with
  | nil =>
    cases trees' with
    | nil => exact iff_of_true rfl rfl
    | cons tree' trees' =>
      rw [toList_intercalate_shown, List.map_nil, empty]
      exact iff_of_false (filled (h' tree' List.mem_cons_self)).symm (List.cons_ne_nil _ _).symm
  | cons tree trees =>
    cases trees' with
    | nil =>
      rw [toList_intercalate_shown, List.map_nil, empty]
      exact iff_of_false (filled (h tree List.mem_cons_self)) (List.cons_ne_nil _ _)
    | cons tree' trees' =>
      rw [toList_intercalate_shown, toList_intercalate_shown]
      exact ⟨congrArg (List.cons '\n'), fun eq => (List.cons.inj eq).2⟩

/-- Trees that can be told apart at all are told apart by their text: two lists of trees have one text exactly if they
    are equally long and have trees at the same places that are alike. There is a text if no tree is too deep. -/
theorem printAll_eq_iff (stack : Stack) (h : ∀ tree ∈ trees, Legible tree) (h' : ∀ tree ∈ trees', Legible tree) :
    ((∀ tree ∈ trees, tree.Fits stack) → ∃ text, printAll stack trees = .ok text) ∧
      (List.Forall₂ Alike trees trees' → printAll stack trees = printAll stack trees') ∧
      ∀ text, printAll stack trees = .ok text →
        (printAll stack trees' = .ok text ↔ List.Forall₂ Alike trees trees') := by
  have same : List.Forall₂ Alike trees trees' → printAll stack trees = printAll stack trees' := by
    intro alike
    rw [printAll, printAll, Alike.mapM_print_eq alike]
  refine ⟨fun fits => ?_, same, fun text shown => ⟨fun shown' => ?_, fun alike => same alike ▸ shown⟩⟩
  · rcases printAll_cases fits with ⟨-, text⟩ | ⟨⟨tree, member, broken⟩, -⟩
    · exact text
    · exact absurd (h tree member).whole broken
  · have one := (eq_of_printAll h shown).symm.trans (eq_of_printAll h' shown')
    exact shownBelow_inj h h' ((intercalate_eq_iff h h').mp one)

theorem printAll_eq_iff_product : List.Forall₂ Alike
    [.binary (.unary ⟨.minus, "-", 1⟩ (.literal (.number (.ofDecimal ⟨1, 0⟩)))) ⟨.asterisk, "*", 1⟩ (.literal .null)]
    [.binary (.unary ⟨.minus, "-", 2⟩ (.literal (.text "1"))) ⟨.asterisk, "*", 3⟩ (.literal .null)] := by
  have minus : "-" ∈ operatorTexts := by decide
  have asterisk : "*" ∈ operatorTexts := by decide
  have number : Legible (.literal (.number (.ofDecimal ⟨1, 0⟩))) := .literal fun _ same => by cases same
  have null : Legible (.literal .null) := .literal fun _ same => by cases same
  have text : Legible (.literal (.text "1")) := .literal fun _ same => by
    cases same
    exact ⟨by decide, List.forall_mem_singleton.mpr (by decide)⟩
  have product : ∀ {line line' : Int} {operand : Expr}, Legible operand →
      Legible (.binary (.unary ⟨.minus, "-", line⟩ operand) ⟨.asterisk, "*", line'⟩ (.literal .null)) := fun operand =>
    .binary asterisk (.unary minus operand) null
  obtain ⟨-, -, unique⟩ := printAll_eq_iff .standard (List.forall_mem_singleton.mpr (product number))
    (List.forall_mem_singleton.mpr (product text))
  exact (unique "(* (- 1) null)" (by decide +kernel)).mp (by decide +kernel)

end Expr

end ExprLang
