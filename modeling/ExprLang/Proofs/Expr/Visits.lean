import ExprLang.Expr.Census
import ExprLang.Expr.Printer
import Mathlib.Control.Monad.Basic

/-! # Visits in preorder

Whatever its form, a node is visited before its children, and these from left to right. Hence a census comes to the
nodes of a tree in preorder, up to the first one that it has no handler or no room for, and its log tells how far it came
(`Tallies`). The printer has a handler for every form but that of bare nodes, and fails at the first node in preorder
that is bare or too deep (`Shows`). -/

namespace ExprLang

namespace Expr

/-- The trees right below a node, from left to right. -/
def children : Expr → List Expr
  | .literal _ => []
  | .grouping inner => [inner]
  | .unary _ operand => [operand]
  | .binary left _ right => [left, right]
  | .bare => []

/-- The nodes of a tree in preorder, each with what is below it. -/
def nodes : Expr → List Expr
  | .literal value => [.literal value]
  | .grouping inner => .grouping inner :: inner.nodes
  | .unary operator operand => .unary operator operand :: operand.nodes
  | .binary left operator right => .binary left operator right :: (left.nodes ++ right.nodes)
  | .bare => [.bare]

/-- How many nodes are one above another, the topmost left out. -/
def depth : Expr → Nat
  | .literal _ => 0
  | .grouping inner => inner.depth + 1
  | .unary _ operand => operand.depth + 1
  | .binary left _ right => max left.depth right.depth + 1
  | .bare => 0

/-- There is room to visit all of the tree. -/
def Fits (stack : Stack) (tree : Expr) : Prop := stack.node + stack.child * tree.depth ≤ stack.visits

instance (stack : Stack) (tree : Expr) : Decidable (tree.Fits stack) :=
  inferInstanceAs (Decidable (stack.node + stack.child * tree.depth ≤ stack.visits))

/-- A node and the room that there is to visit it. -/
structure Place where
  node : Expr
  room : Nat

/-- The nodes of a tree in preorder, with the room that is left for each. -/
def places (stack : Stack) : Expr → Nat → List Place
  | .literal value, room => [⟨.literal value, room⟩]
  | .grouping inner, room => ⟨.grouping inner, room⟩ :: inner.places stack (room - stack.child)
  | .unary operator operand, room => ⟨.unary operator operand, room⟩ :: operand.places stack (room - stack.child)
  | .binary left operator right, room =>
    ⟨.binary left operator right, room⟩ ::
      (left.places stack (room - stack.child) ++ right.places stack (room - stack.child))
  | .bare, room => [⟨.bare, room⟩]

variable {stack : Stack}

theorem places_eq (tree : Expr) (room : Nat) :
    tree.places stack room = ⟨tree, room⟩ :: tree.children.flatMap (·.places stack (room - stack.child)) := by
  cases tree <;> simp [places, children]

theorem map_node_places (tree : Expr) (room : Nat) : (tree.places stack room).map (·.node) = tree.nodes := by
  induction tree generalizing room with
  | literal | bare => rfl
  | grouping inner ih => simp [places, nodes, ih]
  | unary operator operand ih => simp [places, nodes, ih]
  | binary left operator right ih ih' => simp [places, nodes, ih, ih']

/-- What every node has if its children have it, every tree has. -/
theorem induction_children {motive : Expr → Prop}
    (step : ∀ tree : Expr, (∀ child ∈ tree.children, motive child) → motive tree) (tree : Expr) : motive tree := by
  induction tree with
  | literal value => exact step (.literal value) (List.forall_mem_nil _)
  | grouping inner ih => exact step (.grouping inner) (List.forall_mem_singleton.mpr ih)
  | unary operator operand ih => exact step (.unary operator operand) (List.forall_mem_singleton.mpr ih)
  | binary left operator right ih ih' =>
    exact step (.binary left operator right) (List.forall_mem_cons.mpr ⟨ih, List.forall_mem_singleton.mpr ih'⟩)
  | bare => exact step .bare (List.forall_mem_nil _)

theorem depth_lt_of_mem_children {tree child : Expr} (h : child ∈ tree.children) : child.depth < tree.depth := by
  cases tree with
  | literal | bare => cases h
  | grouping | unary =>
    obtain rfl := List.mem_singleton.mp h
    exact Nat.lt_succ_self _
  | binary left operator right =>
    simp only [children, List.mem_cons, List.not_mem_nil, or_false] at h
    simp only [depth]
    rcases h with rfl | rfl <;> omega

/-- The deepest node has the least room. -/
theorem room_of_mem_places (tree : Expr) : ∀ {room : Nat} {place : Place}, place ∈ tree.places stack room →
    room ≤ place.room + stack.child * tree.depth := by
  induction tree using induction_children with
  | step tree ih =>
    intro room place member
    rw [places_eq] at member
    rcases List.mem_cons.mp member with rfl | below
    · exact Nat.le_add_right _ _
    · obtain ⟨child, inside, found⟩ := List.mem_flatMap.mp below
      have least := ih child inside found
      have deeper : stack.child * (child.depth + 1) ≤ stack.child * tree.depth :=
        Nat.mul_le_mul_left _ (depth_lt_of_mem_children inside)
      rw [Nat.mul_add, Nat.mul_one] at deeper
      omega

theorem Fits.roomy {tree : Expr} (h : tree.Fits stack) :
    ∀ place ∈ tree.places stack stack.visits, stack.node ≤ place.room := by
  intro place member
  have least := tree.room_of_mem_places member
  have enough : stack.node + stack.child * tree.depth ≤ stack.visits := h
  omega

/-- There is room for the node, and a handler for its form. -/
def Place.Visited (stack : Stack) (handled : Form → Prop) (place : Place) : Prop :=
  stack.node ≤ place.room ∧ handled place.node.form

instance {handled : Form → Prop} [DecidablePred handled] (place : Place) : Decidable (place.Visited stack handled) :=
  inferInstanceAs (Decidable (_ ∧ _))

/-- How the visitor of that name fails at a node. -/
def Place.failure (stack : Stack) (name : String) (place : Place) : Visitor.Failure :=
  if place.room < stack.node then .stackOverflow else .unhandled place.node.form name

/-! ### Trees as text -/

/-- What comes of making a text of nodes in this order: there is one if none is bare and each has room, else the first of
    which this is not true makes it fail. -/
inductive Shows (stack : Stack) {α : Type} : List Place → Except Visitor.Failure α → Prop
  | all {places : List Place} {a : α} (h : ∀ place ∈ places, place.Visited stack (· ≠ .bare)) : Shows stack places (.ok a)
  | upTo {before behind : List Place} {place : Place} (h : ∀ other ∈ before, other.Visited stack (· ≠ .bare))
    (missing : ¬place.Visited stack (· ≠ .bare)) :
    Shows stack (before ++ place :: behind) (.error (place.failure stack printer.name))

theorem Shows.mapM {α β : Type} {f : α → Except Visitor.Failure β} {g : α → List Place} {items : List α}
    (h : ∀ item ∈ items, Shows stack (g item) (f item)) : Shows stack (items.flatMap g) (items.mapM f) := by
  induction items with
  | nil => exact .all (List.forall_mem_nil _)
  | cons item items ih =>
    obtain ⟨here, behind⟩ := List.forall_mem_cons.mp h
    have rest := ih behind
    rw [List.flatMap_cons, List.mapM_cons]
    generalize g item = first at here
    generalize f item = shown at here
    generalize items.flatMap g = others at rest
    generalize items.mapM f = texts at rest
    cases here with
    | upTo handled missing =>
      rw [List.append_assoc, List.cons_append]
      exact .upTo handled missing
    | all handled =>
      cases rest with
      | all handled' => exact .all (List.forall_mem_append.mpr ⟨handled, handled'⟩)
      | upTo handled' missing =>
        rw [← List.append_assoc]
        exact .upTo (List.forall_mem_append.mpr ⟨handled, handled'⟩) missing

theorem Shows.map {α β : Type} {places : List Place} {shown : Except Visitor.Failure α} (h : Shows stack places shown)
    (f : α → β) : Shows stack places (shown >>= fun a => pure (f a)) := by
  cases h with
  | all handled => exact .all handled
  | upTo handled missing => exact .upTo handled missing

theorem Shows.cons {α : Type} {places : List Place} {place : Place} {shown : Except Visitor.Failure α}
    (visited : place.Visited stack (· ≠ .bare)) (h : Shows stack places shown) :
    Shows stack (place :: places) shown := by
  cases h with
  | all handled => exact .all (List.forall_mem_cons.mpr ⟨visited, handled⟩)
  | upTo handled missing => exact .upTo (List.forall_mem_cons.mpr ⟨visited, handled⟩) missing

theorem Shows.parenthesized {trees : List Expr} {room : Nat} (name : String)
    (h : ∀ tree ∈ trees, Shows stack (tree.places stack room) (tree.acceptWithin stack printer room)) :
    Shows stack (trees.flatMap (·.places stack room))
      (Expr.parenthesized name (trees.map (·.acceptWithin stack printer room))) := by
  have texts := (Shows.mapM h).map fun texts => "(" ++ name ++ " " ++ " ".intercalate texts ++ ")"
  rw [Expr.parenthesized, List.mapM_map]
  exact texts

/-- A tree becomes text node by node in preorder. -/
theorem shows_accept (tree : Expr) : ∀ room,
    Shows stack (tree.places stack room) (tree.acceptWithin stack printer room) := by
  induction tree using induction_children with
  | step tree ih =>
    intro room
    by_cases enough : room < stack.node
    · have short : tree.acceptWithin stack printer room = .error .stackOverflow := by
        cases tree <;> exact if_pos enough
      have missing : ¬(Place.mk tree room).Visited stack (· ≠ .bare) := fun visited => Nat.not_lt_of_le visited.1 enough
      have failure : (Place.mk tree room).failure stack printer.name = .stackOverflow := if_pos enough
      rw [places_eq, short, ← failure]
      exact .upTo (List.forall_mem_nil _) missing
    · have below := fun name => Shows.parenthesized name fun child member => ih child member (room - stack.child)
      have visited : tree.form ≠ .bare → (Place.mk tree room).Visited stack (· ≠ .bare) :=
        fun other => ⟨Nat.le_of_not_lt enough, other⟩
      rw [places_eq]
      cases tree with
      | literal value =>
        rw [acceptWithin, Visitor.enter, if_neg enough]
        exact .cons (visited Form.noConfusion) (.all (List.forall_mem_nil _))
      | grouping inner =>
        rw [acceptWithin, Visitor.enter, if_neg enough]
        exact .cons (visited Form.noConfusion) (below "group")
      | unary operator operand =>
        rw [acceptWithin, Visitor.enter, if_neg enough]
        exact .cons (visited Form.noConfusion) (below operator.lexeme)
      | binary left operator right =>
        rw [acceptWithin, Visitor.enter, if_neg enough]
        exact .cons (visited Form.noConfusion) (below operator.lexeme)
      | bare =>
        have missing : ¬(Place.mk .bare room).Visited stack (· ≠ .bare) := fun visited => visited.2 rfl
        have failure : (Place.mk .bare room).failure stack printer.name = .unhandled .bare printer.name := if_neg enough
        have unhandled : bare.acceptWithin stack printer room = .error (.unhandled .bare printer.name) := if_neg enough
        rw [unhandled, ← failure]
        exact .upTo (List.forall_mem_nil _) missing

theorem shows_printAll (stack : Stack) (trees : List Expr) :
    Shows stack (trees.flatMap (·.places stack stack.visits)) (printAll stack trees) :=
  (Shows.mapM fun tree _ => tree.shows_accept stack.visits).map ("\n".intercalate ·)

/-- No node is bare. -/
def Whole (tree : Expr) : Prop := .bare ∉ tree.nodes

theorem whole_literal (value : Literal) : (literal value).Whole := by simp [Whole, nodes]

theorem Whole.grouping {inner : Expr} (h : inner.Whole) : inner.grouping.Whole := by
  simpa [Whole, nodes] using h

theorem Whole.unary {operand : Expr} (operator : Token) (h : operand.Whole) : (unary operator operand).Whole := by
  simpa [Whole, nodes] using h

theorem Whole.binary {left right : Expr} (h : left.Whole) (operator : Token) (h' : right.Whole) :
    (binary left operator right).Whole := by
  simpa [Whole, nodes] using ⟨h, h'⟩

theorem form_eq_bare_iff {tree : Expr} : tree.form = .bare ↔ tree = .bare := by
  cases tree <;> simp [form]

theorem Whole.ne_bare {tree : Expr} (h : tree.Whole) {room : Nat} :
    ∀ place ∈ tree.places stack room, place.node.form ≠ .bare := by
  intro place member bare
  have inside := List.mem_map_of_mem member (f := (·.node))
  rw [map_node_places, form_eq_bare_iff.mp bare] at inside
  exact h inside

/-- Trees without bare nodes have a text, unless they are too deep. -/
theorem Whole.printAll {trees : List Expr} (h : ∀ tree ∈ trees, tree.Whole) :
    (∃ text, printAll stack trees = .ok text) ∨ printAll stack trees = .error .stackOverflow := by
  have others : ∀ place ∈ trees.flatMap (·.places stack stack.visits), place.node.form ≠ .bare := by
    intro place member
    obtain ⟨tree, inside, found⟩ := List.mem_flatMap.mp member
    exact (h tree inside).ne_bare place found
  have shows := shows_printAll stack trees
  generalize trees.flatMap (·.places stack stack.visits) = places at shows others
  generalize Expr.printAll stack trees = shown at shows
  cases shows with
  | all => exact .inl ⟨_, rfl⟩
  | @upTo before behind place _ missing =>
    have other := others place (List.mem_append_right _ List.mem_cons_self)
    have short : place.room < stack.node := Nat.lt_of_not_le fun enough => missing ⟨enough, other⟩
    exact .inr (congrArg Except.error (if_pos short))

/-- Where there is room for all trees, nothing but a bare node can be in the way of their text. -/
theorem printAll_cases {trees : List Expr} (fits : ∀ tree ∈ trees, tree.Fits stack) :
    (∀ tree ∈ trees, tree.Whole) ∧ (∃ text, printAll stack trees = .ok text) ∨
      (∃ tree ∈ trees, ¬tree.Whole) ∧ printAll stack trees = .error (.unhandled .bare printer.name) := by
  have roomy : ∀ place ∈ trees.flatMap (·.places stack stack.visits), stack.node ≤ place.room := by
    intro place member
    obtain ⟨tree, inside, found⟩ := List.mem_flatMap.mp member
    exact (fits tree inside).roomy place found
  have nodes : (trees.flatMap (·.places stack stack.visits)).map (·.node) = trees.flatMap nodes := by
    simp only [List.map_flatMap, map_node_places]
  have bare : .bare ∈ trees.flatMap Expr.nodes ↔ ∃ tree ∈ trees, ¬tree.Whole := by
    simp only [List.mem_flatMap, Whole, Classical.not_not]
  have shows := shows_printAll stack trees
  generalize trees.flatMap (·.places stack stack.visits) = places at shows roomy nodes
  generalize Expr.printAll stack trees = shown at shows
  cases shows with
  | all handled =>
    refine .inl ⟨fun tree member => Classical.not_not.mp fun broken => ?_, _, rfl⟩
    have inside := bare.mpr ⟨tree, member, broken⟩
    rw [← nodes] at inside
    obtain ⟨place, found, same⟩ := List.mem_map.mp inside
    exact (handled place found).2 (form_eq_bare_iff.mpr same)
  | @upTo before behind place _ missing =>
    have member : place ∈ before ++ place :: behind := List.mem_append_right _ List.mem_cons_self
    have enough := roomy place member
    have form : place.node.form = .bare := Classical.not_not.mp fun other => missing ⟨enough, other⟩
    refine .inr ⟨bare.mp ?_, ?_⟩
    · rw [← nodes, ← form_eq_bare_iff.mp form]
      exact List.mem_map_of_mem member
    · rw [Place.failure, if_neg (Nat.not_lt_of_le enough), form]

end Expr

namespace Census

variable {stack : Stack} {census : Census} {tree : Expr} {trees : List Expr} {places front : List Expr.Place}
  {form : Expr.Form} {room total n : Nat} {log log' : Array Expr.Form}

/-- The census has a handler for nodes of the form, and can run it. -/
def Handles (census : Census) (form : Expr.Form) : Prop := form ∈ census.counted ∧ form ∉ census.blocked

instance : Decidable (census.Handles form) := inferInstanceAs (Decidable (_ ∧ _))

/-- The census has no other handlers than those that count. -/
def Plain (census : Census) : Prop := ∀ form, form ∉ census.counted → census.handler? form = none

/-! ### One node -/

theorem plain_of_not_inherits (h : census.inherits = false) : census.Plain := by
  intro form other
  by_cases blocked : form ∈ census.blocked
  · rw [handler?, if_pos blocked]
  · simp [handler?, blocked, other, h]

theorem handler?_of_handles (h : census.Handles form) : census.handler? form = some (count form) := by
  rw [handler?, if_neg h.2, if_pos h.1]

theorem Plain.handler?_eq_none (plain : census.Plain) (h : ¬census.Handles form) : census.handler? form = none := by
  by_cases counted : form ∈ census.counted
  · have blocked : form ∈ census.blocked := Decidable.not_not.mp fun free => h ⟨counted, free⟩
    rw [handler?, if_pos blocked]
  · exact plain form counted

theorem enter_of_le (enough : stack.node ≤ room) (visit : Visit (Option Nat)) :
    Visitor.enter stack room visit = visit := if_neg (Nat.not_lt_of_le enough)

/-- Which handler a node gets is decided by its form, and what it gets to do by its children. -/
theorem accept_of_handler {handle : List (Visit (Option Nat)) → Visit (Option Nat)} (enough : stack.node ≤ room)
    (h : census.handler? tree.form = some handle) :
    tree.acceptWithin stack census.visitor room =
      handle (tree.children.map (·.acceptWithin stack census.visitor (room - stack.child))) := by
  cases tree <;> simp_all [Expr.form, Expr.acceptWithin, enter_of_le enough, Visitor.run, visitor, Expr.children]

/-- Where there is no room or no handler for a node, nothing is done. -/
theorem accept_of_missing (plain : census.Plain) (missing : ¬(Expr.Place.mk tree room).Visited stack census.Handles) :
    tree.acceptWithin stack census.visitor room = throw ((Expr.Place.mk tree room).failure stack census.name) := by
  by_cases enough : room < stack.node
  · rw [Expr.Place.failure, if_pos enough]
    cases tree <;> exact if_pos enough
  · have none : census.handler? tree.form = none :=
      plain.handler?_eq_none fun handled => missing ⟨Nat.le_of_not_lt enough, handled⟩
    rw [Expr.Place.failure, if_neg enough]
    have here := enter_of_le (Nat.le_of_not_lt enough)
    cases tree <;> simp_all [Expr.form, Expr.acceptWithin, Visitor.run, visitor]

/-! ### Nodes one after another -/

/-- Visits one after another, whose numbers are added to what there is. -/
def addUp (total : Nat) (visits : List (Visit (Option Nat))) : Visit Nat :=
  visits.foldlM (fun total visit => do
    match ← visit with
    | some n => return total + n
    | none => throw .noResult) total

theorem count_eq (form : Expr.Form) (children : List (Visit (Option Nat))) (log : Array Expr.Form) :
    count form children log = (some <$> addUp 1 children) (log.push form) := rfl

theorem addUp_of_ok {visit : Visit (Option Nat)} (h : visit log = .ok (some n) log')
    (visits : List (Visit (Option Nat))) :
    (some <$> addUp total (visit :: visits)) log = (some <$> addUp (total + n) visits) log' := by
  simp [addUp, Functor.map, EStateM.map, bind, EStateM.bind, pure, EStateM.pure, h]

theorem addUp_of_error {visit : Visit (Option Nat)} {failure : Visitor.Failure} (h : visit log = .error failure log')
    (visits : List (Visit (Option Nat))) :
    (some <$> addUp total (visit :: visits)) log = .error failure log' := by
  simp [addUp, Functor.map, EStateM.map, bind, EStateM.bind, h]

/-- What comes of visiting nodes in this order, beginning with some number and log: all of them are logged and counted, or
    those in front of the first that has no handler or no room are logged. -/
inductive Tallies (stack : Stack) (census : Census) (total : Nat) (log : Array Expr.Form) :
    List Expr.Place → EStateM.Result Visitor.Failure (Array Expr.Form) (Option Nat) → Prop
  | all {places : List Expr.Place} {log' : Array Expr.Form} (h : ∀ place ∈ places, place.Visited stack census.Handles)
    (logged : log'.toList = log.toList ++ places.map (·.node.form)) :
    Tallies stack census total log places (.ok (some (total + places.length)) log')
  | upTo {before behind : List Expr.Place} {place : Expr.Place} {log' : Array Expr.Form}
    (h : ∀ other ∈ before, other.Visited stack census.Handles) (missing : ¬place.Visited stack census.Handles)
    (logged : log'.toList = log.toList ++ before.map (·.node.form)) :
    Tallies stack census total log (before ++ place :: behind) (.error (place.failure stack census.name) log')

variable {result : EStateM.Result Visitor.Failure (Array Expr.Form) (Option Nat)}

theorem Tallies.behind (h : ∀ place ∈ front, place.Visited stack census.Handles)
    (logged : log'.toList = log.toList ++ front.map (·.node.form))
    (rest : Tallies stack census (total + front.length) log' places result) :
    Tallies stack census total log (front ++ places) result := by
  cases rest with
  | all h' logged' =>
    rw [Nat.add_assoc, ← List.length_append]
    exact .all (List.forall_mem_append.mpr ⟨h, h'⟩) (by simp [logged', logged])
  | upTo h' missing logged' =>
    rw [← List.append_assoc]
    exact .upTo (List.forall_mem_append.mpr ⟨h, h'⟩) missing (by simp [logged', logged])

theorem tallies_addUp (h : ∀ tree ∈ trees, ∀ log,
      Tallies stack census 0 log (tree.places stack room) (tree.acceptWithin stack census.visitor room log)) :
    Tallies stack census total log (trees.flatMap (·.places stack room))
      ((some <$> addUp total (trees.map (·.acceptWithin stack census.visitor room))) log) := by
  induction trees generalizing total log with
  | nil => exact .all (List.forall_mem_nil _) (by simp)
  | cons tree trees ih =>
    obtain ⟨here, behind⟩ := List.forall_mem_cons.mp h
    have first := here log
    rw [List.flatMap_cons, List.map_cons]
    generalize tree.places stack room = places at first
    generalize ran : tree.acceptWithin stack census.visitor room log = outcome at first
    cases first with
    | all handled logged =>
      rw [addUp_of_ok ran, Nat.zero_add]
      exact (ih behind).behind handled logged
    | upTo handled missing logged =>
      rw [addUp_of_error ran, List.append_assoc, List.cons_append]
      exact .upTo handled missing logged

/-- A census comes to the nodes of a tree in preorder. -/
theorem Plain.tallies_accept (plain : census.Plain) (stack : Stack) (tree : Expr) : ∀ room log,
    Tallies stack census 0 log (tree.places stack room) (tree.acceptWithin stack census.visitor room log) := by
  induction tree using Expr.induction_children with
  | step tree ih =>
    intro room log
    rw [Expr.places_eq]
    by_cases visited : (Expr.Place.mk tree room).Visited stack census.Handles
    · rw [accept_of_handler visited.1 (handler?_of_handles visited.2), count_eq]
      have below : Tallies stack census (0 + 1) (log.push tree.form) _ _ :=
        tallies_addUp fun child member => ih child member (room - stack.child)
      have first : ∀ place ∈ [Expr.Place.mk tree room], place.Visited stack census.Handles :=
        List.forall_mem_singleton.mpr visited
      exact below.behind first (by simp)
    · rw [accept_of_missing plain visited]
      exact .upTo (List.forall_mem_nil _) visited (by simp)

/-! ### Trees -/

theorem Plain.take_eq (plain : census.Plain) {tree : Expr} (fits : tree.Fits stack) : census.take stack tree =
    match tree.nodes.find? (¬census.Handles ·.form) with
    | none => (.ok (some tree.nodes.length), tree.nodes.map Expr.form)
    | some node =>
      (.error (.unhandled node.form census.name), (tree.nodes.takeWhile (census.Handles ·.form)).map Expr.form) := by
  have tallies := plain.tallies_accept stack tree stack.visits #[]
  have roomy := fits.roomy
  have nodes : (tree.places stack stack.visits).map (·.node) = tree.nodes := tree.map_node_places stack.visits
  rw [← nodes, take, EStateM.run, Expr.accept]
  generalize tree.acceptWithin stack census.visitor stack.visits #[] = result at tallies
  generalize tree.places stack stack.visits = places at tallies roomy
  cases tallies with
  | all visited logged =>
    have none : (places.map (·.node)).find? (¬census.Handles ·.form) = none := by
      refine List.find?_eq_none.mpr fun node member => ?_
      obtain ⟨place, found, rfl⟩ := List.mem_map.mp member
      simpa using (visited place found).2
    rw [none]
    simpa [Function.comp_def] using logged
  | @upTo before behind place _ visited missing logged =>
    have enough := roomy place (List.mem_append_right _ List.mem_cons_self)
    have unhandled : ¬census.Handles place.node.form := fun handled => missing ⟨enough, handled⟩
    have failure : place.failure stack census.name = .unhandled place.node.form census.name :=
      if_neg (Nat.not_lt_of_le enough)
    have handled : ∀ node ∈ before.map (·.node), census.Handles node.form := by
      intro node member
      obtain ⟨other, found, rfl⟩ := List.mem_map.mp member
      exact (visited other found).2
    have first : (before.map (·.node) ++ place.node :: behind.map (·.node)).find? (¬census.Handles ·.form) =
        some place.node := by
      rw [List.find?_append, List.find?_eq_none.mpr fun other member => by simpa using handled other member]
      simp [unhandled]
    have front : (before.map (·.node) ++ place.node :: behind.map (·.node)).takeWhile (census.Handles ·.form) =
        before.map (·.node) := by
      rw [List.takeWhile_append_of_pos fun other member => by simpa using handled other member]
      simp [unhandled]
    rw [List.map_append, List.map_cons, first, front, failure]
    simpa [Function.comp_def] using logged

/-- Many signs in front of a tree. -/
def signs (n : Nat) (tree : Expr) : Expr := n.repeat (.unary ⟨.minus, "-", 1⟩) tree

end Census

end ExprLang
