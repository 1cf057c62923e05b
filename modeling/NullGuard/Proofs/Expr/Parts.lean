import Mathlib
import NullGuard.Expr.Children

/-! # Parts of a node

A node can be taken apart into its direct parts and put together again. Some nodes use one of
their parts as a receiver, which a guard may replace. -/

namespace NullGuard.Expr

/-! ## Direct parts -/

/-- The node with other direct parts, in the order of `children`. -/
def withChildren : Expr → List Expr → Expr
  | member ty _ name declaring, [target] => member ty target name declaring
  | call ty _ method _, object :: args => call ty object method args
  | freeCall ty method _, args => freeCall ty method args
  | lambda ty params _, [body] => lambda ty params body
  | binary ty op _ _, [left, right] => binary ty op left right
  | unary ty op _, [operand] => unary ty op operand
  | coalesce ty _ _, [left, right] => coalesce ty left right
  | cond ty _ _ _, [test, ifTrue, ifFalse] => cond ty test ifTrue ifFalse
  | convert ty _, [operand] => convert ty operand
  | construct ty _, args => construct ty args
  | newArray ty _, elements => newArray ty elements
  | index ty _ _, [target, position] => index ty target position
  | bind ty var _ _, [value, body] => bind ty var value body
  | e, _ => e

@[simp] theorem withChildren_children (e : Expr) : e.withChildren e.children = e := by
  cases e <;> rfl

/-- Replacing the parts of a node keeps its kind, so that a list of the right length fits. -/
theorem children_withChildren {e : Expr} {parts : List Expr}
    (h : parts.length = e.children.length) : (e.withChildren parts).children = parts := by
  cases e with
  | param | literal | default | staticMember =>
    exact (List.length_eq_zero_iff.mp h).symm
  | freeCall | construct | newArray => rfl
  | member | lambda | unary | convert =>
    obtain ⟨part, rfl⟩ := List.length_eq_one_iff.mp h
    rfl
  | binary | coalesce | index | bind =>
    obtain ⟨first, second, rfl⟩ := List.length_eq_two.mp h
    rfl
  | cond =>
    obtain ⟨first, second, third, rfl⟩ := List.length_eq_three.mp h
    rfl
  | call =>
    obtain ⟨object, args, rfl⟩ := List.exists_cons_of_length_eq_add_one h
    rfl

/-- The nodes are of one type and one kind and agree in all that they hold besides their parts. -/
inductive SameNode : Expr → Expr → Prop where
  | param {ty name} : SameNode (param ty name) (param ty name)
  | literal {ty value} : SameNode (literal ty value) (literal ty value)
  | default {ty} : SameNode (default ty) (default ty)
  | member {ty target target' name declaring} :
      SameNode (member ty target name declaring) (member ty target' name declaring)
  | staticMember {ty name declaring} :
      SameNode (staticMember ty name declaring) (staticMember ty name declaring)
  | call {ty object object' method args args'} :
      SameNode (call ty object method args) (call ty object' method args')
  | freeCall {ty method args args'} : SameNode (freeCall ty method args) (freeCall ty method args')
  | lambda {ty params body body'} : SameNode (lambda ty params body) (lambda ty params body')
  | binary {ty op left left' right right'} :
      SameNode (binary ty op left right) (binary ty op left' right')
  | unary {ty op operand operand'} : SameNode (unary ty op operand) (unary ty op operand')
  | coalesce {ty left left' right right'} :
      SameNode (coalesce ty left right) (coalesce ty left' right')
  | cond {ty test test' ifTrue ifTrue' ifFalse ifFalse'} :
      SameNode (cond ty test ifTrue ifFalse) (cond ty test' ifTrue' ifFalse')
  | convert {ty operand operand'} : SameNode (convert ty operand) (convert ty operand')
  | construct {ty args args'} : SameNode (construct ty args) (construct ty args')
  | newArray {ty elements elements'} : SameNode (newArray ty elements) (newArray ty elements')
  | index {ty target target' position position'} :
      SameNode (index ty target position) (index ty target' position')
  | bind {ty var value value' body body'} :
      SameNode (bind ty var value body) (bind ty var value' body')

theorem SameNode.refl (e : Expr) : e.SameNode e := by
  cases e <;> constructor

theorem sameNode_withChildren (e : Expr) (parts : List Expr) :
    e.SameNode (e.withChildren parts) := by
  unfold withChildren
  split
  case h_14 => exact .refl _
  all_goals constructor

@[simp] theorem ty_withChildren (e : Expr) (parts : List Expr) :
    (e.withChildren parts).ty = e.ty := by
  unfold withChildren
  split <;> rfl

@[simp] theorem ownNames_withChildren (e : Expr) (parts : List Expr) :
    (e.withChildren parts).ownNames = e.ownNames := by
  unfold withChildren
  split <;> rfl

theorem mapMembersM_eq_mapM {m : Type → Type} [Monad m] [LawfulMonad m] {α β : Type}
    (items : List α) (f : α → m β) : (mapMembersM items fun item _ => f item) = items.mapM f := by
  induction items with
  | nil => rfl
  | cons item items ih => rw [mapMembersM, List.mapM_cons, ih]

/-- Replacing the parts of a node runs the action on its parts in order. -/
theorem mapChildrenM_eq {m : Type → Type} [Monad m] [LawfulMonad m] (e : Expr)
    (f : Expr → m Expr) :
    (e.mapChildrenM fun part _ => f part) = e.withChildren <$> e.children.mapM f := by
  cases e with
  | freeCall | construct | newArray =>
    simp only [mapChildrenM, children, mapMembersM_eq_mapM, bind_pure_comp]
    rfl
  | _ => simp [mapChildrenM, children, withChildren, mapMembersM_eq_mapM]

/-- Every node of the tree satisfies `P`. -/
inductive Every (P : Expr → Prop) : Expr → Prop where
  | node {e} (here : P e) (parts : ∀ part ∈ e.children, Every P part) : Every P e

theorem Every.here {P : Expr → Prop} {e : Expr} (h : e.Every P) : P e := by
  cases h with
  | node here _ => exact here

theorem Every.of_mem_children {P : Expr → Prop} {e part : Expr} (h : e.Every P)
    (hpart : part ∈ e.children) : part.Every P := by
  cases h with
  | node _ parts => exact parts part hpart

theorem Every.mono {P Q : Expr → Prop} (hPQ : ∀ e, P e → Q e) {e : Expr} (h : e.Every P) :
    e.Every Q := by
  induction h with
  | node here _ ih => exact .node (hPQ _ here) ih

theorem every {P : Expr → Prop} (h : ∀ e, P e) (e : Expr) : e.Every P := by
  induction e using Expr.induction_children with
  | step e ih => exact .node (h e) ih

theorem every_iff_anyNode {test : Expr → Bool} {e : Expr} :
    (e.Every fun node => test node = false) ↔ e.anyNode test = false := by
  induction e using Expr.induction_children with
  | step e ih =>
    rw [anyNode_eq, Bool.or_eq_false_iff, List.any_eq_false]
    refine ⟨fun h => ⟨h.here, fun part hpart => ?_⟩, fun h => .node h.1 fun part hpart => ?_⟩
    · rw [Bool.not_eq_true]
      exact (ih part hpart).mp (h.of_mem_children hpart)
    · exact (ih part hpart).mpr (by simpa using h.2 part hpart)

instance (P : Expr → Prop) [DecidablePred P] (e : Expr) : Decidable (e.Every P) :=
  decidable_of_iff (e.anyNode (fun node => !decide (P node)) = false)
    (every_iff_anyNode.symm.trans
      ⟨Every.mono fun _ h => by simpa using h, Every.mono fun _ h => by simpa using h⟩)

/-! ## Receivers -/

/-- The part that the node reads a member of or calls a method on. -/
def receiver? : Expr → Option Expr
  | member _ target _ _ => some target
  | call _ object _ _ => some object
  | freeCall _ method args => if method.isExtension then args.head? else none
  | _ => none

/-- The node with another receiver. -/
def withReceiver : Expr → Expr → Expr
  | member ty _ name declaring, receiver => member ty receiver name declaring
  | call ty _ method args, receiver => call ty receiver method args
  | freeCall ty method (_ :: args), receiver => freeCall ty method (receiver :: args)
  | e, _ => e

/-- An extension call that has no argument to be its receiver. -/
def lacksReceiver : Expr → Bool
  | freeCall _ method args => method.isExtension && args.isEmpty
  | _ => false

/-- How many of the first parts the node itself looks at. -/
def plainCount : Expr → Nat
  | call .. => 1
  | freeCall _ method _ => if method.isExtension then 1 else 0
  | e => e.children.length

/-- The parts whose values the node itself looks at. -/
def plainParts (e : Expr) : List Expr :=
  e.children.take e.plainCount

/-- The parts that are passed to a method, its receiver left out. -/
def methodArgs (e : Expr) : List Expr :=
  e.children.drop e.plainCount

/-- Besides its payload, a node counts its parts. -/
theorem SameNode.plainCount_eq {e e' : Expr} (h : e.SameNode e')
    (hlength : e'.children.length = e.children.length) : e'.plainCount = e.plainCount := by
  cases h with
  | construct | newArray => exact hlength
  | _ => rfl

theorem plainCount_withChildren {e : Expr} {parts : List Expr}
    (h : parts.length = e.children.length) : (e.withChildren parts).plainCount = e.plainCount := by
  apply (sameNode_withChildren e parts).plainCount_eq
  rw [children_withChildren h, h]

theorem plainParts_withChildren {e : Expr} {parts : List Expr}
    (h : parts.length = e.children.length) :
    (e.withChildren parts).plainParts = parts.take e.plainCount := by
  rw [plainParts, children_withChildren h, plainCount_withChildren h]

theorem methodArgs_withChildren {e : Expr} {parts : List Expr}
    (h : parts.length = e.children.length) :
    (e.withChildren parts).methodArgs = parts.drop e.plainCount := by
  rw [methodArgs, children_withChildren h, plainCount_withChildren h]

/-- A receiver is always one of the nodes' first parts, in one of three kinds of nodes. -/
theorem exists_of_receiver? {node receiver : Expr} (h : node.receiver? = some receiver) :
    (∃ ty name declaring, node = member ty receiver name declaring) ∨
    (∃ ty method args, node = call ty receiver method args) ∨
    ∃ ty method args, method.isExtension = true ∧ node = freeCall ty method (receiver :: args) := by
  cases node with
  | member ty target name declaring =>
    obtain rfl : target = receiver := by simpa [receiver?] using h
    exact .inl ⟨ty, name, declaring, rfl⟩
  | call ty object method args =>
    obtain rfl : object = receiver := by simpa [receiver?] using h
    exact .inr (.inl ⟨ty, method, args, rfl⟩)
  | freeCall ty method args =>
    simp only [receiver?] at h
    split at h
    · obtain ⟨rest, rfl⟩ := List.head?_eq_some_iff.mp h
      exact .inr (.inr ⟨ty, method, rest, ‹_›, rfl⟩)
    · cases h
  | _ => cases h

/-- The nodes whose first part, if there is one, is their receiver. -/
def takesReceiver : Expr → Bool
  | member .. | call .. => true
  | freeCall _ method _ => method.isExtension
  | _ => false

theorem receiver?_eq (e : Expr) :
    e.receiver? = if e.takesReceiver then e.children.head? else none := by
  cases e <;> rfl

theorem takesReceiver_withChildren (e : Expr) (parts : List Expr) :
    (e.withChildren parts).takesReceiver = e.takesReceiver := by
  unfold withChildren
  split <;> rfl

theorem receiver?_withChildren {e : Expr} {parts : List Expr}
    (h : parts.length = e.children.length) :
    (e.withChildren parts).receiver? = if e.takesReceiver then parts.head? else none := by
  rw [receiver?_eq, takesReceiver_withChildren, children_withChildren h]

theorem SameNode.lacksReceiver_eq {e e' : Expr} (h : e.SameNode e')
    (hlength : e'.children.length = e.children.length) : e'.lacksReceiver = e.lacksReceiver := by
  cases h with
  | @freeCall _ _ args args' =>
    have hempty : args'.isEmpty = args.isEmpty := by
      rw [Bool.eq_iff_iff, List.isEmpty_iff_length_eq_zero, List.isEmpty_iff_length_eq_zero]
      exact Eq.congr_left hlength
    rw [lacksReceiver, lacksReceiver, hempty]
  | _ => rfl

theorem lacksReceiver_withChildren {e : Expr} {parts : List Expr}
    (hlength : parts.length = e.children.length) :
    (e.withChildren parts).lacksReceiver = e.lacksReceiver := by
  apply (sameNode_withChildren e parts).lacksReceiver_eq
  rw [children_withChildren hlength, hlength]

section Receiver

variable {node receiver : Expr} (h : node.receiver? = some receiver)

include h

theorem children_of_receiver? : node.children = receiver :: node.children.tail := by
  obtain ⟨_, _, _, rfl⟩ | ⟨_, _, _, rfl⟩ | ⟨_, _, _, _, rfl⟩ := exists_of_receiver? h <;> rfl

theorem receiver_mem_children : receiver ∈ node.children := by
  rw [children_of_receiver? h]
  exact List.mem_cons_self

theorem ownNames_of_receiver? : node.ownNames = [] := by
  obtain ⟨_, _, _, rfl⟩ | ⟨_, _, _, rfl⟩ | ⟨_, _, _, _, rfl⟩ := exists_of_receiver? h <;> rfl

theorem withReceiver_self : node.withReceiver receiver = node := by
  obtain ⟨_, _, _, rfl⟩ | ⟨_, _, _, rfl⟩ | ⟨_, _, _, _, rfl⟩ := exists_of_receiver? h <;> rfl

theorem receiver?_withReceiver (other : Expr) :
    (node.withReceiver other).receiver? = some other := by
  obtain ⟨_, _, _, rfl⟩ | ⟨_, _, _, rfl⟩ | ⟨_, _, _, hext, rfl⟩ := exists_of_receiver? h
  · rfl
  · rfl
  · simp [withReceiver, receiver?, hext]

theorem children_withReceiver (other : Expr) :
    (node.withReceiver other).children = other :: node.children.tail := by
  obtain ⟨_, _, _, rfl⟩ | ⟨_, _, _, rfl⟩ | ⟨_, _, _, _, rfl⟩ := exists_of_receiver? h <;> rfl

theorem ty_withReceiver (other : Expr) : (node.withReceiver other).ty = node.ty := by
  obtain ⟨_, _, _, rfl⟩ | ⟨_, _, _, rfl⟩ | ⟨_, _, _, _, rfl⟩ := exists_of_receiver? h <;> rfl

theorem lacksReceiver_of_receiver? : node.lacksReceiver = false := by
  obtain ⟨_, _, _, rfl⟩ | ⟨_, _, _, rfl⟩ | ⟨_, _, _, _, rfl⟩ := exists_of_receiver? h <;>
    simp [lacksReceiver]

theorem plainCount_of_receiver? : node.plainCount = 1 := by
  obtain ⟨_, _, _, rfl⟩ | ⟨_, _, _, rfl⟩ | ⟨_, _, _, hext, rfl⟩ := exists_of_receiver? h
  · rfl
  · rfl
  · simp [plainCount, hext]

theorem plainParts_of_receiver? : node.plainParts = [receiver] := by
  rw [plainParts, plainCount_of_receiver? h, children_of_receiver? h]
  rfl

theorem methodArgs_of_receiver? : node.methodArgs = node.children.tail := by
  rw [methodArgs, plainCount_of_receiver? h, List.drop_one]

theorem methodArgs_withReceiver (other : Expr) :
    (node.withReceiver other).methodArgs = node.methodArgs := by
  rw [methodArgs_of_receiver? (receiver?_withReceiver h other), methodArgs_of_receiver? h,
    children_withReceiver h]
  rfl

end Receiver

/-! ## Depth -/

theorem depth_le_succ_iff {e : Expr} {bound : Nat} :
    e.depth ≤ bound + 1 ↔ ∀ part ∈ e.children, part.depth ≤ bound := by
  have hmax : (e.children.map depth).foldl max 0 ≤ bound ↔
      ∀ height ∈ 0 :: e.children.map depth, height ≤ bound :=
    List.max_le_iff (l := 0 :: e.children.map depth) (List.cons_ne_nil _ _)
  rw [depth_eq, Nat.add_le_add_iff_right, hmax]
  simp

theorem depth_pos (e : Expr) : 0 < e.depth := by
  rw [depth_eq]
  exact Nat.succ_pos _

theorem depth_of_leaf {e : Expr} (h : e.children = []) : e.depth = 1 := by
  rw [depth_eq, h]
  rfl

theorem depth_lt_of_mem_children {part e : Expr} (h : part ∈ e.children) :
    part.depth < e.depth := by
  have hle : part.depth ≤ (e.children.map depth).foldl max 0 :=
    List.le_max_of_mem (List.mem_cons_of_mem 0 (List.mem_map_of_mem h))
  rw [depth_eq e]
  omega

/-! ## Names -/

theorem names_eq (e : Expr) : e.names = e.ownNames ++ (e.children.map names).flatten :=
  fold_eq _ e

@[simp] theorem names_param (ty : Ty) (name : String) : (param ty name).names = [name] :=
  names_eq _

theorem mem_names {name : String} {e : Expr} :
    name ∈ e.names ↔ name ∈ e.ownNames ∨ ∃ part ∈ e.children, name ∈ part.names := by
  simp [names_eq e]

theorem names_subset_of_mem_children {part e : Expr} (h : part ∈ e.children) :
    part.names ⊆ e.names :=
  fun _ hname => mem_names.mpr (.inr ⟨part, h, hname⟩)

theorem names_subset_iff {e : Expr} {names : List String} :
    e.names ⊆ names ↔ e.ownNames ⊆ names ∧ ∀ part ∈ e.children, part.names ⊆ names := by
  refine ⟨fun h =>
    ⟨?_, fun part hpart => List.Subset.trans (names_subset_of_mem_children hpart) h⟩, ?_⟩
  · exact fun name hname => h (mem_names.mpr (.inl hname))
  · rintro ⟨hown, hparts⟩ name hname
    rcases mem_names.mp hname with hname | ⟨part, hpart, hname⟩
    · exact hown hname
    · exact hparts part hpart hname

theorem names_subset_of_receiver? {node receiver : Expr} (h : node.receiver? = some receiver) :
    receiver.names ⊆ node.names :=
  names_subset_of_mem_children (receiver_mem_children h)

end NullGuard.Expr
