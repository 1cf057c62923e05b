import NullGuard.Expr.Build
import NullGuard.Proofs.Expr.Parts

/-! # What a tree is made of

Of a whole tree we count what its nodes contribute, whatever their order: the kinds of its nodes
and the names that its `bind` nodes bind. Moving a part of a tree elsewhere then changes nothing. -/

namespace NullGuard

/-- A read or a call is of the same kind with and without an object. -/
inductive NodeKind where
  | param | literal | default | member | call | lambda | binary | unary | coalesce | cond
  | convert | construct | newArray | index | bind
  deriving DecidableEq

namespace Expr

def kind : Expr → NodeKind
  | param .. => .param
  | literal .. => .literal
  | default _ => .default
  | member .. | staticMember .. => .member
  | call .. | freeCall .. => .call
  | lambda .. => .lambda
  | binary .. => .binary
  | unary .. => .unary
  | coalesce .. => .coalesce
  | cond .. => .cond
  | convert .. => .convert
  | construct .. => .construct
  | newArray .. => .newArray
  | index .. => .index
  | bind .. => .bind

/-- What all nodes of a tree contribute together. -/
def gather {α : Type} (own : Expr → Multiset α) : Expr → Multiset α :=
  fold fun e results => own e + results.sum

/-- The kinds of all nodes of a tree. -/
def kinds : Expr → Multiset NodeKind :=
  gather fun e => {e.kind}

/-- The name that a node itself binds to a value. -/
def ownLet : Expr → Multiset String
  | bind _ var _ _ => {var.name}
  | _ => 0

/-- The names that the `bind` nodes of a tree bind, each as often as it is bound. -/
def letNames : Expr → Multiset String :=
  gather ownLet

/-- The names that a node binds to the arguments of a lambda. -/
def ownLambda : Expr → Multiset String
  | lambda _ params _ => params.map Param.name
  | _ => 0

/-- The names that the lambdas of a tree bind. -/
def lambdaNames : Expr → Multiset String :=
  gather ownLambda

section Gather

variable {α : Type} {own : Expr → Multiset α}

theorem gather_eq (own : Expr → Multiset α) (e : Expr) :
    e.gather own = own e + (e.children.map (gather own)).sum :=
  fold_eq _ e

theorem mem_sum_gather {a : α} {parts : List Expr} :
    a ∈ (parts.map (gather own)).sum ↔ ∃ part ∈ parts, a ∈ part.gather own := by
  induction parts with
  | nil => simp
  | cons part parts ih => simp [ih]

theorem mem_gather {a : α} {e : Expr} :
    a ∈ e.gather own ↔ a ∈ own e ∨ ∃ part ∈ e.children, a ∈ part.gather own := by
  rw [gather_eq, Multiset.mem_add, mem_sum_gather]

theorem gather_withChildren {e : Expr} {parts : List Expr}
    (hown : own (e.withChildren parts) = own e) (hlength : parts.length = e.children.length) :
    (e.withChildren parts).gather own = own e + (parts.map (gather own)).sum := by
  rw [gather_eq, hown, children_withChildren hlength]

/-- A node with another receiver has lost the one and gained the other. -/
theorem gather_withReceiver {node receiver other : Expr} (h : node.receiver? = some receiver)
    (hown : own (node.withReceiver other) = own node) :
    (node.withReceiver other).gather own + receiver.gather own =
      node.gather own + other.gather own := by
  rw [gather_eq own (node.withReceiver other), gather_eq own node, children_withReceiver h,
    children_of_receiver? h, hown]
  simp only [List.map_cons, List.sum_cons, List.tail_cons]
  abel

end Gather

/-! ## Kinds -/

theorem kinds_eq (e : Expr) : e.kinds = {e.kind} + (e.children.map kinds).sum :=
  gather_eq _ e

@[simp] theorem kind_withChildren (e : Expr) (parts : List Expr) :
    (e.withChildren parts).kind = e.kind := by
  unfold withChildren
  split <;> rfl

@[simp] theorem kind_withReceiver (node other : Expr) :
    (node.withReceiver other).kind = node.kind := by
  unfold withReceiver
  split <;> rfl

theorem kinds_withChildren {e : Expr} {parts : List Expr}
    (h : parts.length = e.children.length) :
    (e.withChildren parts).kinds = {e.kind} + (parts.map kinds).sum :=
  gather_withChildren (by rw [kind_withChildren]) h

theorem kinds_withReceiver {node receiver : Expr} (h : node.receiver? = some receiver)
    (other : Expr) :
    (node.withReceiver other).kinds + receiver.kinds = node.kinds + other.kinds :=
  gather_withReceiver h (by rw [kind_withReceiver])

@[simp] theorem kinds_param (ty : Ty) (name : String) : (param ty name).kinds = {.param} :=
  kinds_eq _

theorem kinds_coalesceOf (left right : Expr) :
    (coalesceOf left right).kinds = {.coalesce} + (left.kinds + right.kinds) := by
  rw [kinds_eq, coalesceOf]
  simp [children, kind]

theorem kinds_bindTo (name : String) (value body : Expr) :
    (bindTo name value body).kinds = {.bind} + (value.kinds + body.kinds) := by
  rw [kinds_eq, bindTo]
  simp [children, kind]

theorem total_map_nodeCount {parts : List Expr}
    (h : ∀ part ∈ parts, part.kinds.card = part.nodeCount) :
    total (parts.map nodeCount) = (parts.map kinds).sum.card := by
  induction parts with
  | nil => rfl
  | cons part parts ih =>
    rw [List.forall_mem_cons] at h
    simp [ih h.2, h.1]

theorem card_kinds (e : Expr) : e.kinds.card = e.nodeCount := by
  induction e using Expr.induction_children with
  | step e ih =>
    rw [kinds_eq, nodeCount_eq, total_map_nodeCount ih, Multiset.card_add, Multiset.card_singleton,
      Nat.add_comm]

/-! ## Names of binders -/

/-- What a node contributes are names that it binds. -/
structure IsBinding (own : Expr → Multiset String) : Prop where
  subset : ∀ e, ∀ name ∈ own e, name ∈ e.ownNames
  param : ∀ ty name, own (param ty name) = 0

namespace IsBinding

variable {own : Expr → Multiset String} (hown : IsBinding own)

include hown

theorem eq_zero {e : Expr} (h : e.ownNames = []) : own e = 0 := by
  refine Multiset.eq_zero_of_forall_notMem fun name hname => ?_
  have := hown.subset e name hname
  rw [h] at this
  cases this

theorem gather_param (ty : Ty) (name : String) : (Expr.param ty name).gather own = 0 := by
  rw [gather_eq, hown.param]
  rfl

theorem gather_coalesceOf (left right : Expr) :
    (coalesceOf left right).gather own = left.gather own + right.gather own := by
  rw [gather_eq, coalesceOf, hown.eq_zero rfl]
  simp [children]

theorem gather_withReceiver {node receiver : Expr} (h : node.receiver? = some receiver)
    (other : Expr) :
    (node.withReceiver other).gather own + receiver.gather own =
      node.gather own + other.gather own := by
  refine Expr.gather_withReceiver h ?_
  rw [hown.eq_zero (ownNames_of_receiver? h),
    hown.eq_zero (ownNames_of_receiver? (receiver?_withReceiver h other))]

theorem mem_names {name : String} {e : Expr} (h : name ∈ e.gather own) : name ∈ e.names := by
  induction e using Expr.induction_children with
  | step e ih =>
    rw [Expr.mem_names]
    rcases mem_gather.mp h with hname | ⟨part, hpart, hname⟩
    · exact .inl (hown.subset e name hname)
    · exact .inr ⟨part, hpart, ih part hpart hname⟩

theorem gather_eq_zero {e : Expr} (h : e.names = []) : e.gather own = 0 := by
  refine Multiset.eq_zero_of_forall_notMem fun name hname => ?_
  have := hown.mem_names hname
  rw [h] at this
  cases this

end IsBinding

theorem isBinding_ownLet : IsBinding ownLet where
  subset e name h := by
    cases e with
    | bind => simpa [ownLet, ownNames] using h
    | _ => cases h
  param _ _ := rfl

theorem isBinding_ownLambda : IsBinding ownLambda where
  subset e name h := by
    cases e with
    | lambda => simpa [ownLambda, ownNames] using h
    | _ => cases h
  param _ _ := rfl

theorem letNames_eq (e : Expr) : e.letNames = e.ownLet + (e.children.map letNames).sum :=
  gather_eq _ e

theorem lambdaNames_eq (e : Expr) :
    e.lambdaNames = e.ownLambda + (e.children.map lambdaNames).sum :=
  gather_eq _ e

theorem mem_letNames {name : String} {e : Expr} :
    name ∈ e.letNames ↔ name ∈ e.ownLet ∨ ∃ part ∈ e.children, name ∈ part.letNames :=
  mem_gather

theorem mem_lambdaNames {name : String} {e : Expr} :
    name ∈ e.lambdaNames ↔ name ∈ e.ownLambda ∨ ∃ part ∈ e.children, name ∈ part.lambdaNames :=
  mem_gather

theorem mem_names_of_mem_letNames {name : String} {e : Expr} (h : name ∈ e.letNames) :
    name ∈ e.names :=
  isBinding_ownLet.mem_names h

@[simp] theorem ownLet_withChildren (e : Expr) (parts : List Expr) :
    (e.withChildren parts).ownLet = e.ownLet := by
  unfold withChildren
  split <;> rfl

@[simp] theorem ownLambda_withChildren (e : Expr) (parts : List Expr) :
    (e.withChildren parts).ownLambda = e.ownLambda := by
  unfold withChildren
  split <;> rfl

theorem letNames_withChildren {e : Expr} {parts : List Expr}
    (h : parts.length = e.children.length) :
    (e.withChildren parts).letNames = e.ownLet + (parts.map letNames).sum :=
  gather_withChildren (ownLet_withChildren e parts) h

theorem lambdaNames_withChildren {e : Expr} {parts : List Expr}
    (h : parts.length = e.children.length) :
    (e.withChildren parts).lambdaNames = e.ownLambda + (parts.map lambdaNames).sum :=
  gather_withChildren (ownLambda_withChildren e parts) h

end Expr

end NullGuard
