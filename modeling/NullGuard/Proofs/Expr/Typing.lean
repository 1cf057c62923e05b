import NullGuard.Proofs.Expr.Parts

/-! # Well-typed expressions

An expression is well typed where the types of its nodes fit those of their parts, and where each
bound parameter has the type of the binder that is nearest to it. -/

namespace NullGuard.Expr

open List (Forall₂)

/-- The names bound around an expression with their types, the nearest first. -/
abbrev Binders := List (String × Ty)

/-- The direct parts, each with the names bound around it. Of two parameters of one name in a
lambda the last is the nearest. -/
def boundScopes (binders : Binders) : Expr → List (Binders × Expr)
  | lambda _ params body =>
    [((params.map fun param => (param.name, param.ty)).reverse ++ binders, body)]
  | bind _ var value body => [(binders, value), ((var.name, var.ty) :: binders, body)]
  | e => e.children.map fun part => (binders, part)

/-- The type of the node fits the types of its parts and of its name. -/
def FitsTogether (binders : Binders) : Expr → Prop
  | param ty name => ∀ bound, binders.lookup name = some bound → ty = bound
  | member _ target _ declaring => declaring = target.ty
  | coalesce ty left _ => ty = left.ty
  | cond ty test ifTrue ifFalse => test.ty = .bool ∧ ifTrue.ty = ty ∧ ifFalse.ty = ty
  | bind ty var value body => var.ty = value.ty ∧ ty = body.ty
  | _ => True

/-- Every node of the tree fits its parts and the names bound around it. -/
inductive WellTyped : Binders → Expr → Prop where
  | node {binders e} (here : e.FitsTogether binders)
      (parts : ∀ part ∈ e.boundScopes binders, WellTyped part.1 part.2) : WellTyped binders e

variable {binders other : Binders} {e node receiver : Expr}

theorem WellTyped.here (h : e.WellTyped binders) : e.FitsTogether binders := by
  cases h with
  | node here _ => exact here

theorem WellTyped.of_mem_boundScopes (h : e.WellTyped binders) {part : Binders × Expr}
    (hpart : part ∈ e.boundScopes binders) : part.2.WellTyped part.1 := by
  cases h with
  | node _ parts => exact parts part hpart

/-! ## Parts -/

theorem boundScopes_map_snd (binders : Binders) (e : Expr) :
    (e.boundScopes binders).map Prod.snd = e.children := by
  cases e <;> simp [boundScopes, children, Function.comp_def]

theorem mem_children_of_mem_boundScopes {part : Binders × Expr}
    (h : part ∈ e.boundScopes binders) : part.2 ∈ e.children := by
  rw [← boundScopes_map_snd binders e]
  exact List.mem_map_of_mem h

/-- The nodes that bind names in their parts. -/
def isBinder : Expr → Bool
  | lambda .. | bind .. => true
  | _ => false

theorem boundScopes_of_not_isBinder (h : e.isBinder = false) (binders : Binders) :
    e.boundScopes binders = e.children.map fun part => (binders, part) := by
  cases e with
  | lambda | bind => cases h
  | _ => rfl

theorem isBinder_withChildren (e : Expr) (parts : List Expr) :
    (e.withChildren parts).isBinder = e.isBinder := by
  unfold withChildren
  split <;> rfl

theorem isBinder_of_receiver? (h : node.receiver? = some receiver) : node.isBinder = false := by
  obtain ⟨_, _, _, rfl⟩ | ⟨_, _, _, rfl⟩ | ⟨_, _, _, _, rfl⟩ := exists_of_receiver? h <;> rfl

/-- Other parts stand where the parts before them stood. -/
theorem boundScopes_withChildren (binders : Binders) {related : Expr → Expr → Prop}
    {parts : List Expr} (h : Forall₂ related e.children parts) :
    Forall₂ (fun part part' => part.1 = part'.1 ∧ related part.2 part'.2)
      (e.boundScopes binders) ((e.withChildren parts).boundScopes binders) := by
  by_cases hbinder : e.isBinder = true
  · cases e with
    | lambda ty params body =>
      rcases h with _ | ⟨hbody, _ | _⟩
      exact .cons ⟨rfl, hbody⟩ .nil
    | bind ty var value body =>
      rcases h with _ | ⟨hvalue, _ | ⟨hbody, _ | _⟩⟩
      exact .cons ⟨rfl, hvalue⟩ (.cons ⟨rfl, hbody⟩ .nil)
    | _ => cases hbinder
  · rw [Bool.not_eq_true] at hbinder
    rw [boundScopes_of_not_isBinder hbinder,
      boundScopes_of_not_isBinder ((isBinder_withChildren e parts).trans hbinder),
      children_withChildren h.length_eq.symm, List.forall₂_map_left_iff,
      List.forall₂_map_right_iff]
    exact h.imp fun _ _ hpart => ⟨rfl, hpart⟩

/-- Whether a node fits its parts depends on their types only. -/
theorem FitsTogether.withChildren {parts : List Expr}
    (htypes : parts.map Expr.ty = e.children.map Expr.ty) (h : e.FitsTogether binders) :
    (e.withChildren parts).FitsTogether binders := by
  have hlength : parts.length = e.children.length := by simpa using congrArg List.length htypes
  cases e with
  | member =>
    obtain ⟨part, rfl⟩ := List.length_eq_one_iff.mp hlength
    simp_all [children, Expr.withChildren, FitsTogether]
  | coalesce | bind =>
    obtain ⟨first, second, rfl⟩ := List.length_eq_two.mp hlength
    simp_all [children, Expr.withChildren, FitsTogether]
  | cond =>
    obtain ⟨first, second, third, rfl⟩ := List.length_eq_three.mp hlength
    simp_all [children, Expr.withChildren, FitsTogether]
  | param => exact h
  | _ =>
    unfold Expr.withChildren
    split <;> first | exact trivial | contradiction

/-! ## Binders that are not looked up -/

theorem FitsTogether.congr (h : e.FitsTogether binders)
    (hlookup : ∀ name ∈ e.names, other.lookup name = binders.lookup name) :
    e.FitsTogether other := by
  cases e with
  | param ty name =>
    intro bound hbound
    rw [hlookup name (by simp)] at hbound
    exact h bound hbound
  | _ => exact h

theorem boundScopes_congr {part : Binders × Expr}
    (hlookup : ∀ name ∈ e.names, other.lookup name = binders.lookup name)
    (hpart : part ∈ e.boundScopes other) :
    ∃ inner, (inner, part.2) ∈ e.boundScopes binders ∧
      ∀ name ∈ part.2.names, part.1.lookup name = inner.lookup name := by
  have hnames : ∀ child ∈ e.children, ∀ name ∈ child.names,
      other.lookup name = binders.lookup name := fun child hchild name hname =>
    hlookup name (names_subset_of_mem_children hchild hname)
  cases e with
  | lambda ty params body =>
    obtain rfl := List.mem_singleton.mp hpart
    refine ⟨_, List.mem_singleton.mpr rfl, fun name hname => ?_⟩
    rw [List.lookup_append, List.lookup_append, hnames body List.mem_cons_self name hname]
  | bind ty var value body =>
    simp only [children, List.forall_mem_cons] at hnames
    simp only [boundScopes, List.mem_cons, List.not_mem_nil, or_false] at hpart ⊢
    rcases hpart with rfl | rfl
    · exact ⟨_, .inl rfl, hnames.1⟩
    · refine ⟨_, .inr rfl, fun name hname => ?_⟩
      rw [List.lookup_cons, List.lookup_cons, hnames.2.1 name hname]
  | _ =>
    obtain ⟨child, hchild, rfl⟩ := List.mem_map.mp hpart
    exact ⟨binders, List.mem_map_of_mem hchild, hnames child hchild⟩

/-- Only what binders say about the names of the expression matters. -/
theorem WellTyped.congr (h : e.WellTyped binders)
    (hlookup : ∀ name ∈ e.names, other.lookup name = binders.lookup name) :
    e.WellTyped other := by
  induction h generalizing other with
  | node here _ ih =>
    refine .node (here.congr hlookup) fun part hpart => ?_
    obtain ⟨inner, hinner, hlookup'⟩ := boundScopes_congr hlookup hpart
    exact ih _ hinner hlookup'

theorem WellTyped.cons_of_not_mem {name : String} {ty : Ty} (h : e.WellTyped binders)
    (hname : name ∉ e.names) : e.WellTyped ((name, ty) :: binders) := by
  refine h.congr fun other hother => ?_
  have hne : other ≠ name := fun heq => hname (heq ▸ hother)
  rw [List.lookup_cons, beq_eq_false_iff_ne.mpr hne]

/-! ## Receivers -/

theorem WellTyped.of_receiver? (h : node.WellTyped binders)
    (hreceiver : node.receiver? = some receiver) :
    receiver.WellTyped binders ∧ ∀ part ∈ node.children.tail, part.WellTyped binders := by
  have hparts : ∀ part ∈ node.boundScopes binders, part.2.WellTyped part.1 :=
    fun _ => h.of_mem_boundScopes
  rw [boundScopes_of_not_isBinder (isBinder_of_receiver? hreceiver), List.forall_mem_map,
    children_of_receiver? hreceiver, List.forall_mem_cons] at hparts
  exact hparts

/-- A receiver of the same type can take the place of another. -/
theorem WellTyped.withReceiver {replacement : Expr} (h : node.WellTyped binders)
    (hreceiver : node.receiver? = some receiver) (htype : replacement.ty = receiver.ty)
    (hreplacement : replacement.WellTyped other)
    (hrest : ∀ part ∈ node.children.tail, part.WellTyped other) :
    (node.withReceiver replacement).WellTyped other := by
  have hreceiver' := receiver?_withReceiver hreceiver replacement
  refine .node ?_ fun part hpart => ?_
  · have hhere := h.here
    obtain ⟨_, _, _, rfl⟩ | ⟨_, _, _, rfl⟩ | ⟨_, _, _, _, rfl⟩ := exists_of_receiver? hreceiver
    · exact hhere.trans htype.symm
    · trivial
    · trivial
  · rw [boundScopes_of_not_isBinder (isBinder_of_receiver? hreceiver'),
      children_withReceiver hreceiver] at hpart
    obtain ⟨child, hchild, rfl⟩ := List.mem_map.mp hpart
    rcases List.mem_cons.mp hchild with rfl | hchild
    · exact hreplacement
    · exact hrest child hchild

end NullGuard.Expr
