import NullGuard.Guard.Safety
import NullGuard.Proofs.Expr.Parts

/-! # What is known at each part of a tree

A test against null tells about a parameter in one branch of its condition, and a binder makes
what is known about its names void in its body. -/

namespace NullGuard.Expr

/-- The parameters that are not null in the branch taken when the test is `outcome`. -/
def learned (test : Expr) (outcome : Bool) : List String :=
  match test.nullTest? with
  | some (name, whenNull) => if whenNull = outcome then [] else [name]
  | none => []

/-- A test against null is an equation, in either order, or the negation of one. -/
theorem nullTest?_eq_some {test : Expr} {name : String} {whenNull : Bool}
    (h : test.nullTest? = some (name, whenNull)) :
    ∃ ty paramTy nullTy left right,
      test = binary ty (if whenNull then .eq else .ne) left right ∧
        (left = param paramTy name ∧ right = literal nullTy .null ∨
          left = literal nullTy .null ∧ right = param paramTy name) := by
  cases test with
  | binary ty op left right =>
    simp only [nullTest?] at h
    split at h
    all_goals cases h
    · exact ⟨ty, _, _, _, _, rfl, .inl ⟨rfl, rfl⟩⟩
    · exact ⟨ty, _, _, _, _, rfl, .inr ⟨rfl, rfl⟩⟩
    · exact ⟨ty, _, _, _, _, rfl, .inl ⟨rfl, rfl⟩⟩
    · exact ⟨ty, _, _, _, _, rfl, .inr ⟨rfl, rfl⟩⟩
  | _ => cases h

theorem mem_learned {test : Expr} {outcome : Bool} {name : String} :
    name ∈ test.learned outcome ↔ test.nullTest? = some (name, !outcome) := by
  unfold learned
  cases test.nullTest? with
  | none => simp
  | some found =>
    obtain ⟨other, whenNull⟩ := found
    cases whenNull <;> cases outcome <;> simp [eq_comm]

theorem learned_subset_names (test : Expr) (outcome : Bool) :
    test.learned outcome ⊆ test.names := by
  intro name hname
  obtain ⟨_, _, _, _, _, rfl, ⟨rfl, rfl⟩ | ⟨rfl, rfl⟩⟩ :=
    nullTest?_eq_some (mem_learned.mp hname) <;>
    simp [names_eq (binary ..), children]

/-- What stays known below a binder. -/
def unbound (known bound : List String) : List String :=
  known.filter fun name => !bound.contains name

/-- The direct parts, each with the parameters that are known not to be null there. -/
def scopes (known : List String) : Expr → List (List String × Expr)
  | cond _ test ifTrue ifFalse =>
    [(known, test), (test.learned true ++ known, ifTrue), (test.learned false ++ known, ifFalse)]
  | lambda _ params body => [(unbound known (params.map (·.name)), body)]
  | bind _ var value body => [(known, value), (unbound known [var.name], body)]
  | e => e.children.map fun part => (known, part)

theorem scopes_map_snd (known : List String) (e : Expr) :
    (e.scopes known).map Prod.snd = e.children := by
  cases e <;> simp [scopes, children, Function.comp_def]

theorem mem_children_of_mem_scopes {known : List String} {e : Expr} {part : List String × Expr}
    (h : part ∈ e.scopes known) : part.2 ∈ e.children := by
  rw [← scopes_map_snd known e]
  exact List.mem_map_of_mem h

/-- The nodes that change what is known at their parts. -/
def changesScope : Expr → Bool
  | cond .. | lambda .. | bind .. => true
  | _ => false

theorem scopes_of_not_changesScope {e : Expr} (h : e.changesScope = false) (known : List String) :
    e.scopes known = e.children.map fun part => (known, part) := by
  cases e with
  | cond | lambda | bind => cases h
  | _ => rfl

theorem changesScope_withChildren (e : Expr) (parts : List Expr) :
    (e.withChildren parts).changesScope = e.changesScope := by
  unfold withChildren
  split <;> rfl

theorem changesScope_of_receiver? {node receiver : Expr} (h : node.receiver? = some receiver) :
    node.changesScope = false := by
  obtain ⟨_, _, _, rfl⟩ | ⟨_, _, _, rfl⟩ | ⟨_, _, _, _, rfl⟩ := exists_of_receiver? h <;> rfl

theorem scopes_of_receiver? {known : List String} {node receiver : Expr}
    (h : node.receiver? = some receiver) :
    node.scopes known = node.children.map fun part => (known, part) :=
  scopes_of_not_changesScope (changesScope_of_receiver? h) known

theorem unbound_subset {known other : List String} (h : known ⊆ other) (bound : List String) :
    unbound known bound ⊆ unbound other bound := by
  intro name hname
  simp only [unbound, List.mem_filter] at hname ⊢
  exact ⟨h hname.1, hname.2⟩

theorem unbound_subset_self (known bound : List String) : unbound known bound ⊆ known :=
  fun _ hname => (List.mem_filter.mp hname).1

theorem append_subset_append_left {known other : List String} (first : List String)
    (h : known ⊆ other) : first ++ known ⊆ first ++ other :=
  List.append_subset.mpr ⟨List.subset_append_left .., List.subset_append_of_subset_right first h⟩

/-- With more known at a node, no less is known at its parts. -/
theorem scopes_mono {known other : List String} (h : known ⊆ other) (e : Expr)
    {part : List String × Expr} (hpart : part ∈ e.scopes other) :
    ∃ weaker, (weaker, part.2) ∈ e.scopes known ∧ weaker ⊆ part.1 := by
  cases e with
  | cond ty test ifTrue ifFalse =>
    simp only [scopes, List.mem_cons, List.not_mem_nil, or_false] at hpart ⊢
    rcases hpart with rfl | rfl | rfl
    · exact ⟨known, .inl rfl, h⟩
    · exact ⟨_, .inr (.inl rfl), append_subset_append_left _ h⟩
    · exact ⟨_, .inr (.inr rfl), append_subset_append_left _ h⟩
  | lambda ty params body =>
    obtain rfl := List.mem_singleton.mp hpart
    exact ⟨_, List.mem_singleton.mpr rfl, unbound_subset h _⟩
  | bind ty var value body =>
    simp only [scopes, List.mem_cons, List.not_mem_nil, or_false] at hpart ⊢
    rcases hpart with rfl | rfl
    · exact ⟨known, .inl rfl, h⟩
    · exact ⟨_, .inr rfl, unbound_subset h _⟩
  | _ =>
    obtain ⟨child, hchild, rfl⟩ := List.mem_map.mp hpart
    exact ⟨known, List.mem_map_of_mem hchild, h⟩

/-- Every node of the tree satisfies `fits` with what is known there. -/
inductive Throughout (fits : List String → Expr → Prop) : List String → Expr → Prop where
  | node {known e} (here : fits known e)
      (parts : ∀ part ∈ e.scopes known, Throughout fits part.1 part.2) : Throughout fits known e

namespace Throughout

variable {fits : List String → Expr → Prop}

theorem here {known : List String} {e : Expr} (h : Throughout fits known e) : fits known e := by
  cases h with
  | node here _ => exact here

theorem of_mem_scopes {known : List String} {e : Expr} (h : Throughout fits known e)
    {part : List String × Expr} (hpart : part ∈ e.scopes known) :
    Throughout fits part.1 part.2 := by
  cases h with
  | node _ parts => exact parts part hpart

theorem mono (hfits : ∀ known other e, known ⊆ other → fits known e → fits other e)
    {known : List String} {e : Expr} (h : Throughout fits known e) {other : List String}
    (hknown : known ⊆ other) : Throughout fits other e := by
  induction h generalizing other with
  | node here _ ih =>
    refine .node (hfits _ _ _ hknown here) fun part hpart => ?_
    obtain ⟨weaker, hweaker, hsubset⟩ := scopes_mono hknown _ hpart
    exact ih _ hweaker hsubset

end Throughout

end NullGuard.Expr
