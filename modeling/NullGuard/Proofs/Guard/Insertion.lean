import NullGuard.Proofs.Guard.Fallback
import NullGuard.Proofs.Guard.Scope

/-! # Expressions with inserted guards

The relation between an expression and what becomes of it when guards are inserted, said without
the walk that inserts them. The parts of a node are treated first, each with what is known there,
and the node around them is then sealed at its receiver. -/

namespace NullGuard

open List (Forall₂)

/-! ## Lists in step -/

section Forall₂

variable {α β γ : Type} {R R' : α → β → Prop} {items : List α} {items' : List β}

theorem forall₂_imp_of_mem (h : Forall₂ R items items')
    (hR : ∀ a ∈ items, ∀ b ∈ items', R a b → R' a b) :
    Forall₂ R' items items' := by
  induction h with
  | nil => exact .nil
  | cons hhead _ ih =>
    refine .cons (hR _ List.mem_cons_self _ List.mem_cons_self hhead) (ih fun a ha b hb => ?_)
    exact hR a (List.mem_cons_of_mem _ ha) b (List.mem_cons_of_mem _ hb)

theorem exists_mem_of_forall₂ (h : Forall₂ R items items') {b : β} (hb : b ∈ items') :
    ∃ a ∈ items, R a b := by
  induction h with
  | nil => cases hb
  | @cons a _ _ _ hhead _ ih =>
    rcases List.mem_cons.mp hb with rfl | hb
    · exact ⟨a, List.mem_cons_self, hhead⟩
    · obtain ⟨a, ha, hab⟩ := ih hb
      exact ⟨a, List.mem_cons_of_mem _ ha, hab⟩

theorem map_eq_map_of_forall₂ {f : α → γ} {g : β → γ}
    (h : Forall₂ (fun a b => g b = f a) items items') : items'.map g = items.map f := by
  induction h with
  | nil => rfl
  | cons hhead _ ih => rw [List.map_cons, List.map_cons, hhead, ih]

end Forall₂

theorem lookup_eq_none_iff_not_mem {α β : Type} [BEq α] [LawfulBEq α] {entries : List (α × β)}
    {key : α} : entries.lookup key = none ↔ key ∉ entries.map Prod.fst := by
  rw [List.lookup_eq_none_iff, List.mem_map]
  simp only [bne_iff_ne, not_exists, not_and]
  exact forall₂_congr fun entry _ => ne_comm

/-! ## The relation -/

/-- What an insertion of guards is relative to: how types answer for their fallbacks, and whether
a short circuit prefers an empty instance. -/
structure GuardRules where
  defs : Definitions
  fallback : Ty → Option Expr
  emptyCollections : Bool
  emptyInstance : ∀ {ty recipe}, fallback ty = some recipe → EmptyInstance ty recipe

/-- The value of a node of that type whose receiver is null. -/
def GuardRules.shortCircuit (rules : GuardRules) (ty : Ty) : Expr :=
  (if rules.emptyCollections then rules.fallback ty else none).getD (missingValue rules.defs ty)

/-- A receiver that is used as it is where the parameters `known` are not null. -/
def Expr.NeedsNoGuard (defs : Definitions) (known : List String) (receiver : Expr) : Prop :=
  receiver.isSafe defs = true ∨ ∃ ty name, receiver = .param ty name ∧ name ∈ known

/-- What becomes of a node whose parts are treated already. -/
inductive Seals (rules : GuardRules) (known : List String) (node : Expr) : Expr → Prop where
  | free (h : node.receiver? = none) : Seals rules known node node
  | kept {receiver} (h : node.receiver? = some receiver)
      (hsafe : receiver.NeedsNoGuard rules.defs known) : Seals rules known node node
  | coalesced {receiver recipe} (h : node.receiver? = some receiver)
      (hneeds : ¬ receiver.NeedsNoGuard rules.defs known)
      (hfallback : rules.fallback receiver.ty = some recipe) :
      Seals rules known node (node.withReceiver (.coalesceOf receiver recipe))
  | tested {ty name} (h : node.receiver? = some (.param ty name))
      (hneeds : ¬ (Expr.param ty name).NeedsNoGuard rules.defs known)
      (hfallback : rules.fallback ty = none) :
      Seals rules known node
        (nullCheck (.param ty name) (rules.shortCircuit node.ty) node node.ty)
  | held {receiver name} (h : node.receiver? = some receiver)
      (hneeds : ¬ receiver.NeedsNoGuard rules.defs known)
      (hfallback : rules.fallback receiver.ty = none)
      (hparam : ∀ ty other, receiver ≠ .param ty other)
      (hfresh : name ∉ node.names) (hknown : name ∉ known) :
      Seals rules known node
        (.bindTo name receiver
          (nullCheck (.param receiver.ty name) (rules.shortCircuit node.ty)
            (node.withReceiver (.param receiver.ty name)) node.ty))

/-- `r` is `e` with guards, where the parameters `known` are not null. -/
inductive Guards (rules : GuardRules) : List String → Expr → Expr → Prop where
  | node {known e parts r} (complete : e.lacksReceiver = false)
      (hparts : Forall₂ (fun part part' => Guards rules part.1 part.2 part') (e.scopes known) parts)
      (hseal : Seals rules known (e.withChildren parts) r) : Guards rules known e r

/-- The parts of a node with their guards. -/
abbrev GuardsParts (rules : GuardRules) (known : List String) (e : Expr) (parts : List Expr) :
    Prop :=
  Forall₂ (fun part part' => Guards rules part.1 part.2 part') (e.scopes known) parts

variable {rules : GuardRules} {known : List String} {e node r : Expr} {parts : List Expr}

theorem GuardsParts.length_eq (h : GuardsParts rules known e parts) :
    parts.length = e.children.length := by
  rw [← Expr.scopes_map_snd known e, List.length_map]
  exact (Forall₂.length_eq h).symm

/-- The receiver of a node whose parts are treated is what became of its receiver. -/
theorem exists_receiver_of_withChildren {receiver : Expr}
    (hparts : Forall₂ (Guards rules known) e.children parts)
    (h : (e.withChildren parts).receiver? = some receiver) :
    receiver ∈ parts ∧
      ∃ original, e.receiver? = some original ∧ Guards rules known original receiver := by
  rw [Expr.receiver?_withChildren hparts.length_eq.symm] at h
  rw [Expr.receiver?_eq]
  split at h
  · rename_i htakes
    obtain ⟨rest, rfl⟩ := List.head?_eq_some_iff.mp h
    obtain ⟨original, others, hhead, _, hchildren⟩ := List.forall₂_cons_right_iff.mp hparts
    refine ⟨List.mem_cons_self, original, ?_, hhead⟩
    rw [if_pos htakes, hchildren, List.head?_cons]
  · cases h

/-! ## What a guard leaves as it is -/

theorem Seals.ty_eq (h : Seals rules known node r) : r.ty = node.ty := by
  cases h with
  | free | kept => rfl
  | coalesced h => exact Expr.ty_withReceiver h _
  | tested | held => rfl

theorem Seals.eq_of_receiver?_eq_none (h : Seals rules known node r)
    (hnone : node.receiver? = none) : r = node := by
  cases h with
  | free => rfl
  | kept h | coalesced h | tested h | held h => cases hnone.symm.trans h

theorem Guards.ty_eq (h : Guards rules known e r) : r.ty = e.ty := by
  cases h with
  | node _ _ hseal => rw [hseal.ty_eq, Expr.ty_withChildren]

theorem map_ty_eq (h : Forall₂ (Guards rules known) e.children parts) :
    parts.map Expr.ty = e.children.map Expr.ty :=
  map_eq_map_of_forall₂ (h.imp fun _ _ hpart => hpart.ty_eq)

namespace Expr

/-- Parameters and literals, the operands of a test against null. -/
def isAtom : Expr → Bool
  | param .. | literal .. => true
  | _ => false

theorem isAtom_withChildren (e : Expr) (parts : List Expr) :
    (e.withChildren parts).isAtom = e.isAtom := by
  unfold withChildren
  split <;> rfl

theorem isAtom_of_receiver? {node receiver : Expr} (h : node.receiver? = some receiver) :
    node.isAtom = false := by
  obtain ⟨_, _, _, rfl⟩ | ⟨_, _, _, rfl⟩ | ⟨_, _, _, _, rfl⟩ := exists_of_receiver? h <;> rfl

theorem nullTest?_of_receiver? {node receiver : Expr} (h : node.receiver? = some receiver) :
    node.nullTest? = none := by
  obtain ⟨_, _, _, rfl⟩ | ⟨_, _, _, rfl⟩ | ⟨_, _, _, _, rfl⟩ := exists_of_receiver? h <;> rfl

theorem nullTest?_of_not_isAtom {ty : Ty} {op : BinaryOp} {left right : Expr}
    (h : left.isAtom = false ∨ right.isAtom = false) :
    (binary ty op left right).nullTest? = none := by
  simp only [nullTest?]
  split <;> simp_all [isAtom]

end Expr

theorem Seals.isAtom_eq (h : Seals rules known node r) : r.isAtom = node.isAtom := by
  cases h with
  | free | kept => rfl
  | coalesced h =>
    rw [Expr.isAtom_of_receiver? (Expr.receiver?_withReceiver h _), Expr.isAtom_of_receiver? h]
  | tested h | held h => rw [Expr.isAtom_of_receiver? h]; rfl

theorem Guards.isAtom_eq (h : Guards rules known e r) : r.isAtom = e.isAtom := by
  cases h with
  | node _ _ hseal => rw [hseal.isAtom_eq, Expr.isAtom_withChildren]

theorem Guards.eq_of_isAtom (h : Guards rules known e r) (hatom : e.isAtom = true) : r = e := by
  cases h with
  | node _ hparts hseal =>
    have hnode : (∀ parts, e.withChildren parts = e) ∧ e.receiver? = none := by
      cases e with
      | param | literal => exact ⟨fun _ => rfl, rfl⟩
      | _ => cases hatom
    rw [hnode.1] at hseal
    exact hseal.eq_of_receiver?_eq_none hnode.2

theorem Seals.nullTest?_eq (h : Seals rules known node r) : r.nullTest? = node.nullTest? := by
  cases h with
  | free | kept => rfl
  | coalesced h =>
    rw [Expr.nullTest?_of_receiver? (Expr.receiver?_withReceiver h _),
      Expr.nullTest?_of_receiver? h]
  | tested h | held h => rw [Expr.nullTest?_of_receiver? h]; rfl

/-- Guards neither make a test against null nor take one away. -/
theorem Guards.nullTest?_eq (h : Guards rules known e r) : r.nullTest? = e.nullTest? := by
  cases h with
  | node _ hparts hseal =>
    rw [hseal.nullTest?_eq]
    cases e with
    | binary ty op left right =>
      rcases hparts with _ | ⟨hleft, _ | ⟨hright, _ | _⟩⟩
      by_cases hatoms : left.isAtom = true ∧ right.isAtom = true
      · rw [hleft.eq_of_isAtom hatoms.1, hright.eq_of_isAtom hatoms.2]
        rfl
      · have hsome : left.isAtom = false ∨ right.isAtom = false := by
          simpa only [not_and_or, Bool.not_eq_true] using hatoms
        rw [Expr.nullTest?_of_not_isAtom hsome]
        exact Expr.nullTest?_of_not_isAtom (hsome.imp (hleft.isAtom_eq.trans ·)
          (hright.isAtom_eq.trans ·))
    | _ =>
      unfold Expr.withChildren
      split <;> first | rfl | contradiction

theorem Guards.learned_eq (h : Guards rules known e r) (outcome : Bool) :
    r.learned outcome = e.learned outcome := by
  rw [Expr.learned, Expr.learned, h.nullTest?_eq]

/-- A guard uses the names of the parts that it stands around. -/
theorem Seals.names_subset (h : Seals rules known node r) {part : Expr}
    (hpart : part ∈ node.children) : part.names ⊆ r.names := by
  have hnode : part.names ⊆ node.names := Expr.names_subset_of_mem_children hpart
  cases h with
  | free | kept => exact hnode
  | @coalesced receiver recipe hreceiver =>
    have hnames : ∀ part ∈ (node.withReceiver (.coalesceOf receiver recipe)).children,
        part.names ⊆ (node.withReceiver (.coalesceOf receiver recipe)).names :=
      fun _ => Expr.names_subset_of_mem_children
    rw [Expr.children_withReceiver hreceiver, List.forall_mem_cons] at hnames
    rw [Expr.children_of_receiver? hreceiver] at hpart
    rcases List.mem_cons.mp hpart with rfl | hpart
    · exact List.Subset.trans (Expr.names_subset_of_mem_children List.mem_cons_self) hnames.1
    · exact hnames.2 part hpart
  | tested hreceiver =>
    refine List.Subset.trans hnode (Expr.names_subset_of_mem_children ?_)
    simp [nullCheck, Expr.children]
  | @held receiver name hreceiver =>
    rw [Expr.children_of_receiver? hreceiver] at hpart
    rcases List.mem_cons.mp hpart with rfl | hpart
    · exact Expr.names_subset_of_mem_children List.mem_cons_self
    · have hguarded : part ∈ (node.withReceiver (.param receiver.ty name)).children := by
        rw [Expr.children_withReceiver hreceiver]
        exact List.mem_cons_of_mem _ hpart
      refine List.Subset.trans (Expr.names_subset_of_mem_children hguarded) ?_
      refine List.Subset.trans (Expr.names_subset_of_mem_children ?_)
        (Expr.names_subset_of_mem_children (List.mem_cons_of_mem _ List.mem_cons_self))
      simp [nullCheck, Expr.children]

/-! ## Properties of the guarded tree -/

theorem GuardsParts.of_not_changesScope (h : GuardsParts rules known e parts)
    (hscope : e.changesScope = false) : Forall₂ (Guards rules known) e.children parts := by
  rw [GuardsParts, Expr.scopes_of_not_changesScope hscope, List.forall₂_map_left_iff] at h
  exact h

/-- The parts that are treated already stand where the parts before them stood. -/
theorem GuardsParts.scopes (h : GuardsParts rules known e parts) :
    Forall₂ (fun part part' => part.1 = part'.1 ∧ Guards rules part.1 part.2 part'.2)
      (e.scopes known) ((e.withChildren parts).scopes known) := by
  by_cases hscope : e.changesScope = true
  · cases e with
    | cond ty test ifTrue ifFalse =>
      rcases h with _ | ⟨htest, _ | ⟨htrue, _ | ⟨hfalse, _ | _⟩⟩⟩
      simp only [Expr.withChildren, Expr.scopes, htest.learned_eq]
      exact .cons ⟨rfl, htest⟩ (.cons ⟨rfl, htrue⟩ (.cons ⟨rfl, hfalse⟩ .nil))
    | lambda ty params body =>
      rcases h with _ | ⟨hbody, _ | _⟩
      exact .cons ⟨rfl, hbody⟩ .nil
    | bind ty var value body =>
      rcases h with _ | ⟨hvalue, _ | ⟨hbody, _ | _⟩⟩
      exact .cons ⟨rfl, hvalue⟩ (.cons ⟨rfl, hbody⟩ .nil)
    | _ => cases hscope
  · rw [Bool.not_eq_true] at hscope
    have hscope' := (Expr.changesScope_withChildren e parts).trans hscope
    rw [Expr.scopes_of_not_changesScope hscope', Expr.children_withChildren h.length_eq,
      Expr.scopes_of_not_changesScope hscope, List.forall₂_map_left_iff,
      List.forall₂_map_right_iff]
    exact (h.of_not_changesScope hscope).imp fun _ _ hpart => ⟨rfl, hpart⟩

theorem GuardsParts.exists_of_mem_scopes (h : GuardsParts rules known e parts)
    {part' : List String × Expr} (hpart' : part' ∈ (e.withChildren parts).scopes known) :
    ∃ part ∈ e.children, Guards rules part'.1 part part'.2 := by
  obtain ⟨part, hpart, hknown, hguards⟩ := exists_mem_of_forall₂ h.scopes hpart'
  exact ⟨part.2, Expr.mem_children_of_mem_scopes hpart, hknown ▸ hguards⟩

/-- The receivers that guards put in place of others. -/
inductive GuardedReceiver (known : List String) : Expr → Prop where
  | alternative {receiver recipe} (h : EmptyInstance receiver.ty recipe) :
      GuardedReceiver known (.coalesceOf receiver recipe)
  | known {ty name} (h : name ∈ known) : GuardedReceiver known (.param ty name)

/-- The kinds of nodes that guards are built from. -/
def Expr.isPlain : Expr → Bool
  | param .. | literal .. | default _ | binary .. | coalesce .. | cond .. | convert ..
  | construct .. | newArray .. | bind .. => true
  | _ => false

section Throughout

open NullGuard.Expr

variable {fits : List String → Expr → Prop}

theorem throughout_withReceiver {receiver other : Expr} (h : node.receiver? = some receiver)
    (hfits : fits known (node.withReceiver other)) (hother : Throughout fits known other)
    (hrest : ∀ part ∈ node.children.tail, Throughout fits known part) :
    Throughout fits known (node.withReceiver other) := by
  refine .node hfits fun part hpart => ?_
  rw [scopes_of_receiver? (receiver?_withReceiver h other), children_withReceiver h] at hpart
  obtain ⟨child, hchild, rfl⟩ := List.mem_map.mp hpart
  rcases List.mem_cons.mp hchild with rfl | hchild
  · exact hother
  · exact hrest child hchild

variable (hplain : ∀ {known e}, e.isPlain = true → fits known e)

include hplain

theorem throughout_atom (h : e.isAtom = true) : Throughout fits known e := by
  cases e with
  | param | literal => exact .node (hplain rfl) nofun
  | _ => cases h

theorem EmptyInstance.throughout {ty : Ty} {recipe : Expr} (h : EmptyInstance ty recipe) :
    Throughout fits known recipe := by
  cases h with
  | array => exact .node (hplain rfl) nofun
  | collection =>
    refine .node (hplain rfl) fun part hpart => ?_
    obtain rfl := List.mem_singleton.mp hpart
    exact .node (hplain rfl) nofun

theorem GuardRules.throughout_shortCircuit (rules : GuardRules) (ty : Ty) :
    Throughout fits known (rules.shortCircuit ty) := by
  have hmissing : Throughout fits known (missingValue rules.defs ty) := by
    unfold missingValue
    split
    · exact throughout_atom hplain rfl
    · exact .node (hplain rfl) nofun
  unfold shortCircuit
  split
  · cases hfallback : rules.fallback ty with
    | none => exact hmissing
    | some recipe => exact (rules.emptyInstance hfallback).throughout hplain
  · exact hmissing

/-- The node of a test against null stands where the parameter is known not to be null. -/
theorem throughout_nullCheck {ty resultTy : Ty} {name : String} {whenNull : Expr}
    (hnull : Throughout fits known whenNull) (hnode : Throughout fits (name :: known) node) :
    Throughout fits known (nullCheck (.param ty name) whenNull node resultTy) := by
  refine .node (hplain rfl) fun part hpart => ?_
  rcases hpart with _ | ⟨_, _ | ⟨_, _ | ⟨_, _ | _⟩⟩⟩
  · refine .node (hplain rfl) fun operand hoperand => ?_
    rcases hoperand with _ | ⟨_, _ | ⟨_, _ | _⟩⟩
    · exact throughout_atom hplain rfl
    · exact throughout_atom hplain rfl
  · exact hnull
  · exact hnode

end Throughout

/-- Sealing a node keeps a property throughout the tree if it holds of the nodes that guards are
built from, of the nodes with a guarded receiver, and of the node itself where it needs no guard. -/
theorem Seals.throughout {fits : List String → Expr → Prop}
    (hmono : ∀ known other e, known ⊆ other → fits known e → fits other e)
    (hplain : ∀ {known e}, e.isPlain = true → fits known e)
    (hguarded : ∀ {known node receiver}, node.receiver? = some receiver →
      GuardedReceiver known receiver → fits known node)
    (h : Seals rules known node r)
    (hparts : ∀ part ∈ node.scopes known, part.2.Throughout fits part.1)
    (hkept : (∀ receiver, node.receiver? = some receiver →
      receiver.NeedsNoGuard rules.defs known) → fits known node) :
    r.Throughout fits known := by
  -- Around a receiver nothing changes what is known, so its siblings fit there too.
  have hchildren : ∀ {receiver}, node.receiver? = some receiver →
      receiver.Throughout fits known ∧
        ∀ part ∈ node.children.tail, part.Throughout fits known := by
    intro receiver hreceiver
    have hall := hparts
    rw [Expr.scopes_of_receiver? hreceiver, List.forall_mem_map,
      Expr.children_of_receiver? hreceiver, List.forall_mem_cons] at hall
    exact hall
  have hmono' : ∀ {other : List String} {part : Expr}, known ⊆ other →
      part.Throughout fits known → part.Throughout fits other :=
    fun hsub hpart => hpart.mono hmono hsub
  cases h with
  | free hnone =>
    refine .node (hkept fun receiver hreceiver => ?_) hparts
    cases hnone.symm.trans hreceiver
  | kept hsome hsafe =>
    refine .node (hkept fun receiver hreceiver => ?_) hparts
    cases hsome.symm.trans hreceiver
    exact hsafe
  | @coalesced receiver recipe hsome _ hfallback =>
    obtain ⟨hreceiver, hrest⟩ := hchildren hsome
    have hrecipe := rules.emptyInstance hfallback
    refine throughout_withReceiver hsome
      (hguarded (Expr.receiver?_withReceiver hsome _) (.alternative hrecipe)) ?_ hrest
    refine .node (hplain rfl) fun part hpart => ?_
    rcases hpart with _ | ⟨_, _ | ⟨_, _ | _⟩⟩
    · exact hreceiver
    · exact hrecipe.throughout hplain
  | @tested ty name hsome =>
    obtain ⟨_, hrest⟩ := hchildren hsome
    refine throughout_nullCheck hplain (rules.throughout_shortCircuit hplain _) ?_
    rw [← Expr.withReceiver_self hsome]
    refine throughout_withReceiver hsome
      (hguarded (Expr.receiver?_withReceiver hsome _) (.known List.mem_cons_self))
      (throughout_atom hplain rfl) fun part hpart => ?_
    exact hmono' (List.subset_cons_self _ _) (hrest part hpart)
  | @held receiver name hsome =>
    obtain ⟨hreceiver, hrest⟩ := hchildren hsome
    refine .node (hplain rfl) fun part hpart => ?_
    rcases hpart with _ | ⟨_, _ | ⟨_, _ | _⟩⟩
    · exact hreceiver
    · refine throughout_nullCheck hplain (rules.throughout_shortCircuit hplain _) ?_
      refine throughout_withReceiver hsome
        (hguarded (Expr.receiver?_withReceiver hsome _) (.known List.mem_cons_self))
        (throughout_atom hplain rfl) fun part hpart => ?_
      refine hmono' ?_ (hrest part hpart)
      intro other hother
      by_cases hname : other = name
      · exact hname ▸ List.mem_cons_self
      · exact List.mem_cons_of_mem _ (List.mem_filter.mpr ⟨hother, by simp [hname]⟩)

/-- A property of nodes holds throughout a guarded tree if it holds of the nodes that guards are
built from, of the nodes with a guarded receiver, and of those that stay as they are. -/
theorem Guards.throughout {fits : List String → Expr → Prop}
    (hmono : ∀ known other e, known ⊆ other → fits known e → fits other e)
    (hplain : ∀ {known e}, e.isPlain = true → fits known e)
    (hguarded : ∀ {known node receiver}, node.receiver? = some receiver →
      GuardedReceiver known receiver → fits known node)
    (h : Guards rules known e r)
    (hkept : e.Every fun node => ∀ known parts, node.lacksReceiver = false →
      GuardsParts rules known node parts →
      (∀ receiver, (node.withChildren parts).receiver? = some receiver →
        receiver.NeedsNoGuard rules.defs known) → fits known (node.withChildren parts)) :
    r.Throughout fits known := by
  induction e using Expr.induction_children generalizing known r with
  | step e ih =>
    cases h with
    | @node _ _ parts _ complete hparts hseal =>
      refine hseal.throughout hmono hplain hguarded (fun part' hpart' => ?_)
        (hkept.here known parts complete hparts)
      obtain ⟨part, hpart, hguards⟩ := GuardsParts.exists_of_mem_scopes hparts hpart'
      exact ih part hpart hguards (hkept.of_mem_children hpart)

end NullGuard
