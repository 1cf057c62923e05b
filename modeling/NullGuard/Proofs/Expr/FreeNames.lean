import NullGuard.Expr.Build
import NullGuard.Proofs.Expr.Typing

/-! # Free and confined names

A parameter is free where no binder around it binds its name. A name is confined where all that
uses it lies below a `bind` node that binds it. -/

namespace NullGuard.Expr

open List (Forall₂)

variable {name : String} {e node receiver : Expr}

/-! ## Free names -/

/-- Some parameter of that name in the tree is not below a binder of the name. -/
inductive FreeIn (name : String) : Expr → Prop where
  | param {ty} : FreeIn name (param ty name)
  | part {e part} (hpart : part ∈ e.boundScopes []) (hbound : name ∉ part.1.map Prod.fst)
      (h : FreeIn name part.2) : FreeIn name e

theorem FreeIn.mem_names (h : e.FreeIn name) : name ∈ e.names := by
  induction h with
  | param => simp
  | part hpart _ _ ih =>
    exact names_subset_of_mem_children (mem_children_of_mem_boundScopes hpart) ih

theorem not_freeIn_of_names_eq_nil (h : e.names = []) : ¬ e.FreeIn name :=
  fun hfree => List.not_mem_nil (h ▸ hfree.mem_names)

@[simp] theorem freeIn_param {ty : Ty} {other : String} :
    (param ty other).FreeIn name ↔ name = other := by
  refine ⟨fun h => ?_, fun h => h ▸ .param⟩
  cases h with
  | param => rfl
  | part hpart => cases hpart

theorem freeIn_lambda {ty : Ty} {params : List Param} {body : Expr} :
    (lambda ty params body).FreeIn name ↔ name ∉ params.map Param.name ∧ body.FreeIn name := by
  have hscope : ((params.map fun p : Param => (p.name, p.ty)).reverse ++ []).map Prod.fst =
      (params.map Param.name).reverse := by
    simp [Function.comp_def]
  constructor
  · rintro (_ | ⟨hpart, hbound, h⟩)
    obtain rfl := List.mem_singleton.mp hpart
    rw [hscope, List.mem_reverse] at hbound
    exact ⟨hbound, h⟩
  · rintro ⟨hbound, h⟩
    rw [← List.mem_reverse, ← hscope] at hbound
    exact .part (List.mem_singleton.mpr rfl) hbound h

theorem freeIn_bind {ty : Ty} {var : Param} {value body : Expr} :
    (bind ty var value body).FreeIn name ↔
      value.FreeIn name ∨ name ≠ var.name ∧ body.FreeIn name := by
  constructor
  · rintro (_ | ⟨hpart, hbound, h⟩)
    rcases hpart with _ | ⟨_, _ | ⟨_, _ | _⟩⟩
    · exact .inl h
    · exact .inr ⟨by simpa using hbound, h⟩
  · rintro (h | ⟨hbound, h⟩)
    · exact .part List.mem_cons_self nofun h
    · exact .part (List.mem_cons_of_mem _ List.mem_cons_self) (by simpa using hbound) h

/-- The nodes that are neither parameters nor binders leave free what their parts leave free. -/
def passesNames : Expr → Bool
  | param .. | lambda .. | bind .. => false
  | _ => true

theorem isBinder_of_passesNames (h : e.passesNames = true) : e.isBinder = false := by
  cases e with
  | lambda | bind => cases h
  | _ => rfl

theorem freeIn_of_passesNames (h : e.passesNames = true) :
    e.FreeIn name ↔ ∃ part ∈ e.children, part.FreeIn name := by
  constructor
  · rintro (_ | ⟨hpart, _, hfree⟩)
    · cases h
    · exact ⟨_, mem_children_of_mem_boundScopes hpart, hfree⟩
  · rintro ⟨part, hpart, hfree⟩
    have hscope : ([], part) ∈ e.boundScopes [] := by
      rw [boundScopes_of_not_isBinder (isBinder_of_passesNames h)]
      exact List.mem_map_of_mem hpart
    exact .part hscope nofun hfree

theorem passesNames_of_receiver? (h : node.receiver? = some receiver) :
    node.passesNames = true := by
  obtain ⟨_, _, _, rfl⟩ | ⟨_, _, _, rfl⟩ | ⟨_, _, _, _, rfl⟩ := exists_of_receiver? h <;> rfl

theorem freeIn_of_receiver? (h : node.receiver? = some receiver) :
    node.FreeIn name ↔ receiver.FreeIn name ∨ ∃ part ∈ node.children.tail, part.FreeIn name := by
  rw [freeIn_of_passesNames (passesNames_of_receiver? h), children_of_receiver? h]
  simp

theorem freeIn_withReceiver (h : node.receiver? = some receiver) (other : Expr) :
    (node.withReceiver other).FreeIn name ↔
      other.FreeIn name ∨ ∃ part ∈ node.children.tail, part.FreeIn name := by
  rw [freeIn_of_receiver? (receiver?_withReceiver h other), children_withReceiver h,
    List.tail_cons]

@[simp] theorem freeIn_coalesceOf {left right : Expr} :
    (coalesceOf left right).FreeIn name ↔ left.FreeIn name ∨ right.FreeIn name := by
  rw [coalesceOf, freeIn_of_passesNames rfl]
  simp [children]

theorem exists_freeIn_iff {parts others : List Expr}
    (h : Forall₂ (fun part part' => part'.FreeIn name ↔ part.FreeIn name) parts others) :
    (∃ part ∈ others, part.FreeIn name) ↔ ∃ part ∈ parts, part.FreeIn name := by
  induction h with
  | nil => rfl
  | cons hhead _ ih => simp [hhead, ih]

theorem passesNames_withChildren (e : Expr) (parts : List Expr) :
    (e.withChildren parts).passesNames = e.passesNames := by
  unfold withChildren
  split <;> rfl

/-- Parts with the same free names can take the place of others. -/
theorem freeIn_withChildren {parts : List Expr}
    (h : Forall₂ (fun part part' => part'.FreeIn name ↔ part.FreeIn name) e.children parts) :
    (e.withChildren parts).FreeIn name ↔ e.FreeIn name := by
  by_cases hpasses : e.passesNames = true
  · rw [freeIn_of_passesNames ((passesNames_withChildren e parts).trans hpasses),
      children_withChildren h.length_eq.symm, freeIn_of_passesNames hpasses]
    exact exists_freeIn_iff h
  · cases e with
    | param => rfl
    | lambda ty params body =>
      rcases h with _ | ⟨hbody, _ | _⟩
      exact freeIn_lambda.trans ((and_congr_right' hbody).trans freeIn_lambda.symm)
    | bind ty var value body =>
      rcases h with _ | ⟨hvalue, _ | ⟨hbody, _ | _⟩⟩
      exact freeIn_bind.trans
        ((or_congr hvalue (and_congr_right' hbody)).trans freeIn_bind.symm)
    | _ => exact absurd rfl hpasses

/-- The free names of a tree, worked out from the parts up. -/
def freeNames : Expr → List String :=
  fold fun e results =>
    match e, results with
    | param _ name, _ => [name]
    | lambda _ params _, [body] => body.filter (· ∉ params.map Param.name)
    | bind _ var _ _, [value, body] => value ++ body.filter (· ≠ var.name)
    | _, results => results.flatten

theorem freeNames_of_passesNames (h : e.passesNames = true) :
    e.freeNames = (e.children.map freeNames).flatten := by
  rw [freeNames, fold_eq]
  cases e with
  | param | lambda | bind => cases h
  | _ => rfl

@[simp] theorem freeNames_param (ty : Ty) (name : String) :
    (param ty name).freeNames = [name] := by
  rw [freeNames, fold_eq]

theorem freeNames_lambda (ty : Ty) (params : List Param) (body : Expr) :
    (lambda ty params body).freeNames =
      body.freeNames.filter (· ∉ params.map Param.name) := by
  rw [freeNames, fold_eq]
  rfl

theorem freeNames_bind (ty : Ty) (var : Param) (value body : Expr) :
    (bind ty var value body).freeNames =
      value.freeNames ++ body.freeNames.filter (· ≠ var.name) := by
  rw [freeNames, fold_eq]
  rfl

theorem mem_freeNames : name ∈ e.freeNames ↔ e.FreeIn name := by
  induction e using Expr.induction_children with
  | step e ih =>
    by_cases hpasses : e.passesNames = true
    · rw [freeNames_of_passesNames hpasses, freeIn_of_passesNames hpasses]
      simp only [List.mem_flatten, List.mem_map, exists_exists_and_eq_and]
      exact exists_congr fun part => and_congr_right fun hpart => ih part hpart
    · cases e with
      | param ty other => simp
      | lambda ty params body =>
        rw [freeNames_lambda, freeIn_lambda, ← ih body List.mem_cons_self, and_comm]
        simp
      | bind ty var value body =>
        rw [freeNames_bind, freeIn_bind, ← ih value List.mem_cons_self,
          ← ih body (List.mem_cons_of_mem _ List.mem_cons_self),
          and_comm (b := name ∈ body.freeNames)]
        simp
      | _ => exact absurd rfl hpasses

instance (name : String) (e : Expr) : Decidable (e.FreeIn name) :=
  decidable_of_iff _ mem_freeNames

/-! ## Confined names -/

/-- The name is used only in the bodies of `bind` nodes that bind it. -/
inductive Confined (name : String) : Expr → Prop where
  | bind {ty var value body} (hvar : var.name = name) (hvalue : Confined name value) :
      Confined name (bind ty var value body)
  | node {e : Expr} (hown : name ∉ e.ownNames)
      (hparts : ∀ part ∈ e.children, Confined name part) :
      Confined name e

theorem confined_of_not_mem_names (h : name ∉ e.names) : e.Confined name := by
  induction e using Expr.induction_children with
  | step e ih =>
    rw [mem_names, not_or, not_exists] at h
    exact .node h.1 fun part hpart => ih part hpart fun hname => h.2 part ⟨hpart, hname⟩

theorem confined_of_names_eq_nil (h : e.names = []) : e.Confined name :=
  confined_of_not_mem_names (h ▸ List.not_mem_nil)

theorem Confined.of_receiver? (h : node.Confined name)
    (hreceiver : node.receiver? = some receiver) : ∀ part ∈ node.children, part.Confined name := by
  cases h with
  | bind => cases hreceiver
  | node _ hparts => exact hparts

theorem Confined.at_receiver (h : node.Confined name) (hreceiver : node.receiver? = some receiver) :
    receiver.Confined name :=
  h.of_receiver? hreceiver receiver (receiver_mem_children hreceiver)

theorem Confined.withReceiver (h : node.Confined name) (hreceiver : node.receiver? = some receiver)
    {other : Expr} (hother : other.Confined name) : (node.withReceiver other).Confined name := by
  have hparts := h.of_receiver? hreceiver
  refine .node ?_ ?_
  · rw [ownNames_of_receiver? (receiver?_withReceiver hreceiver other)]
    exact List.not_mem_nil
  · rw [children_withReceiver hreceiver, List.forall_mem_cons]
    exact ⟨hother, fun part hpart => hparts part (List.mem_of_mem_tail hpart)⟩

end NullGuard.Expr
