import NullGuard.Proofs.Expr.Typing
import NullGuard.Proofs.Guard.Insert

/-! # Guards keep types

An expression with guards has the type that it had without, and is well typed if it was. -/

namespace NullGuard

open List (Forall₂)
open NullGuard.Expr

variable {rules : GuardRules} {known : List String} {e node r : Expr} {parts : List Expr}
  {binders : Binders}

/-- Each part of a node is treated, whatever is known there. -/
theorem GuardsParts.children (h : GuardsParts rules known e parts) :
    Forall₂ (fun part part' => ∃ known, Guards rules known part part') e.children parts := by
  rw [← scopes_map_snd known e, List.forall₂_map_left_iff]
  exact h.imp fun part _ hpart => ⟨part.1, hpart⟩

theorem GuardsParts.map_ty_eq (h : GuardsParts rules known e parts) :
    parts.map Expr.ty = e.children.map Expr.ty :=
  map_eq_map_of_forall₂ (h.children.imp fun _ _ ⟨_, hpart⟩ => hpart.ty_eq)

/-! ## The parts of a guard -/

theorem wellTyped_null (ty : Ty) : (Expr.null ty).WellTyped binders :=
  .node trivial nofun

theorem wellTyped_param_self (ty : Ty) (name : String) :
    (Expr.param ty name).WellTyped ((name, ty) :: binders) := by
  refine .node (fun bound hbound => ?_) nofun
  simpa using hbound

theorem wellTyped_param_nil (ty : Ty) (name : String) : (Expr.param ty name).WellTyped [] :=
  .node nofun nofun

theorem EmptyInstance.wellTyped {ty : Ty} {recipe : Expr} (h : EmptyInstance ty recipe) :
    recipe.WellTyped binders := by
  cases h with
  | array => exact .node trivial nofun
  | collection =>
    refine .node trivial fun part hpart => ?_
    obtain rfl := List.mem_singleton.mp hpart
    exact .node trivial nofun

/-- The value of a node whose receiver is null has the type of the node. -/
theorem GuardRules.shortCircuit_wellTyped (rules : GuardRules) (ty : Ty) :
    (rules.shortCircuit ty).ty = ty ∧ (rules.shortCircuit ty).WellTyped binders := by
  have hmissing : (missingValue rules.defs ty).ty = ty ∧
      (missingValue rules.defs ty).WellTyped binders := by
    unfold missingValue
    split
    · exact ⟨rfl, wellTyped_null ty⟩
    · exact ⟨rfl, .node trivial nofun⟩
  unfold shortCircuit
  split
  · cases hfallback : rules.fallback ty with
    | none => exact hmissing
    | some recipe =>
      have hrecipe := rules.emptyInstance hfallback
      exact ⟨hrecipe.ty_recipe, hrecipe.wellTyped⟩
  · exact hmissing

theorem wellTyped_coalesceOf {left right : Expr} (hleft : left.WellTyped binders)
    (hright : right.WellTyped binders) : (Expr.coalesceOf left right).WellTyped binders := by
  refine .node rfl fun part hpart => ?_
  rcases hpart with _ | ⟨_, _ | ⟨_, _ | _⟩⟩
  · exact hleft
  · exact hright

theorem wellTyped_nullCheck {receiver whenNull : Expr} {ty : Ty}
    (hreceiver : receiver.WellTyped binders) (hnull : whenNull.ty = ty ∧ whenNull.WellTyped binders)
    (hnode : node.ty = ty ∧ node.WellTyped binders) :
    (nullCheck receiver whenNull node ty).WellTyped binders := by
  refine .node ⟨rfl, hnull.1, hnode.1⟩ fun part hpart => ?_
  rcases hpart with _ | ⟨_, _ | ⟨_, _ | ⟨_, _ | _⟩⟩⟩
  · refine .node trivial fun operand hoperand => ?_
    rcases hoperand with _ | ⟨_, _ | ⟨_, _ | _⟩⟩
    · exact hreceiver
    · exact wellTyped_null receiver.ty
  · exact hnull.2
  · exact hnode.2

theorem wellTyped_bindTo {name : String} {value body : Expr} (hvalue : value.WellTyped binders)
    (hbody : body.WellTyped ((name, value.ty) :: binders)) :
    (Expr.bindTo name value body).WellTyped binders := by
  refine .node ⟨rfl, rfl⟩ fun part hpart => ?_
  rcases hpart with _ | ⟨_, _ | ⟨_, _ | _⟩⟩
  · exact hvalue
  · exact hbody

/-! ## Guarded trees -/

theorem Seals.wellTyped (h : Seals rules known node r) (hnode : node.WellTyped binders) :
    r.WellTyped binders := by
  cases h with
  | free | kept => exact hnode
  | @coalesced receiver recipe hsome _ hfallback =>
    obtain ⟨hreceiver, hrest⟩ := hnode.of_receiver? hsome
    exact hnode.withReceiver hsome rfl
      (wellTyped_coalesceOf hreceiver (rules.emptyInstance hfallback).wellTyped) hrest
  | tested hsome =>
    exact wellTyped_nullCheck (hnode.of_receiver? hsome).1 (rules.shortCircuit_wellTyped node.ty)
      ⟨rfl, hnode⟩
  | @held receiver name hsome _ _ _ hfresh =>
    obtain ⟨hreceiver, hrest⟩ := hnode.of_receiver? hsome
    -- The name of the guard is new to the node, so its other parts are typed below it as before.
    have hrest' : ∀ part ∈ node.children.tail,
        part.WellTyped ((name, receiver.ty) :: binders) := fun part hpart =>
      (hrest part hpart).cons_of_not_mem fun hname =>
        hfresh (names_subset_of_mem_children (List.mem_of_mem_tail hpart) hname)
    have hheld : (Expr.param receiver.ty name).WellTyped ((name, receiver.ty) :: binders) :=
      wellTyped_param_self _ _
    exact wellTyped_bindTo hreceiver <| wellTyped_nullCheck hheld
      (rules.shortCircuit_wellTyped node.ty)
      ⟨ty_withReceiver hsome _, hnode.withReceiver hsome rfl hheld hrest'⟩

theorem Guards.wellTyped (h : Guards rules known e r) (he : e.WellTyped binders) :
    r.WellTyped binders := by
  induction e using Expr.induction_children generalizing known r binders with
  | step e ih =>
    cases h with
    | @node _ _ parts _ _ hparts hseal =>
      have hscopes := boundScopes_withChildren binders (GuardsParts.children hparts)
      refine hseal.wellTyped (.node (he.here.withChildren (GuardsParts.map_ty_eq hparts)) ?_)
      intro part' hpart'
      obtain ⟨part, hpart, hbinders, _, hguards⟩ := exists_mem_of_forall₂ hscopes hpart'
      exact hbinders ▸ ih part.2 (mem_children_of_mem_boundScopes hpart) hguards
        (he.of_mem_boundScopes hpart)

/-- Inserting guards keeps the type of an expression, and keeps it well typed. -/
theorem Expr.insertGuards_wellTyped {defs : Definitions} {options : GuardOptions}
    {cache left : FallbackCache} {guarded : Guarded} (hcache : cache.Computed)
    (hinsert : e.insertGuards defs options cache = (.ok guarded, left)) :
    guarded.expr.ty = e.ty ∧ (e.WellTyped [] → guarded.expr.WellTyped []) :=
  have hguards := insertGuards_guards hcache hinsert
  ⟨hguards.ty_eq, hguards.wellTyped⟩

/-- `let q = p.Next in (q => q.Length)`, where the inner `q` is a string. -/
def reboundLength : Expr :=
  .bindTo "q" (.member .object (.param .object "p") "Next" .object)
    (.lambdaOf [⟨"q", .string⟩] (.member .int (.param .string "q") "Length" .string))

theorem insertGuards_reboundLength_wellTyped :
    ∃ guarded left, reboundLength.insertGuards .empty {} .empty = (.ok guarded, left) ∧
      guarded.stats.guards = 2 ∧ guarded.expr.ty = .object ∧ guarded.expr.WellTyped [] := by
  have hinsert : ∃ guarded left,
      reboundLength.insertGuards .empty {} .empty = (.ok guarded, left) ∧
        guarded.stats.guards = 2 := ⟨_, _, by cbv, by cbv⟩
  obtain ⟨guarded, left, hinsert, hguards⟩ := hinsert
  have hnext : (Expr.member .object (.param .object "p") "Next" .object).WellTyped [] :=
    .node rfl (List.forall_mem_singleton.mpr (wellTyped_param_nil _ _))
  have hlength : (Expr.member .int (.param .string "q") "Length" .string).WellTyped
      [("q", .string), ("q", .object)] :=
    .node rfl (List.forall_mem_singleton.mpr (wellTyped_param_self _ _))
  have hquery : reboundLength.WellTyped [] :=
    wellTyped_bindTo hnext (.node trivial (List.forall_mem_singleton.mpr hlength))
  obtain ⟨htype, htyped⟩ := Expr.insertGuards_wellTyped FallbackCache.empty_computed hinsert
  exact ⟨guarded, left, hinsert, hguards, htype, htyped hquery⟩

end NullGuard
