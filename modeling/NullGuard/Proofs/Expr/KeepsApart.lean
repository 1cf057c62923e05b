import NullGuard.Proofs.Expr.BindingOrder

/-! # Names that are kept apart

Where each name of a `bind` node has no other binder and no free parameter, the binders are in
order, and each value is assigned where its own variable first appears. -/

namespace NullGuard.Expr

variable {defs : Definitions} {e : Expr} {name : String}

/-- Each name of a `bind` node is bound by that node alone, and used in its body only. -/
structure KeepsApart (e : Expr) : Prop where
  nodup : e.letNames.Nodup
  apart : ∀ name ∈ e.letNames, name ∉ e.lambdaNames ∧ ¬ e.FreeIn name

theorem letNames_le_sum {part : Expr} (h : part ∈ e.children) :
    part.letNames ≤ (e.children.map letNames).sum :=
  List.single_le_sum (by simp) _ (List.mem_map_of_mem h)

/-- What a node does not bind is free in it if it is free in a part. -/
theorem FreeIn.of_part {part : Expr} (h : part.FreeIn name) (hpart : part ∈ e.children)
    (hlet : name ∉ e.ownLet) (hlambda : name ∉ e.ownLambda) : e.FreeIn name := by
  by_cases hpasses : e.passesNames = true
  · exact (freeIn_of_passesNames hpasses).mpr ⟨part, hpart, h⟩
  · cases e with
    | param => cases hpart
    | lambda ty params body =>
      obtain rfl := List.mem_singleton.mp hpart
      exact freeIn_lambda.mpr ⟨by simpa [ownLambda] using hlambda, h⟩
    | bind ty var value body =>
      have hvar : name ≠ var.name := by simpa [ownLet] using hlet
      simp only [children, List.mem_cons, List.not_mem_nil, or_false] at hpart
      rcases hpart with rfl | rfl
      · exact freeIn_bind.mpr (.inl h)
      · exact freeIn_bind.mpr (.inr ⟨hvar, h⟩)
    | _ => exact absurd rfl hpasses

/-- A name that nothing in the tree binds is free wherever it is used. -/
theorem freeIn_of_mem_names (hlet : name ∉ e.letNames) (hlambda : name ∉ e.lambdaNames)
    (h : name ∈ e.names) : e.FreeIn name := by
  induction e using Expr.induction_children with
  | step e ih =>
    rw [mem_letNames, not_or, not_exists] at hlet
    rw [mem_lambdaNames, not_or, not_exists] at hlambda
    rcases mem_names.mp h with hown | ⟨part, hpart, hname⟩
    · cases e with
      | param => simpa [ownNames] using hown
      | lambda => exact absurd (by simpa [ownNames, ownLambda] using hown) hlambda.1
      | bind => exact absurd (by simpa [ownNames, ownLet] using hown) hlet.1
      | _ => cases hown
    · have hfree := ih part hpart (fun hname => hlet.2 part ⟨hpart, hname⟩)
        (fun hname => hlambda.2 part ⟨hpart, hname⟩) hname
      exact hfree.of_part hpart hlet.1 hlambda.1

theorem mem_names_of_mentions (h : e.mentions name = true) : name ∈ e.names := by
  induction e using Expr.induction_children with
  | step e ih =>
    rw [mentions, anyNode_eq, Bool.or_eq_true, List.any_eq_true] at h
    rcases h with hown | ⟨part, hpart, hmentions⟩
    · cases e with
      | param ty other => simpa [isParamNamed, eq_comm] using hown
      | _ => cases hown
    · exact names_subset_of_mem_children hpart (ih part hpart hmentions)

theorem KeepsApart.of_mem_children {part : Expr} (h : e.KeepsApart) (hpart : part ∈ e.children) :
    part.KeepsApart := by
  have hnodup := h.nodup
  rw [letNames_eq, Multiset.nodup_add] at hnodup
  obtain ⟨-, hnodup, hdisjoint⟩ := hnodup
  refine ⟨Multiset.nodup_of_le (letNames_le_sum hpart) hnodup, fun name hname => ?_⟩
  obtain ⟨hlambda, hfree⟩ := h.apart name (mem_letNames.mpr (.inr ⟨part, hpart, hname⟩))
  rw [mem_lambdaNames, not_or, not_exists] at hlambda
  refine ⟨fun hname => hlambda.2 part ⟨hpart, hname⟩, fun hpartFree => hfree ?_⟩
  refine hpartFree.of_part hpart (fun hown => ?_) hlambda.1
  exact Multiset.disjoint_left.mp hdisjoint hown (mem_sum_gather.mpr ⟨part, hpart, hname⟩)

/-- What is bound below a `bind` node that keeps its names apart: neither the name of the node nor a
name in its value. -/
theorem KeepsApart.of_bind {ty : Ty} {var : Param} {value body : Expr}
    (h : (bind ty var value body).KeepsApart) :
    var.name ∉ body.letNames ∧ var.name ∉ body.lambdaNames ∧
      ∀ name ∈ body.letNames, name ∉ value.names := by
  have hnodup := h.nodup
  have hlets : (bind ty var value body).letNames =
      {var.name} + (value.letNames + body.letNames) := by
    simp [letNames_eq (bind ty var value body), ownLet, children]
  rw [hlets, Multiset.nodup_add, Multiset.nodup_add] at hnodup
  obtain ⟨-, ⟨-, -, hvalue⟩, hvar⟩ := hnodup
  have hlambda {part : Expr} (hpart : part ∈ (bind ty var value body).children) {name : String}
      (hlet : name ∈ (bind ty var value body).letNames) : name ∉ part.lambdaNames := by
    have hnone := (h.apart name hlet).1
    rw [mem_lambdaNames, not_or, not_exists] at hnone
    exact fun hname => hnone.2 part ⟨hpart, hname⟩
  refine ⟨fun hname => ?_, hlambda (by simp [children]) (by simp [hlets]), fun name hname => ?_⟩
  · exact Multiset.disjoint_left.mp hvar (Multiset.mem_singleton_self _)
      (Multiset.mem_add.mpr (.inr hname))
  · have hlet : name ∈ (bind ty var value body).letNames := by simp [hlets, hname]
    intro hused
    refine (h.apart name hlet).2 (freeIn_bind.mpr (.inl (freeIn_of_mem_names (fun hother => ?_)
      (hlambda (by simp [children]) hlet) hused)))
    exact Multiset.disjoint_left.mp hvalue hother hname

theorem every_bindsBriefly (hlet : name ∉ e.letNames) (hlambda : name ∉ e.lambdaNames) :
    e.Every (BindsBriefly name) := by
  induction e using Expr.induction_children with
  | step e ih =>
    rw [mem_letNames, not_or, not_exists] at hlet
    rw [mem_lambdaNames, not_or, not_exists] at hlambda
    refine .node ?_ fun part hpart => ih part hpart (fun hname => hlet.2 part ⟨hpart, hname⟩)
      fun hname => hlambda.2 part ⟨hpart, hname⟩
    cases e with
    | lambda => exact fun hname => hlambda.1 (by simpa [ownLambda] using hname)
    | bind => exact fun hname => absurd (by simp [ownLet, hname]) hlet.1
    | _ => trivial

theorem KeepsApart.every (h : e.KeepsApart) : e.Every KeepsApart := by
  induction e using Expr.induction_children with
  | step e ih => exact .node h fun part hpart => ih part hpart (h.of_mem_children hpart)

theorem KeepsApart.usesOwnVariable (h : e.KeepsApart) : e.Every UsesOwnVariable := by
  refine h.every.mono fun e h => ?_
  cases e with
  | bind ty var value body =>
    obtain ⟨hlet, hlambda, -⟩ := h.of_bind
    exact fun hmentions => freeIn_of_mem_names hlet hlambda (mem_names_of_mentions hmentions)
  | _ => trivial

theorem KeepsApart.bindsApart (h : e.KeepsApart) : e.BindsApart := by
  cases e with
  | bind ty var value body =>
    obtain ⟨hlet, hlambda, hvalue⟩ := h.of_bind
    exact ⟨every_bindsBriefly hlet hlambda, hvalue⟩
  | _ => trivial

theorem KeepsApart.bindsInOrder (h : e.KeepsApart) : e.Every BindsInOrder :=
  every_bindsInOrder (h.every.mono fun _ => KeepsApart.bindsApart)

/-- In the text of a tree that keeps its names apart each value is assigned where its own variable
first appears. -/
theorem KeepsApart.text_eq (h : e.KeepsApart) : e.text defs = textOf (e.rendering defs) :=
  (isReading_rendering_iff.mpr ⟨h.usesOwnVariable, inTurn_rendering h.bindsInOrder⟩).text_eq

end NullGuard.Expr
