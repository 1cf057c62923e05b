import NullGuard.Proofs.Ty.Substitution

/-! # Substitutions after each other

Arguments that are put into a type one list after the other can be put into each other first. That
an empty list leaves a type unseen makes no difference, since substituting nothing for nothing
gives back a well-made type. -/

namespace NullGuard

namespace Ty

variable {defs : Definitions} {ty : Ty} {own : List Ty}

@[simp] theorem instantiate_nil (defs : Definitions) (ty : Ty) : ty.instantiate defs [] = ty :=
  rfl

/-- What arguments are put into has to be well made, the arguments need not. -/
theorem WellMade.instantiate_map_instantiate (h : ty.WellMade defs)
    (hbelow : ty.ParamsBelow own.length) (args : List Ty) :
    (ty.instantiate defs own).instantiate defs args =
      ty.instantiate defs (own.map fun arg => arg.instantiate defs args) := by
  cases args with
  | nil => simp
  | cons arg args =>
    have hcons (other : Ty) :
        other.instantiate defs (arg :: args) = other.subst defs (arg :: args) := rfl
    simp only [hcons, h.instantiate_eq]
    exact h.subst_subst hbelow (arg :: args)

/-- Without parameters there is nothing that arguments could be put in for. -/
theorem WellMade.instantiate_of_closed (h : ty.WellMade defs) (hclosed : ty.ParamsBelow 0)
    (args : List Ty) : ty.instantiate defs args = ty := by
  have hnone : ty.ParamsBelow ([] : List Ty).length := hclosed
  have hcomposed := h.subst_subst hnone args
  rwa [List.map_nil, h.subst_nil, ← h.instantiate_eq] at hcomposed

end Ty

namespace Workspace

variable {workspace : Workspace} {ty : Ty}

theorem run_mapM_instantiate (tys args : List Ty) (workspace : Workspace) :
    ((tys.mapM fun ty => instantiate ty args).run workspace).1 =
        tys.map (fun ty => ty.instantiate workspace.defs args) ∧
      ((tys.mapM fun ty => instantiate ty args).run workspace).2.defs = workspace.defs := by
  induction tys generalizing workspace with
  | nil => exact ⟨rfl, rfl⟩
  | cons ty tys ih =>
    obtain ⟨hmade, hdefs⟩ := ih ((instantiate ty args).run workspace).2
    rw [List.mapM_cons]
    exact ⟨congrArg (ty.instantiate workspace.defs args :: ·) hmade, hdefs⟩

/-- After any calls, arguments may be put into a type one list after the other or into each other
first, and a type without parameters is returned as it is, nothing being made for it. -/
theorem instantiate_instantiate (hreaches : new.Reaches workspace) (hty : workspace.Knows ty)
    (args : List Ty) :
    (∀ own : List Ty, ty.ParamsBelow own.length →
      ((do instantiate (← instantiate ty own) args).run workspace).1 =
        ((do instantiate ty (← own.mapM fun arg => instantiate arg args)).run workspace).1) ∧
    (ty.ParamsBelow 0 → (instantiate ty args).run workspace = (ty, workspace)) := by
  have hsound := sound_of_reaches hreaches
  have hwell := hsound.wellMade hty
  refine ⟨fun own hbelow => ?_, fun hclosed => ?_⟩
  · obtain ⟨hmade, hdefs⟩ := run_mapM_instantiate own args workspace
    change (ty.instantiate workspace.defs own).instantiate workspace.defs args =
      ty.instantiate ((own.mapM fun arg => instantiate arg args).run workspace).2.defs
        ((own.mapM fun arg => instantiate arg args).run workspace).1
    rw [hmade, hdefs]
    exact hwell.instantiate_map_instantiate hbelow args
  · have hholds := hsound.catalogue.grown.complete.holds_of_knows hty
    change (ty.instantiate workspace.defs args, { workspace with
      catalogue := workspace.catalogue.recordAll [ty.instantiate workspace.defs args] }) = _
    rw [hwell.instantiate_of_closed hclosed, Catalogue.recordAll, hholds.record_eq,
      Catalogue.recordAll]

/-- A struct of a parameter and a list of another one, in its nullable form. -/
def optionalPair : Workspace :=
  (do
    let id ← define (.ofKind .structType "Pair" [])
    let numbers ← makeType (.listOf (← makeType (.param 1)))
    let pair ← makeType (.named id [← makeType (.param 0), numbers])
    makeNullable pair : WorkspaceM Ty).run new |>.2

theorem instantiate_instantiate_optionalPair :
    ∃ (pair : Ty) (later : Workspace),
      pair = .nullable (.named ⟨9⟩ [.param 0, .listOf (.param 1)]) ∧
      optionalPair.Knows pair ∧ pair.ParamsBelow 2 ∧
      ((do
        let made ← instantiate pair [.array (.param 0), .param 0]
        instantiate made [.int]).run optionalPair).1 =
          .nullable (.named ⟨9⟩ [.array .int, .listOf .int]) ∧
      ((do instantiate pair (← [Ty.array (.param 0), .param 0].mapM fun arg =>
        instantiate arg [.int])).run optionalPair).1 =
          .nullable (.named ⟨9⟩ [.array .int, .listOf .int]) ∧
      optionalPair.Reaches later ∧ later.Knows (.listOf .int) ∧
      (instantiate (.listOf .int) [.string]).run later = (.listOf .int, later) := by
  let pair : Ty := .nullable (.named ⟨9⟩ [.param 0, .listOf (.param 1)])
  let defined := ((define (.ofKind .structType "Pair" [])).run new).2
  let second := ((makeType (.param 1)).run defined).2
  let listed := ((makeType (.listOf (.param 1))).run second).2
  let first := ((makeType (.param 0)).run listed).2
  let named := ((makeType (.named ⟨9⟩ [.param 0, .listOf (.param 1)])).run first).2
  have hdefined : new.Step defined := .define nofun
  have hsecond : new.Reaches second := .tail (.single hdefined) (.param 1)
  have hlisted : new.Reaches listed := hsecond.tail (.listOf (.inr (by decide +kernel)))
  have hparts : ∀ part ∈ [Ty.param 0, .listOf (.param 1)], first.Knows part :=
    List.forall_mem_cons.mpr
      ⟨.inr (by decide +kernel), List.forall_mem_singleton.mpr (.inr (by decide +kernel))⟩
  have hnamed : new.Reaches named := (hlisted.tail (.param 0)).tail (.named ⟨9⟩ hparts)
  have hreaches : new.Reaches optionalPair := hnamed.tail (.nullable (.inr (by decide +kernel)))
  have hpair : optionalPair.Knows pair := .inr (by decide +kernel)
  have hparam (index : Nat) (hindex : index < 2) : (Ty.param index).ParamsBelow 2 :=
    .intro (fun _ heq => Ty.param.inj heq ▸ hindex) nofun
  have hbelow : pair.ParamsBelow 2 :=
    .intro nofun <| List.forall_mem_singleton.mpr <| .intro nofun <| List.forall_mem_cons.mpr
      ⟨hparam 0 (by decide), List.forall_mem_singleton.mpr <|
        .intro nofun (List.forall_mem_singleton.mpr (hparam 1 (by decide)))⟩
  have hcomposed := (instantiate_instantiate hreaches hpair [.int]).1
    [.array (.param 0), .param 0] hbelow
  have hmade : ((do
      let made ← instantiate pair [.array (.param 0), .param 0]
      instantiate made [.int]).run optionalPair).1 =
        .nullable (.named ⟨9⟩ [.array .int, .listOf .int]) := by decide +kernel
  let later := ((makeType (.listOf .int)).run optionalPair).2
  have hlater : optionalPair.Reaches later := .single (.listOf (.inl ⟨_, rfl⟩))
  have hnumbers : later.Knows (.listOf .int) := .inr (by decide +kernel)
  have hclosed : (Ty.listOf .int).ParamsBelow 0 :=
    .intro nofun (List.forall_mem_singleton.mpr (.intro nofun (List.forall_mem_nil _)))
  exact ⟨pair, later, rfl, hpair, hbelow, hmade, hcomposed.symm.trans hmade, hlater, hnumbers,
    (instantiate_instantiate (hreaches.trans hlater) hnumbers [.string]).2 hclosed⟩

end Workspace

end NullGuard
