import NullGuard.Proofs.Ty.Assignability
import NullGuard.Proofs.Ty.Making

/-! # Assignability under substitution

Arguments that are put into a type go into its bases too, so that each chain of bases leads on to
a chain between the types with arguments. Types on it may become equal, but a search does not
depend on the chain. -/

namespace NullGuard

variable {defs : Definitions} {source target ty base : Ty} {own args before : List Ty}

namespace Ty

/-! ## Types with their parts -/

/-- The property holds of the type and of all that it is made of. -/
inductive Every (p : Ty → Prop) : Ty → Prop where
  | intro {ty : Ty} (h : p ty) (hparts : ∀ part ∈ ty.parts, Every p part) : Every p ty

theorem Every.here {p : Ty → Prop} (h : ty.Every p) : p ty := by
  cases h with
  | intro h => exact h

theorem Every.of_mem_parts {p : Ty → Prop} (h : ty.Every p) {part : Ty} (hpart : part ∈ ty.parts) :
    part.Every p := by
  cases h with
  | intro _ hparts => exact hparts part hpart

/-- All parameters in the type are among the first ones. -/
def ParamsBelow (bound : Nat) : Ty → Prop :=
  Every fun part => ∀ index, part = .param index → index < bound

/-- The type has as many arguments as its definition, if there is one, has parameters. -/
def FitsArity (defs : Definitions) (ty : Ty) : Prop :=
  ∀ id args, ty = .named id args → ∀ definition, defs.get? id = some definition →
    args.length = definition.arity

/-! ## Substitution after substitution -/

theorem WellMade.subst_nil (h : ty.WellMade defs) : ty.subst defs [] = ty := by
  induction h with
  | intrinsic => rw [Ty.subst]
  | param => rw [Ty.subst, List.getD_nil]
  | nullable _ hplain ih => rw [Ty.subst, ih, makeNullable_of_isPlainValue hplain]
  | array _ ih => rw [Ty.subst, ih]
  | named _ _ ih => rw [Ty.subst, substAll_eq_map, List.map_congr_left ih, List.map_id']

theorem WellMade.instantiate_eq (h : ty.WellMade defs) (args : List Ty) :
    ty.instantiate defs args = ty.subst defs args := by
  unfold Ty.instantiate
  split
  · rename_i hargs
    rw [List.isEmpty_iff.mp hargs, h.subst_nil]
  · rfl

/-- A nullable form stays one whatever is put into it. -/
theorem IsPlainValue.subst_makeNullable (h : ty.IsPlainValue defs) (args : List Ty) :
    (ty.makeNullable defs).subst defs args = (ty.subst defs args).makeNullable defs := by
  rw [makeNullable_of_isPlainValue h, Ty.subst]

theorem WellMade.subst_subst (h : ty.WellMade defs) (hbelow : ty.ParamsBelow own.length)
    (args : List Ty) :
    (ty.subst defs own).subst defs args = ty.subst defs (own.map (Ty.subst defs args)) := by
  induction h with
  | intrinsic => simp only [Ty.subst]
  | param index =>
    have hindex : index < own.length := hbelow.here index rfl
    simp [Ty.subst, hindex]
  | nullable _ hplain ih =>
    rw [Ty.subst, (hplain.subst own).subst_makeNullable,
      ih (hbelow.of_mem_parts List.mem_cons_self), Ty.subst]
  | array _ ih =>
    rw [Ty.subst, Ty.subst, ih (hbelow.of_mem_parts List.mem_cons_self), Ty.subst]
  | named _ _ ih =>
    simp only [Ty.subst, substAll_eq_map, List.map_map]
    congr 1
    exact List.map_congr_left fun arg harg => ih arg harg (hbelow.of_mem_parts harg)

/-! ## Arguments of proper number -/

theorem fitsArity_of_named?_eq_none (h : ty.named? = none) : ty.FitsArity defs := by
  rintro id args rfl
  cases h

theorem Every.makeNullable_fitsArity (h : ty.Every (FitsArity defs)) :
    (ty.makeNullable defs).Every (FitsArity defs) := by
  unfold makeNullable
  split
  · exact .intro (fitsArity_of_named?_eq_none rfl) (List.forall_mem_singleton.mpr h)
  · exact h

theorem Every.subst_fitsArity (h : ty.Every (FitsArity defs))
    (hargs : ∀ arg ∈ args, arg.Every (FitsArity defs)) :
    (ty.subst defs args).Every (FitsArity defs) := by
  induction ty with
  | unknown | intrinsic => rwa [Ty.subst]
  | param index =>
    rw [Ty.subst, List.getD_eq_getElem?_getD]
    cases harg : args[index]? with
    | none => exact h
    | some arg => exact hargs arg (List.mem_of_getElem? harg)
  | nullable part ih =>
    rw [Ty.subst]
    exact (ih (h.of_mem_parts List.mem_cons_self)).makeNullable_fitsArity
  | array part ih =>
    rw [Ty.subst]
    exact .intro (fitsArity_of_named?_eq_none rfl)
      (List.forall_mem_singleton.mpr (ih (h.of_mem_parts List.mem_cons_self)))
  | named definition own ih =>
    rw [Ty.subst, substAll_eq_map]
    refine .intro (fun id args' heq found hfound => ?_)
      (List.forall_mem_map.mpr fun arg harg => ih arg harg (h.of_mem_parts harg))
    obtain ⟨rfl, rfl⟩ := named.inj heq
    rw [List.length_map]
    exact h.here definition own rfl found hfound

end Ty

/-- Definitions whose bases can be given the arguments of a type. -/
structure Definitions.Regular (defs : Definitions) : Prop where
  wellMade : ∀ id definition, defs.get? id = some definition →
    ∀ base ∈ definition.bases, base.WellMade defs
  paramsBelow : ∀ id definition, defs.get? id = some definition →
    ∀ base ∈ definition.bases, base.ParamsBelow definition.arity
  fitsArity : ∀ id definition, defs.get? id = some definition →
    ∀ base ∈ definition.bases, base.Every (Ty.FitsArity defs)

namespace Ty

/-! ## Bases under substitution -/

theorem mem_baseTypes_iff :
    base ∈ ty.baseTypes defs ↔ ∃ id own definition declared, ty = .named id own ∧
      defs.get? id = some definition ∧ declared ∈ definition.bases ∧
      base = declared.instantiate defs own := by
  constructor
  · intro h
    obtain ⟨id, own, rfl⟩ := exists_named_of_mem_baseTypes h
    cases hget : defs.get? id with
    | none =>
      simp only [baseTypes, hget] at h
      exact absurd h List.not_mem_nil
    | some definition =>
      simp only [baseTypes, hget] at h
      obtain ⟨declared, hdeclared, rfl⟩ := List.mem_map.mp h
      exact ⟨id, own, definition, declared, rfl, hget, hdeclared, rfl⟩
  · rintro ⟨id, own, definition, declared, rfl, hget, hdeclared, rfl⟩
    simp only [baseTypes, hget]
    exact List.mem_map_of_mem hdeclared

theorem subst_mem_baseTypes (hdefs : defs.Regular) (hty : ty.FitsArity defs)
    (hbase : base ∈ ty.baseTypes defs) (args : List Ty) :
    base.subst defs args ∈ (ty.subst defs args).baseTypes defs := by
  obtain ⟨id, own, definition, declared, rfl, hget, hdeclared, rfl⟩ := mem_baseTypes_iff.mp hbase
  have hwell := hdefs.wellMade id definition hget declared hdeclared
  have hbelow := hdefs.paramsBelow id definition hget declared hdeclared
  rw [← hty id own rfl definition hget] at hbelow
  rw [Ty.subst, substAll_eq_map, hwell.instantiate_eq, hwell.subst_subst hbelow,
    ← hwell.instantiate_eq]
  exact mem_baseTypes_iff.mpr ⟨id, _, definition, declared, rfl, hget, hdeclared, rfl⟩

theorem fitsArity_of_mem_baseTypes (hdefs : defs.Regular) (hty : ty.Every (FitsArity defs))
    (hbase : base ∈ ty.baseTypes defs) : base.Every (FitsArity defs) := by
  obtain ⟨id, own, definition, declared, rfl, hget, hdeclared, rfl⟩ := mem_baseTypes_iff.mp hbase
  rw [(hdefs.wellMade id definition hget declared hdeclared).instantiate_eq]
  exact (hdefs.fitsArity id definition hget declared hdeclared).subst_fitsArity fun arg harg =>
    hty.of_mem_parts harg

theorem BaseChain.subst (h : BaseChain defs source before target) (hdefs : defs.Regular)
    (hsource : source.Every (FitsArity defs)) (args : List Ty) :
    BaseChain defs (source.subst defs args) (before.map (Ty.subst defs args))
      (target.subst defs args) ∧ target.Every (FitsArity defs) := by
  induction h with
  | refl => exact ⟨.refl, hsource⟩
  | step _ hbase ih =>
    obtain ⟨hchain, hty⟩ := ih
    exact ⟨hchain.step (subst_mem_baseTypes hdefs hty.here hbase args),
      fitsArity_of_mem_baseTypes hdefs hty hbase⟩

/-! ## Assignability under substitution -/

theorem AssignableAtOnce.subst (h : AssignableAtOnce source target)
    (htarget : target.WellMade defs) (args : List Ty) :
    AssignableAtOnce (source.subst defs args) (target.subst defs args) := by
  cases h with
  | refl => exact .refl _
  | object =>
    have hobject : Ty.object.subst defs args = .object := by rw [Ty.subst]
    rw [hobject]
    exact .object _
  | nullable =>
    cases htarget with
    | nullable _ hplain =>
      rw [Ty.subst, makeNullable_of_isPlainValue (hplain.subst args)]
      exact .nullable _
  | array element hmem =>
    rw [Ty.subst, Ty.subst, substAll_eq_map]
    exact .array _ hmem

/-- What is found from `source` is found again with arguments put in, as long as the search goes
far enough. -/
theorem isAssignable_subst (hdefs : defs.Regular) (hsource : source.Every (FitsArity defs))
    (htarget : target.WellMade defs)
    (hshort : ∀ before ty, BaseChain defs (source.subst defs args) before ty →
      (ty :: before).Nodup → before.length ≤ maxBaseDepth)
    (h : isAssignable defs source target = true) :
    isAssignable defs (source.subst defs args) (target.subst defs args) = true := by
  rw [isAssignable_eq_true_iff] at h ⊢
  rcases h with hatOnce | ⟨⟨definition, own, rfl⟩, hfound⟩
  · exact .inl (hatOnce.subst htarget args)
  · obtain ⟨before, hchain, -⟩ := exists_baseChain_of_found .refl hfound
    have hchain' := (hchain.subst hdefs hsource args).1
    refine .inr ⟨⟨definition, own.map (Ty.subst defs args), ?_⟩, found_of_short hchain' hshort⟩
    rw [Ty.subst, substAll_eq_map]

end Ty

/-! ## Workspaces -/

namespace Workspace

variable {workspace : Workspace}

theorem Sound.every_fitsArity (h : workspace.Sound)
    (harity : ∀ ty, workspace.Knows ty → ty.FitsArity workspace.defs) (hty : workspace.Knows ty) :
    ty.Every (Ty.FitsArity workspace.defs) := by
  induction ty using Ty.ind_parts with
  | _ ty ih =>
    exact .intro (harity ty hty) fun part hpart =>
      ih part hpart (h.catalogue.grown.knows_parts hty part hpart)

theorem Sound.regular (h : workspace.Sound)
    (hparams : ∀ id definition, workspace.defs.get? id = some definition →
      ∀ base ∈ definition.bases, base.ParamsBelow definition.arity)
    (harity : ∀ ty, workspace.Knows ty → ty.FitsArity workspace.defs) :
    workspace.defs.Regular where
  wellMade id definition hget base hbase := h.wellMade (h.bases id definition hget base hbase)
  paramsBelow := hparams
  fitsArity id definition hget base hbase :=
    h.every_fitsArity harity (h.bases id definition hget base hbase)

/-- After any calls that leave no base with a parameter that its definition lacks, and no type with
another number of arguments than its definition has parameters, what is assignable stays so with
arguments put in. No chain of bases without repetitions may be longer than a search goes. -/
theorem isAssignable_instantiate {source target : Ty} (args : List Ty)
    (hreaches : new.Reaches workspace)
    (hparams : ∀ id definition, workspace.defs.get? id = some definition →
      ∀ base ∈ definition.bases, base.ParamsBelow definition.arity)
    (harity : ∀ ty, workspace.Knows ty → ty.FitsArity workspace.defs)
    (hsource : workspace.Knows source) (htarget : workspace.Knows target)
    (hshort : ∀ before ty,
      Ty.BaseChain workspace.defs (source.instantiate workspace.defs args) before ty →
        (ty :: before).Nodup → before.length ≤ Ty.maxBaseDepth)
    (h : ((isAssignable source target).run workspace).1 = true) :
    ((do isAssignable (← instantiate source args) (← instantiate target args)).run workspace).1 =
      true := by
  have hsound := sound_of_reaches hreaches
  have hassignable : source.isAssignable workspace.defs target = true := h
  change (source.instantiate workspace.defs args).isAssignable workspace.defs
    (target.instantiate workspace.defs args) = true
  rw [(hsound.wellMade hsource).instantiate_eq] at hshort ⊢
  rw [(hsound.wellMade htarget).instantiate_eq]
  exact Ty.isAssignable_subst (hsound.regular hparams harity)
    (hsound.every_fitsArity harity hsource) (hsound.wellMade htarget) hshort hassignable

/-- `List<T>` beside the collections. -/
def genericList : Workspace :=
  ((makeType (.listOf (.param 0))).run new).2

theorem isAssignable_instantiate_genericList :
    ((isAssignable (.listOf (.param 0)) (.enumerableOf (.param 0))).run genericList).1 = true ∧
      ((do
        let source ← instantiate (.listOf (.param 0)) [.int]
        isAssignable source (← instantiate (.enumerableOf (.param 0)) [.int])).run
          genericList).1 = true := by
  have hreaches : new.Reaches genericList := .single (.listOf (.inr (by decide +kernel)))
  have hdefinition {id : DefId} {definition : Definition}
      (hget : genericList.defs.get? id = some definition) :
      definition ∈ Collection.definitions.toList := by
    obtain ⟨position, -, hposition⟩ := Definitions.get?_eq_some_iff.mp hget
    exact List.mem_of_getElem? hposition
  have harity : ∀ definition ∈ Collection.definitions.toList, definition.arity = 1 := by decide
  have hargs : ∀ ty ∈ genericList.catalogue.types, ty.named? = none ∨ ty.args.length = 1 := by
    decide +kernel
  let collections : List Ty := (List.range 8).map fun position => .named ⟨position + 1⟩ [.int]
  have hsource : Ty.listOf .int ∈ collections := by decide
  have hassignable : ((isAssignable (.listOf (.param 0)) (.enumerableOf (.param 0))).run
      genericList).1 = true := by decide +kernel
  refine ⟨hassignable, isAssignable_instantiate [.int] hreaches ?_ ?_ (.inr (by decide +kernel))
    (.inr (by decide +kernel)) (fun before ty hchain hnodup => ?_) hassignable⟩
  · intro id definition hget base hbase
    obtain ⟨_, rfl⟩ := Collection.eq_of_mem_bases (hdefinition hget) hbase
    rw [harity definition (hdefinition hget)]
    refine .intro nofun (List.forall_mem_singleton.mpr (.intro ?_ nofun))
    rintro _ ⟨⟩
    exact Nat.one_pos
  · rintro _ (⟨kind, rfl⟩ | hmem) id args ⟨⟩ definition hget
    rw [harity definition (hdefinition hget)]
    exact (hargs _ hmem).resolve_left nofun
  · have hlt := hchain.length_lt hnodup hsource (by decide)
    exact Nat.le_of_lt (Nat.lt_trans hlt (by decide))

end Workspace

end NullGuard
