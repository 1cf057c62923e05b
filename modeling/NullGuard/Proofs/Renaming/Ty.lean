import Mathlib.Logic.Equiv.Basic
import NullGuard.Proofs.Renaming.Mirror
import NullGuard.Ty.Hierarchy
import NullGuard.TypeName.Resolve

/-! # Definitions under other numbers

Two lists of definitions match if the second one has the definitions of the first one under other
numbers. What is asked of a type has then the same answer in both, up to the numbers in it. -/

namespace NullGuard

variable {ρ : Equiv.Perm DefId}

/-! ## Renaming -/

namespace Ty

mutual

/-- The type with other numbers for its definitions. -/
def rename (ρ : DefId → DefId) : Ty → Ty
  | .named definition args => .named (ρ definition) (renameAll ρ args)
  | .nullable underlying => .nullable (underlying.rename ρ)
  | .array element => .array (element.rename ρ)
  | .intrinsic kind => .intrinsic kind
  | .param index => .param index
  | .unknown number => .unknown number

def renameAll (ρ : DefId → DefId) : List Ty → List Ty
  | [] => []
  | ty :: tys => ty.rename ρ :: renameAll ρ tys

end

@[simp] theorem renameAll_eq_map (ρ : DefId → DefId) (tys : List Ty) :
    renameAll ρ tys = tys.map (rename ρ) := by
  induction tys with
  | nil => rfl
  | cons ty tys ih => rw [renameAll, ih, List.map_cons]

@[simp] theorem rename_named (ρ : DefId → DefId) (definition : DefId) (args : List Ty) :
    (Ty.named definition args).rename ρ = .named (ρ definition) (args.map (rename ρ)) := by
  rw [rename, renameAll_eq_map]

@[simp] theorem rename_nullable (ρ : DefId → DefId) (underlying : Ty) :
    (Ty.nullable underlying).rename ρ = .nullable (underlying.rename ρ) := by
  rw [rename]

@[simp] theorem rename_array (ρ : DefId → DefId) (element : Ty) :
    (Ty.array element).rename ρ = .array (element.rename ρ) := by
  rw [rename]

@[simp] theorem rename_intrinsic (ρ : DefId → DefId) (kind : Intrinsic) :
    (Ty.intrinsic kind).rename ρ = .intrinsic kind := by
  rw [rename]

@[simp] theorem rename_param (ρ : DefId → DefId) (index : Nat) :
    (Ty.param index).rename ρ = .param index := by
  rw [rename]

@[simp] theorem rename_unknown (ρ : DefId → DefId) (number : Nat) :
    (Ty.unknown number).rename ρ = .unknown number := by
  rw [rename]

theorem rename_rename (ρ τ : DefId → DefId) (ty : Ty) :
    (ty.rename ρ).rename τ = ty.rename (τ ∘ ρ) := by
  induction ty with
  | unknown | intrinsic | param => simp
  | nullable | array => simp_all
  | named definition args ih => simpa using ih

theorem rename_id (ty : Ty) : ty.rename id = ty := by
  induction ty with
  | unknown | intrinsic | param => simp
  | nullable | array => simp_all
  | named definition args ih =>
    rw [rename_named, List.map_congr_left ih, List.map_id']
    rfl

theorem rename_injective (ρ : Equiv.Perm DefId) : Function.Injective (rename ρ) := by
  refine Function.LeftInverse.injective (g := rename ρ.symm) fun ty => ?_
  rw [rename_rename, Equiv.symm_comp_self, rename_id]

@[simp] theorem rename_inj {a b : Ty} : a.rename ρ = b.rename ρ ↔ a = b :=
  (rename_injective ρ).eq_iff

@[simp] theorem underlying?_rename (ty : Ty) :
    (ty.rename ρ).underlying? = ty.underlying?.map (rename ρ) := by
  cases ty <;> simp [underlying?]

@[simp] theorem element?_rename (ty : Ty) :
    (ty.rename ρ).element? = ty.element?.map (rename ρ) := by
  cases ty <;> simp [element?]

@[simp] theorem singleArg?_rename (ty : Ty) :
    (ty.rename ρ).singleArg? = ty.singleArg?.map (rename ρ) := by
  cases ty with
  | named definition args => rcases args with _ | ⟨_, _ | _⟩ <;> simp [singleArg?]
  | _ => simp [singleArg?]

theorem rename_eq_intrinsic_iff {ty : Ty} {kind : Intrinsic} :
    ty.rename ρ = .intrinsic kind ↔ ty = .intrinsic kind := by
  cases ty <;> simp

end Ty

def Field.rename (ρ : DefId → DefId) (field : Field) : Field :=
  { field with ty := field.ty.rename ρ }

def Definition.rename (ρ : DefId → DefId) (definition : Definition) : Definition :=
  { definition with
    bases := definition.bases.map (Ty.rename ρ)
    fields := definition.fields.map (Field.rename ρ) }

/-- What is known about a definition before its bases and fields are. -/
def Definition.outline (definition : Definition) : Definition :=
  { definition with bases := [], fields := [] }

namespace Definitions

/-! ## Matching definitions -/

/-- The definitions of `defs` have their outlines in `defs'` under other numbers. -/
structure OutlinesMatch (ρ : Equiv.Perm DefId) (defs defs' : Definitions) : Prop where
  outline_eq (id : DefId) :
    (defs'.get? (ρ id)).map Definition.outline = (defs.get? id).map Definition.outline
  find?_eq (name : String) : defs'.find? name = (defs.find? name).map ρ

/-- The definitions of `defs` stand in `defs'` under other numbers, the collections under the same
ones. -/
structure Match (ρ : Equiv.Perm DefId) (defs defs' : Definitions) : Prop where
  collection {id : DefId} : id.number ≤ Collection.definitions.size → ρ id = id
  get?_eq (id : DefId) : defs'.get? (ρ id) = (defs.get? id).map (Definition.rename ρ)
  find?_eq (name : String) : defs'.find? name = (defs.find? name).map ρ

variable {defs defs' : Definitions}

theorem Match.outlines (h : Match ρ defs defs') : OutlinesMatch ρ defs defs' where
  outline_eq id := by
    rw [h.get?_eq, Option.map_map]
    rfl
  find?_eq := h.find?_eq

section Outlines

variable (h : OutlinesMatch ρ defs defs')

include h

theorem OutlinesMatch.map_get? {α : Type} (read : Definition → α)
    (hread : ∀ definition, read definition.outline = read definition) (id : DefId) :
    (defs'.get? (ρ id)).map read = (defs.get? id).map read := by
  have hcomp : read ∘ Definition.outline = read := funext hread
  have houtline := congrArg (Option.map read) (h.outline_eq id)
  rwa [Option.map_map, Option.map_map, hcomp] at houtline

@[simp] theorem OutlinesMatch.kind?_eq (id : DefId) : defs'.kind? (ρ id) = defs.kind? id :=
  h.map_get? Definition.kind (fun _ => rfl) id

@[simp] theorem OutlinesMatch.arity?_eq (id : DefId) : defs'.arity? (ρ id) = defs.arity? id :=
  h.map_get? Definition.arity (fun _ => rfl) id

theorem OutlinesMatch.hasDefaultConstructor_eq (id : DefId) :
    defs'.hasDefaultConstructor (ρ id) = defs.hasDefaultConstructor id := by
  have hmap := h.map_get? Definition.hasDefaultConstructor (fun _ => rfl) id
  unfold Definitions.hasDefaultConstructor
  cases hget : defs.get? id <;> cases hget' : defs'.get? (ρ id) <;> simp_all

end Outlines

end Definitions

namespace Ty

open Definitions

variable {defs defs' : Definitions}

/-! ## Outlines: what can be null, texts and names -/

section Outlines

variable (h : OutlinesMatch ρ defs defs')

include h

theorem isValueType_rename (ty : Ty) :
    (ty.rename ρ).isValueType defs' = ty.isValueType defs := by
  cases ty <;> simp [isValueType, h.kind?_eq]

theorem canBeNull_rename (ty : Ty) : (ty.rename ρ).canBeNull defs' = ty.canBeNull defs := by
  cases ty <;> simp [canBeNull, isValueType, h.kind?_eq]

theorem makeNullable_rename (ty : Ty) :
    (ty.rename ρ).makeNullable defs' = (ty.makeNullable defs).rename ρ := by
  simp only [makeNullable, isValueType_rename h, underlying?_rename, Option.map_eq_none_iff]
  split
  · rw [rename_nullable]
  · rfl

theorem isConstructible_rename (ty : Ty) :
    (ty.rename ρ).isConstructible defs' = ty.isConstructible defs := by
  cases ty <;>
    simp [isConstructible, h.kind?_eq, h.arity?_eq, h.hasDefaultConstructor_eq]

theorem text_rename (ty : Ty) : (ty.rename ρ).text defs' = ty.text defs := by
  have hrest (tys : List Ty) (ih : ∀ ty ∈ tys, (ty.rename ρ).text defs' = ty.text defs) :
      textRest defs' (tys.map (rename ρ)) = textRest defs tys := by
    induction tys with
    | nil => rfl
    | cons ty tys ihRest =>
      rw [List.forall_mem_cons] at ih
      rw [List.map_cons, textRest, textRest, ih.1, ihRest ih.2]
  induction ty with
  | unknown number => cases number <;> simp [text]
  | intrinsic | param => simp [text]
  | nullable | array => simp_all [text]
  | named definition args ih =>
    have hname := h.map_get? Definition.name (fun _ => rfl) definition
    rw [rename_named]
    cases args with
    | nil => rw [List.map_nil, text, text, hname]
    | cons arg args =>
      rw [List.forall_mem_cons] at ih
      rw [List.map_cons, text, text, hname, ih.1, hrest args ih.2]

end Outlines

end Ty

/-! ## Type names -/

namespace TypeName

open Definitions

variable {defs defs' : Definitions} (h : OutlinesMatch ρ defs defs')

include h

theorem resolveName_rename (name : String) (args : List Ty) :
    resolveName defs' name (args.map (Ty.rename ρ)) =
      (resolveName defs name args).map (Ty.rename ρ) := by
  unfold resolveName
  cases Intrinsic.ofName? name with
  | some kind => cases args <;> simp [Except.map]
  | none =>
    rw [h.find?_eq]
    cases defs.find? name with
    | none => rfl
    | some id =>
      simp only [Option.map_some, h.arity?_eq, List.length_map]
      split
      · simp [Except.map]
      · rfl

theorem run_rename (step : Step) (built : List Ty) :
    step.run defs' (built.map (Ty.rename ρ)) =
      (step.run defs built).map (List.map (Ty.rename ρ)) := by
  cases step with
  | apply name arity =>
    rw [Step.run, Step.run, ← List.map_take, ← List.map_reverse, resolveName_rename h]
    cases resolveName defs name (built.take arity).reverse with
    | error error => rfl
    | ok ty => exact congrArg (Except.ok ∘ List.cons _) List.map_drop.symm
  | nullable =>
    cases built with
    | nil => rfl
    | cons ty built => simp [Step.run, Except.map, Ty.makeNullable_rename h]
  | array => cases built <;> simp [Step.run, Except.map]

theorem runSteps_rename (steps : List Step) (built : List Ty) :
    runSteps defs' steps (built.map (Ty.rename ρ)) =
      ((runSteps defs steps built).1, (runSteps defs steps built).2.map (Ty.rename ρ)) := by
  induction steps generalizing built with
  | nil => rfl
  | cons step steps ih =>
    rw [runSteps, runSteps, run_rename h]
    cases step.run defs built with
    | error error => rfl
    | ok built => exact ih built

end TypeName

/-- A name means the same type in both. -/
theorem Ty.parse_rename {defs defs' : Definitions} (h : Definitions.OutlinesMatch ρ defs defs')
    (input : String) : Ty.parse defs' input = (Ty.parse defs input).map (Ty.rename ρ) := by
  unfold Ty.parse TypeName.read
  rcases TypeName.steps input with ⟨steps, fault⟩
  have hrun := TypeName.runSteps_rename h steps []
  rw [List.map_nil] at hrun
  dsimp only
  rw [hrun]
  rcases TypeName.runSteps defs steps [] with ⟨_ | error, _ | ⟨ty, built⟩⟩ <;> cases fault <;> rfl

end NullGuard
