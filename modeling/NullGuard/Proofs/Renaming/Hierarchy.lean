import Mathlib.Data.List.Basic
import NullGuard.Proofs.Renaming.Ty

/-! # Bases, assignability and members under other numbers -/

namespace NullGuard

open Definitions

variable {ρ : Equiv.Perm DefId} {defs defs' : Definitions}

theorem Definitions.Match.apply_eq_iff (h : Match ρ defs defs') {id collection : DefId}
    (hcollection : collection.number ≤ Collection.definitions.size) :
    ρ id = collection ↔ id = collection := by
  rw [← ρ.apply_eq_iff_eq (x := id), h.collection hcollection]

theorem Definition.fieldType?_rename (definition : Definition) (name : String) :
    (definition.rename ρ).fieldType? name = (definition.fieldType? name).map (Ty.rename ρ) := by
  simp only [fieldType?, Definition.rename, List.find?_map, Option.map_map]
  rfl

namespace Ty

theorem subst_rename (h : OutlinesMatch ρ defs defs') (args : List Ty) (ty : Ty) :
    (ty.rename ρ).subst defs' (args.map (rename ρ)) = (ty.subst defs args).rename ρ := by
  induction ty with
  | unknown | intrinsic => simp [subst]
  | nullable underlying ih => simp [subst, ih, makeNullable_rename h]
  | array element ih => simp [subst, ih]
  | named definition own ih => simpa [subst] using ih
  | param index =>
    rw [rename_param, subst, subst, List.getD_eq_getElem?_getD, List.getD_eq_getElem?_getD,
      List.getElem?_map]
    cases args[index]? <;> simp

theorem instantiate_rename (h : OutlinesMatch ρ defs defs') (ty : Ty) (args : List Ty) :
    (ty.rename ρ).instantiate defs' (args.map (rename ρ)) =
      (ty.instantiate defs args).rename ρ := by
  unfold instantiate
  rw [List.isEmpty_map]
  split
  · rfl
  · exact subst_rename h args ty

variable (h : Match ρ defs defs')

include h

theorem baseTypes_rename (ty : Ty) :
    (ty.rename ρ).baseTypes defs' = (ty.baseTypes defs).map (rename ρ) := by
  cases ty with
  | named definition args =>
    rw [rename_named, baseTypes, baseTypes, h.get?_eq]
    cases defs.get? definition with
    | none => rfl
    | some found =>
      simp only [Option.map_some, Definition.rename, List.map_map]
      exact List.map_congr_left fun base _ => instantiate_rename h.outlines base args
  | _ => simp [baseTypes]

theorem declaredField?_rename (name : String) (ty : Ty) :
    (ty.rename ρ).declaredField? defs' name = (ty.declaredField? defs name).map (rename ρ) := by
  cases ty with
  | named definition args =>
    rw [rename_named, declaredField?, declaredField?, h.get?_eq]
    cases defs.get? definition with
    | none => rfl
    | some found =>
      simp only [Option.map_some, Option.bind_some, Definition.fieldType?_rename]
      cases found.fieldType? name with
      | none => rfl
      | some declared => exact congrArg some (instantiate_rename h.outlines declared args)
  | _ => simp [declaredField?]

/-! ## Searches -/

theorem derivesFrom_mirrors (target : Ty) (steps : Nat) (source : Ty) :
    Mirrors (List.map (rename ρ)) id (derivesFrom defs target steps source)
      (derivesFrom defs' (target.rename ρ) steps (source.rename ρ)) := by
  induction steps generalizing source with
  | zero =>
    rw [derivesFrom.eq_def, derivesFrom.eq_def]
    dsimp only
    simp only [rename_inj]
    split
    · exact .pure rfl
    · exact .pure rfl
  | succ steps ih =>
    rw [derivesFrom.eq_def, derivesFrom.eq_def]
    dsimp only
    simp only [rename_inj]
    split
    · exact .pure rfl
    · refine Mirrors.state.bind fun visited => ?_
      simp only [List.contains_iff_mem, List.mem_map_of_injective (rename_injective ρ)]
      split
      · exact .pure rfl
      · refine .bind (.update fun visited => by rfl) fun _ => ?_
        rw [baseTypes_rename h]
        exact .anyM fun base _ => ih base

theorem findField_mirrors (name : String) (steps : Nat) (ty : Ty) :
    Mirrors (List.map (rename ρ)) (Option.map (rename ρ)) (findField defs name steps ty)
      (findField defs' name steps (ty.rename ρ)) := by
  induction steps generalizing ty with
  | zero => exact .pure rfl
  | succ steps ih =>
    refine Mirrors.state.bind fun visited => ?_
    simp only [List.contains_iff_mem, List.mem_map_of_injective (rename_injective ρ)]
    split
    · exact .pure rfl
    · refine .bind (.update fun visited => by rfl) fun _ => ?_
      rw [declaredField?_rename h]
      cases ty.declaredField? defs name with
      | some declared => exact .pure rfl
      | none =>
        dsimp only [Option.map_none]
        rw [baseTypes_rename h]
        exact .findSomeM fun base _ => ih base

/-! ## Assignability and members -/

theorem arrayImplements_rename (element ty : Ty) :
    arrayImplements (element.rename ρ) (ty.rename ρ) = arrayImplements element ty := by
  cases ty with
  | named definition args =>
    have hargs : args.map (rename ρ) = [element.rename ρ] ↔ args = [element] := by
      rw [← List.map_singleton, (List.map_injective_iff.mpr (rename_injective ρ)).eq_iff]
    have hdefinition :
        ρ definition ∈ Collection.arrayInterfaces ↔ definition ∈ Collection.arrayInterfaces := by
      have hiff {id : DefId} (hid : id ∈ Collection.arrayInterfaces) :
          ρ definition = id ↔ definition = id :=
        h.apply_eq_iff (by revert id; decide)
      refine ⟨fun hmem => (hiff hmem).mp rfl ▸ hmem, fun hmem => ?_⟩
      rwa [(hiff hmem).mpr rfl]
    simp [arrayImplements, hargs, hdefinition]
  | _ => simp [arrayImplements]

theorem isAssignable_rename (source target : Ty) :
    (source.rename ρ).isAssignable defs' (target.rename ρ) = source.isAssignable defs target := by
  have hatOnce :
      (source.rename ρ = target.rename ρ ∨ target.rename ρ = .object ∨
        (target.rename ρ).underlying? = some (source.rename ρ)) ↔
      (source = target ∨ target = .object ∨ target.underlying? = some source) := by
    rw [rename_inj, rename_eq_intrinsic_iff, underlying?_rename, ← Option.map_some,
      (Option.map_injective (rename_injective ρ)).eq_iff]
  unfold isAssignable assignability
  simp only [hatOnce]
  split
  · rfl
  · cases source with
    | array element => simpa using arrayImplements_rename h element target
    | named definition args =>
      have hfound := congrArg Prod.fst
        (derivesFrom_mirrors h target (maxBaseDepth + 1) (.named definition args) [])
      rw [rename_named] at hfound ⊢
      exact hfound
    | _ => simp

theorem fieldType?_rename (ty : Ty) (name : String) :
    (ty.rename ρ).fieldType? defs' name = (ty.fieldType? defs name).map (rename ρ) := by
  unfold fieldType?
  cases ty with
  | named definition args =>
    have hfound := congrArg Prod.fst
      (findField_mirrors h name (maxBaseDepth + 1) (.named definition args) [])
    rw [rename_named] at hfound ⊢
    exact hfound
  | intrinsic kind => cases kind <;> simp [fieldSearch, apply_ite]
  | array element => simp only [rename_array, fieldSearch]; split <;> simp
  | nullable underlying =>
    simp only [rename_nullable, fieldSearch]
    split
    · simp
    · split <;> simp
  | _ => simp [fieldSearch]

end Ty

end NullGuard
