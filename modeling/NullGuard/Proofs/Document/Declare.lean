import NullGuard.Proofs.Document.Scope
import NullGuard.Proofs.Renaming.Document
import NullGuard.Proofs.Ty.Lookup

/-! # What is declared

Declarations succeed if their names are new and all their bases and fields can be resolved. A type
name is resolved by names, kinds and numbers of parameters alone, which are all known before the
first base is resolved. -/

namespace NullGuard

open Definitions

theorem DocumentM.pure_eq_ok {α : Type} {a b : α} : (pure a : DocumentM α) = .ok b ↔ b = a :=
  (Except.ok.injEq a b).to_iff.trans eq_comm

/-! ## Definitions with different names -/

namespace Definitions

variable {defs : Definitions} {name : String} {id : DefId}

theorem find?_eq_none_iff : defs.find? name = none ↔ name ∉ defs.toList.map Definition.name := by
  simp [find?, List.findIdx?_eq_none_iff]

/-- Where names differ, each is found at its own definition. -/
theorem find?_eq_some_iff_of_nodup (h : (defs.toList.map Definition.name).Nodup) :
    defs.find? name = some id ↔ (defs.get? id).map Definition.name = some name := by
  rw [find?_eq_some_iff, Option.map_eq_some_iff]
  refine exists_congr fun definition =>
    ⟨fun hlatest => ⟨hlatest.get?_eq, hlatest.name_eq⟩, fun ⟨hget, hname⟩ => ?_⟩
  refine ⟨hget, hname, fun other later hlt hother hlater => ?_⟩
  obtain ⟨position, hnumber, hfound⟩ := get?_eq_some_iff.mp hget
  obtain ⟨position', hnumber', hfound'⟩ := get?_eq_some_iff.mp hother
  have hlength : position' < (defs.toList.map Definition.name).length := by
    rw [List.length_map]
    exact (List.getElem?_eq_some_iff.mp hfound').1
  refine List.nodup_iff_getElem?_ne_getElem?.mp h position position' (by omega) hlength ?_
  rw [List.getElem?_map, List.getElem?_map, hfound, hfound', Option.map_some, Option.map_some,
    hname, hlater]

theorem find?_eq_findIdx?_names (defs : Definitions) (name : String) :
    defs.find? name =
      ((defs.toList.map Definition.name).reverse.findIdx? (· = name)).map fun later =>
        ⟨(defs.toList.map Definition.name).length - later⟩ := by
  rw [← List.map_reverse, List.findIdx?_map, List.length_map]
  rfl

/-- Type names have the same meanings where the definitions have the same outlines. -/
theorem OutlinesMatch.of_map_outline_eq {defs' : Definitions}
    (h : defs'.toList.map Definition.outline = defs.toList.map Definition.outline) :
    OutlinesMatch 1 defs defs' where
  outline_eq id := by
    rw [Equiv.Perm.one_apply]
    obtain ⟨_ | position⟩ := id
    · rfl
    · change (defs'.toList[position]?).map Definition.outline =
        (defs.toList[position]?).map Definition.outline
      rw [← List.getElem?_map, h, List.getElem?_map]
  find?_eq name := by
    have hnames : defs'.toList.map Definition.name = defs.toList.map Definition.name := by
      have hmap := congrArg (List.map Definition.name) h
      rwa [List.map_map, List.map_map] at hmap
    rw [find?_eq_findIdx?_names, find?_eq_findIdx?_names, hnames]
    simp

end Definitions

namespace TypeDecl

/-! ## Registration -/

/-- Declarations with different names, of which none is a keyword or taken. -/
structure AreNew (defs : Definitions) (decls : List TypeDecl) : Prop where
  nodup : (decls.map TypeDecl.name).Nodup
  ofName?_eq : ∀ decl ∈ decls, Intrinsic.ofName? decl.name = none
  find?_eq : ∀ decl ∈ decls, defs.find? decl.name = none

theorem outline_name (decl : TypeDecl) : decl.outline.name = decl.name := by
  unfold outline
  dsimp only
  split <;> rfl

theorem register_eq_ok {defs registered : Definitions} {decl : TypeDecl} :
    register defs decl = .ok registered ↔
      (Intrinsic.ofName? decl.name = none ∧ defs.find? decl.name = none) ∧
        registered = (defs.register decl.outline).2 := by
  unfold register
  split
  · rename_i htaken
    simp only [DocumentM.fail, reduceCtorEq, false_iff, not_and]
    rintro ⟨hkeyword, hfind⟩
    simp [hkeyword, hfind] at htaken
  · rename_i hfree
    simp only [not_or, Bool.not_eq_true, Option.isSome_eq_false_iff, Option.isNone_iff_eq_none]
      at hfree
    simp [hfree, eq_comm]

theorem areNew_cons {defs : Definitions} {decl : TypeDecl} {decls : List TypeDecl} :
    AreNew defs (decl :: decls) ↔
      (Intrinsic.ofName? decl.name = none ∧ defs.find? decl.name = none) ∧
        AreNew (defs.register decl.outline).2 decls := by
  have hfind (other : TypeDecl) : (defs.register decl.outline).2.find? other.name = none ↔
      decl.name ≠ other.name ∧ defs.find? other.name = none := by
    rw [find?_register, outline_name]
    split <;> simp_all
  constructor
  · rintro ⟨hnodup, hkeyword, hfree⟩
    rw [List.map_cons, List.nodup_cons] at hnodup
    rw [List.forall_mem_cons] at hkeyword hfree
    refine ⟨⟨hkeyword.1, hfree.1⟩, hnodup.2, hkeyword.2, fun other hother => ?_⟩
    refine (hfind other).mpr ⟨fun hname => hnodup.1 ?_, hfree.2 other hother⟩
    exact hname ▸ List.mem_map_of_mem hother
  · rintro ⟨⟨hkeyword, hfree⟩, hrest⟩
    have hothers (other : TypeDecl) (hother : other ∈ decls) :=
      (hfind other).mp (hrest.find?_eq other hother)
    refine ⟨List.nodup_cons.mpr ⟨fun hmem => ?_, hrest.nodup⟩,
      List.forall_mem_cons.mpr ⟨hkeyword, hrest.ofName?_eq⟩,
      List.forall_mem_cons.mpr ⟨hfree, fun other hother => (hothers other hother).2⟩⟩
    obtain ⟨other, hother, hname⟩ := List.mem_map.mp hmem
    exact (hothers other hother).1 hname.symm

theorem foldlM_register_eq_ok {defs registered : Definitions} {decls : List TypeDecl} :
    decls.foldlM register defs = .ok registered ↔
      AreNew defs decls ∧ registered = ⟨defs.toList ++ decls.map outline⟩ := by
  induction decls generalizing defs with
  | nil =>
    have hnew : AreNew defs [] := ⟨List.nodup_nil, nofun, nofun⟩
    rw [List.foldlM_nil, DocumentM.pure_eq_ok, List.map_nil, List.append_nil,
      and_iff_right hnew]
  | cons decl decls ih =>
    rw [List.foldlM_cons, DocumentM.bind_eq_ok, areNew_cons]
    simp only [register_eq_ok, ih, and_assoc]
    constructor
    · rintro ⟨_, hkeyword, hfree, rfl, hnew, rfl⟩
      exact ⟨hkeyword, hfree, hnew, by simp [Definitions.register]⟩
    · rintro ⟨hkeyword, hfree, hnew, rfl⟩
      exact ⟨_, hkeyword, hfree, rfl, hnew, by simp [Definitions.register]⟩

theorem AreNew.perm {defs : Definitions} {decls decls' : List TypeDecl} (h : AreNew defs decls)
    (hperm : decls'.Perm decls) : AreNew defs decls' where
  nodup := (hperm.map TypeDecl.name).nodup_iff.mpr h.nodup
  ofName?_eq decl hdecl := h.ofName?_eq decl (hperm.mem_iff.mp hdecl)
  find?_eq decl hdecl := h.find?_eq decl (hperm.mem_iff.mp hdecl)

/-- All names differ if those that were there before did. -/
theorem AreNew.nodup_names {defs : Definitions} {decls : List TypeDecl} (h : AreNew defs decls)
    (hdefs : (defs.toList.map Definition.name).Nodup) {define : TypeDecl → Definition}
    (hdefine : ∀ decl, (define decl).name = decl.name) :
    ((defs.toList ++ decls.map define).map Definition.name).Nodup := by
  have hnames : (decls.map define).map Definition.name = decls.map TypeDecl.name := by
    simp [Function.comp_def, hdefine]
  rw [List.map_append, hnames, List.nodup_append]
  refine ⟨hdefs, h.nodup, fun name hname other hother => ?_⟩
  obtain ⟨decl, hdecl, rfl⟩ := List.mem_map.mp hother
  exact ne_of_mem_of_not_mem hname (find?_eq_none_iff.mp (h.find?_eq decl hdecl))

/-! ## Completion -/

/-- The definition with its bases and fields. -/
def resolve (defs : Definitions) (decl : TypeDecl) : DocumentM Definition := do
  let bases ← DocumentM.within (.bases decl.name) (decl.bases.mapM (resolveType defs))
  let fields ← DocumentM.within (.fields decl.name) <| decl.fields.mapM fun field => do
    return { name := field.name, ty := ← resolveType defs field.ty : Field }
  return { decl.outline with bases, fields }

theorem complete_eq (defs : Definitions) (id : DefId) (decl : TypeDecl) :
    decl.complete defs id = (do
      let definition ← decl.resolve defs
      return (defs.setBases id definition.bases).setFields id definition.fields) := by
  simp [complete, resolve]

theorem resolveType_congr {defs defs' : Definitions}
    (h : defs'.toList.map Definition.outline = defs.toList.map Definition.outline) :
    resolveType defs' = resolveType defs := by
  funext name
  have hid : Ty.rename (1 : Equiv.Perm DefId) = id := funext Ty.rename_id
  unfold resolveType
  rw [Ty.parse_rename (.of_map_outline_eq h), hid]
  cases Ty.parse defs name <;> rfl

theorem resolve_congr {defs defs' : Definitions}
    (h : defs'.toList.map Definition.outline = defs.toList.map Definition.outline) :
    resolve defs' = resolve defs := by
  funext decl
  simp only [resolve, resolveType_congr h]

theorem outline_outline (decl : TypeDecl) : decl.outline.outline = decl.outline := by
  unfold outline
  dsimp only
  split <;> rfl

theorem outline_of_resolve {defs : Definitions} {decl : TypeDecl} {definition : Definition}
    (h : decl.resolve defs = .ok definition) : definition.outline = decl.outline := by
  obtain ⟨bases, -, h⟩ := DocumentM.bind_eq_ok.mp h
  obtain ⟨fields, -, h⟩ := DocumentM.bind_eq_ok.mp h
  cases h
  exact decl.outline_outline

/-- The definition with its bases and fields, or without any if they cannot be resolved. -/
def resolved (defs : Definitions) (decl : TypeDecl) : Definition :=
  (decl.resolve defs).toOption.getD decl.outline

theorem outline_resolved (defs : Definitions) (decl : TypeDecl) :
    (decl.resolved defs).outline = decl.outline := by
  unfold resolved
  cases hresolve : decl.resolve defs with
  | error error => exact decl.outline_outline
  | ok definition => exact outline_of_resolve hresolve

theorem resolved_name (defs : Definitions) (decl : TypeDecl) :
    (decl.resolved defs).name = decl.name :=
  (congrArg Definition.name (outline_resolved defs decl)).trans decl.outline_name

theorem mapM_resolve_eq_ok {defs : Definitions} {decls : List TypeDecl}
    {definitions : List Definition} :
    decls.mapM (resolve defs) = .ok definitions ↔
      (∀ decl ∈ decls, (decl.resolve defs).isOk) ∧ definitions = decls.map (resolved defs) := by
  induction decls generalizing definitions with
  | nil =>
    rw [List.mapM_nil, DocumentM.pure_eq_ok]
    simp
  | cons decl decls ih =>
    rw [List.mapM_cons, List.forall_mem_cons, List.map_cons, resolved]
    cases decl.resolve defs with
    | error error => simp [Except.isOk, Except.toBool, bind, Except.bind]
    | ok definition =>
      have hok : (Except.ok definition : DocumentM Definition).isOk := rfl
      simp only [DocumentM.bind_eq_ok, Except.ok.injEq, exists_eq_left', ih, DocumentM.pure_eq_ok,
        and_assoc, exists_and_left, exists_eq_left, hok, true_and]
      rfl

end TypeDecl

namespace Definitions

theorem modify_of_append (front : List Definition) (definition : Definition)
    (rest : List Definition) (change : Definition → Definition) :
    modify ⟨front ++ definition :: rest⟩ ⟨front.length + 1⟩ change =
      ⟨front ++ change definition :: rest⟩ := by
  have hmodify : (front ++ definition :: rest).modify front.length change =
      front ++ change definition :: rest := by
    induction front with
    | nil => rfl
    | cons first front ih => exact congrArg (first :: ·) ih
  exact congrArg Definitions.mk hmodify

/-- A definition takes the place of its outline. -/
theorem setFields_setBases_of_append {outline definition : Definition}
    (front rest : List Definition) (h : definition.outline = outline) :
    (setBases ⟨front ++ outline :: rest⟩ ⟨front.length + 1⟩ definition.bases).setFields
      ⟨front.length + 1⟩ definition.fields = ⟨front ++ definition :: rest⟩ := by
  subst h
  rw [setBases, setFields, modify_of_append, modify_of_append]
  rfl

end Definitions

namespace Document

/-- Declarations are completed one after the other, but as if all were completed at once. -/
theorem completeFrom_eq {registered : Definitions} {done : List Definition}
    {decls : List TypeDecl}
    (h : (done ++ decls.map TypeDecl.outline).map Definition.outline =
      registered.toList.map Definition.outline) :
    completeFrom ⟨done ++ decls.map TypeDecl.outline⟩ (done.length + 1) decls = (do
      let resolved ← decls.mapM (TypeDecl.resolve registered)
      return ⟨done ++ resolved⟩) := by
  induction decls generalizing done with
  | nil => rfl
  | cons decl decls ih =>
    rw [completeFrom, TypeDecl.complete_eq, TypeDecl.resolve_congr h, List.mapM_cons]
    cases hresolve : decl.resolve registered with
    | error error => rfl
    | ok definition =>
      have houtline := TypeDecl.outline_of_resolve hresolve
      have hrest := @ih (done ++ [definition]) (by
        rw [← h]
        simp [houtline, decl.outline_outline])
      rw [List.append_assoc, List.length_append] at hrest
      change completeFrom (((Definitions.setBases _ _ definition.bases).setFields _
        definition.fields)) _ decls = _
      rw [List.map_cons, setFields_setBases_of_append done _ houtline]
      refine hrest.trans ?_
      cases decls.mapM (TypeDecl.resolve registered) with
      | error error => rfl
      | ok resolved => simp [bind, Except.bind, pure, Except.pure]

/-- Declarations succeed if their names are new and each can be resolved. -/
theorem declareTypes_eq_ok {document : Document} {defs declared : Definitions} :
    document.declareTypes defs = .ok declared ↔
      TypeDecl.AreNew defs document.types ∧
        (∀ decl ∈ document.types, (decl.resolve
          ⟨defs.toList ++ document.types.map TypeDecl.outline⟩).isOk) ∧
        declared = ⟨defs.toList ++ document.types.map
          (TypeDecl.resolved ⟨defs.toList ++ document.types.map TypeDecl.outline⟩)⟩ := by
  rw [declareTypes, DocumentM.bind_eq_ok]
  simp only [TypeDecl.foldlM_register_eq_ok, and_assoc, exists_and_left, exists_eq_left]
  refine and_congr_right fun _ => ?_
  rw [Definitions.size, completeFrom_eq rfl, DocumentM.bind_eq_ok]
  simp only [TypeDecl.mapM_resolve_eq_ok, DocumentM.pure_eq_ok, and_assoc, exists_and_left,
    exists_eq_left]

end Document

end NullGuard
