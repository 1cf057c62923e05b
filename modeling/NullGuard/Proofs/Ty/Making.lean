import Mathlib.Logic.Relation
import NullGuard.Proofs.Ty.Catalogue
import NullGuard.Proofs.Ty.WellMade

/-! # Making types

Types are made by calls, each of which is given types that are there already. Whatever the calls
are, a type comes in after its parts and is well made, and stays so under later definitions. -/

namespace NullGuard

/-- The bases of a collection are collections of the same elements. -/
theorem Collection.eq_of_mem_bases {definition : Definition} {base : Ty}
    (hdefinition : definition ∈ definitions.toList) (hbase : base ∈ definition.bases) :
    ∃ id, base = .named id [.param 0] := by
  have hall : ∀ definition ∈ definitions.toList, ∀ base ∈ definition.bases,
      ∃ id, base = .named id [.param 0] := by
    simp [definitions, interfaceOf, classOf]
  exact hall definition hdefinition base hbase

/-! ## Catalogues that grow -/

namespace Catalogue

variable {catalogue later : Catalogue} {defs defs' : Definitions} {ty : Ty}

/-- The type is built in or has been entered. -/
def Knows (catalogue : Catalogue) (ty : Ty) : Prop :=
  (∃ kind, ty = .intrinsic kind) ∨ ty ∈ catalogue.types

theorem knows_empty : empty.Knows ty ↔ ∃ kind, ty = .intrinsic kind :=
  or_iff_left List.not_mem_nil

theorem Knows.mono (h : catalogue.Knows ty) (hsub : catalogue.types ⊆ later.types) :
    later.Knows ty :=
  h.imp_right fun hmem => hsub hmem

/-- All types have come in after their parts. -/
inductive Grown : Catalogue → Prop where
  | empty : Grown .empty
  | enter {catalogue : Catalogue} {ty : Ty} (h : Grown catalogue)
      (hparts : ∀ part ∈ ty.parts, catalogue.Knows part) : Grown (catalogue.enter ty)

theorem Complete.holds_of_knows (h : catalogue.Complete) (hty : catalogue.Knows ty) :
    catalogue.Holds ty := by
  rcases hty with ⟨kind, rfl⟩ | hmem
  · exact .intrinsic kind
  · exact h ty hmem

theorem Holds.knows (h : catalogue.Holds ty) (hty : ty.WellMade defs) : catalogue.Knows ty := by
  cases hty with
  | intrinsic kind => exact .inl ⟨kind, rfl⟩
  | param => cases h with | param hmem => exact .inr hmem
  | nullable => cases h with | nullable _ hmem => exact .inr hmem
  | array => cases h with | array _ hmem => exact .inr hmem
  | named => cases h with | named _ hmem => exact .inr hmem

theorem types_enter (catalogue : Catalogue) (ty : Ty) :
    (catalogue.enter ty).types = catalogue.types ∨
      (catalogue.enter ty).types = catalogue.types ++ [ty] := by
  unfold enter
  split
  · exact .inl rfl
  · exact .inl rfl
  · split
    · exact .inl rfl
    · exact .inr (by simp [types, Entry.of])

theorem of_mem_types_enter {known : Ty} (h : known ∈ (catalogue.enter ty).types) :
    known ∈ catalogue.types ∨ known = ty := by
  rcases catalogue.types_enter ty with hsame | hnew
  · exact .inl (hsame ▸ h)
  · exact (List.mem_append.mp (hnew ▸ h)).imp_right List.mem_singleton.mp

theorem types_subset_enter (catalogue : Catalogue) (ty : Ty) :
    catalogue.types ⊆ (catalogue.enter ty).types := by
  rcases catalogue.types_enter ty with h | h
  · exact h ▸ List.Subset.refl _
  · exact h ▸ List.subset_append_left _ _

theorem Complete.enter (h : catalogue.Complete) (hparts : ∀ part ∈ ty.parts, catalogue.Knows part) :
    (catalogue.enter ty).Complete := by
  have hsub := catalogue.types_subset_enter ty
  have hholds (hmem : ty ∈ (catalogue.enter ty).types) : (catalogue.enter ty).Holds ty := by
    have hparts part (hpart : part ∈ ty.parts) : (catalogue.enter ty).Holds part :=
      (h.holds_of_knows (hparts part hpart)).mono hsub
    cases ty with
    | unknown number => exact .unknown number
    | intrinsic kind => exact .intrinsic kind
    | nullable part => exact .nullable (hparts part List.mem_cons_self) hmem
    | array part => exact .array (hparts part List.mem_cons_self) hmem
    | named definition args => exact .named hparts hmem
    | param index => exact .param hmem
  intro known hknown
  rcases of_mem_types_enter hknown with hold | rfl
  · exact (h known hold).mono hsub
  · exact hholds hknown

theorem Grown.complete (h : catalogue.Grown) : catalogue.Complete := by
  induction h with
  | empty => exact fun _ hty => absurd hty List.not_mem_nil
  | enter _ hparts ih => exact ih.enter hparts

theorem Grown.knows_parts (h : catalogue.Grown) (hty : catalogue.Knows ty) :
    ∀ part ∈ ty.parts, catalogue.Knows part := by
  induction h generalizing ty with
  | empty =>
    obtain ⟨kind, rfl⟩ := knows_empty.mp hty
    exact List.forall_mem_nil _
  | @enter catalogue last _ hparts ih =>
    refine fun part hpart => Knows.mono ?_ (catalogue.types_subset_enter last)
    rcases hty with ⟨kind, rfl⟩ | hmem
    · exact absurd hpart List.not_mem_nil
    · rcases of_mem_types_enter hmem with hold | rfl
      · exact ih (.inr hold) part hpart
      · exact hparts part hpart

theorem Grown.records (h : catalogue.Grown) (tys : List Ty) :
    Records catalogue tys (catalogue.recordAll tys) :=
  Complete.recordAll (fun ty _ _ h => h.record ty) h.complete

/-- What a catalogue is at any time: grown and without types that are not well made. -/
structure Sound (defs : Definitions) (catalogue : Catalogue) : Prop where
  grown : catalogue.Grown
  wellMade : ∀ ty ∈ catalogue.types, ty.WellMade defs

theorem Sound.mono (h : catalogue.Sound defs) (hkinds : defs.KeepsKinds defs') :
    catalogue.Sound defs' :=
  ⟨h.grown, fun ty hty => (h.wellMade ty hty).mono hkinds⟩

theorem Sound.wellMade_of_knows (h : catalogue.Sound defs) (hty : catalogue.Knows ty) :
    ty.WellMade defs := by
  rcases hty with ⟨kind, rfl⟩ | hmem
  · exact .intrinsic kind
  · exact h.wellMade ty hmem

theorem Sound.enter (h : catalogue.Sound defs) (hty : ty.WellMade defs)
    (hparts : ∀ part ∈ ty.parts, catalogue.Knows part) : (catalogue.enter ty).Sound defs := by
  refine ⟨h.grown.enter hparts, fun known hknown => ?_⟩
  rcases of_mem_types_enter hknown with hold | rfl
  · exact h.wellMade known hold
  · exact hty

theorem Sound.recordAll_of_forall {tys : List Ty} (h : catalogue.Sound defs)
    (htys : ∀ ty ∈ tys, ∀ {catalogue : Catalogue}, catalogue.Sound defs →
      (catalogue.record ty).Sound defs) : (catalogue.recordAll tys).Sound defs := by
  induction tys generalizing catalogue with
  | nil => rwa [Catalogue.recordAll]
  | cons ty tys ih =>
    rw [List.forall_mem_cons] at htys
    rw [Catalogue.recordAll]
    exact ih (htys.1 h) htys.2

theorem record_of_not_mem (h : ty ∉ catalogue.types) :
    catalogue.record ty = (catalogue.recordAll ty.parts).enter ty := by
  rw [Catalogue.record.eq_def, if_neg (mt contains_eq_true_iff.mp h)]
  cases ty <;> simp [Ty.parts, Catalogue.recordAll]

/-- A type that is recorded comes in after its parts. -/
theorem Sound.record (h : catalogue.Sound defs) (hty : ty.WellMade defs) :
    (catalogue.record ty).Sound defs := by
  induction ty using Ty.ind_parts generalizing catalogue with
  | _ ty ih =>
    by_cases hmem : ty ∈ catalogue.types
    · rwa [record_of_mem hmem]
    · have hparts := hty.of_mem_parts
      have hrecords := h.grown.records ty.parts
      rw [record_of_not_mem hmem]
      have hrecorded :=
        h.recordAll_of_forall fun part hpart _ h => ih part hpart h (hparts part hpart)
      exact hrecorded.enter hty fun part hpart =>
        (hrecords.holds part hpart).knows (hparts part hpart)

theorem Sound.recordAll {tys : List Ty} (h : catalogue.Sound defs)
    (htys : ∀ ty ∈ tys, ty.WellMade defs) : (catalogue.recordAll tys).Sound defs :=
  h.recordAll_of_forall fun ty hty _ h => h.record (htys ty hty)

end Catalogue

/-! ## Calls -/

namespace Workspace

variable {workspace later : Workspace} {ty : Ty} {tys : List Ty}

/-- The type is built in or has been made. -/
def Knows (workspace : Workspace) (ty : Ty) : Prop :=
  workspace.catalogue.Knows ty

/-- A call makes a type of types that are known, or changes the definitions. The types of fields
may be any. -/
inductive Step (workspace : Workspace) : Workspace → Prop where
  | define {definition : Definition} (h : ∀ base ∈ definition.bases, workspace.Knows base) :
      Step workspace ((define definition).run workspace).2
  | setFields (id : DefId) (fields : List Field) :
      Step workspace ((setFields id fields).run workspace).2
  | addFields (id : DefId) (fields : List Field) :
      Step workspace ((addFields id fields).run workspace).2
  | setBases (id : DefId) {bases : List Ty} (h : ∀ base ∈ bases, workspace.Knows base) :
      Step workspace ((setBases id bases).run workspace).2
  | parse (input : String) : Step workspace ((parseType input).run workspace).2
  | nullable {ty : Ty} (h : workspace.Knows ty) :
      Step workspace ((makeNullable ty).run workspace).2
  | array {element : Ty} (h : workspace.Knows element) :
      Step workspace ((makeType (.array element)).run workspace).2
  | named (id : DefId) {args : List Ty} (h : ∀ arg ∈ args, workspace.Knows arg) :
      Step workspace ((makeType (.named id args)).run workspace).2
  | param (index : Nat) : Step workspace ((makeType (.param index)).run workspace).2
  | listOf {element : Ty} (h : workspace.Knows element) :
      Step workspace ((makeType (.listOf element)).run workspace).2
  | hashSetOf {element : Ty} (h : workspace.Knows element) :
      Step workspace ((makeType (.hashSetOf element)).run workspace).2
  | enumerableOf {element : Ty} (h : workspace.Knows element) :
      Step workspace ((makeType (.enumerableOf element)).run workspace).2
  | instantiate {ty : Ty} {args : List Ty} (h : workspace.Knows ty)
      (hargs : ∀ arg ∈ args, workspace.Knows arg) :
      Step workspace ((instantiate ty args).run workspace).2

/-- Calls lead from one workspace to the other. -/
abbrev Reaches : Workspace → Workspace → Prop :=
  Relation.ReflTransGen Step

/-- What holds after any calls. Bases are known, so that they are well made too. -/
structure Sound (workspace : Workspace) : Prop where
  catalogue : workspace.catalogue.Sound workspace.defs
  bases : ∀ id definition, workspace.defs.get? id = some definition →
    ∀ base ∈ definition.bases, workspace.Knows base

theorem Sound.wellMade (h : workspace.Sound) (hty : workspace.Knows ty) :
    ty.WellMade workspace.defs :=
  h.catalogue.wellMade_of_knows hty

theorem Sound.record (h : workspace.Sound) (htys : ∀ ty ∈ tys, ty.WellMade workspace.defs) :
    ((record tys).run workspace).2.Sound := by
  have hrecords := h.catalogue.grown.records tys
  exact ⟨h.catalogue.recordAll htys, fun id definition hget base hbase =>
    (h.bases id definition hget base hbase).mono hrecords.subset⟩

theorem Sound.makeType (h : workspace.Sound) (hty : ty.WellMade workspace.defs) :
    ((makeType ty).run workspace).2.Sound :=
  h.record (List.forall_mem_singleton.mpr hty)

theorem Sound.named (h : workspace.Sound) (id : DefId) {args : List Ty}
    (hargs : ∀ arg ∈ args, workspace.Knows arg) :
    ((Workspace.makeType (.named id args)).run workspace).2.Sound :=
  h.makeType (.named id fun arg harg => h.wellMade (hargs arg harg))

/-- Definitions may change as long as kinds stay and bases are known. -/
theorem Sound.withDefs (h : workspace.Sound) {defs : Definitions}
    (hkinds : workspace.defs.KeepsKinds defs)
    (hbases : ∀ id definition, defs.get? id = some definition →
      ∀ base ∈ definition.bases, workspace.Knows base) :
    Sound { workspace with defs } :=
  ⟨h.catalogue.mono hkinds, hbases⟩

theorem Sound.define (h : workspace.Sound) {definition : Definition}
    (hbases : ∀ base ∈ definition.bases, workspace.Knows base) :
    Sound { workspace with defs := (workspace.defs.register definition).2 } := by
  refine h.withDefs (Definitions.keepsKinds_register _ _) fun id found hget base hbase => ?_
  rw [Definitions.get?_register] at hget
  split at hget
  · cases hget
    exact hbases base hbase
  · exact h.bases id found hget base hbase

theorem Sound.modify (h : workspace.Sound) (id : DefId) {change : Definition → Definition}
    (hkind : ∀ definition, (change definition).kind = definition.kind)
    (hbases : ∀ definition, ∀ base ∈ (change definition).bases,
      base ∈ definition.bases ∨ workspace.Knows base) :
    Sound { workspace with defs := workspace.defs.modify id change } := by
  refine h.withDefs (Definitions.keepsKinds_modify _ id hkind) fun other found hget base hbase => ?_
  rw [Definitions.get?_modify] at hget
  split at hget
  · obtain ⟨old, hold, rfl⟩ := Option.map_eq_some_iff.mp hget
    rcases hbases old base hbase with hbase | hknown
    · exact h.bases other old hold base hbase
    · exact hknown
  · exact h.bases other found hget base hbase

theorem Sound.step (h : workspace.Sound) (hstep : workspace.Step later) : later.Sound := by
  cases hstep with
  | define hbases => exact h.define hbases
  | setFields id fields => exact h.modify id (fun _ => rfl) fun _ _ => .inl
  | addFields id fields => exact h.modify id (fun _ => rfl) fun _ _ => .inl
  | setBases id hbases =>
    exact h.modify id (fun _ => rfl) fun _ base hbase => .inr (hbases base hbase)
  | parse input => exact h.record (TypeName.wellMade_read _ input)
  | nullable hty => exact h.makeType (h.wellMade hty).makeNullable
  | array hty => exact h.makeType (.array (h.wellMade hty))
  | named id hargs => exact h.named id hargs
  | param index => exact h.makeType (.param index)
  | listOf hty | hashSetOf hty | enumerableOf hty =>
    exact h.named _ (List.forall_mem_singleton.mpr hty)
  | instantiate hty hargs =>
    exact h.makeType ((h.wellMade hty).instantiate fun arg harg => h.wellMade (hargs arg harg))

theorem keepsKinds_of_step (h : workspace.Step later) : workspace.defs.KeepsKinds later.defs := by
  cases h with
  | define => exact Definitions.keepsKinds_register _ _
  | setFields id | addFields id | setBases id =>
    exact Definitions.keepsKinds_modify _ id fun _ => rfl
  | parse | nullable | array | named | param | listOf | hashSetOf | enumerableOf | instantiate =>
    exact .refl _

theorem Sound.reaches (h : workspace.Sound) (hreaches : workspace.Reaches later) :
    later.Sound := by
  induction hreaches with
  | refl => exact h
  | tail _ hstep ih => exact ih.step hstep

theorem keepsKinds_of_reaches (h : workspace.Reaches later) :
    workspace.defs.KeepsKinds later.defs := by
  induction h with
  | refl => exact .refl _
  | tail _ hstep ih => exact ih.trans (keepsKinds_of_step hstep)

theorem sound_new : new.Sound := by
  let bases := Collection.definitions.toList.flatMap fun found => found.bases
  have hwell : ∀ base ∈ bases, base.WellMade Collection.definitions := fun base hbase => by
    obtain ⟨found, hfound, hbase⟩ := List.mem_flatMap.mp hbase
    obtain ⟨id, rfl⟩ := Collection.eq_of_mem_bases hfound hbase
    exact .named id (List.forall_mem_singleton.mpr (.param 0))
  have hempty : Catalogue.empty.Sound Collection.definitions :=
    ⟨.empty, fun _ hty => absurd hty List.not_mem_nil⟩
  refine ⟨hempty.recordAll hwell, fun id definition hget base hbase => ?_⟩
  obtain ⟨position, -, hposition⟩ := Definitions.get?_eq_some_iff.mp hget
  have hmem : base ∈ bases :=
    List.mem_flatMap.mpr ⟨definition, List.mem_of_getElem? hposition, hbase⟩
  exact ((hempty.grown.records bases).holds base hmem).knows (hwell base hmem)

theorem sound_of_reaches (h : new.Reaches workspace) : workspace.Sound :=
  sound_new.reaches h

end Workspace

end NullGuard
