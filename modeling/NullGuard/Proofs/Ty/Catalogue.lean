import NullGuard.Workspace

/-! # The types in a catalogue

Nothing comes into the catalogue before its parts. A type that has been made is in it with all that
it is made of, and comes in only once. -/

namespace NullGuard

namespace Catalogue

variable {catalogue other : Catalogue} {ty : Ty}

/-- The type has been entered, and so has all that it is made of. Built-in types need not be. -/
inductive Holds (catalogue : Catalogue) : Ty → Prop where
  | intrinsic (kind : Intrinsic) : Holds catalogue (.intrinsic kind)
  | unknown (number : Nat) : Holds catalogue (.unknown number)
  | param {index} (hmem : Ty.param index ∈ catalogue.types) : Holds catalogue (.param index)
  | nullable {underlying} (h : Holds catalogue underlying)
      (hmem : Ty.nullable underlying ∈ catalogue.types) : Holds catalogue (.nullable underlying)
  | array {element} (h : Holds catalogue element) (hmem : Ty.array element ∈ catalogue.types) :
      Holds catalogue (.array element)
  | named {id args} (hargs : ∀ arg ∈ args, Holds catalogue arg)
      (hmem : Ty.named id args ∈ catalogue.types) : Holds catalogue (.named id args)

theorem Holds.mono (h : catalogue.Holds ty) (hsub : catalogue.types ⊆ other.types) :
    other.Holds ty := by
  induction h with
  | intrinsic kind => exact .intrinsic kind
  | unknown number => exact .unknown number
  | param hmem => exact .param (hsub hmem)
  | nullable _ hmem ih => exact .nullable ih (hsub hmem)
  | array _ hmem ih => exact .array ih (hsub hmem)
  | named _ hmem ih => exact .named ih (hsub hmem)

theorem record_of_mem (h : ty ∈ catalogue.types) : catalogue.record ty = catalogue := by
  rw [record.eq_def, if_pos (contains_eq_true_iff.mpr h)]

theorem Holds.record_eq (h : catalogue.Holds ty) : catalogue.record ty = catalogue := by
  cases h with
  | intrinsic | unknown =>
    rw [record.eq_def]
    split <;> rfl
  | param hmem | nullable _ hmem | array _ hmem | named _ hmem => exact record_of_mem hmem

/-- Nothing has been entered without its parts. -/
def Complete (catalogue : Catalogue) : Prop :=
  ∀ ty ∈ catalogue.types, catalogue.Holds ty

/-- The catalogue after types have come in. -/
structure Records (catalogue : Catalogue) (tys : List Ty) (later : Catalogue) : Prop where
  subset : catalogue.types ⊆ later.types
  complete : later.Complete
  holds : ∀ ty ∈ tys, later.Holds ty

theorem Complete.records_of_holds (h : catalogue.Complete) (hty : catalogue.Holds ty) :
    Records catalogue [ty] catalogue :=
  ⟨List.Subset.refl _, h, List.forall_mem_singleton.mpr hty⟩

theorem mem_types_enter {known : Ty} (hintrinsic : ∀ kind, ty ≠ .intrinsic kind)
    (hunknown : ∀ number, ty ≠ .unknown number) :
    known ∈ (catalogue.enter ty).types ↔ known ∈ catalogue.types ∨ known = ty := by
  unfold enter
  split
  · exact absurd rfl (hunknown _)
  · exact absurd rfl (hintrinsic _)
  · split
    · rename_i hmem
      rw [contains_eq_true_iff] at hmem
      exact ⟨.inl, fun h => h.elim id fun heq => heq ▸ hmem⟩
    · simp [types, Entry.of]

/-- A composed type comes in after its parts. -/
theorem Complete.record_of_parts {parts : List Ty} {middle : Catalogue} (h : catalogue.Complete)
    (hmiddle : Records catalogue parts middle)
    (hrecord : ty ∉ catalogue.types → catalogue.record ty = middle.enter ty)
    (hintrinsic : ∀ kind, ty ≠ .intrinsic kind) (hunknown : ∀ number, ty ≠ .unknown number)
    (hholds : ∀ later : Catalogue, (∀ part ∈ parts, later.Holds part) → ty ∈ later.types →
      later.Holds ty) :
    Records catalogue [ty] (catalogue.record ty) := by
  by_cases hmem : ty ∈ catalogue.types
  · rw [record_of_mem hmem]
    exact h.records_of_holds (h ty hmem)
  · rw [hrecord hmem]
    have henter (known : Ty) :
        known ∈ (middle.enter ty).types ↔ known ∈ middle.types ∨ known = ty :=
      mem_types_enter hintrinsic hunknown
    have hsub : middle.types ⊆ (middle.enter ty).types := fun known hknown =>
      (henter known).mpr (.inl hknown)
    have hty : (middle.enter ty).Holds ty :=
      hholds _ (fun part hpart => (hmiddle.holds part hpart).mono hsub) ((henter ty).mpr (.inr rfl))
    refine ⟨List.Subset.trans hmiddle.subset hsub, fun known hknown => ?_,
      List.forall_mem_singleton.mpr hty⟩
    rcases (henter known).mp hknown with hknown | rfl
    · exact (hmiddle.complete known hknown).mono hsub
    · exact hty

theorem Complete.recordAll {tys : List Ty}
    (htys : ∀ ty ∈ tys, ∀ {catalogue : Catalogue}, catalogue.Complete →
      Records catalogue [ty] (catalogue.record ty)) (h : catalogue.Complete) :
    Records catalogue tys (catalogue.recordAll tys) := by
  induction tys generalizing catalogue with
  | nil =>
    rw [Catalogue.recordAll]
    exact ⟨List.Subset.refl _, h, nofun⟩
  | cons ty tys ih =>
    rw [List.forall_mem_cons] at htys
    rw [Catalogue.recordAll]
    have hfirst := htys.1 h
    have hrest := ih htys.2 hfirst.complete
    refine ⟨List.Subset.trans hfirst.subset hrest.subset, hrest.complete,
      List.forall_mem_cons.mpr ⟨?_, hrest.holds⟩⟩
    exact (List.forall_mem_singleton.mp hfirst.holds).mono hrest.subset

theorem Complete.record (h : catalogue.Complete) (ty : Ty) :
    Records catalogue [ty] (catalogue.record ty) := by
  induction ty generalizing catalogue with
  | unknown number =>
    have hholds : catalogue.Holds (.unknown number) := .unknown number
    rw [hholds.record_eq]
    exact h.records_of_holds hholds
  | intrinsic kind =>
    have hholds : catalogue.Holds (.intrinsic kind) := .intrinsic kind
    rw [hholds.record_eq]
    exact h.records_of_holds hholds
  | param index =>
    have hnone : Records catalogue [] catalogue := ⟨List.Subset.refl _, h, nofun⟩
    refine h.record_of_parts hnone (fun hnew => ?_) nofun nofun fun _ _ => .param
    rw [Catalogue.record.eq_def, if_neg (mt contains_eq_true_iff.mp hnew)]
  | nullable underlying ih =>
    refine h.record_of_parts (ih h) (fun hnew => ?_) nofun nofun fun _ hparts =>
      .nullable (List.forall_mem_singleton.mp hparts)
    rw [Catalogue.record.eq_def, if_neg (mt contains_eq_true_iff.mp hnew)]
  | array element ih =>
    refine h.record_of_parts (ih h) (fun hnew => ?_) nofun nofun fun _ hparts =>
      .array (List.forall_mem_singleton.mp hparts)
    rw [Catalogue.record.eq_def, if_neg (mt contains_eq_true_iff.mp hnew)]
  | named definition args ih =>
    refine h.record_of_parts (Complete.recordAll ih h) (fun hnew => ?_) nofun nofun fun _ => .named
    rw [Catalogue.record.eq_def, if_neg (mt contains_eq_true_iff.mp hnew)]

end Catalogue

/-! ## The catalogue of a workspace -/

namespace Workspace

theorem complete_new : new.catalogue.Complete := by
  have hempty : Catalogue.empty.Complete := fun _ hty => absurd hty List.not_mem_nil
  exact (Catalogue.Complete.recordAll (fun ty _ _ h => h.record ty) hempty).complete

/-- All operations enter types in this way. -/
theorem records_record {workspace : Workspace} (h : workspace.catalogue.Complete) (tys : List Ty) :
    workspace.catalogue.Records tys ((record tys).run workspace).2.catalogue :=
  Catalogue.Complete.recordAll (fun ty _ _ h => h.record ty) h

theorem holds_makeType {workspace : Workspace} (h : workspace.catalogue.Complete) (ty : Ty) :
    ((makeType ty).run workspace).2.catalogue.Holds ty :=
  (records_record h [ty]).holds ty List.mem_cons_self

end Workspace

end NullGuard
