import NullGuard.Proofs.TypeName.Meaning
import NullGuard.Ty.Substitution

/-! # Well-made types

Nullable forms are made of types that cannot hold null. Which these are is read off the
definitions of that moment, and stays so because definitions keep their kinds. -/

namespace NullGuard

/-! ## Definitions that grow -/

namespace Definitions

variable {defs defs' : Definitions}

/-- Whatever has a kind has it later too. -/
def KeepsKinds (defs defs' : Definitions) : Prop :=
  ∀ id kind, defs.kind? id = some kind → defs'.kind? id = some kind

theorem KeepsKinds.refl (defs : Definitions) : defs.KeepsKinds defs :=
  fun _ _ h => h

theorem KeepsKinds.trans {defs'' : Definitions} (h : defs.KeepsKinds defs')
    (h' : defs'.KeepsKinds defs'') : defs.KeepsKinds defs'' :=
  fun id kind hkind => h' id kind (h id kind hkind)

theorem keepsKinds_register (defs : Definitions) (definition : Definition) :
    defs.KeepsKinds (defs.register definition).2 := by
  intro id kind h
  obtain ⟨found, hfound, hkind⟩ := Option.map_eq_some_iff.mp h
  rw [kind?, get?_register_of_eq_some hfound, Option.map_some, hkind]

theorem keepsKinds_modify (defs : Definitions) (id : DefId) {change : Definition → Definition}
    (hchange : ∀ definition, (change definition).kind = definition.kind) :
    defs.KeepsKinds (defs.modify id change) := by
  intro other kind h
  rw [kind?, get?_modify]
  split
  · rw [Option.map_map]
    exact (Option.map_congr fun definition _ => hchange definition).trans h
  · exact h

end Definitions

namespace Ty

/-! ## Parts -/

/-- The types that a type is made of directly. -/
def parts : Ty → List Ty
  | .nullable part | .array part => [part]
  | .named _ args => args
  | .unknown _ | .intrinsic _ | .param _ => []

/-- Induction over the parts of a type, however it is made. -/
theorem ind_parts {motive : Ty → Prop} (h : ∀ ty, (∀ part ∈ ty.parts, motive part) → motive ty)
    (ty : Ty) : motive ty := by
  induction ty with
  | unknown | intrinsic | param => exact h _ nofun
  | nullable part ih | array part ih => exact h _ (List.forall_mem_singleton.mpr ih)
  | named definition args ih => exact h _ ih

/-! ## Types without null -/

/-- The value types that have a nullable form: built-in ones and structs. -/
inductive IsPlainValue (defs : Definitions) : Ty → Prop where
  | intrinsic {kind : Intrinsic} (h : kind.isValueType = true) :
      IsPlainValue defs (.intrinsic kind)
  | struct {definition : DefId} (h : defs.kind? definition = some .structType) (args : List Ty) :
      IsPlainValue defs (.named definition args)

/-- All nullable forms in the type are those of plain values, and each part stands for a type. -/
inductive WellMade (defs : Definitions) : Ty → Prop where
  | intrinsic (kind : Intrinsic) : WellMade defs (.intrinsic kind)
  | param (index : Nat) : WellMade defs (.param index)
  | nullable {underlying : Ty} (h : WellMade defs underlying)
      (hplain : IsPlainValue defs underlying) : WellMade defs (.nullable underlying)
  | array {element : Ty} (h : WellMade defs element) : WellMade defs (.array element)
  | named (definition : DefId) {args : List Ty} (hargs : ∀ arg ∈ args, WellMade defs arg) :
      WellMade defs (.named definition args)

variable {defs defs' : Definitions} {ty : Ty} {args : List Ty}

theorem isPlainValue_iff :
    ty.IsPlainValue defs ↔ ty.isValueType defs = true ∧ ty.underlying? = none := by
  constructor
  · rintro (h | ⟨h, args⟩)
    · exact ⟨h, rfl⟩
    · exact ⟨decide_eq_true h, rfl⟩
  · rintro ⟨hvalue, hunderlying⟩
    cases ty with
    | intrinsic kind => exact .intrinsic hvalue
    | named definition args => exact .struct (of_decide_eq_true hvalue) args
    | nullable => cases hunderlying
    | unknown | array | param => cases hvalue

theorem makeNullable_of_isPlainValue (h : ty.IsPlainValue defs) :
    ty.makeNullable defs = .nullable ty :=
  if_pos (isPlainValue_iff.mp h)

theorem makeNullable_of_not_isPlainValue (h : ¬ ty.IsPlainValue defs) :
    ty.makeNullable defs = ty :=
  if_neg (mt isPlainValue_iff.mpr h)

theorem IsPlainValue.mono (h : ty.IsPlainValue defs) (hkinds : defs.KeepsKinds defs') :
    ty.IsPlainValue defs' := by
  cases h with
  | intrinsic h => exact .intrinsic h
  | struct h args => exact .struct (hkinds _ _ h) args

theorem IsPlainValue.subst (h : ty.IsPlainValue defs) (args : List Ty) :
    (ty.subst defs args).IsPlainValue defs := by
  cases h with
  | intrinsic h =>
    rw [Ty.subst]
    exact .intrinsic h
  | struct h own =>
    rw [Ty.subst]
    exact .struct h _

/-! ## What makes well-made types -/

theorem WellMade.of_mem_parts (h : ty.WellMade defs) : ∀ part ∈ ty.parts, part.WellMade defs := by
  cases h with
  | intrinsic | param => exact List.forall_mem_nil _
  | nullable h | array h => exact List.forall_mem_singleton.mpr h
  | named _ hargs => exact hargs

theorem WellMade.mono (h : ty.WellMade defs) (hkinds : defs.KeepsKinds defs') :
    ty.WellMade defs' := by
  induction h with
  | intrinsic kind => exact .intrinsic kind
  | param index => exact .param index
  | nullable _ hplain ih => exact .nullable ih (hplain.mono hkinds)
  | array _ ih => exact .array ih
  | named definition _ ih => exact .named definition ih

theorem WellMade.makeNullable (h : ty.WellMade defs) : (ty.makeNullable defs).WellMade defs := by
  by_cases hplain : ty.IsPlainValue defs
  · rw [makeNullable_of_isPlainValue hplain]
    exact .nullable h hplain
  · rwa [makeNullable_of_not_isPlainValue hplain]

theorem WellMade.subst (h : ty.WellMade defs) (hargs : ∀ arg ∈ args, arg.WellMade defs) :
    (ty.subst defs args).WellMade defs := by
  induction h with
  | intrinsic kind =>
    rw [Ty.subst]
    exact .intrinsic kind
  | param index =>
    rw [Ty.subst, List.getD_eq_getElem?_getD]
    cases harg : args[index]? with
    | none => exact .param index
    | some arg => exact hargs arg (List.mem_of_getElem? harg)
  | nullable _ _ ih =>
    rw [Ty.subst]
    exact ih.makeNullable
  | array _ ih =>
    rw [Ty.subst]
    exact .array ih
  | named definition _ ih =>
    rw [Ty.subst, substAll_eq_map]
    exact .named definition (List.forall_mem_map.mpr ih)

theorem WellMade.instantiate (h : ty.WellMade defs) (hargs : ∀ arg ∈ args, arg.WellMade defs) :
    (ty.instantiate defs args).WellMade defs := by
  unfold Ty.instantiate
  split
  · exact h
  · exact h.subst hargs

end Ty

/-! ## Type names -/

namespace TypeName

variable {defs : Definitions} {built result : List Ty}

theorem wellMade_resolveName {name : String} {args : List Ty} {ty : Ty}
    (h : resolveName defs name args = .ok ty) (hargs : ∀ arg ∈ args, arg.WellMade defs) :
    ty.WellMade defs := by
  cases resolveName_eq_ok_iff.mp h with
  | keyword => exact .intrinsic _
  | defined => exact .named _ hargs

theorem wellMade_run {step : Step} (hbuilt : ∀ ty ∈ built, ty.WellMade defs)
    (h : step.run defs built = .ok result) : ∀ ty ∈ result, ty.WellMade defs := by
  cases step with
  | apply name arity =>
    cases hname : resolveName defs name (built.take arity).reverse with
    | error error => simp [Step.run, hname, bind, Except.bind] at h
    | ok ty =>
      obtain rfl : ty :: built.drop arity = result := by
        simpa [Step.run, hname, bind, Except.bind, pure, Except.pure] using h
      refine List.forall_mem_cons.mpr ⟨wellMade_resolveName hname fun arg harg => ?_, ?_⟩
      · exact hbuilt arg (List.mem_of_mem_take (List.mem_reverse.mp harg))
      · exact fun ty hty => hbuilt ty (List.mem_of_mem_drop hty)
  | nullable =>
    cases built with
    | nil =>
      cases h
      exact hbuilt
    | cons ty built =>
      cases h
      rw [List.forall_mem_cons] at hbuilt ⊢
      exact ⟨hbuilt.1.makeNullable, hbuilt.2⟩
  | array =>
    cases built with
    | nil =>
      cases h
      exact hbuilt
    | cons ty built =>
      cases h
      rw [List.forall_mem_cons] at hbuilt ⊢
      exact ⟨.array hbuilt.1, hbuilt.2⟩

theorem wellMade_runSteps {steps : List Step} (hbuilt : ∀ ty ∈ built, ty.WellMade defs) :
    ∀ ty ∈ (runSteps defs steps built).2, ty.WellMade defs := by
  induction steps generalizing built with
  | nil => exact hbuilt
  | cons step steps ih =>
    rw [runSteps]
    split
    · rename_i next hrun
      exact ih (wellMade_run hbuilt hrun)
    · exact hbuilt

/-- Also what was built for a text that is no type name is well made. -/
theorem wellMade_read (defs : Definitions) (input : String) :
    ∀ ty ∈ (read defs input).built, ty.WellMade defs := by
  have hbuilt : (read defs input).built = (runSteps defs (TypeName.steps input).1 []).2 := by
    unfold read
    dsimp only
    split <;> simp_all
  rw [hbuilt]
  exact wellMade_runSteps (List.forall_mem_nil _)

end TypeName

end NullGuard
