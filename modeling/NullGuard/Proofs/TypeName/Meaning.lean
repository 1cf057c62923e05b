import Mathlib.Data.List.Forall2
import NullGuard.Proofs.Ty.Lookup
import NullGuard.Proofs.TypeName.Syntax
import NullGuard.TypeName.Resolve

/-! # What type names mean

A text is read as a type exactly if it spells a written type that means it. -/

namespace NullGuard

open List (Forall₂)

namespace Intrinsic

variable {name : String} {kind : Intrinsic}

theorem ofName?_eq_some_iff : ofName? name = some kind ↔ kind.name = name := by
  constructor
  · intro h
    simpa using List.find?_some h
  · rintro rfl
    exact ofName?_name kind

theorem ofName?_eq_none_iff : ofName? name = none ↔ ∀ kind : Intrinsic, kind.name ≠ name := by
  rw [Option.eq_none_iff_forall_ne_some]
  exact forall_congr' fun kind => not_congr ofName?_eq_some_iff

end Intrinsic

namespace TypeName

/-- What a name means with these arguments: a keyword its built-in type and without arguments, any
other name its latest definition, which has as many parameters. -/
inductive NameDenotes (defs : Definitions) : String → List Ty → Ty → Prop where
  | keyword {name kind} (hname : Intrinsic.name kind = name) :
      NameDenotes defs name [] (.intrinsic kind)
  | defined {name id definition args} (hname : ∀ kind : Intrinsic, kind.name ≠ name)
      (hlatest : defs.Latest name id definition) (harity : definition.arity = args.length) :
      NameDenotes defs name args (.named id args)

/-- What a written type means. -/
inductive TypeExpr.Denotes (defs : Definitions) : TypeExpr → Ty → Prop where
  | apply {name args tys ty} (hargs : Forall₂ (Denotes defs) args tys)
      (hname : NameDenotes defs name tys ty) : Denotes defs (.apply name args) ty
  | nullable {e ty} (he : Denotes defs e ty) : Denotes defs (.nullable e) (ty.makeNullable defs)
  | array {e ty} (he : Denotes defs e ty) : Denotes defs (.array e) (.array ty)

variable {defs : Definitions}

theorem resolveName_eq_ok_iff {name : String} {args : List Ty} {ty : Ty} :
    resolveName defs name args = .ok ty ↔ NameDenotes defs name args ty := by
  constructor
  · intro h
    unfold resolveName at h
    split at h
    · rename_i kind hkind
      split at h
      · rename_i hargs
        cases h
        rw [List.isEmpty_iff.mp hargs]
        exact .keyword (Intrinsic.ofName?_eq_some_iff.mp hkind)
      · cases h
    · rename_i hkind
      split at h
      · cases h
      · rename_i id hid
        obtain ⟨definition, hlatest⟩ := Definitions.find?_eq_some_iff.mp hid
        simp only [Definitions.arity?, hlatest.get?_eq, Option.map_some, Option.getD_some] at h
        split at h
        · rename_i harity
          cases h
          exact .defined (Intrinsic.ofName?_eq_none_iff.mp hkind) hlatest harity
        · cases h
  · intro h
    cases h with
    | keyword hname => simp [resolveName, Intrinsic.ofName?_eq_some_iff.mpr hname]
    | @defined id definition _ hname hlatest harity =>
      have hid : defs.find? name = some id :=
        Definitions.find?_eq_some_iff.mpr ⟨definition, hlatest⟩
      simp [resolveName, Intrinsic.ofName?_eq_none_iff.mpr hname, hid, Definitions.arity?,
        hlatest.get?_eq, harity]

/-! ## Running the steps of a written type -/

theorem runSteps_append_eq_none_iff {first second : List Step} {built result : List Ty} :
    runSteps defs (first ++ second) built = (none, result) ↔
      ∃ middle, runSteps defs first built = (none, middle) ∧
        runSteps defs second middle = (none, result) := by
  induction first generalizing built with
  | nil => simp [runSteps]
  | cons step first ih =>
    simp only [List.cons_append, runSteps]
    cases step.run defs built with
    | ok next => exact ih
    | error error => simp

theorem runSteps_singleton_eq_none_iff {step : Step} {built result : List Ty} :
    runSteps defs [step] built = (none, result) ↔ step.run defs built = .ok result := by
  simp only [runSteps]
  cases step.run defs built <;> simp

/-- A name takes its arguments from the types built last. -/
theorem run_apply_eq_ok_iff {name : String} {args built result : List Ty} :
    (Step.apply name args.length).run defs (args.reverse ++ built) = .ok result ↔
      ∃ ty, NameDenotes defs name args ty ∧ result = ty :: built := by
  have htake : ((args.reverse ++ built).take args.length).reverse = args := by
    rw [List.take_left' args.length_reverse, List.reverse_reverse]
  have hdrop : (args.reverse ++ built).drop args.length = built :=
    List.drop_left' args.length_reverse
  simp only [Step.run, htake, hdrop, ← resolveName_eq_ok_iff]
  cases resolveName defs name args with
  | ok ty => simp [bind, Except.bind, pure, Except.pure, eq_comm]
  | error error => simp [bind, Except.bind]

/-- The steps of a written type put what it means in front of the types built before. -/
def Builds (defs : Definitions) (e : TypeExpr) : Prop :=
  ∀ built result, runSteps defs e.steps built = (none, result) ↔
    ∃ ty, e.Denotes defs ty ∧ result = ty :: built

theorem runSteps_stepsAll_eq_none_iff {args : List TypeExpr} (h : ∀ arg ∈ args, Builds defs arg)
    {built result : List Ty} :
    runSteps defs (TypeExpr.stepsAll args) built = (none, result) ↔
      ∃ tys, Forall₂ (TypeExpr.Denotes defs) args tys ∧ result = tys.reverse ++ built := by
  induction args generalizing built with
  | nil => simp [TypeExpr.stepsAll, runSteps, eq_comm]
  | cons arg args ih =>
    rw [List.forall_mem_cons] at h
    simp only [TypeExpr.stepsAll, runSteps_append_eq_none_iff, h.1 built, ih h.2]
    constructor
    · rintro ⟨_, ⟨ty, hty, rfl⟩, tys, htys, rfl⟩
      exact ⟨ty :: tys, .cons hty htys, by simp⟩
    · rintro ⟨_, _ | ⟨hty, htys⟩, rfl⟩
      exact ⟨_, ⟨_, hty, rfl⟩, _, htys, by simp⟩

theorem builds (e : TypeExpr) : Builds defs e := by
  intro built result
  induction e generalizing built result with
  | apply name args ih =>
    simp only [TypeExpr.steps, runSteps_append_eq_none_iff, runSteps_singleton_eq_none_iff,
      runSteps_stepsAll_eq_none_iff fun arg harg built result => ih arg harg built result]
    constructor
    · rintro ⟨_, ⟨tys, htys, rfl⟩, hrun⟩
      rw [htys.length_eq, run_apply_eq_ok_iff] at hrun
      obtain ⟨ty, hname, rfl⟩ := hrun
      exact ⟨ty, .apply htys hname, rfl⟩
    · rintro ⟨ty, ⟨htys, hname⟩, rfl⟩
      refine ⟨_, ⟨_, htys, rfl⟩, ?_⟩
      rw [htys.length_eq, run_apply_eq_ok_iff]
      exact ⟨ty, hname, rfl⟩
  | nullable e ih =>
    simp only [TypeExpr.steps, runSteps_append_eq_none_iff, runSteps_singleton_eq_none_iff, ih]
    constructor
    · rintro ⟨_, ⟨ty, hty, rfl⟩, hrun⟩
      cases hrun
      exact ⟨_, .nullable hty, rfl⟩
    · rintro ⟨_, _ | hty | hty, rfl⟩
      exact ⟨_, ⟨_, hty, rfl⟩, rfl⟩
  | array e ih =>
    simp only [TypeExpr.steps, runSteps_append_eq_none_iff, runSteps_singleton_eq_none_iff, ih]
    constructor
    · rintro ⟨_, ⟨ty, hty, rfl⟩, hrun⟩
      cases hrun
      exact ⟨_, .array hty, rfl⟩
    · rintro ⟨_, _ | hty | hty, rfl⟩
      exact ⟨_, ⟨_, hty, rfl⟩, rfl⟩

/-! ## Reading a text -/

theorem exists_spelled_of_read {input : String} {ty : Ty}
    (h : (read defs input).result = .ok ty) :
    ∃ e : TypeExpr, Spells input.toList e.tokens ∧ e.Denotes defs ty := by
  unfold read at h
  dsimp only at h
  split at h
  · cases h
  · cases h
  · -- no step fails, and the text leaves the grammar nowhere
    rename_i found ty' built hrun hfault
    cases h
    have hread : readType [] (tokens 0 input.toList) = ((TypeName.steps input).1, none) :=
      Prod.ext rfl hfault
    obtain ⟨e, htokens, hsteps⟩ := readType_eq_iff.mp hread
    rw [hsteps, builds] at hrun
    obtain ⟨_, hdenotes, hbuilt⟩ := hrun
    obtain ⟨rfl, rfl⟩ := List.cons.inj hbuilt
    exact ⟨e, htokens ▸ spells_kinds_tokens _ 0, hdenotes⟩
  · cases h

/-- Nothing but the type itself is left of what was built for it. -/
theorem read_of_spells {input : String} {e : TypeExpr} {ty : Ty}
    (hspells : Spells input.toList e.tokens) (hdenotes : e.Denotes defs ty) :
    read defs input = ⟨.ok ty, [ty]⟩ := by
  have hsteps : TypeName.steps input = (e.steps, none) :=
    readType_eq_iff.mpr ⟨e, hspells.kinds_tokens 0, rfl⟩
  have hrun : runSteps defs e.steps [] = (none, [ty]) := (builds e [] [ty]).mpr ⟨ty, hdenotes, rfl⟩
  simp [read, hsteps, hrun]

end TypeName

/-- A text is a type name exactly if it spells a written type, and is then what that means. -/
theorem Ty.parse_eq_ok_iff (defs : Definitions) (input : String) (ty : Ty) :
    Ty.parse defs input = .ok ty ↔
      ∃ e : TypeName.TypeExpr, TypeName.Spells input.toList e.tokens ∧ e.Denotes defs ty := by
  constructor
  · exact TypeName.exists_spelled_of_read
  · rintro ⟨e, hspells, hdenotes⟩
    rw [Ty.parse, TypeName.read_of_spells hspells hdenotes]

end NullGuard
