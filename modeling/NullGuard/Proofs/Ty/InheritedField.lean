import Mathlib.Data.List.Lex
import NullGuard.Proofs.Ty.Assignability

/-! # Inherited fields

A type has the field of that name that comes first on the ways up through its bases, depth first
and left to right. The search tries no type twice and stops at a limit. A type that it skips is
either still open, so that a way over it would be a circle, or has been left behind without
success, and nothing that declares the field is above it. -/

namespace NullGuard.Ty

/-- The way from a type to one that it derives from, with the types on it and the position of each
step in the list of bases. -/
inductive Route (defs : Definitions) : Ty → List Nat → List Ty → Ty → Prop where
  | here (ty : Ty) : Route defs ty [] [ty] ty
  | step {ty base target positions way position}
      (hbase : (ty.baseTypes defs)[position]? = some base)
      (h : Route defs base positions way target) :
      Route defs ty (position :: positions) (ty :: way) target

/-- The type's own definition declares the field, which then has the declared type with the type's
arguments put in. The first of several fields of one name counts. -/
inductive DeclaresField (defs : Definitions) (name : String) : Ty → Ty → Prop where
  | intro {id args definition earlier field later} (hget : defs.get? id = some definition)
      (hfields : definition.fields = earlier ++ field :: later) (hname : field.name = name)
      (hearlier : ∀ other ∈ earlier, other.name ≠ name) :
      DeclaresField defs name (.named id args) (field.ty.instantiate defs args)

/-- A way without circles leads to a type that declares the field, and no other such way comes
before it, depth first and left to right. -/
def FirstDeclares (defs : Definitions) (name : String) (source fieldTy : Ty) : Prop :=
  ∃ positions way ty, Route defs source positions way ty ∧ way.Nodup ∧
    DeclaresField defs name ty fieldTy ∧
    ∀ positions' way' ty' fieldTy', Route defs source positions' way' ty' → way'.Nodup →
      DeclaresField defs name ty' fieldTy' → positions ≤ positions'

variable {defs : Definitions} {name : String} {root source target ty fieldTy fieldTy' : Ty}
  {steps : Nat} {positions positions' : List Nat}
  {way way' before opened visited visited' : List Ty}

/-! ## Fields of one definition -/

theorem declaredField?_eq_some_iff :
    ty.declaredField? defs name = some fieldTy ↔ DeclaresField defs name ty fieldTy := by
  constructor
  · intro h
    cases ty with
    | named id args =>
      cases hget : defs.get? id with
      | none => simp [declaredField?, hget] at h
      | some definition =>
        cases hfind : definition.fields.find? fun field => field.name = name with
        | none => simp [declaredField?, hget, Definition.fieldType?, hfind] at h
        | some field =>
          simp only [declaredField?, hget, Definition.fieldType?, hfind, Option.bind_some,
            Option.map_some, Option.some.injEq] at h
          obtain ⟨hname, earlier, later, hfields, hearlier⟩ :=
            List.find?_eq_some_iff_append.mp hfind
          subst h
          exact .intro hget hfields (by simpa using hname) (by simpa using hearlier)
    | _ => cases h
  · rintro ⟨hget, hfields, hname, hearlier⟩
    have hfind : List.find? (fun field : Field => field.name = name) _ = some _ :=
      List.find?_eq_some_iff_append.mpr
        ⟨by simpa using hname, _, _, hfields, by simpa using hearlier⟩
    simp [declaredField?, hget, Definition.fieldType?, hfind]

theorem declaredField?_eq_none_iff :
    ty.declaredField? defs name = none ↔ ∀ fieldTy, ¬ DeclaresField defs name ty fieldTy := by
  simp only [Option.eq_none_iff_forall_not_mem, Option.mem_def, declaredField?_eq_some_iff]

theorem DeclaresField.unique (h : DeclaresField defs name ty fieldTy)
    (h' : DeclaresField defs name ty fieldTy') : fieldTy = fieldTy' :=
  Option.some.inj <|
    (declaredField?_eq_some_iff.mpr h).symm.trans (declaredField?_eq_some_iff.mpr h')

/-! ## Ways -/

theorem Route.target_eq (h : Route defs source positions way target)
    (h' : Route defs source positions way' ty) : target = ty := by
  induction h generalizing way' with
  | here =>
    cases h'
    rfl
  | step hbase _ ih =>
    cases h' with
    | step hbase' hrest =>
      obtain rfl := Option.some.inj (hbase.symm.trans hbase')
      exact ih hrest

theorem Route.exists_baseChain (h : Route defs source positions way target)
    (hchain : BaseChain defs root before source) :
    ∃ before', BaseChain defs root before' target := by
  induction h generalizing before with
  | here => exact ⟨before, hchain⟩
  | step hbase _ ih => exact ih (hchain.step (List.mem_of_getElem? hbase))

theorem FirstDeclares.unique (h : FirstDeclares defs name source fieldTy)
    (h' : FirstDeclares defs name source fieldTy') : fieldTy = fieldTy' := by
  obtain ⟨positions, way, ty, hroute, hnodup, hfield, hfirst⟩ := h
  obtain ⟨positions', way', ty', hroute', hnodup', hfield', hfirst'⟩ := h'
  obtain rfl : positions = positions' :=
    le_antisymm (hfirst _ _ _ _ hroute' hnodup' hfield') (hfirst' _ _ _ _ hroute hnodup hfield)
  obtain rfl := hroute.target_eq hroute'
  exact hfield.unique hfield'

/-! ## Ways past open types

While a search is busy with some types, what it looks for lies on ways that keep clear of them. -/

/-- A way without circles, past the types that are open, leads to a type with the field. -/
def FieldRoute (defs : Definitions) (name : String) (opened : List Ty) (source : Ty)
    (positions : List Nat) (fieldTy : Ty) : Prop :=
  ∃ way ty, Route defs source positions way ty ∧ way.Nodup ∧
    (∀ passed ∈ way, passed ∉ opened) ∧ DeclaresField defs name ty fieldTy

/-- The first of the ways past the open types. -/
structure FirstRoute (defs : Definitions) (name : String) (opened : List Ty) (source : Ty)
    (positions : List Nat) (fieldTy : Ty) : Prop where
  leads : FieldRoute defs name opened source positions fieldTy
  le : ∀ {positions' fieldTy'}, FieldRoute defs name opened source positions' fieldTy' →
    positions ≤ positions'

theorem FirstRoute.firstDeclares (h : FirstRoute defs name [] source positions fieldTy) :
    FirstDeclares defs name source fieldTy := by
  obtain ⟨way, ty, hroute, hnodup, _, hfield⟩ := h.leads
  refine ⟨positions, way, ty, hroute, hnodup, hfield, ?_⟩
  intro positions' way' ty' fieldTy' hroute' hnodup' hfield'
  exact h.le ⟨way', ty', hroute', hnodup', fun _ _ => List.not_mem_nil, hfield'⟩

theorem FirstRoute.of_declaresField (h : DeclaresField defs name ty fieldTy) (hty : ty ∉ opened) :
    FirstRoute defs name opened ty [] fieldTy where
  leads := ⟨[ty], ty, .here ty, by simp, List.forall_mem_singleton.mpr hty, h⟩
  le _ := not_lt.mp (List.not_lt_nil _)

/-- From a type without the field of its own, a way goes on from one of its bases. -/
theorem FieldRoute.exists_base (h : FieldRoute defs name opened ty positions fieldTy)
    (hnone : ty.declaredField? defs name = none) :
    ∃ position base rest, positions = position :: rest ∧
      (ty.baseTypes defs)[position]? = some base ∧
      FieldRoute defs name (ty :: opened) base rest fieldTy := by
  obtain ⟨way, target, hroute, hnodup, hclear, hfield⟩ := h
  cases hroute with
  | here => exact absurd hfield (declaredField?_eq_none_iff.mp hnone fieldTy)
  | step hbase hrest =>
    obtain ⟨hnew, hnodup⟩ := List.nodup_cons.mp hnodup
    refine ⟨_, _, _, rfl, hbase, _, target, hrest, hnodup, fun passed hpassed => ?_, hfield⟩
    rw [List.mem_cons, not_or]
    exact ⟨fun heq => hnew (heq ▸ hpassed), hclear passed (List.mem_cons_of_mem ty hpassed)⟩

theorem FieldRoute.of_base {position : Nat} {base : Ty}
    (h : FieldRoute defs name (ty :: opened) base positions fieldTy) (hty : ty ∉ opened)
    (hbase : (ty.baseTypes defs)[position]? = some base) :
    FieldRoute defs name opened ty (position :: positions) fieldTy := by
  obtain ⟨way, target, hroute, hnodup, hclear, hfield⟩ := h
  simp only [List.mem_cons, not_or] at hclear
  refine ⟨ty :: way, target, .step hbase hroute, ?_, ?_, hfield⟩
  · exact List.nodup_cons.mpr ⟨fun hmem => (hclear ty hmem).1 rfl, hnodup⟩
  · exact List.forall_mem_cons.mpr ⟨hty, fun passed hpassed => (hclear passed hpassed).2⟩

/-! ## What has been looked at without success -/

/-- None of the types that have been looked at declares the field, and those that are no longer
open have had their bases looked at. -/
structure Explored (defs : Definitions) (name : String) (opened visited : List Ty) : Prop where
  opened_subset : opened ⊆ visited
  undeclared : ∀ ty ∈ visited, ty.declaredField? defs name = none
  closed : ∀ ty ∈ visited, ty ∉ opened → ∀ base ∈ ty.baseTypes defs, base ∈ visited

theorem Explored.target_mem (h : Explored defs name opened visited) (hsource : source ∈ visited)
    (hroute : Route defs source positions way target)
    (hclear : ∀ passed ∈ way, passed ∉ opened) : target ∈ visited := by
  induction hroute with
  | here => exact hsource
  | step hbase hrest ih =>
    rw [List.forall_mem_cons] at hclear
    exact ih (h.closed _ hsource hclear.1 _ (List.mem_of_getElem? hbase)) hclear.2

theorem Explored.not_fieldRoute (h : Explored defs name opened visited)
    (hsource : source ∈ visited) :
    ¬ FieldRoute defs name opened source positions fieldTy := by
  rintro ⟨way, ty, hroute, _, hclear, hfield⟩
  have hnone := h.undeclared ty (h.target_mem hsource hroute hclear)
  exact declaredField?_eq_none_iff.mp hnone fieldTy hfield

theorem Explored.opening (h : Explored defs name opened visited)
    (hnone : ty.declaredField? defs name = none) :
    Explored defs name (ty :: opened) (ty :: visited) where
  opened_subset := List.cons_subset_cons ty h.opened_subset
  undeclared := List.forall_mem_cons.mpr ⟨hnone, h.undeclared⟩
  closed other hother hclosed base hbase := by
    rw [List.mem_cons, not_or] at hclosed
    have hold := (List.mem_cons.mp hother).resolve_left hclosed.1
    exact List.mem_cons_of_mem ty (h.closed other hold hclosed.2 base hbase)

theorem Explored.closing (h : Explored defs name (ty :: opened) visited)
    (hbases : ∀ base ∈ ty.baseTypes defs, base ∈ visited) :
    Explored defs name opened visited where
  opened_subset := fun _ hother => h.opened_subset (List.mem_cons_of_mem ty hother)
  undeclared := h.undeclared
  closed other hother hclosed := by
    by_cases heq : other = ty
    · exact heq ▸ hbases
    · exact h.closed other hother (List.not_mem_cons_of_ne_of_not_mem heq hclosed)

/-- The way over a base is the first one if it is the first one from there and the bases to the
left have been looked at without success. -/
theorem FirstRoute.of_base {base : Ty} {left right : List Ty}
    (h : FirstRoute defs name (ty :: opened) base positions fieldTy)
    (hty : ty ∉ opened) (hnone : ty.declaredField? defs name = none)
    (hbases : ty.baseTypes defs = left ++ base :: right)
    (hexplored : Explored defs name (ty :: opened) visited)
    (hleft : ∀ other ∈ left, other ∈ visited) :
    FirstRoute defs name opened ty (left.length :: positions) fieldTy := by
  have hbase : (ty.baseTypes defs)[left.length]? = some base := by
    simp [hbases]
  refine ⟨h.leads.of_base hty hbase, fun {positions' fieldTy'} hother => ?_⟩
  obtain ⟨position, other, rest, rfl, hposition, hrest⟩ := hother.exists_base hnone
  rcases Nat.lt_trichotomy position left.length with hlt | rfl | hgt
  · rw [hbases, List.getElem?_append_left hlt] at hposition
    exact absurd hrest (hexplored.not_fieldRoute (hleft other (List.mem_of_getElem? hposition)))
  · obtain rfl := Option.some.inj (hbase.symm.trans hposition)
    exact List.cons_le_cons _ (h.le hrest)
  · exact le_of_lt (List.Lex.rel hgt)

/-! ## The search -/

theorem run_findSomeM?_cons (find : Ty → StateM (List Ty) (Option Ty)) (tys : List Ty) :
    ((ty :: tys).findSomeM? find).run visited =
      match (find ty).run visited with
      | (some found, visited') => (some found, visited')
      | (none, visited') => (tys.findSomeM? find).run visited' := by
  rw [List.findSomeM?]
  rcases h : (find ty).run visited with ⟨_ | found, visited'⟩ <;> simp [h] <;> rfl

theorem run_findField (defs : Definitions) (name : String) (steps : Nat) (ty : Ty)
    (visited : List Ty) :
    (findField defs name steps ty).run visited =
      match steps with
      | 0 => (none, visited)
      | steps + 1 =>
        if ty ∈ visited then (none, visited)
        else match ty.declaredField? defs name with
          | some found => (some found, ty :: visited)
          | none => ((ty.baseTypes defs).findSomeM? (findField defs name steps)).run
              (ty :: visited) := by
  cases steps with
  | zero => rfl
  | succ steps =>
    rw [findField]
    by_cases hmem : ty ∈ visited
    · simp only [if_pos hmem, StateT.run_bind, StateT.run_get, pure_bind,
        List.contains_iff_mem.mpr hmem, if_true]
      rfl
    · cases hfield : ty.declaredField? defs name with
      | some found =>
        simp [hmem]
        rfl
      | none => simp [hmem]

/-- How the part of a search that starts at a type ends. -/
inductive Answers (defs : Definitions) (name : String) (opened visited : List Ty) (ty : Ty) :
    Option Ty → List Ty → Prop where
  | found {positions : List Nat} {fieldTy : Ty} {visited' : List Ty}
      (h : FirstRoute defs name opened ty positions fieldTy) :
      Answers defs name opened visited ty (some fieldTy) visited'
  | missed {visited' : List Ty} (hsubset : visited ⊆ visited')
      (h : Explored defs name opened visited') (hty : ty ∈ visited') :
      Answers defs name opened visited ty none visited'

/-- The bases are tried from left to right. Those before `right` have been looked at already. -/
theorem answers_of_run_findSomeM? {find : Ty → StateM (List Ty) (Option Ty)}
    {left right : List Ty} {result : Option Ty} (hty : ty ∉ opened)
    (hnone : ty.declaredField? defs name = none)
    (hfind : ∀ base ∈ ty.baseTypes defs, ∀ {visited result visited'},
      Explored defs name (ty :: opened) visited → (find base).run visited = (result, visited') →
        Answers defs name (ty :: opened) visited base result visited')
    (hbases : ty.baseTypes defs = left ++ right) (hleft : ∀ base ∈ left, base ∈ visited)
    (hexplored : Explored defs name (ty :: opened) visited)
    (hrun : (right.findSomeM? find).run visited = (result, visited')) :
    Answers defs name opened visited ty result visited' := by
  induction right generalizing left visited with
  | nil =>
    obtain ⟨rfl, rfl⟩ := Prod.mk.inj hrun
    rw [List.append_nil] at hbases
    exact .missed (List.Subset.refl visited) (hexplored.closing (hbases ▸ hleft))
      (hexplored.opened_subset List.mem_cons_self)
  | cons base right ih =>
    rw [run_findSomeM?_cons] at hrun
    rcases hfirst : (find base).run visited with ⟨found, middle⟩
    rw [hfirst] at hrun
    have hanswer := hfind base (by simp [hbases]) hexplored hfirst
    cases hanswer with
    | found h =>
      obtain ⟨rfl, rfl⟩ := Prod.mk.inj hrun
      exact .found (h.of_base hty hnone hbases hexplored hleft)
    | missed hsubset hmiddle hbase =>
      have hleft' : ∀ other ∈ left ++ [base], other ∈ middle := by
        simpa [or_imp, forall_and] using ⟨fun other hother => hsubset (hleft other hother), hbase⟩
      cases ih (by simp [hbases]) hleft' hmiddle hrun with
      | found h => exact .found h
      | missed hsubset' h hty => exact .missed (List.Subset.trans hsubset hsubset') h hty

/-- The types `opened` are those that the search is busy with, the latest first. They lie on a chain
without repetitions, which ends before the limit is reached, so that the limit cuts nothing off. -/
theorem answers_of_run_findField {result : Option Ty}
    (hshort : ∀ before ty, BaseChain defs root before ty → (ty :: before).Nodup →
      before.length ≤ maxBaseDepth)
    (hchain : BaseChain defs root opened ty) (hnodup : opened.Nodup)
    (hsteps : opened.length + steps = maxBaseDepth + 1)
    (hexplored : Explored defs name opened visited)
    (hrun : (findField defs name steps ty).run visited = (result, visited')) :
    Answers defs name opened visited ty result visited' := by
  induction steps generalizing ty opened visited visited' result with
  | zero =>
    rw [run_findField] at hrun
    obtain ⟨rfl, rfl⟩ := Prod.mk.inj hrun
    have hty : ty ∈ opened := by
      by_contra hty
      have hle := hshort opened ty hchain (List.nodup_cons.mpr ⟨hty, hnodup⟩)
      omega
    exact .missed (List.Subset.refl visited) hexplored (hexplored.opened_subset hty)
  | succ steps ih =>
    rw [run_findField] at hrun
    dsimp only at hrun
    split at hrun
    · rename_i hmem
      obtain ⟨rfl, rfl⟩ := Prod.mk.inj hrun
      exact .missed (List.Subset.refl visited) hexplored hmem
    · rename_i hnew
      have hty : ty ∉ opened := fun hmem => hnew (hexplored.opened_subset hmem)
      split at hrun
      · rename_i fieldTy hfield
        obtain ⟨rfl, rfl⟩ := Prod.mk.inj hrun
        exact .found (.of_declaresField (declaredField?_eq_some_iff.mp hfield) hty)
      · rename_i hnone
        have hanswer := answers_of_run_findSomeM? hty hnone
          (fun base hbase {_ _ _} hexplored hrun =>
            ih (hchain.step hbase) (List.nodup_cons.mpr ⟨hty, hnodup⟩)
              (by rw [List.length_cons]; omega) hexplored hrun)
          (List.nil_append _).symm (List.forall_mem_nil _) (hexplored.opening hnone) hrun
        cases hanswer with
        | found h => exact .found h
        | missed hsubset h hty =>
          exact .missed (fun _ hmem => hsubset (List.mem_cons_of_mem ty hmem)) h hty

theorem Explored.mem_of_baseChain (h : Explored defs name [] visited) (hsource : source ∈ visited)
    (hchain : BaseChain defs source before ty) : ty ∈ visited := by
  induction hchain with
  | refl => exact hsource
  | step _ hbase ih => exact h.closed _ ih List.not_mem_nil _ hbase

/-- Where no chain of bases without repetitions is longer than a search goes, a defined type has no
field of a name if no type that it derives from declares one, and else the first one declared. -/
theorem fieldType?_eq_firstDeclared {definition : DefId} {args : List Ty} (name : String)
    (hshort : ∀ before ty, BaseChain defs (.named definition args) before ty →
      (ty :: before).Nodup → before.length ≤ maxBaseDepth) :
    (fieldType? defs (.named definition args) name = none ↔
      ∀ before ty fieldTy, BaseChain defs (.named definition args) before ty →
        ¬ DeclaresField defs name ty fieldTy) ∧
      ∀ fieldTy, fieldType? defs (.named definition args) name = some fieldTy ↔
        FirstDeclares defs name (.named definition args) fieldTy := by
  have hempty : Explored defs name [] [] :=
    ⟨List.Subset.refl [], List.forall_mem_nil _, fun _ h => absurd h List.not_mem_nil⟩
  rcases hrun : (findField defs name (maxBaseDepth + 1) (.named definition args)).run []
    with ⟨result, visited⟩
  have hresult : fieldType? defs (.named definition args) name = result := congrArg Prod.fst hrun
  have hanswer := answers_of_run_findField hshort .refl List.nodup_nil (Nat.zero_add _) hempty hrun
  rw [hresult]
  cases hanswer with
  | found h =>
    have hfirst := h.firstDeclares
    obtain ⟨_, _, ty, hroute, _, hfield, _⟩ := hfirst
    obtain ⟨before, hchain⟩ := hroute.exists_baseChain .refl
    refine ⟨⟨nofun, fun hnone => absurd hfield (hnone before ty _ hchain)⟩, fun fieldTy => ?_⟩
    rw [Option.some.injEq]
    exact ⟨fun heq => heq ▸ h.firstDeclares, fun hother => h.firstDeclares.unique hother⟩
  | missed _ h hsource =>
    have hnone before ty fieldTy (hchain : BaseChain defs (.named definition args) before ty) :
        ¬ DeclaresField defs name ty fieldTy :=
      declaredField?_eq_none_iff.mp (h.undeclared ty (h.mem_of_baseChain hsource hchain)) fieldTy
    refine ⟨⟨fun _ => hnone, fun _ => rfl⟩, fun fieldTy => ⟨nofun, fun hfirst => ?_⟩⟩
    obtain ⟨_, _, ty, hroute, _, hfield, _⟩ := hfirst
    obtain ⟨before, hchain⟩ := hroute.exists_baseChain .refl
    exact absurd hfield (hnone before ty fieldTy hchain)

/-! ## A diamond with a way back

Two classes have the same base, which has the class below both as its own base again. -/

def circleClass (name : String) (bases : List DefId) (fields : List Field) : Definition :=
  { Definition.ofKind .classType name ["T"] with
    bases := bases.map fun base => .named base [.param 0]
    fields := fields }

/-- The collections, and `Top<T>`, `Left<T>`, `Right<T>` and `Bottom<T>` with the numbers from 9
on. -/
def circle : Definitions :=
  ⟨Collection.definitions.toList ++
    [ circleClass "Top" [⟨12⟩] [⟨"Id", .array (.param 0)⟩, ⟨"Id", .string⟩],
      circleClass "Left" [⟨9⟩] [],
      circleClass "Right" [⟨9⟩] [⟨"Id", .param 0⟩],
      circleClass "Bottom" [⟨10⟩, ⟨11⟩] [] ]⟩

/-- `Right<T>` is nearer, but the way over `Left<T>` comes first. -/
theorem fieldType?_circle :
    (∀ before ty, BaseChain circle (.named ⟨12⟩ [.int]) before ty → (ty :: before).Nodup →
      before.length ≤ maxBaseDepth) ∧
    FirstDeclares circle "Id" (.named ⟨12⟩ [.int]) (.array .int) ∧
      ∀ before ty fieldTy, BaseChain circle (.named ⟨12⟩ [.int]) before ty →
        ¬ DeclaresField circle "Name" ty fieldTy := by
  let types : List Ty := [.named ⟨9⟩ [.int], .named ⟨10⟩ [.int], .named ⟨11⟩ [.int],
    .named ⟨12⟩ [.int]]
  have hshort before ty (hchain : BaseChain circle (.named ⟨12⟩ [.int]) before ty)
      (hnodup : (ty :: before).Nodup) : before.length ≤ maxBaseDepth := by
    have hlt : before.length < types.length := hchain.length_lt hnodup (by decide) (by decide)
    exact Nat.le_of_lt (Nat.lt_trans hlt (by decide))
  refine ⟨hshort, ((fieldType?_eq_firstDeclared "Id" hshort).2 _).mp ?_,
    (fieldType?_eq_firstDeclared "Name" hshort).1.mp ?_⟩
  · decide +kernel
  · decide +kernel

end NullGuard.Ty
