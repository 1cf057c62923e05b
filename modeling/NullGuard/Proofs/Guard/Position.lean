import Mathlib
import NullGuard.Proofs.Guard.Scope

/-! # What is known at a position

A position is reached from the root by steps into parts. What is known there about a parameter is
what the last step that concerns the name says: it enters the branch of a test in which the
parameter is not null, or it enters the body of a binder of that name. -/

namespace NullGuard.Expr

/-- A step from a node into the part at that index. -/
structure Step where
  node : Expr
  index : Nat

/-- The path leads from the first expression to the second. The steps are in the order in which
they are taken. -/
inductive Reaches : Expr → List Step → Expr → Prop where
  | here {e} : Reaches e [] e
  | step {e index part path target} (hpart : e.children[index]? = some part)
      (hrest : Reaches part path target) : Reaches e (⟨e, index⟩ :: path) target

/-- A comparison of the parameter with null, in either order. -/
inductive ComparesWithNull (op : BinaryOp) (name : String) : Expr → Prop where
  | nullRight {ty paramTy nullTy} :
      ComparesWithNull op name (binary ty op (param paramTy name) (literal nullTy .null))
  | nullLeft {ty paramTy nullTy} :
      ComparesWithNull op name (binary ty op (literal nullTy .null) (param paramTy name))

namespace Step

/-- The step enters the branch of a condition in which the parameter is not null. -/
inductive Proves (name : String) : Step → Prop where
  | ifTrue {ty test ifTrue ifFalse} (htest : ComparesWithNull .ne name test) :
      Proves name ⟨cond ty test ifTrue ifFalse, 1⟩
  | ifFalse {ty test ifTrue ifFalse} (htest : ComparesWithNull .eq name test) :
      Proves name ⟨cond ty test ifTrue ifFalse, 2⟩

/-- The step enters the body of a binder of the name. -/
inductive Binds (name : String) : Step → Prop where
  | lambda {ty params body} (hname : name ∈ params.map Param.name) :
      Binds name ⟨lambda ty params body, 0⟩
  | bind {ty var value body} (hname : name = var.name) : Binds name ⟨bind ty var value body, 1⟩

/-- What is known after the step, of what is known before it. -/
def known (before : List String) (step : Step) : List String :=
  (((step.node.scopes before)[step.index]?).map Prod.fst).getD before

end Step

/-- Some step on the path enters a branch in which the parameter is not null, and no step after it
enters the body of a binder of the name. -/
def NarrowedAlong (path : List Step) (name : String) : Prop :=
  ∃ before step after, path = before ++ step :: after ∧ step.Proves name ∧
    ∀ inner ∈ after, ¬ inner.Binds name

theorem comparesWithNull_iff {op : BinaryOp} {name : String} {test : Expr} :
    ComparesWithNull op name test ↔
      ∃ ty paramTy nullTy left right, test = binary ty op left right ∧
        (left = param paramTy name ∧ right = literal nullTy .null ∨
          left = literal nullTy .null ∧ right = param paramTy name) := by
  constructor
  · rintro (_ | _)
    · exact ⟨_, _, _, _, _, rfl, .inl ⟨rfl, rfl⟩⟩
    · exact ⟨_, _, _, _, _, rfl, .inr ⟨rfl, rfl⟩⟩
  · rintro ⟨_, _, _, _, _, rfl, ⟨rfl, rfl⟩ | ⟨rfl, rfl⟩⟩
    · exact .nullRight
    · exact .nullLeft

/-- What a branch learns is what its test compares with null. -/
theorem mem_learned_iff_comparesWithNull {test : Expr} {outcome : Bool} {name : String} :
    name ∈ test.learned outcome ↔
      ComparesWithNull (if outcome then .ne else .eq) name test := by
  rw [mem_learned, comparesWithNull_iff]
  constructor
  · intro h
    obtain ⟨ty, paramTy, nullTy, left, right, htest, hsides⟩ := nullTest?_eq_some h
    refine ⟨ty, paramTy, nullTy, left, right, ?_, hsides⟩
    cases outcome <;> exact htest
  · rintro ⟨_, _, _, _, _, rfl, ⟨rfl, rfl⟩ | ⟨rfl, rfl⟩⟩ <;> cases outcome <;> rfl

theorem mem_unbound {known bound : List String} {name : String} :
    name ∈ unbound known bound ↔ name ∈ known ∧ name ∉ bound := by
  simp [unbound]

namespace Step

variable {before : List String} {name : String}

theorem Proves.changesScope {step : Step} (h : Proves name step) :
    step.node.changesScope = true := by
  cases h <;> rfl

theorem Binds.changesScope {step : Step} (h : Binds name step) :
    step.node.changesScope = true := by
  cases h <;> rfl

theorem not_binds_cond {ty : Ty} {test ifTrue ifFalse : Expr} {index : Nat} :
    ¬ Binds name ⟨cond ty test ifTrue ifFalse, index⟩ :=
  nofun

theorem not_proves_lambda {ty : Ty} {params : List Param} {body : Expr} {index : Nat} :
    ¬ Proves name ⟨lambda ty params body, index⟩ :=
  nofun

theorem not_proves_bind {ty : Ty} {var : Param} {value body : Expr} {index : Nat} :
    ¬ Proves name ⟨bind ty var value body, index⟩ :=
  nofun

theorem proves_cond_iff {ty : Ty} {test ifTrue ifFalse : Expr} {index : Nat} :
    Proves name ⟨cond ty test ifTrue ifFalse, index⟩ ↔
      index = 1 ∧ name ∈ test.learned true ∨ index = 2 ∧ name ∈ test.learned false := by
  rw [mem_learned_iff_comparesWithNull, mem_learned_iff_comparesWithNull]
  constructor
  · rintro (htest | htest)
    · exact .inl ⟨rfl, htest⟩
    · exact .inr ⟨rfl, htest⟩
  · rintro (⟨rfl, htest⟩ | ⟨rfl, htest⟩)
    · exact .ifTrue htest
    · exact .ifFalse htest

theorem binds_lambda_iff {ty : Ty} {params : List Param} {body : Expr} {index : Nat} :
    Binds name ⟨lambda ty params body, index⟩ ↔ index = 0 ∧ name ∈ params.map Param.name :=
  ⟨fun | .lambda hname => ⟨rfl, hname⟩, fun ⟨hindex, hname⟩ => hindex ▸ .lambda hname⟩

theorem binds_bind_iff {ty : Ty} {var : Param} {value body : Expr} {index : Nat} :
    Binds name ⟨bind ty var value body, index⟩ ↔ index = 1 ∧ name = var.name :=
  ⟨fun | .bind hname => ⟨rfl, hname⟩, fun ⟨hindex, hname⟩ => hindex ▸ .bind hname⟩

theorem known_of_not_changesScope {step : Step} (h : step.node.changesScope = false) :
    step.known before = before := by
  rw [known, scopes_of_not_changesScope h, List.getElem?_map]
  cases step.node.children[step.index]? <;> rfl

theorem mem_known_of_not_changesScope {step : Step} (h : step.node.changesScope = false) :
    name ∈ step.known before ↔ step.Proves name ∨ name ∈ before ∧ ¬ step.Binds name := by
  have hproves : ¬ step.Proves name := fun hproves => Bool.false_ne_true (h ▸ hproves.changesScope)
  have hbinds : ¬ step.Binds name := fun hbinds => Bool.false_ne_true (h ▸ hbinds.changesScope)
  rw [known_of_not_changesScope h, or_iff_right hproves, and_iff_left hbinds]

/-- After a step a parameter is known not to be null if the step proves it, or if it was known
before and the step binds no such name. -/
theorem mem_known {step : Step} :
    name ∈ step.known before ↔ step.Proves name ∨ name ∈ before ∧ ¬ step.Binds name := by
  obtain ⟨node, index⟩ := step
  cases node with
  | cond ty test ifTrue ifFalse =>
    rw [proves_cond_iff, and_iff_left not_binds_cond]
    obtain _ | _ | _ | _ := index <;> simp [known, scopes]
  | lambda ty params body =>
    rw [binds_lambda_iff, or_iff_right not_proves_lambda]
    cases index <;> simp [known, scopes, mem_unbound]
  | bind ty var value body =>
    rw [binds_bind_iff, or_iff_right not_proves_bind]
    obtain _ | _ | _ := index <;> simp [known, scopes, mem_unbound]
  | _ => exact mem_known_of_not_changesScope rfl

end Step

/-- What is known at the end of a path, of what is known where it starts. -/
def knownAlong (known : List String) (path : List Step) : List String :=
  path.foldl Step.known known

theorem narrowedAlong_append_singleton {path : List Step} {last : Step} {name : String} :
    NarrowedAlong (path ++ [last]) name ↔
      last.Proves name ∨ NarrowedAlong path name ∧ ¬ last.Binds name := by
  constructor
  · rintro ⟨before, step, after, hpath, hproves, hafter⟩
    induction after using List.reverseRecOn with
    | nil =>
      obtain ⟨-, rfl⟩ := List.append_singleton_inj.mp hpath
      exact .inl hproves
    | append_singleton after other =>
      rw [← List.cons_append, ← List.append_assoc, List.append_singleton_inj] at hpath
      obtain ⟨rfl, rfl⟩ := hpath
      rw [List.forall_mem_append, List.forall_mem_singleton] at hafter
      exact .inr ⟨⟨before, step, after, rfl, hproves, hafter.1⟩, hafter.2⟩
  · rintro (hproves | ⟨⟨before, step, after, rfl, hproves, hafter⟩, hlast⟩)
    · exact ⟨path, last, [], rfl, hproves, nofun⟩
    · refine ⟨before, step, after ++ [last], by simp, hproves, ?_⟩
      exact List.forall_mem_append.mpr ⟨hafter, List.forall_mem_singleton.mpr hlast⟩

theorem mem_knownAlong {known : List String} {path : List Step} {name : String} :
    name ∈ knownAlong known path ↔
      NarrowedAlong path name ∨ name ∈ known ∧ ∀ step ∈ path, ¬ step.Binds name := by
  induction path using List.reverseRecOn with
  | nil => simp [knownAlong, NarrowedAlong]
  | append_singleton path step ih =>
    rw [knownAlong, List.foldl_append, List.foldl_cons, List.foldl_nil, Step.mem_known,
      ← knownAlong, ih, narrowedAlong_append_singleton, List.forall_mem_append,
      List.forall_mem_singleton, or_and_right, and_assoc, or_assoc]

theorem getElem?_scopes {known : List String} {e part : Expr} {index : Nat}
    (h : e.children[index]? = some part) :
    (e.scopes known)[index]? = some ((⟨e, index⟩ : Step).known known, part) := by
  rw [← scopes_map_snd known e, List.getElem?_map] at h
  unfold Step.known
  cases hscope : (e.scopes known)[index]? with
  | none => simp [hscope] at h
  | some scope =>
    obtain rfl : scope.2 = part := by simpa [hscope] using h
    rfl

/-- A property throughout a tree is one of all positions in it. -/
theorem throughout_iff {fits : List String → Expr → Prop} {known : List String} {e : Expr} :
    Throughout fits known e ↔
      ∀ path node, Reaches e path node → fits (knownAlong known path) node := by
  constructor
  · intro h path node hreaches
    induction hreaches generalizing known with
    | here => exact h.here
    | step hpart _ ih =>
      exact ih (h.of_mem_scopes (List.mem_of_getElem? (getElem?_scopes hpart)))
  · intro h
    induction e using Expr.induction_children generalizing known with
    | step e ih =>
      refine .node (h [] e .here) fun scope hscope => ?_
      refine ih _ (mem_children_of_mem_scopes hscope) fun path node hreaches => ?_
      obtain ⟨index, hindex⟩ := List.getElem?_of_mem hscope
      have hpart : e.children[index]? = some scope.2 := by
        rw [← scopes_map_snd known e, List.getElem?_map, hindex]
        rfl
      have hknown := h _ _ (.step hpart hreaches)
      rw [getElem?_scopes hpart, Option.some.injEq] at hindex
      rwa [← hindex]

end NullGuard.Expr
