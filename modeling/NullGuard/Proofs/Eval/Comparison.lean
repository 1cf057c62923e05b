import Mathlib
import NullGuard.Eval.Evaluate
import NullGuard.Proofs.Eval.Trace
import NullGuard.Proofs.Eval.Value

/-! # Comparing two evaluations

Two evaluations agree if, from related traces, each end of the first one either is of no interest
or is matched by the second one. What is of interest differs from one result to the next; how
agreement passes through the steps of an evaluation does not, and is said here once. -/

namespace NullGuard

open List (Forall₂)

/-- What two evaluations are compared by. Nothing is said about the second one where the first one
ends as `waived` tells, and both must end alike where it ends as `shared` tells; any other end must
not happen. All closures in values satisfy `closures`, and an argument of a method may also be a
pair of different closures that `callees` relates. -/
structure Comparison where
  traces : Trace → Trace → Prop
  waived : Stop → Prop
  shared : Stop → Prop
  closures : List Param → Expr → Env → Prop
  callees : Value → Value → Prop
  traces_record {trace trace'} (access : Access) : traces trace trace' →
    traces { trace with accesses := access :: trace.accesses }
      { trace' with accesses := access :: trace'.accesses }
  traces_recordLookup {trace trace'} (ty : Ty) (name : String) : traces trace trace' →
    traces { trace with lookups := (ty, name) :: trace.lookups }
      { trace' with lookups := (ty, name) :: trace'.lookups }
  ordinary {error : EvalError} : error.isOrdinary = true →
    waived (.fault error) ∨ shared (.fault error)
  callees_closure {callee callee'} : callees callee callee' →
    (∃ params body env, callee = .closure params body env) ∧
      ∃ params body env, callee' = .closure params body env
  callees_equals {callee callee' item} : callees callee callee' →
    Value.EveryClosure closures item → item.looselyEquals callee = item.looselyEquals callee'

/-- Evaluations with the same trace, in which no method gets another callee. -/
def Comparison.inStep (waived shared : Stop → Prop) (closures : List Param → Expr → Env → Prop)
    (ordinary : ∀ {error : EvalError}, error.isOrdinary = true →
      waived (.fault error) ∨ shared (.fault error)) : Comparison where
  traces := Eq
  waived := waived
  shared := shared
  closures := closures
  callees _ _ := False
  traces_record := by
    rintro _ _ _ rfl
    rfl
  traces_recordLookup := by
    rintro _ _ _ _ rfl
    rfl
  ordinary := ordinary
  callees_closure := nofun
  callees_equals := nofun

namespace Comparison

variable (S : Comparison)

/-- The values that both evaluations may have. -/
abbrev Data (value : Value) : Prop :=
  value.EveryClosure S.closures

def Same (value value' : Value) : Prop :=
  value = value' ∧ S.Data value

/-- What both evaluations may pass to a method. -/
inductive Argument : Value → Value → Prop where
  | same {value} (h : S.Data value) : Argument value value
  | callee {value value'} (h : S.callees value value') : Argument value value'

def Agree {α β : Type} (R : α → β → Prop) (first : EvalM α) (second : EvalM β) : Prop :=
  ∀ trace trace', S.traces trace trace' →
    (∀ a after, first.runAt trace = (.ok a, after) →
      ∃ b after', second.runAt trace' = (.ok b, after') ∧ R a b ∧ S.traces after after') ∧
    ∀ stop after, first.runAt trace = (.error stop, after) →
      S.waived stop ∨ S.shared stop ∧
        ∃ after', second.runAt trace' = (.error stop, after') ∧ S.traces after after'

end Comparison

section Agree

variable {S : Comparison} {α β γ δ : Type} {R : α → β → Prop} {R' : γ → δ → Prop}

namespace Comparison.Agree

theorem pure {a : α} {b : β} (h : R a b) : S.Agree R (Pure.pure a) (Pure.pure b) := by
  intro trace trace' htraces
  refine ⟨fun a' after hrun => ?_, nofun⟩
  cases hrun
  exact ⟨b, trace', rfl, h, htraces⟩

theorem throw {stop : Stop} (h : S.waived stop ∨ S.shared stop) :
    S.Agree R (MonadExcept.throw stop) (MonadExcept.throw stop) := by
  intro trace trace' htraces
  refine ⟨nofun, fun stop' after hrun => ?_⟩
  cases hrun
  exact h.imp_right fun hshared => ⟨hshared, trace', rfl, htraces⟩

/-- Nothing is said about the second evaluation if the end of the first one is waived. -/
theorem of_waived {stop : Stop} (h : S.waived stop) (second : EvalM β) :
    S.Agree R (MonadExcept.throw stop) second := by
  intro trace trace' htraces
  refine ⟨nofun, fun stop' after hrun => ?_⟩
  cases hrun
  exact .inl h

theorem fail {error : EvalError} (h : error.isOrdinary = true) :
    S.Agree R (EvalM.fail error) (EvalM.fail error) :=
  throw (S.ordinary h)

theorem bind {first : EvalM α} {second : EvalM β} {next : α → EvalM γ} {next' : β → EvalM δ}
    (h : S.Agree R first second) (hnext : ∀ a b, R a b → S.Agree R' (next a) (next' b)) :
    S.Agree R' (first >>= next) (second >>= next') := by
  intro trace trace' htraces
  obtain ⟨hok, herror⟩ := h trace trace' htraces
  rcases hfirst : first.runAt trace with ⟨stop | a, middle⟩
  · rw [EvalM.runAt_bind_of_error hfirst]
    refine ⟨nofun, fun stop' after hrun => ?_⟩
    cases hrun
    refine (herror stop middle hfirst).imp_right fun ⟨hshared, after', hsecond, hafter⟩ => ?_
    exact ⟨hshared, after', EvalM.runAt_bind_of_error hsecond, hafter⟩
  · obtain ⟨b, middle', hsecond, hab, hmiddle⟩ := hok a middle hfirst
    rw [EvalM.runAt_bind_of_ok hfirst, EvalM.runAt_bind_of_ok hsecond]
    exact hnext a b hab middle middle' hmiddle

theorem mono {first : EvalM α} {second : EvalM β} {R'' : α → β → Prop} (h : S.Agree R first second)
    (hR : ∀ a b, R a b → R'' a b) : S.Agree R'' first second := by
  intro trace trace' htraces
  obtain ⟨hok, herror⟩ := h trace trace' htraces
  refine ⟨fun a after hrun => ?_, herror⟩
  obtain ⟨b, after', hsecond, hab, hafter⟩ := hok a after hrun
  exact ⟨b, after', hsecond, hR a b hab, hafter⟩

/-- What has the same value in both evaluations may be passed to a method. -/
theorem argument {first second : EvalM Value} (h : S.Agree S.Same first second) :
    S.Agree S.Argument first second := by
  refine h.mono ?_
  rintro value _ ⟨rfl, hvalue⟩
  exact .same hvalue

theorem record (access : Access) :
    S.Agree (fun _ _ => True) (EvalM.record access) (EvalM.record access) := by
  intro trace trace' htraces
  refine ⟨fun a after hrun => ?_, nofun⟩
  cases hrun
  exact ⟨(), _, rfl, trivial, S.traces_record access htraces⟩

theorem recordLookup (ty : Ty) (name : String) :
    S.Agree (fun _ _ => True) (EvalM.recordLookup ty name) (EvalM.recordLookup ty name) := by
  intro trace trace' htraces
  refine ⟨fun a after hrun => ?_, nofun⟩
  cases hrun
  exact ⟨(), _, rfl, trivial, S.traces_recordLookup ty name htraces⟩

theorem ofExcept {result : Except EvalError Value}
    (hok : ∀ value, result = .ok value → S.Data value)
    (herror : ∀ error, result = .error error →
      S.waived (.fault error) ∨ S.shared (.fault error)) :
    S.Agree S.Same (Context.ofExcept result) (Context.ofExcept result) := by
  cases result with
  | ok value => exact pure ⟨rfl, hok value rfl⟩
  | error error => exact throw (herror error rfl)

theorem mapM {items : List α} {items' : List β} {f : α → EvalM γ} {f' : β → EvalM δ}
    (h : Forall₂ (fun a b => S.Agree R' (f a) (f' b)) items items') :
    S.Agree (Forall₂ R') (items.mapM f) (items'.mapM f') := by
  induction h with
  | nil => exact pure .nil
  | cons hitem _ ih =>
    rw [List.mapM_cons, List.mapM_cons]
    refine hitem.bind fun c d hcd => ih.bind fun cs ds hcds => ?_
    exact pure (.cons hcd hcds)

theorem keepM {items : List α} {test test' : α → EvalM Bool}
    (h : ∀ item ∈ items, S.Agree Eq (test item) (test' item)) :
    S.Agree (fun kept kept' => kept = kept' ∧ kept ⊆ items) (NullGuard.keepM test items)
      (NullGuard.keepM test' items) := by
  induction items with
  | nil => exact pure ⟨rfl, List.Subset.refl _⟩
  | cons item items ih =>
    rw [List.forall_mem_cons] at h
    refine h.1.bind fun accepted _ heq => ?_
    subst heq
    refine (ih h.2).bind fun kept _ hkept => ?_
    obtain ⟨rfl, hsubset⟩ := hkept
    refine pure ⟨rfl, ?_⟩
    split
    · exact List.cons_subset_cons item hsubset
    · exact List.subset_cons_of_subset item hsubset

theorem foldlM {items : List α} {start : β} {step step' : β → α → EvalM β}
    (h : ∀ total, ∀ item ∈ items, S.Agree Eq (step total item) (step' total item)) :
    S.Agree Eq (items.foldlM step start) (items.foldlM step' start) := by
  induction items generalizing start with
  | nil => exact pure rfl
  | cons item items ih =>
    rw [List.foldlM_cons, List.foldlM_cons]
    refine (h start item List.mem_cons_self).bind fun total _ heq => ?_
    subst heq
    exact ih fun total item hitem => h total item (List.mem_cons_of_mem _ hitem)

end Comparison.Agree

end Agree

end NullGuard
