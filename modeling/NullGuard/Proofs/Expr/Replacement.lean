import NullGuard.Proofs.Expr.Parts
import NullGuard.Proofs.Run

/-! # Replacing the parts of a node

The replacement of parts and the list of parts are two case analyses of a node that must not drift
apart: a part that only one of them knows would be left without a guard, or its names without a
reservation. An action that keeps a state and may fail tells which parts it is applied to, in which
order and how often, and what becomes of its results. -/

namespace NullGuard.Expr

/-! ## Actions in turn -/

section Turn

variable {σ ε : Type}

/-- The action gives a result for each of these parts in turn, from the state that the part before
it has left. -/
inductive Replaces (f : Expr → ExceptT ε (StateM σ) Expr) :
    σ → List Expr → List Expr → σ → Prop where
  | nil {start} : Replaces f start [] [] start
  | cons {start middle after part result parts results}
      (hpart : runFrom (f part) start = (.ok result, middle))
      (hrest : Replaces f middle parts results after) :
      Replaces f start (part :: parts) (result :: results) after

variable {f : Expr → ExceptT ε (StateM σ) Expr} {start middle after : σ}
  {parts results before : List Expr} {part : Expr} {error : ε}

theorem Replaces.length_eq (h : Replaces f start parts results after) :
    results.length = parts.length := by
  induction h with
  | nil => rfl
  | cons _ _ ih => exact congrArg Nat.succ ih

/-- All parts get a result, or there is a first one for which the action fails. -/
theorem replaces_or_fails (f : Expr → ExceptT ε (StateM σ) Expr) (start : σ) (parts : List Expr) :
    (∃ results after, Replaces f start parts results after) ∨
      ∃ before part behind results middle error after, parts = before ++ part :: behind ∧
        Replaces f start before results middle ∧
        runFrom (f part) middle = (.error error, after) := by
  induction parts generalizing start with
  | nil => exact .inl ⟨[], start, .nil⟩
  | cons part parts ih =>
    rcases hpart : runFrom (f part) start with ⟨error | result, middle⟩
    · exact .inr ⟨[], part, parts, [], start, error, middle, rfl, .nil, hpart⟩
    · rcases ih middle with ⟨results, after, hrest⟩ |
        ⟨before, other, behind, results, last, error, after, rfl, hbefore, hother⟩
      · exact .inl ⟨result :: results, after, .cons hpart hrest⟩
      · exact .inr ⟨part :: before, other, behind, result :: results, last, error, after, rfl,
          .cons hpart hbefore, hother⟩

theorem Replaces.runFrom_mapM (h : Replaces f start parts results after) :
    runFrom (parts.mapM f) start = (.ok results, after) := by
  induction h with
  | nil => rfl
  | cons hpart _ ih =>
    rw [List.mapM_cons, runFrom_bind_of_ok hpart, runFrom_bind_of_ok ih]
    rfl

/-- Nothing is done for the parts behind the first failure. -/
theorem Replaces.runFrom_mapM_of_error (h : Replaces f start before results middle)
    (hpart : runFrom (f part) middle = (.error error, after)) (behind : List Expr) :
    runFrom ((before ++ part :: behind).mapM f) start = (.error error, after) := by
  induction h with
  | nil => rw [List.nil_append, List.mapM_cons, runFrom_bind_of_error hpart]
  | cons hfirst _ ih =>
    rw [List.cons_append, List.mapM_cons, runFrom_bind_of_ok hfirst,
      runFrom_bind_of_error (ih hpart)]

/-! ## The record of an action -/

/-- The action, with a record of what it is applied to in the order of the applications. -/
def recording (f : Expr → ExceptT ε (StateM σ) Expr) (part : Expr) :
    ExceptT ε (StateM (σ × List Expr)) Expr :=
  ExceptT.mk fun (start, applied) =>
    let (outcome, after) := runFrom (f part) start
    (outcome, (after, applied ++ [part]))

theorem runFrom_recording {outcome : Except ε Expr}
    (h : runFrom (f part) start = (outcome, after)) (applied : List Expr) :
    runFrom (recording f part) (start, applied) = (outcome, (after, applied ++ [part])) := by
  change (match runFrom (f part) start with
    | (outcome, after) => (outcome, (after, applied ++ [part]))) = _
  rw [h]

theorem Replaces.recording (h : Replaces f start parts results after) (applied : List Expr) :
    Replaces (recording f) (start, applied) parts results (after, applied ++ parts) := by
  induction h generalizing applied with
  | nil =>
    rw [List.append_nil]
    exact .nil
  | @cons _ _ _ part _ _ _ hpart _ ih =>
    rw [List.append_cons]
    exact .cons (runFrom_recording hpart applied) (ih (applied ++ [part]))

end Turn

/-! ## The parts of a node -/

section Replacement

variable {σ ε : Type} {f : Expr → ExceptT ε (StateM σ) Expr} {start middle after : σ}
  {e part : Expr} {results before behind : List Expr} {error : ε}

theorem Replaces.runFrom_mapChildrenM (h : Replaces f start e.children results after) :
    runFrom (e.mapChildrenM fun part _ => f part) start =
      (.ok (e.withChildren results), after) := by
  rw [mapChildrenM_eq, map_eq_pure_bind, runFrom_bind_of_ok h.runFrom_mapM]
  rfl

theorem Replaces.runFrom_mapChildrenM_of_error (h : Replaces f start before results middle)
    (hpart : runFrom (f part) middle = (.error error, after))
    (hparts : e.children = before ++ part :: behind) :
    runFrom (e.mapChildrenM fun part _ => f part) start = (.error error, after) := by
  rw [mapChildrenM_eq, map_eq_pure_bind, hparts,
    runFrom_bind_of_error (h.runFrom_mapM_of_error hpart behind)]

end Replacement

/-! ## All nodes of a tree -/

section Nodes

variable {m : Type → Type} [Monad m]

/-- Replaces every node of a tree by what the action gives for it once its parts are replaced. -/
def mapNodesM (f : Expr → m Expr) (e : Expr) : m Expr := do
  f (← e.mapChildrenM fun part _ => part.mapNodesM f)
termination_by sizeOf e
decreasing_by exact sizeOf_lt_of_mem_children ‹_›

theorem mapChildrenM_pure [LawfulMonad m] (e : Expr) :
    (e.mapChildrenM fun part _ => (pure part : m Expr)) = pure e := by
  rw [mapChildrenM_eq, List.mapM_pure, map_pure, List.map_id', withChildren_children]

theorem mapNodesM_pure [LawfulMonad m] (e : Expr) :
    e.mapNodesM (pure : Expr → m Expr) = pure e := by
  induction e using Expr.induction_children with
  | step e ih =>
    have hparts : (fun part (_ : part ∈ e.children) => part.mapNodesM (pure : Expr → m Expr)) =
        fun part _ => pure part := by
      funext part hpart
      exact ih part hpart
    rw [mapNodesM, hparts, mapChildrenM_pure, pure_bind]

end Nodes

/-! ## The replacement and the list of parts -/

/-- The parts of a node are replaced in their order, each once. Either the action gives a result for
all of them, and these are the parts of a node that is otherwise the same, or its first failure is
that of the replacement, and the action is not applied any more. An action that gives back what it
gets leaves a tree as it is if it is applied to all nodes. -/
theorem mapChildrenM_replaces_children {σ ε : Type} (f : Expr → ExceptT ε (StateM σ) Expr)
    (start : σ) (e : Expr) :
    ((∃ r after, Replaces f start e.children r.children after ∧ e.SameNode r ∧
        runFrom (e.mapChildrenM fun part _ => f part) start = (.ok r, after) ∧
        runFrom (e.mapChildrenM fun part _ => recording f part) (start, []) =
          (.ok r, (after, e.children))) ∨
      ∃ before part behind results middle error after,
        e.children = before ++ part :: behind ∧ Replaces f start before results middle ∧
        runFrom (f part) middle = (.error error, after) ∧
        runFrom (e.mapChildrenM fun part _ => f part) start = (.error error, after) ∧
        runFrom (e.mapChildrenM fun part _ => recording f part) (start, []) =
          (.error error, (after, before ++ [part]))) ∧
    e.mapNodesM (pure : Expr → ExceptT ε (StateM σ) Expr) = pure e := by
  refine ⟨?_, mapNodesM_pure e⟩
  rcases replaces_or_fails f start e.children with ⟨results, after, hresults⟩ |
    ⟨before, part, behind, results, middle, error, after, hparts, hbefore, hpart⟩
  · refine .inl ⟨e.withChildren results, after, ?_, sameNode_withChildren e results,
      hresults.runFrom_mapChildrenM, (hresults.recording []).runFrom_mapChildrenM⟩
    rw [children_withChildren hresults.length_eq]
    exact hresults
  · exact .inr ⟨before, part, behind, results, middle, error, after, hparts, hbefore, hpart,
      hbefore.runFrom_mapChildrenM_of_error hpart hparts,
      (hbefore.recording []).runFrom_mapChildrenM_of_error (runFrom_recording hpart _) hparts⟩

example :
    let refuse : Expr → ExceptT String (StateM Nat) Expr := fun _ => do
      modify (· + 1)
      throw "refused"
    let equation := binary .bool .eq (literal .int (.int 1)) (literal .int (.int 2))
    runFrom (equation.mapChildrenM fun part _ => recording refuse part) (0, []) =
      (.error "refused", (1, [literal .int (.int 1)])) :=
  rfl

end NullGuard.Expr
