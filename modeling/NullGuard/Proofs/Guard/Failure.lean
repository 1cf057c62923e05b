import NullGuard.Proofs.Guard.Growth

/-! # When an insertion fails

A walk comes to each node before its parts and to the parts from left to right. It fails at the
first node that lies too deep or is an extension call without a receiver, and at no other. -/

namespace NullGuard

/-- A node of a tree with its level. -/
abbrev Place := Nat × Expr

/-- The nodes of a tree with their levels, the root's being given, in the order in which a walk
comes to them. -/
def Expr.places : Expr → Nat → List Place :=
  fold fun e parts level => (level, e) :: parts.flatMap fun part => part (level + 1)

/-- What is wrong with a node where it stands. -/
inductive Offends (maxDepth : Nat) : Place → GuardError → Prop where
  | tooDeep {level node} (h : maxDepth < level) :
      Offends maxDepth (level, node) (.depthExceeded maxDepth)
  | noReceiver {level ty method} (hlevel : level ≤ maxDepth) (h : method.isExtension = true) :
      Offends maxDepth (level, .freeCall ty method []) (.missingReceiver method.name)

def offence? (maxDepth : Nat) (place : Place) : Option GuardError :=
  if maxDepth < place.1 then some (.depthExceeded maxDepth)
  else match place.2 with
    | .freeCall _ method [] =>
      if method.isExtension then some (.missingReceiver method.name) else none
    | _ => none

variable {maxDepth : Nat} {place : Place} {error : GuardError}

theorem offence?_eq_some_iff :
    offence? maxDepth place = some error ↔ Offends maxDepth place error := by
  obtain ⟨level, node⟩ := place
  unfold offence?
  constructor
  · intro h
    split at h
    · rename_i hdeep
      cases h
      exact .tooDeep hdeep
    · rename_i hlevel
      split at h
      · rename_i hnode
        obtain rfl := hnode
        split at h
        · rename_i hext
          cases h
          exact .noReceiver (Nat.not_lt.mp hlevel) hext
        · cases h
      · cases h
  · intro h
    cases h with
    | tooDeep h => simp [h]
    | noReceiver hlevel h => simp [Nat.not_lt.mpr hlevel, h]

theorem offence?_eq_none_iff :
    offence? maxDepth place = none ↔ place.1 ≤ maxDepth ∧ place.2.lacksReceiver = false := by
  obtain ⟨level, node⟩ := place
  unfold offence?
  by_cases hdeep : maxDepth < level
  · simp [hdeep]
  · rw [if_neg hdeep]
    cases node with
    | freeCall ty method args => cases args <;> simp [Expr.lacksReceiver, Nat.not_lt.mp hdeep]
    | _ => simp [Expr.lacksReceiver, Nat.not_lt.mp hdeep]

theorem Expr.places_eq (e : Expr) (level : Nat) :
    e.places level = (level, e) :: e.children.flatMap fun part => part.places (level + 1) := by
  rw [places, fold_eq, List.flatMap_map]

/-- Nothing is wrong with a tree in which every level is allowed and every receiver is there. -/
theorem Expr.findSome?_offence?_places_eq_none_iff {e : Expr} {level : Nat} :
    (e.places level).findSome? (offence? maxDepth) = none ↔
      level + e.depth ≤ maxDepth + 1 ∧ e.Every fun node => node.lacksReceiver = false := by
  induction e using Expr.induction_children generalizing level with
  | step e ih =>
    have hdepth : level + e.depth ≤ maxDepth + 1 ↔
        level ≤ maxDepth ∧ ∀ part ∈ e.children, level + 1 + part.depth ≤ maxDepth + 1 := by
      constructor
      · intro h
        have hpos := e.depth_pos
        refine ⟨by omega, fun part hpart => ?_⟩
        have := depth_lt_of_mem_children hpart
        omega
      · rintro ⟨hlevel, hparts⟩
        have hbound : e.depth ≤ maxDepth - level + 1 := by
          refine depth_le_succ_iff.mpr fun part hpart => ?_
          have := hparts part hpart
          omega
        omega
    have hevery : (e.Every fun node => node.lacksReceiver = false) ↔ e.lacksReceiver = false ∧
        ∀ part ∈ e.children, part.Every fun node => node.lacksReceiver = false :=
      ⟨fun h => ⟨h.here, fun _ => h.of_mem_children⟩, fun h => .node h.1 h.2⟩
    have hparts : (∀ place ∈ e.children.flatMap fun part => part.places (level + 1),
        offence? maxDepth place = none) ↔ ∀ part ∈ e.children,
          level + 1 + part.depth ≤ maxDepth + 1 ∧
            part.Every fun node => node.lacksReceiver = false := by
      simp only [List.forall_mem_flatMap]
      refine forall₂_congr fun part hpart => ?_
      rw [← List.findSome?_eq_none_iff]
      exact ih part hpart
    rw [places_eq, List.findSome?_eq_none_iff, List.forall_mem_cons, hparts, offence?_eq_none_iff,
      hdepth, hevery, and_and_and_comm, forall₂_and]

/-! ## The walk -/

namespace Walk

/-- From a node of that level on, the action fails by the first offence among the places that it
comes to. Without one it succeeds and leaves the level as it was. -/
def FailsFirst {α : Type} (maxDepth : Nat) (places : Nat → List Place) (action : GuardM α) : Prop :=
  ∀ walk, match action.runAt walk with
    | (.ok _, after) =>
      (places walk.depth).findSome? (offence? maxDepth) = none ∧ after.depth = walk.depth
    | (.error error, _) => (places walk.depth).findSome? (offence? maxDepth) = some error

namespace FailsFirst

variable {α β : Type} {defs : Definitions} {options : GuardOptions} {action : GuardM α}
  {places rest : Nat → List Place}

theorem pure (a : α) : FailsFirst maxDepth (fun _ => []) (pure a : GuardM α) :=
  fun _ => ⟨rfl, rfl⟩

theorem bind {next : α → GuardM β} (haction : FailsFirst maxDepth places action)
    (hnext : ∀ a, FailsFirst maxDepth rest (next a)) :
    FailsFirst maxDepth (fun depth => places depth ++ rest depth) (action >>= next) := by
  intro walk
  have hfirst := haction walk
  rw [GuardM.runAt_bind, List.findSome?_append]
  rcases hrun : action.runAt walk with ⟨error | a, middle⟩
  all_goals rw [hrun] at hfirst
  · simp only at hfirst ⊢
    rw [hfirst, Option.some_or]
  · obtain ⟨hnone, hdepth⟩ := hfirst
    have hsecond := hnext a middle
    rw [hdepth] at hsecond
    rw [hnone, Option.none_or]
    exact hsecond

theorem bind_pure (h : FailsFirst maxDepth places action) (f : α → β) :
    FailsFirst maxDepth places (action >>= fun a => Pure.pure (f a)) := by
  simpa using h.bind fun a => pure (f a)

theorem knowing (h : FailsFirst maxDepth places action) (change : List String → List String) :
    FailsFirst maxDepth places (Walk.knowing change action) := by
  intro walk
  have hinner := h { walk with nonNull := change walk.nonNull }
  rw [runAt_knowing]
  rcases hrun : action.runAt { walk with nonNull := change walk.nonNull } with ⟨error | a, inner⟩
  all_goals rw [hrun] at hinner
  · exact hinner
  · exact hinner

theorem mapM {parts : List Expr} {visit : Expr → GuardM Expr} {level : Expr → Nat → List Place}
    (h : ∀ part ∈ parts, FailsFirst maxDepth (level part) (visit part)) :
    FailsFirst maxDepth (fun depth => parts.flatMap fun part => level part depth)
      (parts.mapM visit) := by
  induction parts with
  | nil => exact .pure []
  | cons part parts ih =>
    rw [List.forall_mem_cons] at h
    rw [List.mapM_cons]
    simpa using h.1.bind fun first => (ih h.2).bind_pure (first :: ·)

end FailsFirst

variable {defs : Definitions} {options : GuardOptions}

theorem visitParts_failsFirst {e : Expr}
    (h : ∀ part ∈ e.children, FailsFirst maxDepth (fun depth => part.places (depth + 1))
      (part.visit defs options)) :
    FailsFirst maxDepth (fun depth => e.children.flatMap fun part => part.places (depth + 1))
      (visitParts defs options e) := by
  cases e with
  | cond ty test ifTrue ifFalse =>
    simp only [Expr.children, List.forall_mem_cons, List.flatMap_cons, List.flatMap_nil,
      List.append_nil] at h ⊢
    exact h.1.bind fun test' => (h.2.1.knowing _).bind fun ifTrue' =>
      (h.2.2.1.knowing _).bind_pure fun ifFalse' => [test', ifTrue', ifFalse']
  | lambda ty params body =>
    simp only [Expr.children, List.forall_mem_cons, List.flatMap_singleton] at h ⊢
    exact (h.1.knowing _).bind_pure fun body' => [body']
  | bind ty var value body =>
    simp only [Expr.children, List.forall_mem_cons, List.flatMap_cons, List.flatMap_nil,
      List.append_nil] at h ⊢
    exact h.1.bind fun value' => (h.2.1.knowing _).bind_pure fun body' => [value', body']
  | _ => exact .mapM h

theorem sealNode_failsFirst (defs : Definitions) (options : GuardOptions) (node : Expr) :
    FailsFirst maxDepth (fun _ => []) (sealNode defs options node) := by
  unfold sealNode
  cases node.receiver? with
  | none => exact .pure node
  | some receiver =>
    intro walk
    simp only [runAt_attach]
    by_cases h : (receiver.isSafe defs || walk.isKnown receiver) = true
    · rw [if_pos h]
      exact ⟨rfl, rfl⟩
    · rw [if_neg h]
      exact ⟨rfl, rfl⟩

theorem runAt_checkReceiver_of_lacks {e : Expr} (h : e.lacksReceiver = true) (walk : Walk) :
    ∃ ty method, e = .freeCall ty method [] ∧ method.isExtension = true ∧
      (checkReceiver e).runAt walk = (.error (.missingReceiver method.name), walk) := by
  cases e with
  | freeCall ty method args =>
    obtain ⟨hext, hargs⟩ := Bool.and_eq_true_iff.mp h
    obtain rfl := List.isEmpty_iff.mp hargs
    refine ⟨ty, method, rfl, hext, ?_⟩
    simp only [checkReceiver, hext, List.isEmpty_nil, Bool.and_self, if_true]
    rfl
  | _ => cases h

end Walk

open Walk in
/-- A walk fails by the first node that offends, and only by that. -/
theorem Expr.visit_failsFirst (defs : Definitions) (options : GuardOptions) (e : Expr) :
    FailsFirst options.maxDepth (fun depth => e.places (depth + 1)) (e.visit defs options) := by
  induction e using Expr.induction_children with
  | step e ih =>
    intro walk
    beta_reduce
    rw [visit_eq, places_eq, List.findSome?_cons]
    by_cases hdepth : walk.depth < options.maxDepth
    · rw [runAt_enter_of_lt _ hdepth]
      cases hlacks : e.lacksReceiver with
      | true =>
        obtain ⟨ty, method, rfl, hext, hcheck⟩ := runAt_checkReceiver_of_lacks hlacks walk.deeper
        have hoffends : offence? options.maxDepth (walk.depth + 1, .freeCall ty method []) =
            some (.missingReceiver method.name) :=
          offence?_eq_some_iff.mpr (.noReceiver hdepth hext)
        rw [GuardM.runAt_bind, hcheck, hoffends]
      | false =>
        have hnone : offence? options.maxDepth (walk.depth + 1, e) = none :=
          offence?_eq_none_iff.mpr ⟨hdepth, hlacks⟩
        have hinner : FailsFirst options.maxDepth
            (fun depth => e.children.flatMap fun part => part.places (depth + 1))
            (do sealNode defs options (e.withChildren (← visitParts defs options e))) := by
          simpa using (visitParts_failsFirst ih).bind fun parts =>
            sealNode_failsFirst defs options (e.withChildren parts)
        have hat := hinner walk.deeper
        rw [hnone, GuardM.runAt_bind_of_ok (runAt_checkReceiver_of_complete hlacks)]
        revert hat
        rcases GuardM.runAt _ walk.deeper with ⟨error | r, inner⟩
        · exact id
        · exact fun h => ⟨h.1, rfl⟩
    · have htooDeep : offence? options.maxDepth (walk.depth + 1, e) =
          some (.depthExceeded options.maxDepth) :=
        offence?_eq_some_iff.mpr (.tooDeep (by omega))
      rw [runAt_enter_of_le _ (Nat.not_lt.mp hdepth), htooDeep]

/-! ## The insertion -/

/-- An insertion succeeds exactly if no level of the tree is too deep and every extension call has
a receiver. Otherwise its error is about the first node, in the order of the walk, with which
something is wrong. -/
theorem Expr.insertGuards_failure (defs : Definitions) (options : GuardOptions)
    (cache : FallbackCache) (e : Expr) :
    ((∃ guarded, (e.insertGuards defs options cache).1 = .ok guarded) ↔
      e.depth ≤ options.maxDepth ∧ e.Every fun node => node.lacksReceiver = false) ∧
    ∀ error, (e.insertGuards defs options cache).1 = .error error ↔
      ∃ before place after, e.places 1 = before ++ place :: after ∧
        (∀ earlier ∈ before, ∀ error, ¬ Offends options.maxDepth earlier error) ∧
        Offends options.maxDepth place error := by
  have hroom : e.depth ≤ options.maxDepth ↔ 1 + e.depth ≤ options.maxDepth + 1 := by omega
  have hfirst (error : GuardError) : (∃ before place after, e.places 1 = before ++ place :: after ∧
      (∀ earlier ∈ before, ∀ error, ¬ Offends options.maxDepth earlier error) ∧
      Offends options.maxDepth place error) ↔
        (e.places 1).findSome? (offence? options.maxDepth) = some error := by
    simp only [List.findSome?_eq_some_iff, offence?_eq_some_iff, Option.eq_none_iff_forall_ne_some,
      ne_eq, and_comm]
  have hfails := e.visit_failsFirst defs options (.start cache e)
  simp only [hfirst, hroom, ← findSome?_offence?_places_eq_none_iff, insertGuards_eq]
  revert hfails
  rcases (e.visit defs options).runAt (.start cache e) with ⟨error | r, after⟩
  · intro (hsome : (e.places 1).findSome? (offence? options.maxDepth) = some error)
    simp [hsome, Except.map]
  · rintro ⟨hnone : (e.places 1).findSome? (offence? options.maxDepth) = none, -⟩
    simp [hnone, Except.map]

/-- The left operand goes too deep before the right one is seen to lack its receiver. -/
example :
    ((Expr.binary .int .add
      (.unary .int .neg (.unary .int .neg (.param .int "x")))
      (.freeCall .int ⟨"Count", some "Enumerable", true⟩ [])).insertGuards Collection.definitions
        ⟨2, false⟩ .empty).1 = .error (.depthExceeded 2) := by
  cbv

end NullGuard
