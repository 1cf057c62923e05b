import Mathlib.Data.List.Perm.Subperm
import NullGuard.Ty.Hierarchy

/-!
Assignability as reachability through bases. A search that finds nothing has looked at all bases
of the types that it has met, except where it met a type at the end of the longest chain that it
follows. Such a type counts as looked at, although the types above it were left out.
-/

namespace NullGuard.Ty

/-- Steps from a type to one of its bases lead from `source` through the types `before`, the
latest of them first. -/
inductive BaseChain (defs : Definitions) (source : Ty) : List Ty → Ty → Prop where
  | refl : BaseChain defs source [] source
  | step {before ty base} (h : BaseChain defs source before ty)
      (hbase : base ∈ ty.baseTypes defs) : BaseChain defs source (ty :: before) base

/-- A chain without repetitions reaches the type when no step is left to go on from it. -/
def CutOff (defs : Definitions) (source ty : Ty) : Prop :=
  ∃ before, BaseChain defs source before ty ∧ (ty :: before).Nodup ∧
    before.length = maxBaseDepth

/-- A chain without repetitions goes on from `ty` to `base` when no step is left to look at it. -/
def CutAt (defs : Definitions) (source ty base : Ty) : Prop :=
  ∃ before, BaseChain defs source (ty :: before) base ∧ (base :: ty :: before).Nodup ∧
    before.length = maxBaseDepth

/-- The cases in which no base matters. -/
inductive AssignableAtOnce : Ty → Ty → Prop where
  | refl (ty : Ty) : AssignableAtOnce ty ty
  | object (source : Ty) : AssignableAtOnce source .object
  | nullable (source : Ty) : AssignableAtOnce source (.nullable source)
  | array (element : Ty) {definition : DefId} (h : definition ∈ Collection.arrayInterfaces) :
      AssignableAtOnce (.array element) (.named definition [element])

variable {defs : Definitions} {root source target ty : Ty} {steps : Nat}
  {before types visited visited' : List Ty}

/-! ### Chains -/

theorem exists_named_of_mem_baseTypes {base : Ty} (h : base ∈ source.baseTypes defs) :
    ∃ definition args, source = .named definition args := by
  cases source with
  | named definition args => exact ⟨definition, args, rfl⟩
  | unknown | intrinsic | nullable | array | param => exact absurd h List.not_mem_nil

theorem BaseChain.eq_or_exists_named (h : BaseChain defs source before target) :
    target = source ∨ ∃ definition args, source = .named definition args := by
  induction h with
  | refl => exact .inl rfl
  | step _ hbase ih =>
    rcases ih with rfl | hnamed
    · exact .inr (exists_named_of_mem_baseTypes hbase)
    · exact .inr hnamed

theorem BaseChain.forall_mem (h : BaseChain defs source before target) (hsource : source ∈ types)
    (hclosed : ∀ ty ∈ types, ∀ base ∈ ty.baseTypes defs, base ∈ types) :
    ∀ ty ∈ target :: before, ty ∈ types := by
  induction h with
  | refl => exact List.forall_mem_singleton.mpr hsource
  | step _ hbase ih =>
    exact List.forall_mem_cons.mpr ⟨hclosed _ (ih _ List.mem_cons_self) _ hbase, ih⟩

/-- Among few types no chain without repetitions is long. -/
theorem BaseChain.length_lt (h : BaseChain defs source before target)
    (hnodup : (target :: before).Nodup) (hsource : source ∈ types)
    (hclosed : ∀ ty ∈ types, ∀ base ∈ ty.baseTypes defs, base ∈ types) :
    before.length < types.length :=
  (List.Nodup.subperm hnodup (h.forall_mem hsource hclosed)).length_le

theorem not_cutOff (hsource : source ∈ types)
    (hclosed : ∀ ty ∈ types, ∀ base ∈ ty.baseTypes defs, base ∈ types)
    (hlength : types.length ≤ maxBaseDepth) : ¬ CutOff defs source ty := by
  rintro ⟨before, hchain, hnodup, hbefore⟩
  have hlt := hchain.length_lt hnodup hsource hclosed
  omega

theorem CutAt.cutOff {base : Ty} (h : CutAt defs source ty base) : CutOff defs source ty := by
  obtain ⟨before, hchain, hnodup, hlength⟩ := h
  cases hchain with
  | step hchain _ => exact ⟨before, hchain, hnodup.of_cons, hlength⟩

/-! ### One step of the search -/

theorem run_anyM_cons (p : Ty → StateM (List Ty) Bool) (tys : List Ty) :
    ((ty :: tys).anyM p).run visited =
      if ((p ty).run visited).1 then (true, ((p ty).run visited).2)
      else (tys.anyM p).run ((p ty).run visited).2 := by
  rw [List.anyM]
  rcases h : (p ty).run visited with ⟨found, visited'⟩
  cases found <;> simp [h] <;> rfl

theorem run_derivesFrom :
    (derivesFrom defs target steps source).run visited =
      if source = target then (true, visited)
      else match steps with
        | 0 => (false, visited)
        | steps + 1 =>
          if source ∈ visited then (false, visited)
          else ((source.baseTypes defs).anyM (derivesFrom defs target steps)).run
            (source :: visited) := by
  rw [derivesFrom.eq_def]
  by_cases htarget : source = target
  · simp only [if_pos htarget]
    rfl
  · simp only [if_neg htarget]
    cases steps with
    | zero => rfl
    | succ steps =>
      by_cases hmem : source ∈ visited
      · simp only [if_pos hmem, StateT.run_bind, StateT.run_get, pure_bind,
          List.contains_iff_mem.mpr hmem, if_true]
        rfl
      · simp [hmem]

/-! ### What is found is reachable -/

theorem exists_of_run_anyM {p : Ty → StateM (List Ty) Bool} {tys : List Ty}
    (h : ((tys.anyM p).run visited).1 = true) :
    ∃ ty ∈ tys, ∃ visited, ((p ty).run visited).1 = true := by
  induction tys generalizing visited with
  | nil => exact absurd h (by simp [List.anyM])
  | cons ty tys ih =>
    rw [run_anyM_cons] at h
    split at h
    · rename_i hfound
      exact ⟨ty, List.mem_cons_self, visited, hfound⟩
    · obtain ⟨other, hmem, hfound⟩ := ih h
      exact ⟨other, List.mem_cons_of_mem ty hmem, hfound⟩

theorem exists_baseChain_of_found (hchain : BaseChain defs root before source)
    (h : ((derivesFrom defs target steps source).run visited).1 = true) :
    ∃ before', BaseChain defs root before' target ∧
      before'.length ≤ before.length + steps := by
  induction steps generalizing source before visited with
  | zero =>
    rw [run_derivesFrom] at h
    split at h
    · rename_i htarget
      exact ⟨before, htarget ▸ hchain, Nat.le_refl _⟩
    · cases h
  | succ steps ih =>
    rw [run_derivesFrom] at h
    split at h
    · rename_i htarget
      exact ⟨before, htarget ▸ hchain, Nat.le_add_right _ _⟩
    · dsimp only at h
      split at h
      · cases h
      · obtain ⟨base, hbase, visited, hfound⟩ := exists_of_run_anyM h
        obtain ⟨before', hchain', hlength⟩ := ih (hchain.step hbase) hfound
        rw [List.length_cons] at hlength
        exact ⟨before', hchain', by omega⟩

/-! ### What is not found -/

/-- None of the type's bases is the target, and all of them have been met, unless the type is
cut off. -/
def Settled (defs : Definitions) (root target : Ty) (visited : List Ty) (ty : Ty) : Prop :=
  ∀ base ∈ ty.baseTypes defs, base ≠ target ∧ (base ∈ visited ∨ CutAt defs root ty base)

theorem Settled.mono (h : Settled defs root target visited ty) (hsubset : visited ⊆ visited') :
    Settled defs root target visited' ty := fun base hbase =>
  ⟨(h base hbase).1, (h base hbase).2.imp_left fun hmem => hsubset hmem⟩

/-- A part of a search that ends without success settles what it meets. -/
structure Settles (defs : Definitions) (root target : Ty) (visited visited' : List Ty) :
    Prop where
  subset : visited ⊆ visited'
  settled : ∀ ty ∈ visited', ty ∈ visited ∨ Settled defs root target visited' ty

theorem Settles.refl (visited : List Ty) : Settles defs root target visited visited :=
  ⟨List.Subset.refl visited, fun _ => .inl⟩

theorem Settles.trans {visited'' : List Ty} (h : Settles defs root target visited visited')
    (h' : Settles defs root target visited' visited'') :
    Settles defs root target visited visited'' := by
  refine ⟨List.Subset.trans h.subset h'.subset, fun ty hty => ?_⟩
  rcases h'.settled ty hty with hty' | hsettled
  · exact (h.settled ty hty').imp_right fun hsettled => hsettled.mono h'.subset
  · exact .inr hsettled

/-- `source` is no target, what was met on the way is settled, and `source` has been met if a
step was left for it. -/
structure Fails (defs : Definitions) (root target : Ty) (visited : List Ty) (steps : Nat)
    (source : Ty) (visited' : List Ty) : Prop extends
    Settles defs root target visited visited' where
  ne_target : source ≠ target
  met : steps ≠ 0 → source ∈ visited'

theorem settles_of_run_anyM {p : Ty → StateM (List Ty) Bool} {tys start : List Ty}
    (hp : ∀ ty ∈ tys, ∀ {visited visited'}, start ⊆ visited →
      (p ty).run visited = (false, visited') →
      Fails defs root target visited steps ty visited')
    (hstart : start ⊆ visited) (h : (tys.anyM p).run visited = (false, visited')) :
    Settles defs root target visited visited' ∧
      ∀ ty ∈ tys, ty ≠ target ∧ (steps ≠ 0 → ty ∈ visited') := by
  induction tys generalizing visited with
  | nil =>
    obtain rfl : visited = visited' := congrArg Prod.snd h
    exact ⟨.refl visited, nofun⟩
  | cons ty tys ih =>
    rw [run_anyM_cons] at h
    rcases hrun : (p ty).run visited with ⟨found, middle⟩
    rw [hrun] at h
    cases found with
    | true => cases h
    | false =>
      have hfirst := hp ty List.mem_cons_self hstart hrun
      obtain ⟨hrest, hall⟩ := ih (fun other hmem => hp other (List.mem_cons_of_mem ty hmem))
        (List.Subset.trans hstart hfirst.subset) h
      refine ⟨hfirst.toSettles.trans hrest, List.forall_mem_cons.mpr ⟨?_, hall⟩⟩
      exact ⟨hfirst.ne_target, fun hsteps => hrest.subset (hfirst.met hsteps)⟩

/-- The types `before` are those that the search is still busy with. They have all been met, so
that a type that is met for the first time goes on a chain without repetitions. -/
theorem fails_of_run_derivesFrom (hchain : BaseChain defs root before source)
    (hnodup : before.Nodup) (hbefore : before ⊆ visited)
    (hsteps : before.length + steps = maxBaseDepth + 1)
    (h : (derivesFrom defs target steps source).run visited = (false, visited')) :
    Fails defs root target visited steps source visited' := by
  induction steps generalizing source before visited visited' with
  | zero =>
    rw [run_derivesFrom] at h
    split at h
    · cases h
    · rename_i hne
      obtain rfl : visited = visited' := congrArg Prod.snd h
      exact ⟨.refl visited, hne, nofun⟩
  | succ steps ih =>
    rw [run_derivesFrom] at h
    split at h
    · cases h
    rename_i hne
    dsimp only at h
    split at h
    · rename_i hmem
      obtain rfl : visited = visited' := congrArg Prod.snd h
      exact ⟨.refl visited, hne, fun _ => hmem⟩
    · rename_i hnew
      have hnodup' : (source :: before).Nodup :=
        List.nodup_cons.mpr ⟨fun hmem => hnew (hbefore hmem), hnodup⟩
      obtain ⟨hsettles, hbases⟩ := settles_of_run_anyM
        (fun base hbase visited visited' hstart hrun => ih (hchain.step hbase) hnodup' hstart
          (by rw [List.length_cons]; omega) hrun)
        (List.cons_subset_cons source hbefore) h
      have hsource : Settled defs root target visited' source := fun base hbase => by
        refine ⟨(hbases base hbase).1, ?_⟩
        by_cases hlast : steps = 0
        · by_cases hopen : base ∈ source :: before
          · exact .inl (hsettles.subset (List.cons_subset_cons source hbefore hopen))
          · exact .inr ⟨before, hchain.step hbase, List.nodup_cons.mpr ⟨hopen, hnodup'⟩, by omega⟩
        · exact .inl ((hbases base hbase).2 hlast)
      refine ⟨⟨fun ty hty => hsettles.subset (List.mem_cons_of_mem source hty), fun ty hty => ?_⟩,
        hne, fun _ => hsettles.subset List.mem_cons_self⟩
      rcases hsettles.settled ty hty with hty | hsettled
      · rcases List.mem_cons.mp hty with rfl | hty
        · exact .inr hsource
        · exact .inl hty
      · exact .inr hsettled

/-- A search from `source` that fails has met all that chains without a cut reach. -/
theorem BaseChain.mem_visited (hchain : BaseChain defs source before ty)
    (hsource : source ∈ visited)
    (hsettled : ∀ ty ∈ visited, Settled defs source target visited ty)
    (huncut : ∀ ty ∈ before, ∀ base, ¬ CutAt defs source ty base) : ty ∈ visited := by
  induction hchain with
  | refl => exact hsource
  | step _ hbase ih =>
    obtain ⟨hty, hbefore⟩ := List.forall_mem_cons.mp huncut
    exact ((hsettled _ (ih hbefore) _ hbase).2).resolve_right (hty _)

theorem found_of_not_cutAt (hchain : BaseChain defs source before target)
    (huncut : ∀ ty ∈ before.tail, ∀ base, ¬ CutAt defs source ty base) :
    ((derivesFrom defs target (maxBaseDepth + 1) source).run []).1 = true := by
  rcases hrun : (derivesFrom defs target (maxBaseDepth + 1) source).run [] with ⟨found, visited⟩
  cases found with
  | true => rfl
  | false =>
    have hfails := fails_of_run_derivesFrom .refl List.nodup_nil (List.Subset.refl [])
      (Nat.zero_add _) hrun
    have hsettled ty (hty : ty ∈ visited) : Settled defs source target visited ty :=
      (hfails.settled ty hty).resolve_left List.not_mem_nil
    cases hchain with
    | refl => exact absurd rfl hfails.ne_target
    | step hchain hbase =>
      have hmem := hchain.mem_visited (hfails.met (Nat.succ_ne_zero _)) hsettled huncut
      exact absurd rfl (hsettled _ hmem target hbase).1

theorem found_of_baseChain (hchain : BaseChain defs source before target)
    (huncut : ∀ ty ∈ before.tail, ¬ CutOff defs source ty) :
    ((derivesFrom defs target (maxBaseDepth + 1) source).run []).1 = true :=
  found_of_not_cutAt hchain fun ty hty _ hcut => huncut ty hty hcut.cutOff

/-- Where no chain without repetitions is longer than a search goes, it misses nothing. -/
theorem found_of_short (hchain : BaseChain defs source before target)
    (hshort : ∀ before ty, BaseChain defs source before ty → (ty :: before).Nodup →
      before.length ≤ maxBaseDepth) :
    ((derivesFrom defs target (maxBaseDepth + 1) source).run []).1 = true := by
  refine found_of_not_cutAt hchain fun ty _ base hcut => ?_
  obtain ⟨before', hchain', hnodup, hlength⟩ := hcut
  have hle := hshort _ base hchain' hnodup
  rw [List.length_cons] at hle
  omega

/-! ### Assignability -/

theorem arrayImplements_eq_true_iff {element : Ty} :
    arrayImplements element target = true ↔
      ∃ definition ∈ Collection.arrayInterfaces, target = .named definition [element] := by
  cases target <;> simp [arrayImplements, and_comm]

theorem assignableAtOnce_iff :
    AssignableAtOnce source target ↔
      (source = target ∨ target = .object ∨ target.underlying? = some source) ∨
        ∃ element, source = .array element ∧ arrayImplements element target = true := by
  constructor
  · intro h
    cases h with
    | refl => exact .inl (.inl rfl)
    | object => exact .inl (.inr (.inl rfl))
    | nullable => exact .inl (.inr (.inr rfl))
    | array element hmem =>
      exact .inr ⟨element, rfl, arrayImplements_eq_true_iff.mpr ⟨_, hmem, rfl⟩⟩
  · rintro ((rfl | rfl | hunderlying) | ⟨element, rfl, himplements⟩)
    · exact .refl source
    · exact .object source
    · cases target with
      | nullable underlying =>
        obtain rfl : underlying = source := Option.some.inj hunderlying
        exact .nullable underlying
      | unknown | intrinsic | array | named | param => cases hunderlying
    · obtain ⟨definition, hmem, rfl⟩ := arrayImplements_eq_true_iff.mp himplements
      exact .array element hmem

theorem isAssignable_eq_true_iff :
    isAssignable defs source target = true ↔ AssignableAtOnce source target ∨
      (∃ definition args, source = .named definition args) ∧
        ((derivesFrom defs target (maxBaseDepth + 1) source).run []).1 = true := by
  rw [assignableAtOnce_iff]
  by_cases hatOnce : source = target ∨ target = .object ∨ target.underlying? = some source
  · simp [isAssignable, assignability, hatOnce]
  · cases source <;> simp [isAssignable, assignability, hatOnce]

/-- Nothing but a reachable base is assignable beyond the cases in which no base matters. A base
that a chain reaches is assignable unless one of the types on the way to it, the last one apart,
is cut off. -/
theorem isAssignable_reachable (defs : Definitions) (source target : Ty) :
    (isAssignable defs source target = true →
      AssignableAtOnce source target ∨ (∃ definition args, source = .named definition args) ∧
        ∃ before, BaseChain defs source before target ∧ before.length ≤ maxBaseDepth + 1) ∧
    (AssignableAtOnce source target → isAssignable defs source target = true) ∧
    ∀ before, BaseChain defs source before target →
      (∀ ty ∈ before.tail, ¬ CutOff defs source ty) →
      isAssignable defs source target = true := by
  simp only [isAssignable_eq_true_iff]
  refine ⟨?_, .inl, fun before hchain huncut => ?_⟩
  · rintro (hatOnce | ⟨hnamed, hfound⟩)
    · exact .inl hatOnce
    · obtain ⟨before, hchain, hlength⟩ := exists_baseChain_of_found .refl hfound
      rw [List.length_nil, Nat.zero_add] at hlength
      exact .inr ⟨hnamed, before, hchain, hlength⟩
  · rcases hchain.eq_or_exists_named with rfl | hnamed
    · exact .inl (.refl target)
    · exact .inr ⟨hnamed, found_of_baseChain hchain huncut⟩

/-- The interfaces that `List<int>` implements are few. -/
theorem isAssignable_list_enumerable :
    ¬ AssignableAtOnce (listOf .int) (enumerableOf .int) ∧
      isAssignable Collection.definitions (listOf .int) (enumerableOf .int) = true := by
  have hchain : BaseChain Collection.definitions (listOf .int)
      [.named Collection.collection [.int], .named Collection.listInterface [.int], listOf .int]
      (enumerableOf .int) :=
    .step (.step (.step .refl (by decide)) (by decide)) (by decide)
  have hsource : listOf .int ∈ (List.range 8).map fun position => .named ⟨position + 1⟩ [.int] := by
    decide
  have huncut (ty : Ty) : ¬ CutOff Collection.definitions (listOf .int) ty :=
    not_cutOff hsource (by decide) (by decide)
  refine ⟨nofun, (isAssignable_reachable _ _ _).2.2 _ hchain fun ty _ => huncut ty⟩

/-! ### A ladder

Each class has the one before it as its base. The last one has the third one as a base besides,
but comes to it along all the others first, at the end of the longest chain that a search
follows. -/

def ladderClass (position : Nat) : Definition :=
  { Definition.ofKind .classType ("Rung" ++ toString position) [] with
    bases := match position with
      | 0 => []
      | below + 1 => .named ⟨below + 9⟩ [] :: if position = 66 then [.named ⟨11⟩ []] else [] }

/-- The collections and then 67 classes. -/
def ladder : Definitions :=
  ⟨Collection.definitions.toList ++ (List.range 67).map ladderClass⟩

def ladderTop : Ty := .named ⟨75⟩ []
def ladderBase : Ty := .named ⟨9⟩ []

theorem not_isAssignable_ladder :
    (∃ before, BaseChain ladder ladderTop before ladderBase ∧ before.length ≤ maxBaseDepth) ∧
      isAssignable ladder ladderTop ladderBase = false := by
  have hchain : BaseChain ladder ladderTop [.named ⟨10⟩ [], .named ⟨11⟩ [], ladderTop]
      ladderBase :=
    .step (.step (.step .refl (by decide)) (by decide)) (by decide)
  exact ⟨⟨_, hchain, by decide⟩, by decide +kernel⟩

end NullGuard.Ty
