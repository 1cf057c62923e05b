import NullGuard.Proofs.Expr.Census
import NullGuard.Proofs.Expr.FreeNames
import NullGuard.Proofs.Guard.Record

/-! # The names of guards

Each guard that holds a receiver draws a name that the walk has not taken yet. As all names of the
query are taken from the start, a guard catches no parameter of the query, and as drawn names are
taken too, none of another guard. -/

namespace NullGuard

open List (Forall₂)

variable {rules : GuardRules} {known : List String} {e node receiver r : Expr} {name : String}

/-! ## Free names -/

theorem freeIn_nullCheck {paramTy ty resultTy : Ty} {other : String} :
    (nullCheck (.param paramTy other) (rules.shortCircuit ty) node resultTy).FreeIn name ↔
      name = other ∨ node.FreeIn name := by
  have hshort : ¬ (rules.shortCircuit ty).FreeIn name :=
    Expr.not_freeIn_of_names_eq_nil (Walk.names_shortCircuit rules ty)
  have hnull : ¬ (Expr.null paramTy).FreeIn name := by
    rw [Expr.null, Expr.freeIn_of_passesNames rfl]
    simp [Expr.children]
  have htest : (Expr.binaryOf .eq (.param paramTy other) (.null paramTy)).FreeIn name ↔
      name = other := by
    rw [Expr.binaryOf, Expr.freeIn_of_passesNames rfl]
    simp [Expr.children, hnull]
  rw [nullCheck, Expr.freeIn_of_passesNames rfl]
  simp [Expr.children, Expr.ty, htest, hshort]

/-- A guard neither frees nor catches a name. -/
theorem Seals.freeIn_iff (h : Seals rules known node r) : r.FreeIn name ↔ node.FreeIn name := by
  cases h with
  | free | kept => rfl
  | @coalesced receiver recipe hreceiver _ hfallback =>
    have hrecipe : ¬ recipe.FreeIn name :=
      Expr.not_freeIn_of_names_eq_nil (rules.emptyInstance hfallback).names_eq_nil
    rw [Expr.freeIn_withReceiver hreceiver, Expr.freeIn_coalesceOf, or_iff_left hrecipe,
      Expr.freeIn_of_receiver? hreceiver]
  | tested hreceiver =>
    rw [freeIn_nullCheck]
    refine or_iff_right_of_imp fun hname => (Expr.freeIn_of_receiver? hreceiver).mpr (.inl ?_)
    exact Expr.freeIn_param.mpr hname
  | @held receiver held hreceiver _ _ _ hfresh =>
    have hrest : ∀ part ∈ node.children.tail, part.FreeIn name → name ≠ held := by
      rintro part hpart hfree rfl
      exact hfresh (Expr.names_subset_of_mem_children (List.mem_of_mem_tail hpart) hfree.mem_names)
    rw [Expr.bindTo, Expr.freeIn_bind, freeIn_nullCheck, Expr.freeIn_withReceiver hreceiver,
      Expr.freeIn_of_receiver? hreceiver, Expr.freeIn_param]
    refine or_congr_right ⟨?_, fun h => ?_⟩
    · rintro ⟨hne, heq | heq | hfree⟩
      · exact absurd heq hne
      · exact absurd heq hne
      · exact hfree
    · obtain ⟨part, hpart, hfree⟩ := h
      exact ⟨hrest part hpart hfree, .inr (.inr ⟨part, hpart, hfree⟩)⟩

theorem Guards.freeIn_iff (h : Guards rules known e r) : r.FreeIn name ↔ e.FreeIn name := by
  induction e using Expr.induction_children generalizing known r with
  | step e ih =>
    cases h with
    | @node _ _ parts _ _ hparts hseal =>
      rw [hseal.freeIn_iff]
      refine Expr.freeIn_withChildren ?_
      rw [← Expr.scopes_map_snd known e, List.forall₂_map_left_iff]
      exact forall₂_imp_of_mem hparts fun part hpart _ _ hguards =>
        ih part.2 (Expr.mem_children_of_mem_scopes hpart) hguards

/-! ## Sealing a node -/

theorem confined_nullCheck {paramTy ty resultTy : Ty} {other : String}
    (hparam : (Expr.param paramTy other).Confined name) (hnode : node.Confined name) :
    (nullCheck (.param paramTy other) (rules.shortCircuit ty) node resultTy).Confined name := by
  refine .node List.not_mem_nil ?_
  rintro part (_ | ⟨_, _ | ⟨_, _ | ⟨_, _ | _⟩⟩⟩)
  · refine .node List.not_mem_nil ?_
    rintro operand (_ | ⟨_, _ | ⟨_, _ | _⟩⟩)
    · exact hparam
    · exact .node List.not_mem_nil nofun
  · exact Expr.confined_of_names_eq_nil (Walk.names_shortCircuit rules ty)
  · exact hnode

section Binders

variable {own : Expr → Multiset String} (hown : Expr.IsBinding own)

include hown

theorem gather_nullCheck {paramTy ty resultTy : Ty} {other : String} :
    (nullCheck (.param paramTy other) (rules.shortCircuit ty) node resultTy).gather own =
      node.gather own := by
  have htest : (Expr.binaryOf .eq (.param paramTy other) (.null paramTy)).gather own = 0 := by
    rw [Expr.binaryOf, Expr.gather_eq, hown.eq_zero rfl, Expr.children, List.map_cons,
      List.map_singleton, hown.gather_param, Expr.null, Expr.gather_eq, hown.eq_zero rfl]
    rfl
  have hshort := hown.gather_eq_zero (Walk.names_shortCircuit rules ty)
  rw [nullCheck, Expr.gather_eq, hown.eq_zero rfl]
  simp [Expr.children, Expr.ty, htest, hshort]

theorem gather_coalesced {recipe : Expr} (h : node.receiver? = some receiver)
    (hfallback : rules.fallback receiver.ty = some recipe) :
    (node.withReceiver (.coalesceOf receiver recipe)).gather own = node.gather own := by
  have hmoved := hown.gather_withReceiver h (.coalesceOf receiver recipe)
  rw [hown.gather_coalesceOf, hown.gather_eq_zero (rules.emptyInstance hfallback).names_eq_nil,
    add_zero] at hmoved
  exact add_right_cancel hmoved

/-- A guard that holds its receiver moves it into a `bind` node, which is all that is added. -/
theorem gather_held {resultTy : Ty} (h : node.receiver? = some receiver) (name : String) :
    (Expr.bindTo name receiver (nullCheck (.param receiver.ty name) (rules.shortCircuit resultTy)
      (node.withReceiver (.param receiver.ty name)) resultTy)).gather own =
      own (Expr.bindTo name receiver (nullCheck (.param receiver.ty name)
        (rules.shortCircuit resultTy) (node.withReceiver (.param receiver.ty name)) resultTy)) +
        node.gather own := by
  have hmoved := hown.gather_withReceiver h (.param receiver.ty name)
  rw [hown.gather_param, add_zero, add_comm] at hmoved
  refine (Expr.gather_eq own _).trans (congrArg _ ?_)
  rw [Expr.bindTo, Expr.children, List.map_cons, List.map_singleton, List.sum_cons,
    List.sum_singleton, gather_nullCheck hown, hmoved]

end Binders

theorem letNames_held {resultTy : Ty} (h : node.receiver? = some receiver) (name : String) :
    (Expr.bindTo name receiver (nullCheck (.param receiver.ty name) (rules.shortCircuit resultTy)
      (node.withReceiver (.param receiver.ty name)) resultTy)).letNames =
      node.letNames + {name} :=
  (gather_held Expr.isBinding_ownLet h name).trans (add_comm _ _)

/-- A guard uses no name outside the body of a `bind` node that was not used there before, but for
the name that it binds. -/
theorem Seals.confined (h : Seals rules known node r) (hnode : node.Confined name) :
    r.Confined name := by
  cases h with
  | free | kept => exact hnode
  | @coalesced receiver recipe hreceiver _ hfallback =>
    refine hnode.withReceiver hreceiver (.node List.not_mem_nil ?_)
    rintro part (_ | ⟨_, _ | ⟨_, _ | _⟩⟩)
    · exact hnode.at_receiver hreceiver
    · exact Expr.confined_of_names_eq_nil (rules.emptyInstance hfallback).names_eq_nil
  | tested hreceiver =>
    exact confined_nullCheck (hnode.at_receiver hreceiver) hnode
  | @held receiver held hreceiver =>
    have hvalue := hnode.at_receiver hreceiver
    by_cases hheld : held = name
    · exact .bind hheld hvalue
    · have hparam : (Expr.param receiver.ty held).Confined name :=
        Expr.confined_of_not_mem_names (by simpa using Ne.symm hheld)
      have hown : name ∉ [held] := by simpa using Ne.symm hheld
      refine .node hown ?_
      rintro part (_ | ⟨_, _ | ⟨_, _ | _⟩⟩)
      · exact hvalue
      · exact confined_nullCheck hparam (hnode.withReceiver hreceiver hparam)

/-- Names that were taken one after the other, with what was taken before and is taken after. -/
structure FreshNames.Draws (before after : List String) (drawn : Multiset String) : Prop where
  nodup : drawn.Nodup
  fresh : ∀ name ∈ drawn, name ∉ before
  mem_iff : ∀ name, name ∈ after ↔ name ∈ drawn ∨ name ∈ before

namespace FreshNames

variable {before middle after : List String} {drawn drawn' : Multiset String}

theorem Draws.none (taken : List String) : Draws taken taken 0 :=
  ⟨Multiset.nodup_zero, nofun, by simp⟩

theorem Draws.one (h : name ∉ before) : Draws before (name :: before) {name} :=
  ⟨Multiset.nodup_singleton name, by simpa using h, by simp⟩

theorem Draws.trans (h : Draws before middle drawn) (h' : Draws middle after drawn') :
    Draws before after (drawn + drawn') where
  nodup := by
    refine Multiset.nodup_add.mpr ⟨h.nodup, h'.nodup, Multiset.disjoint_left.mpr ?_⟩
    exact fun hname hname' => h'.fresh _ hname' ((h.mem_iff _).mpr (.inl hname))
  fresh name hname := by
    rcases Multiset.mem_add.mp hname with hname | hname
    · exact h.fresh name hname
    · exact fun htaken => h'.fresh name hname ((h.mem_iff name).mpr (.inr htaken))
  mem_iff name := by
    rw [h'.mem_iff, h.mem_iff, Multiset.mem_add, or_left_comm, or_assoc]

end FreshNames

namespace Walk

open FreshNames (Draws)

variable {options : GuardOptions} {walk middle after : Walk}

/-- The name that is drawn for a guard is the only one that the guard binds. -/
theorem Sealing.draws {node : Expr} (h : walk.Sealing rules options node r after) :
    ∃ drawn, Draws walk.taken after.taken drawn ∧ r.letNames = node.letNames + drawn ∧
      ∀ name ∈ r.names, name ∈ node.names ∨ name ∈ drawn := by
  cases h with
  | free | kept => exact ⟨0, .none _, (add_zero _).symm, fun _ => .inl⟩
  | coalesced hreceiver _ hfallback _ hleft =>
    simp only [taken, hleft]
    refine ⟨0, .none _, ?_, fun name hname => .inl ?_⟩
    · rw [add_zero]
      exact gather_coalesced Expr.isBinding_ownLet hreceiver hfallback
    · exact names_coalesced_subset hreceiver hfallback hname
  | tested hreceiver _ _ _ hleft =>
    simp only [taken, hleft]
    refine ⟨0, .none _, ?_, fun name hname => .inl ?_⟩
    · rw [add_zero]
      exact gather_nullCheck Expr.isBinding_ownLet
    · exact names_tested_subset hreceiver hname
  | @held receiver name _ hreceiver _ _ _ hnew _ hleft =>
    simp only [taken, hleft]
    refine ⟨{name}, .one hnew, letNames_held hreceiver _, fun used hused => ?_⟩
    rw [Multiset.mem_singleton, or_comm]
    exact List.mem_cons.mp (names_held_subset hreceiver hused)

/-! ## A whole tree -/

/-- A visit binds the names that it draws, once each, and uses them below their binders only. -/
def Hygienic (walk : Walk) (e r : Expr) (after : Walk) : Prop :=
  e.names ⊆ walk.taken → ∃ drawn, Draws walk.taken after.taken drawn ∧
    r.letNames = e.letNames + drawn ∧ (∀ name ∈ r.names, name ∈ e.names ∨ name ∈ drawn) ∧
      ∀ name ∈ drawn, r.Confined name

/-- The names drawn for one part are not used in the others. -/
theorem Threads.draws {scopes : List (List String × Expr)} {parts : List Expr}
    (h : Threads Hygienic walk scopes parts after)
    (hscopes : ∀ scope ∈ scopes, scope.2.names ⊆ walk.taken) :
    ∃ drawn, Draws walk.taken after.taken drawn ∧
      (parts.map Expr.letNames).sum = ((scopes.map Prod.snd).map Expr.letNames).sum + drawn ∧
      (∀ part ∈ parts, ∀ name ∈ part.names,
        (∃ scope ∈ scopes, name ∈ scope.2.names) ∨ name ∈ drawn) ∧
      ∀ part ∈ parts, ∀ name ∈ drawn, part.Confined name := by
  induction h with
  | nil => exact ⟨0, .none _, rfl, nofun, nofun⟩
  | @cons walk inner after known part part' scopes parts hpart _ ih =>
    rw [List.forall_mem_cons] at hscopes
    obtain ⟨first, hfirst, hlets, hnames, hconfined⟩ := hpart hscopes.1
    have hbefore : ∀ name ∈ walk.taken, name ∈ inner.taken :=
      fun name hname => (hfirst.mem_iff name).mpr (.inr hname)
    obtain ⟨rest, hrest, hlets', hnames', hconfined'⟩ :=
      ih fun scope hscope name hname => hbefore name (hscopes.2 scope hscope hname)
    refine ⟨first + rest, hfirst.trans hrest, ?_, ?_, ?_⟩
    · simp only [List.map_cons, List.sum_cons, hlets, hlets']
      abel
    · simp only [Multiset.mem_add]
      refine List.forall_mem_cons.mpr ⟨fun name hname => ?_, fun other hother name hname => ?_⟩
      · exact (hnames name hname).imp (⟨_, List.mem_cons_self, ·⟩) .inl
      · refine (hnames' other hother name hname).imp (fun ⟨scope, hscope, hpart⟩ => ?_) .inr
        exact ⟨scope, List.mem_cons_of_mem _ hscope, hpart⟩
    · simp only [Multiset.mem_add]
      refine List.forall_mem_cons.mpr ⟨fun name hname => ?_, fun other hother name hname => ?_⟩
      · rcases hname with hname | hname
        · exact hconfined name hname
        · refine Expr.confined_of_not_mem_names fun hused => hrest.fresh name hname ?_
          refine (hfirst.mem_iff name).mpr ((hnames name hused).symm.imp_right ?_)
          exact fun hpart => hscopes.1 hpart
      · rcases hname with hname | hname
        · refine Expr.confined_of_not_mem_names fun hused => ?_
          rcases hnames' other hother name hused with ⟨scope, hscope, hpart⟩ | hdrawn
          · exact hfirst.fresh name hname (hscopes.2 scope hscope hpart)
          · exact hrest.fresh name hdrawn ((hfirst.mem_iff name).mpr (.inl hname))
        · exact hconfined' other hother name hname

theorem Threads.length_eq {treated : Walk → Expr → Expr → Walk → Prop}
    {scopes : List (List String × Expr)} {parts : List Expr}
    (h : Threads treated walk scopes parts after) : parts.length = scopes.length := by
  induction h with
  | nil => rfl
  | cons _ _ ih => rw [List.length_cons, List.length_cons, ih]

end Walk

open Walk in
theorem Expr.visit_hygienic {options : GuardOptions} {walk after : Walk}
    (hready : walk.Ready rules options) (hnames : e.names ⊆ walk.taken)
    (hvisited : Visited rules.defs options walk e r after) : walk.Hygienic e r after := by
  refine e.visit_induction ?_ hready hnames hvisited
  intro walk e parts middle r inner hcomplete hready hthreads hleads hnode hsealing hnames
  have hscopes : ∀ scope ∈ e.scopes walk.nonNull, scope.2.names ⊆ walk.deeper.taken :=
    fun scope hscope => List.Subset.trans
      (names_subset_of_mem_children (mem_children_of_mem_scopes hscope)) hnames
  have hlength : parts.length = e.children.length := by
    rw [hthreads.length_eq, ← scopes_map_snd walk.nonNull e, List.length_map]
  obtain ⟨inside, hinside, hlets, hparts, hconfined⟩ := hthreads.draws hscopes
  obtain ⟨own, hown, hlets', hnames'⟩ := hsealing.draws
  rw [scopes_map_snd] at hlets
  refine ⟨inside + own, hinside.trans hown, ?_, fun name hname => ?_, fun name hname => ?_⟩
  · rw [hlets', letNames_withChildren hlength, hlets, letNames_eq e]
    abel
  · rw [Multiset.mem_add, ← or_assoc]
    refine (hnames' name hname).imp_left fun hname => ?_
    rcases mem_names.mp hname with hname | ⟨part, hpart, hname⟩
    · exact .inl (mem_names.mpr (.inl (ownNames_withChildren e parts ▸ hname)))
    · rw [children_withChildren hlength] at hpart
      refine (hparts part hpart name hname).imp_left fun ⟨scope, hscope, hused⟩ => ?_
      exact names_subset_of_mem_children (mem_children_of_mem_scopes hscope) hused
  · refine (hsealing.seals hnode (hleads.ready hready)).confined ?_
    rcases Multiset.mem_add.mp hname with hname | hname
    · refine .node ?_ ?_
      · rw [ownNames_withChildren]
        exact fun hused => hinside.fresh name hname (hnames (mem_names.mpr (.inl hused)))
      · rw [children_withChildren hlength]
        exact fun part hpart => hconfined part hpart name hname
    · exact confined_of_not_mem_names fun hused => hown.fresh name hname (hnode hused)

/-- The names that an insertion adds. -/
theorem Expr.exists_added {defs : Definitions} {options : GuardOptions} {cache left : FallbackCache}
    {guarded : Guarded} (h : cache.Computed)
    (hinsert : e.insertGuards defs options cache = (.ok guarded, left)) :
    ∃ added, guarded.expr.letNames = e.letNames + added ∧ added.Nodup ∧
      ∀ name ∈ added, name ∉ e.names ∧ guarded.expr.Confined name := by
  obtain ⟨after, hvisit, _⟩ := insertGuards_eq_ok.mp hinsert
  have hready : (Walk.start cache e).Ready (cache.rules defs options h) options :=
    ⟨⟨h, rfl, rfl⟩, List.nil_subset _⟩
  have hnames : e.names ⊆ (Walk.start cache e).taken := List.Subset.refl _
  obtain ⟨added, hdraws, hlets, _, hconfined⟩ := visit_hygienic hready hnames hvisit hnames
  exact ⟨added, hlets, hdraws.nodup,
    fun name hname => ⟨hdraws.fresh name hname, hconfined name hname⟩⟩

/-- An insertion frees and catches no name. The names that its guards bind occur nowhere in the
query, differ from each other, and are used in the bodies of their own binders only. -/
theorem Expr.insertGuards_hygienic {defs : Definitions} {options : GuardOptions}
    {cache left : FallbackCache} {guarded : Guarded} (h : cache.Computed)
    (hinsert : e.insertGuards defs options cache = (.ok guarded, left)) :
    (∀ name, guarded.expr.FreeIn name ↔ e.FreeIn name) ∧
    ∃ added, guarded.expr.letNames = e.letNames + added ∧ added.Nodup ∧
      ∀ name ∈ added, name ∉ e.names ∧ guarded.expr.letNames.count name = 1 ∧
        guarded.expr.Confined name := by
  refine ⟨fun name => (insertGuards_guards h hinsert).freeIn_iff, ?_⟩
  obtain ⟨added, hlets, hnodup, hadded⟩ := exists_added h hinsert
  refine ⟨added, hlets, hnodup, fun name hname => ?_⟩
  obtain ⟨hnew, hconfined⟩ := hadded name hname
  refine ⟨hnew, ?_, hconfined⟩
  have hold : name ∉ e.letNames := fun hlet => hnew (mem_names_of_mem_letNames hlet)
  rw [hlets, Multiset.count_add, Multiset.count_eq_zero_of_notMem hold, Nat.zero_add,
    Multiset.count_eq_one_of_mem hnodup hname]

/-- `xs.Find(_a => _b.Boss.Name)`, in which the names that come first in the sequence are used. -/
def findBoss : Expr :=
  .call .object (.member .object (.param .object "xs") "All" .object) ⟨"Find", none, false⟩
    [.lambda .object [⟨"_a", .object⟩] (.member .object
      (.member .object (.param .object "_b") "Boss" .object) "Name" .object)]

/-- Two of the four guards hold their receivers. The name `_b` stays free, and the one that the
lambda binds is not bound by a guard. -/
theorem insertGuards_findBoss_hygienic :
    ∃ guarded left, findBoss.insertGuards .empty {} .empty = (.ok guarded, left) ∧
      guarded.expr.letNames.card = 2 ∧ guarded.expr.FreeIn "_b" ∧ ¬ guarded.expr.FreeIn "_a" ∧
      "_a" ∉ guarded.expr.letNames := by
  have hinsert : ∃ guarded left, findBoss.insertGuards .empty {} .empty = (.ok guarded, left) ∧
      guarded.expr.letNames.card = 2 := ⟨_, _, by cbv, by cbv⟩
  obtain ⟨guarded, left, hinsert, hcard⟩ := hinsert
  obtain ⟨hfree, added, hlets, -, hadded⟩ :=
    Expr.insertGuards_hygienic FallbackCache.empty_computed hinsert
  have hnames : "_a" ∈ findBoss.names := by decide +kernel
  have hown : findBoss.letNames = 0 := by cbv
  have hbinds : "_a" ∉ guarded.expr.letNames := by
    rw [hlets, hown, zero_add]
    exact fun h => (hadded "_a" h).1 hnames
  exact ⟨guarded, left, hinsert, hcard, (hfree "_b").mpr (by decide +kernel),
    fun h => (by decide +kernel : ¬ findBoss.FreeIn "_a") ((hfree "_a").mp h), hbinds⟩

end NullGuard
