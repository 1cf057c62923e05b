import NullGuard.Proofs.Guard.Insert

/-! # A record of a walk

A walk that succeeds seals each node once, and the guards that it counts are those of the nodes
that it has sealed with a guard. -/

namespace NullGuard

open List (Forall₂)

/-! ## Visits one after the other -/

namespace Walk

/-- A visit from one state to another that succeeds. -/
def Visited (defs : Definitions) (options : GuardOptions) (walk : Walk) (e r : Expr)
    (after : Walk) : Prop :=
  (e.visit defs options).runAt walk = (.ok r, after)

/-- Each part is treated with what is known there, in the state that the part before it leaves. -/
inductive Threads (treated : Walk → Expr → Expr → Walk → Prop) :
    Walk → List (List String × Expr) → List Expr → Walk → Prop where
  | nil {walk} : Threads treated walk [] [] walk
  | cons {walk inner after known part part' scopes parts}
      (hpart : treated { walk with nonNull := known } part part' inner)
      (hrest : Threads treated { inner with nonNull := walk.nonNull } scopes parts after) :
      Threads treated walk ((known, part) :: scopes) (part' :: parts) after

section Visited

variable {defs : Definitions} {options : GuardOptions} {walk middle after : Walk}

theorem Visited.nonNull_eq {e r : Expr} (h : Visited defs options walk e r after) :
    after.nonNull = walk.nonNull := by
  have hcontext : walk.SameContext ((e.visit defs options).runAt walk).2 := e.visit_sameContext walk
  rw [h] at hcontext
  exact hcontext.nonNull_eq

theorem Visited.with_nonNull {e r : Expr} (h : Visited defs options walk e r after) :
    { after with nonNull := walk.nonNull } = after := by
  rw [← h.nonNull_eq]

/-- In a branch nothing changes but what is known. -/
theorem visited_of_inBranch {test e r : Expr} {outcome : Bool}
    (h : (inBranch test outcome (e.visit defs options)).runAt walk = (.ok r, after)) :
    ∃ inner, Visited defs options { walk with nonNull := test.learned outcome ++ walk.nonNull }
      e r inner ∧ { inner with nonNull := walk.nonNull } = after := by
  exact runAt_knowing_eq_ok.mp h

theorem threads_of_mapM {items parts : List Expr}
    (hrun : (items.mapM (Expr.visit defs options)).runAt walk = (.ok parts, after)) :
    Threads (Visited defs options) walk (items.map fun item => (walk.nonNull, item)) parts
      after := by
  induction items generalizing walk parts with
  | nil =>
    obtain ⟨rfl, rfl⟩ : [] = parts ∧ walk = after := by simpa using hrun
    exact .nil
  | cons item items ih =>
    rw [List.mapM_cons] at hrun
    obtain ⟨r, middle, hitem, hrun⟩ := GuardM.runAt_bind_eq_ok.mp hrun
    obtain ⟨rest, last, hitems, hrun⟩ := GuardM.runAt_bind_eq_ok.mp hrun
    obtain ⟨rfl, rfl⟩ : r :: rest = parts ∧ last = after := by simpa using hrun
    have hvisited : Visited defs options walk item r middle := hitem
    have hrest := ih hitems
    rw [hvisited.nonNull_eq] at hrest
    exact .cons hvisited (hvisited.with_nonNull.symm ▸ hrest)

/-- A condition tells its branches what its test says after it has been visited, so visits must
not change what tests say. -/
theorem threads_of_visitParts {e : Expr} {parts : List Expr}
    (hscopes : ((e.withChildren parts).scopes walk.nonNull).map Prod.fst =
      (e.scopes walk.nonNull).map Prod.fst)
    (hrun : (visitParts defs options e).runAt walk = (.ok parts, after)) :
    Threads (Visited defs options) walk (e.scopes walk.nonNull) parts after := by
  cases e with
  | cond ty test ifTrue ifFalse =>
    obtain ⟨test', middle, htest, hrun⟩ := GuardM.runAt_bind_eq_ok.mp hrun
    obtain ⟨ifTrue', middle', htrue, hrun⟩ := GuardM.runAt_bind_eq_ok.mp hrun
    obtain ⟨ifFalse', middle'', hfalse, hrun⟩ := GuardM.runAt_bind_eq_ok.mp hrun
    obtain ⟨rfl, rfl⟩ : [test', ifTrue', ifFalse'] = parts ∧ middle'' = after := by
      simpa using hrun
    have hvisited : Visited defs options walk test test' middle := htest
    obtain ⟨inner, hvisited', rfl⟩ := visited_of_inBranch htrue
    obtain ⟨inner', hvisited'', rfl⟩ := visited_of_inBranch hfalse
    simp only [Expr.withChildren, Expr.scopes, List.map_cons, List.cons.injEq, true_and] at hscopes
    rw [hvisited.nonNull_eq] at hvisited' hvisited''
    rw [hscopes.1] at hvisited'
    rw [hscopes.2.1] at hvisited''
    refine .cons hvisited ?_
    rw [hvisited.with_nonNull]
    refine .cons hvisited' (.cons hvisited'' ?_)
    rw [hvisited.nonNull_eq]
    exact .nil
  | lambda ty params body =>
    obtain ⟨body', middle, hbody, hrun⟩ := GuardM.runAt_bind_eq_ok.mp hrun
    obtain ⟨rfl, rfl⟩ : [body'] = parts ∧ middle = after := by simpa using hrun
    obtain ⟨inner, hvisited, rfl⟩ := runAt_knowing_eq_ok.mp hbody
    exact .cons hvisited .nil
  | bind ty var value body =>
    obtain ⟨value', middle, hvalue, hrun⟩ := GuardM.runAt_bind_eq_ok.mp hrun
    obtain ⟨body', middle', hbody, hrun⟩ := GuardM.runAt_bind_eq_ok.mp hrun
    obtain ⟨rfl, rfl⟩ : [value', body'] = parts ∧ middle' = after := by simpa using hrun
    have hvisited : Visited defs options walk value value' middle := hvalue
    obtain ⟨inner, hvisited', rfl⟩ := runAt_knowing_eq_ok.mp hbody
    rw [hvisited.nonNull_eq] at hvisited'
    refine .cons hvisited ?_
    rw [hvisited.with_nonNull]
    refine .cons hvisited' ?_
    rw [hvisited.nonNull_eq]
    exact .nil
  | _ => exact threads_of_mapM hrun

end Visited

section Ready

variable {rules : GuardRules} {options : GuardOptions} {walk after : Walk}
  {treated : Walk → Expr → Expr → Walk → Prop}

/-- What every visit from a ready state achieves is achieved at each part. -/
theorem Threads.of_visited {scopes : List (List String × Expr)} {parts : List Expr}
    (h : Threads (Visited rules.defs options) walk scopes parts after)
    (hready : walk.Ready rules options)
    (hscopes : ∀ scope ∈ scopes, scope.1 ⊆ walk.taken ∧ scope.2.names ⊆ walk.taken)
    (hvisit : ∀ scope ∈ scopes, ∀ walk r after, walk.Ready rules options →
      scope.2.names ⊆ walk.taken → Visited rules.defs options walk scope.2 r after →
      treated walk scope.2 r after) :
    Threads treated walk scopes parts after := by
  induction h with
  | nil => exact .nil
  | @cons walk inner after known part part' scopes parts hpart _ ih =>
    rw [List.forall_mem_cons] at hscopes hvisit
    have hready' : Ready rules options { walk with nonNull := known } :=
      ⟨hready.follow, hscopes.1.1⟩
    have hleads := (part.visit_inserts rules options _ _ _ hready' hscopes.1.2 hpart).leads
    have htaken : walk.taken ⊆ inner.taken := hleads.taken_subset
    refine .cons (hvisit.1 _ _ _ hready' hscopes.1.2 hpart) (ih ⟨hleads.follow, ?_⟩ ?_ hvisit.2)
    · exact List.Subset.trans hready.known_taken htaken
    · exact fun scope hscope => ⟨List.Subset.trans (hscopes.2 scope hscope).1 htaken,
        List.Subset.trans (hscopes.2 scope hscope).2 htaken⟩

end Ready

end Walk

/-- Only names of the node become known at its parts. -/
theorem Expr.known_subset_of_mem_scopes {known : List String} {e : Expr}
    {scope : List String × Expr} (h : scope ∈ e.scopes known) : scope.1 ⊆ e.names ++ known := by
  have hself : known ⊆ e.names ++ known := List.subset_append_right _ _
  cases e with
  | cond ty test ifTrue ifFalse =>
    have hbranch : ∀ outcome, test.learned outcome ++ known ⊆
        (cond ty test ifTrue ifFalse).names ++ known := fun outcome =>
      List.append_subset.mpr ⟨List.Subset.trans (learned_subset_names test outcome)
        (List.subset_append_of_subset_left _ (names_subset_of_mem_children List.mem_cons_self)),
        hself⟩
    simp only [scopes, List.mem_cons, List.not_mem_nil, or_false] at h
    rcases h with rfl | rfl | rfl
    · exact hself
    · exact hbranch true
    · exact hbranch false
  | lambda ty params body =>
    obtain rfl := List.mem_singleton.mp h
    exact List.Subset.trans (unbound_subset_self _ _) hself
  | bind ty var value body =>
    simp only [scopes, List.mem_cons, List.not_mem_nil, or_false] at h
    rcases h with rfl | rfl
    · exact hself
    · exact List.Subset.trans (unbound_subset_self _ _) hself
  | _ =>
    obtain ⟨part, _, rfl⟩ := List.mem_map.mp h
    exact hself

theorem GuardsParts.map_fst_scopes {rules : GuardRules} {known : List String} {e : Expr}
    {parts : List Expr} (h : GuardsParts rules known e parts) :
    ((e.withChildren parts).scopes known).map Prod.fst = (e.scopes known).map Prod.fst := by
  exact map_eq_map_of_forall₂ ((GuardsParts.scopes h).imp fun _ _ hpart => hpart.1.symm)

open Walk in
/-- Induction on the visits below a visit that succeeds. What visits achieve is shown of a node
from what they achieve at its parts, one part after the other, and from the seal around them. -/
theorem Expr.visit_induction {rules : GuardRules} {options : GuardOptions}
    {treated : Walk → Expr → Expr → Walk → Prop}
    (step : ∀ {walk e parts middle r inner}, e.lacksReceiver = false →
      walk.deeper.Ready rules options →
      Threads treated walk.deeper (e.scopes walk.nonNull) parts middle →
      walk.deeper.Leads rules options middle →
      (e.withChildren parts).names ⊆ middle.taken →
      middle.Sealing rules options (e.withChildren parts) r inner →
      treated walk e r { inner with depth := walk.depth })
    (e : Expr) {walk : Walk} {r : Expr} {after : Walk} (hready : walk.Ready rules options)
    (hnames : e.names ⊆ walk.taken) (hvisited : Visited rules.defs options walk e r after) :
    treated walk e r after := by
  induction e using Expr.induction_children generalizing walk r after with
  | step e ih =>
    rw [Visited, visit_eq, runAt_enter_eq_ok] at hvisited
    obtain ⟨_, inner, hrun, rfl⟩ := hvisited
    obtain ⟨_, first, hcheck, hrun⟩ := GuardM.runAt_bind_eq_ok.mp hrun
    obtain ⟨hcomplete, rfl⟩ := runAt_checkReceiver hcheck
    obtain ⟨parts, middle, hparts, hseal⟩ := GuardM.runAt_bind_eq_ok.mp hrun
    have hready' : walk.deeper.Ready rules options := ⟨hready.follow, hready.known_taken⟩
    obtain ⟨hguards, htaken, hleads⟩ := visitParts_guardsAllTo
      (fun part _ => part.visit_inserts rules options) hready' hnames hparts
    have hnode : (e.withChildren parts).names ⊆ middle.taken := by
      rw [names_subset_iff, ownNames_withChildren,
        children_withChildren (GuardsParts.length_eq hguards)]
      exact ⟨List.Subset.trans (names_subset_iff.mp hnames).1 hleads.taken_subset, htaken⟩
    refine step hcomplete hready'
      (Threads.of_visited (threads_of_visitParts ?_ hparts) hready' ?_ ?_) hleads hnode
      (sealing_of_runAt hleads.follow hseal)
    · exact GuardsParts.map_fst_scopes hguards
    · intro scope hscope
      refine ⟨List.Subset.trans (known_subset_of_mem_scopes hscope)
        (List.append_subset.mpr ⟨hnames, hready.known_taken⟩), ?_⟩
      exact List.Subset.trans
        (names_subset_of_mem_children (mem_children_of_mem_scopes hscope)) hnames
    · exact fun scope hscope walk r after => ih _ (mem_children_of_mem_scopes hscope)

/-! ## Records -/

/-- What was done to a node: what was known there, the node around its treated parts, and what
became of it. -/
structure Treatment where
  known : List String
  node : Expr
  result : Expr

instance (defs : Definitions) (known : List String) (receiver : Expr) :
    Decidable (receiver.NeedsNoGuard defs known) :=
  decidable_of_iff _ (@Walk.needsNoGuard_iff ⟨default, known, 0, .zero⟩ defs receiver).symm

/-- The guard of a node whose parts are treated. -/
def GuardRules.strategy? (rules : GuardRules) (known : List String) (node : Expr) :
    Option GuardStrategy :=
  match node.receiver? with
  | none => none
  | some receiver =>
    if receiver.NeedsNoGuard rules.defs known then none
    else if (rules.fallback receiver.ty).isSome then some .coalesce
    else some .conditional

namespace Treatment

def strategy? (rules : GuardRules) (treatment : Treatment) : Option GuardStrategy :=
  rules.strategy? treatment.known treatment.node

/-- The counts of a walk with these treatments. -/
def stats (rules : GuardRules) (record : List Treatment) : GuardStats where
  nodesVisited := record.length
  coalesceGuards := record.countP fun treatment => treatment.strategy? rules = some .coalesce
  conditionalGuards := record.countP fun treatment => treatment.strategy? rules = some .conditional

end Treatment

/-- `r` is `e` with guards. The record tells of each node what was done to it, parts first. -/
inductive GuardsBy (rules : GuardRules) : List String → Expr → List Treatment → Expr → Prop where
  | node {known e treated r} (complete : e.lacksReceiver = false)
      (hparts : Forall₂ (fun part part' => GuardsBy rules part.1 part.2 part'.1 part'.2)
        (e.scopes known) treated)
      (hseal : Seals rules known (e.withChildren (treated.map Prod.snd)) r) :
      GuardsBy rules known e
        (treated.flatMap Prod.fst ++ [⟨known, e.withChildren (treated.map Prod.snd), r⟩]) r

variable {rules : GuardRules} {known : List String} {e node r : Expr} {record : List Treatment}

/-- Each treatment of a record is a seal. -/
theorem GuardsBy.seals (h : GuardsBy rules known e record r) {treatment : Treatment}
    (htreatment : treatment ∈ record) :
    Seals rules treatment.known treatment.node treatment.result := by
  induction e using Expr.induction_children generalizing known record r with
  | step e ih =>
    cases h with
    | @node _ _ treated _ _ hparts hseal =>
      rcases List.mem_append.mp htreatment with htreatment | htreatment
      · obtain ⟨part', hpart', htreatment⟩ := List.mem_flatMap.mp htreatment
        obtain ⟨part, hpart, hguards⟩ := exists_mem_of_forall₂ hparts hpart'
        exact ih part.2 (Expr.mem_children_of_mem_scopes hpart) hguards htreatment
      · obtain rfl := List.mem_singleton.mp htreatment
        exact hseal

/-! ### Nodes without a guard -/

theorem GuardRules.strategy?_of_receiver?_eq_none (h : node.receiver? = none) :
    rules.strategy? known node = none := by
  rw [strategy?, h]

section Strategy

variable {receiver : Expr} (h : node.receiver? = some receiver)

include h

theorem GuardRules.strategy?_of_needsNoGuard (hsafe : receiver.NeedsNoGuard rules.defs known) :
    rules.strategy? known node = none := by
  simp [strategy?, h, hsafe]

variable (hneeds : ¬ receiver.NeedsNoGuard rules.defs known)

include hneeds

theorem GuardRules.strategy?_of_fallback {recipe : Expr}
    (hfallback : rules.fallback receiver.ty = some recipe) :
    rules.strategy? known node = some .coalesce := by
  simp [strategy?, h, hneeds, hfallback]

theorem GuardRules.strategy?_of_no_fallback (hfallback : rules.fallback receiver.ty = none) :
    rules.strategy? known node = some .conditional := by
  simp [strategy?, h, hneeds, hfallback]

end Strategy

theorem GuardRules.strategy?_eq_none_iff :
    rules.strategy? known node = none ↔
      ∀ receiver, node.receiver? = some receiver → receiver.NeedsNoGuard rules.defs known := by
  unfold strategy?
  split
  · simp [*]
  · rename_i receiver hreceiver
    simp only [hreceiver, Option.some.injEq, forall_eq']
    split
    · simp [*]
    · split <;> simp [*]

/-- A guard always makes something else of its node. -/
theorem Seals.eq_self_iff (h : Seals rules known node r) :
    r = node ↔ rules.strategy? known node = none := by
  rw [GuardRules.strategy?_eq_none_iff]
  cases h with
  | free hnone => simp [hnone]
  | kept hsome hsafe => simp [hsome, hsafe]
  | @coalesced receiver recipe hsome hneeds =>
    simp only [hsome, Option.some.injEq, forall_eq', hneeds, iff_false]
    intro heq
    have hreceiver := Expr.receiver?_withReceiver hsome (.coalesceOf receiver recipe)
    rw [heq, hsome] at hreceiver
    have hsize := congrArg sizeOf (Option.some.inj hreceiver)
    simp [Expr.coalesceOf] at hsize
    omega
  | @tested ty name hsome hneeds =>
    simp only [hsome, Option.some.injEq, forall_eq', hneeds, iff_false]
    intro heq
    rw [← heq] at hsome
    cases hsome
  | held hsome hneeds =>
    simp only [hsome, Option.some.injEq, forall_eq', hneeds, iff_false]
    intro heq
    rw [← heq] at hsome
    cases hsome

/-- Without guards nothing is changed. -/
theorem GuardsBy.eq_self (h : GuardsBy rules known e record r)
    (hrecord : ∀ treatment ∈ record, treatment.strategy? rules = none) : r = e := by
  induction e using Expr.induction_children generalizing known record r with
  | step e ih =>
    cases h with
    | @node _ _ treated _ _ hparts hseal =>
      rw [List.forall_mem_append, List.forall_mem_flatMap, List.forall_mem_singleton] at hrecord
      have hself : treated.map Prod.snd = e.children := by
        rw [← Expr.scopes_map_snd known e]
        refine map_eq_map_of_forall₂ (forall₂_imp_of_mem hparts ?_)
        intro part hpart part' hpart' hguards
        exact ih part.2 (Expr.mem_children_of_mem_scopes hpart) hguards (hrecord.1 part' hpart')
      rw [hseal.eq_self_iff.mpr hrecord.2, hself, Expr.withChildren_children]

theorem Treatment.guards_stats_eq_zero_iff :
    (stats rules record).guards = 0 ↔
      ∀ treatment ∈ record, treatment.strategy? rules = none := by
  simp only [GuardStats.guards, stats, Nat.add_eq_zero_iff, List.countP_eq_zero,
    decide_eq_true_eq, ← forall_and]
  refine forall_congr' fun treatment => ?_
  cases treatment.strategy? rules with
  | none => simp
  | some strategy => cases strategy <;> simp

/-! ### The record of a walk -/

namespace Walk

/-- The counts of the later state include those of the record. -/
def Tallies (rules : GuardRules) (walk : Walk) (record : List Treatment) (after : Walk) : Prop :=
  after.stats = ⟨walk.stats.nodesVisited + record.length,
    walk.stats.coalesceGuards + (Treatment.stats rules record).coalesceGuards,
    walk.stats.conditionalGuards + (Treatment.stats rules record).conditionalGuards⟩

variable {options : GuardOptions} {walk middle after : Walk}

theorem Tallies.append {record' : List Treatment} (h : walk.Tallies rules record middle)
    (h' : middle.Tallies rules record' after) : walk.Tallies rules (record ++ record') after := by
  unfold Tallies Treatment.stats at *
  simp [h', h, Nat.add_assoc]

theorem Sealing.stats_eq {node : Expr} (h : walk.Sealing rules options node r after) :
    after.stats = (rules.strategy? walk.nonNull node).elim walk.stats walk.stats.count := by
  cases h with
  | free hnone => rw [GuardRules.strategy?_of_receiver?_eq_none hnone, Option.elim_none]
  | kept hreceiver hsafe =>
    rw [GuardRules.strategy?_of_needsNoGuard hreceiver hsafe, Option.elim_none]
  | coalesced hreceiver hneeds hfallback =>
    rw [GuardRules.strategy?_of_fallback hreceiver hneeds hfallback, Option.elim_some]
  | tested hreceiver hneeds hfallback | held hreceiver hneeds hfallback =>
    rw [GuardRules.strategy?_of_no_fallback hreceiver hneeds hfallback, Option.elim_some]

/-- Sealing a node adds one treatment to those of its parts. The node itself was counted first. -/
theorem Tallies.seal_node {node : Expr} (h : walk.deeper.Tallies rules record middle)
    (hstats : after.stats = (rules.strategy? known node).elim middle.stats middle.stats.count) :
    walk.Tallies rules (record ++ [⟨known, node, r⟩]) after := by
  have htreated : (⟨known, node, r⟩ : Treatment).strategy? rules = rules.strategy? known node := rfl
  simp only [Tallies, Treatment.stats, deeper] at h ⊢
  rw [hstats, List.length_append, List.countP_append, List.countP_append, h]
  cases hstrategy : rules.strategy? known node with
  | none => simp [htreated, hstrategy, Nat.add_assoc, Nat.add_comm 1]
  | some strategy =>
    cases strategy <;>
      simp [htreated, hstrategy, GuardStats.count, Nat.add_assoc, Nat.add_comm 1]

/-- What a visit with a record achieves. -/
def Records (rules : GuardRules) (walk : Walk) (e r : Expr) (after : Walk) : Prop :=
  ∃ record, GuardsBy rules walk.nonNull e record r ∧ walk.Tallies rules record after

theorem Threads.records {scopes : List (List String × Expr)} {parts : List Expr}
    (h : Threads (Records rules) walk scopes parts after) :
    ∃ treated : List (List Treatment × Expr), treated.map Prod.snd = parts ∧
      Forall₂ (fun part part' => GuardsBy rules part.1 part.2 part'.1 part'.2) scopes treated ∧
      walk.Tallies rules (treated.flatMap Prod.fst) after := by
  induction h with
  | nil => exact ⟨[], rfl, .nil, by simp [Tallies, Treatment.stats]⟩
  | @cons walk inner after known part part' scopes parts hpart _ ih =>
    obtain ⟨record, hguards, htallies⟩ := hpart
    obtain ⟨treated, rfl, htreated, hrest⟩ := ih
    have hfirst : walk.Tallies rules record inner := htallies
    exact ⟨(record, part') :: treated, rfl, .cons hguards htreated, hfirst.append hrest⟩

end Walk

open Walk in
theorem Expr.visit_records {options : GuardOptions} {walk after : Walk}
    (hready : walk.Ready rules options) (hnames : e.names ⊆ walk.taken)
    (hvisited : Visited rules.defs options walk e r after) : walk.Records rules e r after := by
  refine e.visit_induction ?_ hready hnames hvisited
  intro walk e parts middle r inner hcomplete hready hthreads hleads hnode hsealing
  obtain ⟨treated, rfl, htreated, htallies⟩ := hthreads.records
  have hknown : middle.nonNull = walk.nonNull := hleads.nonNull_eq
  have hseals := hsealing.seals hnode (hleads.ready hready)
  refine ⟨_, .node hcomplete htreated (hknown ▸ hseals), htallies.seal_node ?_⟩
  exact hknown ▸ hsealing.stats_eq

/-- An insertion that succeeds has a record, and its counts are those of the record. -/
theorem Expr.insertGuards_guardsBy {defs : Definitions} {options : GuardOptions}
    {cache left : FallbackCache} {guarded : Guarded} (h : cache.Computed)
    (hinsert : e.insertGuards defs options cache = (.ok guarded, left)) :
    ∃ record, GuardsBy (cache.rules defs options h) [] e record guarded.expr ∧
      guarded.stats = Treatment.stats (cache.rules defs options h) record := by
  obtain ⟨after, hvisit, hstats, _⟩ := insertGuards_eq_ok.mp hinsert
  have hready : (Walk.start cache e).Ready (cache.rules defs options h) options :=
    ⟨⟨h, rfl, rfl⟩, List.nil_subset _⟩
  obtain ⟨record, hguards, htallies⟩ := visit_records hready (List.Subset.refl _) hvisit
  refine ⟨record, hguards, ?_⟩
  rw [← hstats, htallies]
  simp [Walk.start, GuardStats.zero, Treatment.stats]

end NullGuard
