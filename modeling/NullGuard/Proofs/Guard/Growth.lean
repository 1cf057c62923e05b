import NullGuard.Proofs.Expr.Census
import NullGuard.Proofs.Guard.Idempotence
import NullGuard.Proofs.Guard.Record

/-! # The size of guards

A guard takes the treated receiver to another place and does not copy it, so the nodes of the
tree all stay, once each, and each guard adds a bounded number of nodes. -/

namespace NullGuard

open List (Forall₂)

/-! ## What guards are made of -/

namespace NodeKind

/-- The kinds that only the query itself has nodes of. -/
def isOriginal : NodeKind → Bool
  | member | call | lambda | unary | index => true
  | _ => false

end NodeKind

theorem EmptyInstance.kinds {ty : Ty} {recipe : Expr} (h : EmptyInstance ty recipe) :
    recipe.kinds = {.newArray} ∨ recipe.kinds = {.convert, .construct} := by
  cases h with
  | array =>
    refine .inl ?_
    rw [Expr.kinds_eq]
    rfl
  | collection =>
    refine .inr ?_
    rw [Expr.kinds_eq, Expr.children, List.map_singleton, Expr.kinds_eq]
    rfl

theorem kinds_missingValue (defs : Definitions) (ty : Ty) :
    (missingValue defs ty).kinds = {.literal} ∨ (missingValue defs ty).kinds = {.default} := by
  unfold missingValue
  split
  · exact .inl (Expr.kinds_eq _)
  · exact .inr (Expr.kinds_eq _)

/-- A short circuit is a leaf, or an empty instance where that is asked for. -/
theorem GuardRules.kinds_shortCircuit (rules : GuardRules) (ty : Ty) :
    ((rules.shortCircuit ty).kinds = {.literal} ∨ (rules.shortCircuit ty).kinds = {.default}) ∨
      rules.emptyCollections = true ∧ ((rules.shortCircuit ty).kinds = {.newArray} ∨
        (rules.shortCircuit ty).kinds = {.convert, .construct}) := by
  unfold shortCircuit
  split
  · cases hfallback : rules.fallback ty with
    | none => exact .inl (kinds_missingValue _ _)
    | some recipe => exact .inr ⟨‹_›, (rules.emptyInstance hfallback).kinds⟩
  · exact .inl (kinds_missingValue _ _)

/-- The greatest number of nodes that a test for null adds. -/
def GuardRules.conditionalSize (rules : GuardRules) : Nat :=
  if rules.emptyCollections then 8 else 7

/-- What guards with these counts add to a tree. -/
structure GuardRules.Adds (rules : GuardRules) (stats : GuardStats) (added : Multiset NodeKind) :
    Prop where
  isOriginal_eq : ∀ kind ∈ added, kind.isOriginal = false
  cond_eq : added.count .cond = stats.conditionalGuards
  coalesce_eq : added.count .coalesce = stats.coalesceGuards
  card_le : added.card ≤ rules.conditionalSize * stats.conditionalGuards + 3 * stats.coalesceGuards

variable {rules : GuardRules} {known : List String} {e node r : Expr}
  {record record' : List Treatment}

theorem GuardRules.adds_nil : rules.Adds (Treatment.stats rules []) 0 :=
  ⟨nofun, rfl, rfl, Nat.zero_le _⟩

theorem GuardRules.Adds.append {added added' : Multiset NodeKind}
    (h : rules.Adds (Treatment.stats rules record) added)
    (h' : rules.Adds (Treatment.stats rules record') added') :
    rules.Adds (Treatment.stats rules (record ++ record')) (added + added') where
  isOriginal_eq kind hkind :=
    (Multiset.mem_add.mp hkind).elim (h.isOriginal_eq kind) (h'.isOriginal_eq kind)
  cond_eq := by
    rw [Multiset.count_add, h.cond_eq, h'.cond_eq]
    exact List.countP_append.symm
  coalesce_eq := by
    rw [Multiset.count_add, h.coalesce_eq, h'.coalesce_eq]
    exact List.countP_append.symm
  card_le := by
    have hcard := Nat.add_le_add h.card_le h'.card_le
    simp only [Treatment.stats, List.countP_append, Multiset.card_add] at hcard ⊢
    linarith

/-- What a single treatment counts, its own node included. -/
theorem Treatment.stats_singleton (treatment : Treatment) :
    stats rules [treatment] =
      (treatment.strategy? rules).elim ⟨1, 0, 0⟩ (GuardStats.count ⟨1, 0, 0⟩) := by
  simp only [stats, List.countP_singleton]
  rcases treatment.strategy? rules with _ | _ | _ <;> rfl

/-! ## What sealing a node adds -/

theorem GuardRules.adds_of_coalesce {recipe : Multiset NodeKind}
    (h : recipe = {.newArray} ∨ recipe = {.convert, .construct}) :
    rules.Adds ⟨1, 1, 0⟩ ({.coalesce} + recipe) := by
  rcases h with rfl | rfl <;> exact ⟨by decide, by decide, by decide, by simp⟩

/-- The nodes of `name == null ? whenNull : …`. -/
def nullCheckKinds (whenNull : Multiset NodeKind) : Multiset NodeKind :=
  {.cond} + {.binary} + {.param} + {.literal} + whenNull

theorem kinds_nullCheck (paramTy ty : Ty) (name : String) (whenNull node : Expr) :
    (nullCheck (.param paramTy name) whenNull node ty).kinds =
      node.kinds + nullCheckKinds whenNull.kinds := by
  have htest : (Expr.binaryOf .eq (.param paramTy name) (.null paramTy)).kinds =
      {.binary} + ({.param} + {.literal}) := by
    rw [Expr.kinds_eq, Expr.binaryOf, Expr.children, List.map_cons, List.map_singleton,
      Expr.kinds_eq, Expr.null, Expr.kinds_eq]
    rfl
  rw [nullCheck, Expr.kinds_eq, Expr.children]
  simp only [Expr.ty, Expr.kind, List.map_cons, List.map_nil, List.sum_cons, List.sum_nil, htest,
    nullCheckKinds]
  abel

/-- A test for null adds its own nodes, and two more if it holds the receiver. -/
theorem GuardRules.adds_of_nullCheck (rules : GuardRules) (ty : Ty) {holder : Multiset NodeKind}
    (h : holder = 0 ∨ holder = {.bind} + {.param}) :
    rules.Adds ⟨1, 0, 1⟩ (nullCheckKinds (rules.shortCircuit ty).kinds + holder) := by
  have hsize : 7 ≤ rules.conditionalSize := by
    unfold conditionalSize
    split <;> decide
  rcases rules.kinds_shortCircuit ty with (hkinds | hkinds) | ⟨hempty, hkinds | hkinds⟩
  all_goals
    rw [hkinds]
    rcases h with rfl | rfl
    all_goals refine ⟨by decide, by decide, by decide, ?_⟩
  all_goals first
    | exact Nat.le_trans (by decide) (Nat.mul_le_mul_right 1 hsize)
    | rw [conditionalSize, hempty]
      decide

theorem Seals.adds (h : Seals rules known node r) :
    ∃ added, r.kinds = node.kinds + added ∧
      rules.Adds (Treatment.stats rules [⟨known, node, r⟩]) added := by
  rw [Treatment.stats_singleton, Treatment.strategy?]
  cases h with
  | free hnone =>
    rw [GuardRules.strategy?_of_receiver?_eq_none hnone]
    exact ⟨0, (add_zero _).symm, nofun, rfl, rfl, Nat.zero_le _⟩
  | kept hsome hsafe =>
    rw [GuardRules.strategy?_of_needsNoGuard hsome hsafe]
    exact ⟨0, (add_zero _).symm, nofun, rfl, rfl, Nat.zero_le _⟩
  | @coalesced receiver recipe hsome hneeds hfallback =>
    rw [GuardRules.strategy?_of_fallback hsome hneeds hfallback]
    refine ⟨_, ?_, GuardRules.adds_of_coalesce (rules.emptyInstance hfallback).kinds⟩
    have hmoved := Expr.kinds_withReceiver hsome (.coalesceOf receiver recipe)
    rw [Expr.kinds_coalesceOf] at hmoved
    refine add_right_cancel (hmoved.trans ?_)
    abel
  | @tested ty name hsome hneeds hfallback =>
    rw [GuardRules.strategy?_of_no_fallback hsome hneeds hfallback]
    refine ⟨_, ?_, rules.adds_of_nullCheck node.ty (.inl rfl)⟩
    rw [kinds_nullCheck, add_zero]
  | @held receiver name hsome hneeds hfallback =>
    rw [GuardRules.strategy?_of_no_fallback hsome hneeds hfallback]
    refine ⟨_, ?_, rules.adds_of_nullCheck node.ty (.inr rfl)⟩
    have hmoved := Expr.kinds_withReceiver hsome (.param receiver.ty name)
    rw [Expr.kinds_param] at hmoved
    calc _ = {.bind} + nullCheckKinds (rules.shortCircuit node.ty).kinds +
          ((node.withReceiver (.param receiver.ty name)).kinds + receiver.kinds) := by
          rw [Expr.kinds_bindTo, kinds_nullCheck]
          abel
      _ = node.kinds + (nullCheckKinds (rules.shortCircuit node.ty).kinds +
          ({.bind} + {.param})) := by
          rw [hmoved]
          abel

/-! ## A whole tree -/

/-- The kinds of the nodes that a record is about. -/
def Treatment.kinds (record : List Treatment) : Multiset NodeKind :=
  record.map fun treatment => treatment.node.kind

@[simp] theorem Treatment.kinds_append :
    kinds (record ++ record') = kinds record + kinds record' := by
  simp [kinds]

theorem Treatment.kinds_flatMap {scopes : List (List String × Expr)}
    {treated : List (List Treatment × Expr)}
    (h : Forall₂ (fun part part' => kinds part'.1 = part.2.kinds) scopes treated) :
    kinds (treated.flatMap Prod.fst) = ((scopes.map Prod.snd).map Expr.kinds).sum := by
  induction h with
  | nil => rfl
  | cons hpart _ ih => simp [hpart, ih]

/-- A record is about each node of the tree once. -/
theorem GuardsBy.kinds_eq (h : GuardsBy rules known e record r) :
    Treatment.kinds record = e.kinds := by
  induction e using Expr.induction_children generalizing known record r with
  | step e ih =>
    cases h with
    | @node _ _ treated _ _ hparts hseal =>
      have hkinds := Treatment.kinds_flatMap <| forall₂_imp_of_mem hparts
        fun part hpart _ _ hguards => ih part.2 (Expr.mem_children_of_mem_scopes hpart) hguards
      rw [Expr.scopes_map_snd] at hkinds
      rw [Treatment.kinds_append, hkinds, Expr.kinds_eq, add_comm]
      simp [Treatment.kinds]

theorem exists_adds_flatMap {scopes : List (List String × Expr)}
    {treated : List (List Treatment × Expr)}
    (h : Forall₂ (fun part part' => ∃ added, part'.2.kinds = part.2.kinds + added ∧
      rules.Adds (Treatment.stats rules part'.1) added) scopes treated) :
    ∃ added, ((treated.map Prod.snd).map Expr.kinds).sum =
        ((scopes.map Prod.snd).map Expr.kinds).sum + added ∧
      rules.Adds (Treatment.stats rules (treated.flatMap Prod.fst)) added := by
  induction h with
  | nil => exact ⟨0, rfl, GuardRules.adds_nil⟩
  | cons hpart _ ih =>
    obtain ⟨first, hfirst, hadds⟩ := hpart
    obtain ⟨rest, hrest, hadds'⟩ := ih
    refine ⟨first + rest, ?_, hadds.append hadds'⟩
    simp only [List.map_cons, List.sum_cons, hfirst, hrest]
    abel

/-- The nodes of the tree all stay, and what comes to them is what its guards add. -/
theorem GuardsBy.adds (h : GuardsBy rules known e record r) :
    ∃ added, r.kinds = e.kinds + added ∧ rules.Adds (Treatment.stats rules record) added := by
  induction e using Expr.induction_children generalizing known record r with
  | step e ih =>
    cases h with
    | @node _ _ treated _ _ hparts hseal =>
      obtain ⟨inner, hinner, hadds⟩ := exists_adds_flatMap <| forall₂_imp_of_mem hparts
        fun part hpart _ _ hguards => ih part.2 (Expr.mem_children_of_mem_scopes hpart) hguards
      obtain ⟨outer, houter, hadds'⟩ := hseal.adds
      have hlength : (treated.map Prod.snd).length = e.children.length := by
        rw [List.length_map, ← Forall₂.length_eq hparts, ← Expr.scopes_map_snd known e,
          List.length_map]
      refine ⟨inner + outer, ?_, hadds.append hadds'⟩
      rw [houter, Expr.kinds_withChildren hlength, hinner, Expr.scopes_map_snd, Expr.kinds_eq e]
      abel

theorem GuardsBy.nodesVisited_eq (h : GuardsBy rules known e record r) :
    (Treatment.stats rules record).nodesVisited = e.nodeCount := by
  rw [← Expr.card_kinds, ← h.kinds_eq]
  simp [Treatment.stats, Treatment.kinds]

theorem Expr.kind_of_receiver? {receiver : Expr} (h : node.receiver? = some receiver) :
    node.kind = .member ∨ node.kind = .call := by
  obtain ⟨_, _, _, rfl⟩ | ⟨_, _, _, rfl⟩ | ⟨_, _, _, _, rfl⟩ := exists_of_receiver? h
  · exact .inl rfl
  · exact .inr rfl
  · exact .inr rfl

theorem Treatment.kind_of_strategy? {treatment : Treatment} {strategy : GuardStrategy}
    (h : treatment.strategy? rules = some strategy) :
    treatment.node.kind = .member ∨ treatment.node.kind = .call := by
  cases hreceiver : treatment.node.receiver? with
  | none =>
    rw [strategy?, GuardRules.strategy?_of_receiver?_eq_none hreceiver] at h
    cases h
  | some receiver => exact Expr.kind_of_receiver? hreceiver

/-- Guards stand around reads and calls only. -/
theorem Treatment.guards_stats_le (record : List Treatment) :
    (stats rules record).guards ≤ (kinds record).count .member + (kinds record).count .call := by
  induction record with
  | nil => rfl
  | cons treatment record ih =>
    have hkinds : kinds (treatment :: record) = treatment.node.kind ::ₘ kinds record := rfl
    simp only [stats, GuardStats.guards, List.countP_cons, hkinds, Multiset.count_cons] at ih ⊢
    cases hstrategy : treatment.strategy? rules with
    | none =>
      simp only [reduceCtorEq, decide_false, Bool.false_eq_true, if_false]
      omega
    | some strategy =>
      rcases kind_of_strategy? hstrategy with hkind | hkind <;> rw [hkind] <;>
        cases strategy <;> simp <;> omega

/-! ## Depth -/

theorem EmptyInstance.depth_le {ty : Ty} {recipe : Expr} (h : EmptyInstance ty recipe) :
    recipe.depth ≤ 2 := by
  cases h with
  | array => exact Expr.depth_le_succ_iff.mpr nofun
  | collection =>
    refine Expr.depth_le_succ_iff.mpr (List.forall_mem_singleton.mpr ?_)
    exact Expr.depth_le_succ_iff.mpr nofun

theorem GuardRules.depth_shortCircuit_le (rules : GuardRules) (ty : Ty) :
    (rules.shortCircuit ty).depth ≤ 2 := by
  have hmissing : (missingValue rules.defs ty).depth ≤ 2 := by
    unfold missingValue
    split <;> exact Expr.depth_le_succ_iff.mpr nofun
  unfold shortCircuit
  split
  · cases hfallback : rules.fallback ty with
    | none => exact hmissing
    | some recipe => exact (rules.emptyInstance hfallback).depth_le
  · exact hmissing

theorem depth_nullCheck_le {paramTy ty : Ty} {name : String} {whenNull node : Expr} {bound : Nat}
    (hbound : 2 ≤ bound) (hnull : whenNull.depth ≤ 2) (hnode : node.depth ≤ bound) :
    (nullCheck (.param paramTy name) whenNull node ty).depth ≤ bound + 1 := by
  refine Expr.depth_le_succ_iff.mpr ?_
  have htest : (Expr.binaryOf .eq (.param paramTy name) (.null paramTy)).depth ≤ 2 := by
    refine Expr.depth_le_succ_iff.mpr fun part hpart => ?_
    rcases hpart with _ | ⟨_, _ | ⟨_, _ | _⟩⟩ <;> exact (Expr.depth_of_leaf rfl).le
  rintro part (_ | ⟨_, _ | ⟨_, _ | ⟨_, _ | _⟩⟩⟩)
  · exact htest.trans hbound
  · exact hnull.trans hbound
  · exact hnode

theorem depth_withReceiver_le {receiver other : Expr} {bound : Nat}
    (h : node.receiver? = some receiver) (hparts : ∀ part ∈ node.children, part.depth ≤ bound)
    (hother : other.depth ≤ bound) : (node.withReceiver other).depth ≤ bound + 1 := by
  rw [Expr.depth_le_succ_iff, Expr.children_withReceiver h, List.forall_mem_cons]
  exact ⟨hother, fun part hpart => hparts part (List.mem_of_mem_tail hpart)⟩

/-- A guard takes the place of its node with at most two levels more. Below the node it replaces
a receiver by one that is at most one level deeper, or by a parameter. -/
theorem Seals.depth_le (h : Seals rules known node r) {bound : Nat}
    (hparts : ∀ part ∈ node.children, part.depth ≤ 3 * bound) :
    r.depth ≤ 3 * (bound + 1) := by
  have hnode : node.depth ≤ 3 * bound + 1 := Expr.depth_le_succ_iff.mpr hparts
  cases h with
  | free | kept => omega
  | @coalesced receiver recipe hreceiver _ hfallback =>
    have hdepth := hparts receiver (Expr.receiver_mem_children hreceiver)
    have hpos := receiver.depth_pos
    have hrecipe := (rules.emptyInstance hfallback).depth_le
    have halternative : (Expr.coalesceOf receiver recipe).depth ≤ 3 * bound + 1 := by
      refine Expr.depth_le_succ_iff.mpr ?_
      rintro part (_ | ⟨_, _ | ⟨_, _ | _⟩⟩) <;> omega
    refine (depth_withReceiver_le hreceiver (fun part hpart => ?_) halternative).trans (by omega)
    exact (hparts part hpart).trans (Nat.le_succ _)
  | @tested ty name hreceiver =>
    have hdepth := hparts _ (Expr.receiver_mem_children hreceiver)
    rw [Expr.depth_of_leaf rfl] at hdepth
    exact (depth_nullCheck_le (by omega) (rules.depth_shortCircuit_le _) hnode).trans (by omega)
  | @held receiver name hreceiver =>
    have hdepth := hparts receiver (Expr.receiver_mem_children hreceiver)
    have hpos := receiver.depth_pos
    have hparam : (Expr.param receiver.ty name).depth = 1 := Expr.depth_of_leaf rfl
    have hheld := depth_withReceiver_le hreceiver hparts (hparam.trans_le (by omega))
    have hcheck : (nullCheck (.param receiver.ty name) (rules.shortCircuit node.ty)
        (node.withReceiver (.param receiver.ty name)) node.ty).depth ≤ 3 * bound + 2 :=
      depth_nullCheck_le (by omega) (rules.depth_shortCircuit_le node.ty) hheld
    have hbind : (Expr.bindTo name receiver (nullCheck (.param receiver.ty name)
        (rules.shortCircuit node.ty) (node.withReceiver (.param receiver.ty name))
        node.ty)).depth ≤ 3 * bound + 2 + 1 := by
      refine Expr.depth_le_succ_iff.mpr ?_
      rintro part (_ | ⟨_, _ | ⟨_, _ | _⟩⟩) <;> omega
    exact hbind

theorem Guards.depth_le (h : Guards rules known e r) : r.depth ≤ 3 * e.depth := by
  induction e using Expr.induction_children generalizing known r with
  | step e ih =>
    cases h with
    | @node _ _ parts _ _ hparts hseal =>
      obtain ⟨bound, hbound⟩ := Nat.exists_eq_add_one_of_ne_zero e.depth_pos.ne'
      rw [hbound]
      refine hseal.depth_le ?_
      rw [Expr.children_withChildren (GuardsParts.length_eq hparts)]
      intro part' hpart'
      obtain ⟨part, hpart, hguards⟩ := exists_mem_of_forall₂ hparts hpart'
      have hmem := Expr.mem_children_of_mem_scopes hpart
      have hdepth := ih part.2 hmem hguards
      have := Expr.depth_le_succ_iff.mp hbound.le part.2 hmem
      omega

/-! ## Insertion -/

/-- An insertion visits each node once. It loses and copies none of the reads, calls, lambdas,
unary operators and indexings, its conditions and alternatives are those of its guards, and the
tree grows by a bounded number of nodes for each guard and to at most three times its depth. -/
theorem Expr.insertGuards_growth {defs : Definitions} {options : GuardOptions}
    {cache left : FallbackCache} {guarded : Guarded} (h : cache.Computed)
    (hinsert : e.insertGuards defs options cache = (.ok guarded, left)) :
    guarded.stats.nodesVisited = e.nodeCount ∧
    (∀ kind ∈ [NodeKind.member, .call, .lambda, .unary, .index],
      guarded.expr.kinds.count kind = e.kinds.count kind) ∧
    guarded.expr.kinds.count .cond = e.kinds.count .cond + guarded.stats.conditionalGuards ∧
    guarded.expr.kinds.count .coalesce = e.kinds.count .coalesce + guarded.stats.coalesceGuards ∧
    guarded.stats.guards ≤ e.kinds.count .member + e.kinds.count .call ∧
    guarded.expr.nodeCount ≤ e.nodeCount +
      (if options.emptyCollections then 8 else 7) * guarded.stats.conditionalGuards +
      3 * guarded.stats.coalesceGuards ∧
    guarded.expr.depth ≤ 3 * e.depth := by
  obtain ⟨record, hguards, hstats⟩ := insertGuards_guardsBy h hinsert
  obtain ⟨added, hkinds, hadds⟩ := hguards.adds
  rw [← hstats] at hadds
  refine ⟨?_, fun kind hkind => ?_, ?_, ?_, ?_, ?_, (insertGuards_guards h hinsert).depth_le⟩
  · rw [hstats, hguards.nodesVisited_eq]
  · have horiginal : kind.isOriginal = true := by
      revert kind
      decide
    have hnone : kind ∉ added := fun hmem =>
      Bool.false_ne_true ((hadds.isOriginal_eq kind hmem).symm.trans horiginal)
    rw [hkinds, Multiset.count_add, Multiset.count_eq_zero_of_notMem hnone, Nat.add_zero]
  · rw [hkinds, Multiset.count_add, hadds.cond_eq]
  · rw [hkinds, Multiset.count_add, hadds.coalesce_eq]
  · rw [hstats, ← hguards.kinds_eq]
    exact Treatment.guards_stats_le record
  · rw [← card_kinds, ← card_kinds, hkinds, Multiset.card_add, Nat.add_assoc]
    exact Nat.add_le_add_left hadds.card_le _

/-- `p.Scores.Length` for an object `p` and an array of scores. -/
def scoreCount : Expr :=
  .member .int (.member (.array .int) (.param .object "p") "Scores" .object) "Length" (.array .int)

/-- The read of the scores gets a test with an empty array, and their length an alternative. -/
theorem insertGuards_scoreCount_growth :
    ∃ guarded left, scoreCount.insertGuards .empty ⟨500, true⟩ .empty = (.ok guarded, left) ∧
      guarded.stats = ⟨3, 1, 1⟩ ∧ guarded.expr.kinds.count .member = 2 ∧
      guarded.expr.nodeCount ≤ 14 ∧ guarded.expr.depth ≤ 9 := by
  have hinsert : ∃ guarded left,
      scoreCount.insertGuards .empty ⟨500, true⟩ .empty = (.ok guarded, left) ∧
        guarded.stats = ⟨3, 1, 1⟩ := ⟨_, _, by cbv, by cbv⟩
  obtain ⟨guarded, left, hinsert, hstats⟩ := hinsert
  obtain ⟨-, hkept, -, -, -, hsize, hdepth⟩ :=
    Expr.insertGuards_growth FallbackCache.empty_computed hinsert
  have hmember := hkept .member (by decide)
  have hcount : scoreCount.kinds.count .member = 2 := by cbv
  have hnodes : scoreCount.nodeCount = 3 := by cbv
  have hlevels : scoreCount.depth = 3 := by cbv
  rw [hstats, hnodes] at hsize
  rw [hlevels] at hdepth
  exact ⟨guarded, left, hinsert, hstats, hmember.trans hcount, hsize, hdepth⟩

end NullGuard
