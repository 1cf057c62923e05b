import NullGuard.Proofs.Guard.Idempotence
import NullGuard.Proofs.Guard.Position
import NullGuard.Proofs.Guard.Record

/-! # Fixed points

The expressions that an insertion of guards leaves as they are, said by the positions of their
receivers. -/

namespace NullGuard

namespace Expr

variable {defs : Definitions} {e : Expr}

/-- Every receiver is safe, or is a parameter that a test on the way to it has found not null. -/
def IsGuarded (defs : Definitions) (e : Expr) : Prop :=
  ∀ path node receiver, Reaches e path node → node.receiver? = some receiver →
    receiver.isSafe defs = true ∨
      ∃ ty name, receiver = .param ty name ∧ NarrowedAlong path name

theorem Every.of_reaches {P : Expr → Prop} {path : List Step} {node : Expr} (h : e.Every P)
    (hreaches : Reaches e path node) : P node := by
  induction hreaches with
  | here => exact h.here
  | step hpart _ ih => exact ih (h.of_mem_children (List.mem_of_getElem? hpart))

theorem needsNoGuard_knownAlong_iff {path : List Step} {receiver : Expr} :
    receiver.NeedsNoGuard defs (knownAlong [] path) ↔
      receiver.isSafe defs = true ∨
        ∃ ty name, receiver = .param ty name ∧ NarrowedAlong path name := by
  simp [NeedsNoGuard, mem_knownAlong]

theorem isGuarded_of_settled (h : e.Throughout (Settled defs) []) : e.IsGuarded defs :=
  fun path node receiver hreaches hreceiver => needsNoGuard_knownAlong_iff.mp <|
    (throughout_iff.mp h path node hreaches).2 receiver hreceiver

theorem IsGuarded.settled (h : e.IsGuarded defs)
    (hcomplete : e.Every fun node => node.lacksReceiver = false) :
    e.Throughout (Settled defs) [] :=
  throughout_iff.mpr fun path node hreaches => ⟨hcomplete.of_reaches hreaches,
    fun receiver hreceiver =>
      needsNoGuard_knownAlong_iff.mpr (h path node receiver hreaches hreceiver)⟩

variable {options : GuardOptions} {cache left : FallbackCache} {guarded : Guarded}

/-- What an insertion gives back as it was needs no guard. -/
theorem isGuarded_of_insertGuards_eq_self (hcache : cache.Computed)
    (hinsert : e.insertGuards defs options cache = (.ok guarded, left)) (hself : guarded.expr = e) :
    e.IsGuarded defs :=
  isGuarded_of_settled (hself ▸ (insertGuards_guards hcache hinsert).settled)

/-- An insertion that counts no guard gives back what it was given. -/
theorem insertGuards_eq_self_of_guards_eq_zero (hcache : cache.Computed)
    (hinsert : e.insertGuards defs options cache = (.ok guarded, left))
    (hzero : guarded.stats.guards = 0) : guarded.expr = e := by
  obtain ⟨record, hguards, hstats⟩ := insertGuards_guardsBy hcache hinsert
  exact hguards.eq_self (Treatment.guards_stats_eq_zero_iff.mp (hstats ▸ hzero))

/-- An insertion gives an expression back, without guards, exactly if each receiver in it is safe
or found not null on the way to it. Any other expression gets a guard and becomes another one. -/
theorem insertGuards_eq_self_iff (hcache : cache.Computed) (hdepth : e.depth ≤ options.maxDepth)
    (hcomplete : e.Every fun node => node.lacksReceiver = false) :
    ((∃ guarded left, e.insertGuards defs options cache = (.ok guarded, left) ∧
        guarded.expr = e ∧ guarded.stats.guards = 0) ↔ e.IsGuarded defs) ∧
      (¬ e.IsGuarded defs → ∀ guarded left,
        e.insertGuards defs options cache = (.ok guarded, left) →
          0 < guarded.stats.guards ∧ guarded.expr ≠ e) := by
  refine ⟨⟨?returned, ?guarded⟩, ?other⟩
  case returned =>
    rintro ⟨guarded, left, hinsert, hself, _⟩
    exact isGuarded_of_insertGuards_eq_self hcache hinsert hself
  case guarded =>
    intro hguarded
    have hvisit := e.visit_stays defs options (.start cache e) (hguarded.settled hcomplete)
      (by simpa [Walk.start] using hdepth)
    exact ⟨⟨e, ⟨_, 0, 0⟩⟩, cache, insertGuards_eq_ok.mpr ⟨_, hvisit, rfl, rfl⟩, rfl, rfl⟩
  case other =>
    intro hneeds guarded left hinsert
    have hchanged : guarded.expr ≠ e := fun hself =>
      hneeds (isGuarded_of_insertGuards_eq_self hcache hinsert hself)
    refine ⟨Nat.pos_of_ne_zero fun hzero => hchanged ?_, hchanged⟩
    exact insertGuards_eq_self_of_guards_eq_zero hcache hinsert hzero

end Expr

/-- `p == null ? null : p.Name` for an object `p`. -/
def checkedRead : Expr :=
  .cond .string (.binaryOf .eq (.param .object "p") (.null .object)) (.null .string)
    (.member .string (.param .object "p") "Name" .object)

/-- `p == null ? null : (p => p.Name)`, where the test is about another `p`. -/
def shadowedRead : Expr :=
  .cond .object (.binaryOf .eq (.param .object "p") (.null .object)) (.null .object)
    (.lambdaOf [⟨"p", .object⟩] (.member .string (.param .object "p") "Name" .object))

/-- Only the first of them is given back. -/
theorem isGuarded_checkedRead_not_shadowedRead :
    checkedRead.IsGuarded .empty ∧ ¬ shadowedRead.IsGuarded .empty := by
  have hchecked : ∃ guarded left, checkedRead.insertGuards .empty {} .empty = (.ok guarded, left) ∧
      guarded.expr = checkedRead ∧ guarded.stats.guards = 0 := ⟨_, _, by cbv, by cbv, by cbv⟩
  have hshadowed : ∃ guarded left,
      shadowedRead.insertGuards .empty {} .empty = (.ok guarded, left) ∧
        guarded.stats.guards = 1 := ⟨_, _, by cbv, by cbv⟩
  have hdepth : checkedRead.depth ≤ ({} : GuardOptions).maxDepth := by cbv
  have hdepth' : shadowedRead.depth ≤ ({} : GuardOptions).maxDepth := by cbv
  constructor
  · exact (Expr.insertGuards_eq_self_iff FallbackCache.empty_computed hdepth
      (Expr.every_iff_anyNode.mpr (by cbv))).1.mp hchecked
  · intro hguarded
    obtain ⟨guarded, left, hinsert, hguards⟩ := hshadowed
    obtain ⟨_, _, hinsert', _, hzero⟩ := (Expr.insertGuards_eq_self_iff
      FallbackCache.empty_computed hdepth' (Expr.every_iff_anyNode.mpr (by cbv))).1.mpr hguarded
    cases hinsert.symm.trans hinsert'
    omega

end NullGuard
