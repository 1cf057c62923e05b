import NullGuard.Proofs.Guard.Record

/-! # Receivers that cannot be null

A guard is for a receiver that can be null. A conversion is judged by its operand alone and not
also by its own type, so it may get a guard although its type has no null. No other receiver
does. -/

namespace NullGuard

namespace Expr

variable {defs : Definitions} {receiver : Expr} (h : receiver.ty.canBeNull defs = false)

include h

/-- The type of a receiver settles the matter, unless the receiver is a conversion. -/
theorem isSafe_iff_of_not_canBeNull :
    receiver.isSafe defs = true ↔
      ∀ ty operand, receiver = .convert ty operand → operand.isSafe defs = true := by
  cases receiver with
  | convert ty operand => simp [isSafe]
  | coalesce ty left right =>
    have hty : ty.canBeNull defs = false := h
    simp [isSafe, hty]
  | call | freeCall | literal | construct | newArray => simp [isSafe]
  | _ => simpa [isSafe] using h

theorem needsNoGuard_iff_of_not_canBeNull (known : List String) :
    receiver.NeedsNoGuard defs known ↔
      ∀ ty operand, receiver = .convert ty operand → operand.isSafe defs = true := by
  rw [← isSafe_iff_of_not_canBeNull h, NeedsNoGuard, or_iff_left_iff_imp]
  rintro ⟨ty, name, rfl, _⟩
  exact (isSafe_iff_of_not_canBeNull h).mpr nofun

end Expr

/-- A node around a receiver that cannot be null is kept as it is exactly when the receiver is no
conversion of an operand that would need a guard. -/
theorem Seals.eq_self_iff_of_not_canBeNull {rules : GuardRules} {known : List String}
    {node r receiver : Expr} (h : Seals rules known node r)
    (hreceiver : node.receiver? = some receiver)
    (htype : receiver.ty.canBeNull rules.defs = false) :
    r = node ↔ ∀ ty operand, receiver = .convert ty operand → operand.isSafe rules.defs = true := by
  rw [h.eq_self_iff, GuardRules.strategy?_eq_none_iff, hreceiver,
    ← Expr.needsNoGuard_iff_of_not_canBeNull htype known]
  simp

/-- In the record of any insertion, the nodes around receivers that cannot be null are kept as
they are, those around conversions of operands that would need a guard alone excepted. -/
theorem Expr.insertGuards_keeps_iff {defs : Definitions} {options : GuardOptions}
    {cache left : FallbackCache} {e : Expr} {guarded : Guarded} (hcache : cache.Computed)
    (hinsert : e.insertGuards defs options cache = (.ok guarded, left)) :
    ∃ record, GuardsBy (cache.rules defs options hcache) [] e record guarded.expr ∧
      guarded.stats = Treatment.stats (cache.rules defs options hcache) record ∧
      ∀ treatment ∈ record, ∀ receiver, treatment.node.receiver? = some receiver →
        receiver.ty.canBeNull defs = false →
          (treatment.result = treatment.node ↔
            ∀ ty operand, receiver = .convert ty operand → operand.isSafe defs = true) := by
  obtain ⟨record, hguards, hstats⟩ := insertGuards_guardsBy hcache hinsert
  refine ⟨record, hguards, hstats, fun treatment htreatment receiver hreceiver htype => ?_⟩
  exact (hguards.seals htreatment).eq_self_iff_of_not_canBeNull hreceiver htype

/-- `((int)x).ToString()` for a nullable `x`. -/
def convertedText : Expr :=
  .call .string (.convert .int (.param (.nullable .int) "x")) ⟨"ToString", none, false⟩ []

theorem insertGuards_convertedText_keeps_iff :
    ∃ guarded left record, convertedText.insertGuards .empty {} .empty = (.ok guarded, left) ∧
      GuardsBy (FallbackCache.empty.rules .empty {} FallbackCache.empty_computed) [] convertedText
        record guarded.expr ∧
      guarded.stats =
        Treatment.stats (FallbackCache.empty.rules .empty {} FallbackCache.empty_computed) record ∧
      ∀ treatment ∈ record, ∀ receiver, treatment.node.receiver? = some receiver →
        receiver.ty.canBeNull .empty = false →
          (treatment.result = treatment.node ↔
            ∀ ty operand, receiver = .convert ty operand → operand.isSafe .empty = true) := by
  have hinsert : ∃ guarded left,
      convertedText.insertGuards .empty {} .empty = (.ok guarded, left) := ⟨_, _, by cbv⟩
  obtain ⟨guarded, left, hinsert⟩ := hinsert
  obtain ⟨record, hrecord⟩ := Expr.insertGuards_keeps_iff FallbackCache.empty_computed hinsert
  exact ⟨guarded, left, record, hinsert, hrecord⟩

/-- The conversion cannot be null and gets a guard. -/
theorem insertGuards_convertedText :
    ∃ receiver guarded left, convertedText.receiver? = some receiver ∧
      receiver.ty.canBeNull .empty = false ∧
      convertedText.insertGuards .empty {} .empty = (.ok guarded, left) ∧
      guarded.stats.guards = 1 ∧
      guarded.expr = .bindTo "_a" receiver
        (nullCheck (.param .int "_a") (.null .string)
          (convertedText.withReceiver (.param .int "_a")) .string) :=
  ⟨_, _, _, by rfl, by rfl, by cbv, by cbv, by cbv⟩

end NullGuard
