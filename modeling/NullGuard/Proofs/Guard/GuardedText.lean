import NullGuard.Proofs.Expr.KeepsApart
import NullGuard.Proofs.Guard.Hygiene

/-! # Texts of guarded expressions

Guards bind new names only, so a query that keeps its names apart still does so with guards, and
the guarded query has the text that its scopes ask for. -/

namespace NullGuard

open List (Forall₂)

variable {rules : GuardRules} {known : List String} {e node r : Expr}

/-- No guard is a lambda. -/
theorem Seals.lambdaNames_eq (h : Seals rules known node r) : r.lambdaNames = node.lambdaNames := by
  cases h with
  | free | kept => rfl
  | coalesced hreceiver _ hfallback =>
    exact gather_coalesced Expr.isBinding_ownLambda hreceiver hfallback
  | tested => exact gather_nullCheck Expr.isBinding_ownLambda
  | held hreceiver =>
    exact (gather_held Expr.isBinding_ownLambda hreceiver _).trans (zero_add _)

theorem Guards.lambdaNames_eq (h : Guards rules known e r) : r.lambdaNames = e.lambdaNames := by
  induction e using Expr.induction_children generalizing known r with
  | step e ih =>
    cases h with
    | @node _ _ parts _ _ hparts hseal =>
      have hsame : parts.map Expr.lambdaNames = e.children.map Expr.lambdaNames := by
        rw [← Expr.scopes_map_snd known e, List.map_map]
        refine map_eq_map_of_forall₂ (forall₂_imp_of_mem hparts fun part hpart _ _ hguards => ?_)
        exact ih part.2 (Expr.mem_children_of_mem_scopes hpart) hguards
      rw [hseal.lambdaNames_eq, Expr.lambdaNames_withChildren (GuardsParts.length_eq hparts), hsame,
        Expr.lambdaNames_eq]

namespace Expr

variable {defs : Definitions} {options : GuardOptions} {cache left : FallbackCache}
  {guarded : Guarded}

theorem KeepsApart.insertGuards (hapart : e.KeepsApart) (h : cache.Computed)
    (hinsert : e.insertGuards defs options cache = (.ok guarded, left)) :
    guarded.expr.KeepsApart := by
  obtain ⟨added, hlets, hnodup, hadded⟩ := exists_added h hinsert
  have hguards := insertGuards_guards h hinsert
  refine ⟨?_, fun name hname => ?_⟩
  · rw [hlets]
    refine Multiset.nodup_add.mpr ⟨hapart.nodup, hnodup, Multiset.disjoint_right.mpr ?_⟩
    exact fun hname hlet => (hadded _ hname).1 (mem_names_of_mem_letNames hlet)
  · rw [hguards.lambdaNames_eq, hguards.freeIn_iff]
    rw [hlets, Multiset.mem_add] at hname
    rcases hname with hname | hname
    · exact hapart.apart name hname
    · have hnew := (hadded name hname).1
      exact ⟨fun hlambda => hnew (isBinding_ownLambda.mem_names hlambda),
        fun hfree => hnew hfree.mem_names⟩

/-- Guards are written as their scopes ask for: each receiver that a guard holds is assigned where
its name first appears. -/
theorem KeepsApart.text_insertGuards (hapart : e.KeepsApart) (h : cache.Computed)
    (hinsert : e.insertGuards defs options cache = (.ok guarded, left)) :
    guarded.expr.text defs = textOf (guarded.expr.rendering defs) :=
  (hapart.insertGuards h hinsert).text_eq

/-- A text can be understood in one way, which is that of the scopes exactly if each body that
mentions its variable uses it and values are taken in turn there. So they are where binders are in
order, whether names are shadowed or bound again elsewhere, and in every tree that keeps its names
apart, with guards and without. The scopes ask for each bound value once and leave the free
parameters open. -/
theorem text_respects_scopes (defs : Definitions) (e : Expr) :
    (∃ reading, e.IsReading defs reading ∧ e.text defs = textOf reading ∧
      (∀ other, e.IsReading defs other → Forall₂ Mark.Alike reading other) ∧
      (Forall₂ Mark.Alike (e.rendering defs) reading ↔
        e.Every UsesOwnVariable ∧ InTurn [] (e.rendering defs))) ∧
    (e.Every UsesOwnVariable → InTurn [] (e.rendering defs) →
      e.text defs = textOf (e.rendering defs)) ∧
    (e.Every BindsInOrder → InTurn [] (e.rendering defs)) ∧
    (e.KeepsApart → e.Every UsesOwnVariable ∧ e.Every BindsInOrder ∧
      ∀ {options : GuardOptions} {cache left : FallbackCache} {guarded : Guarded},
        cache.Computed → e.insertGuards defs options cache = (.ok guarded, left) →
          guarded.expr.text defs = textOf (guarded.expr.rendering defs)) ∧
    assignments (e.rendering defs) = e.gather ownAssignment ∧
    (openNames (e.rendering defs)).Perm e.freeNames := by
  obtain ⟨reading, hreading⟩ := exists_isReading defs e
  refine ⟨⟨reading, hreading, hreading.text_eq, fun _ => hreading.unique,
      hreading.alike_rendering_iff⟩, fun huse hturn => ?_, inTurn_rendering, fun hapart => ?_,
    assignments_rendering defs e, openNames_rendering defs e⟩
  · exact (isReading_rendering_iff.mpr ⟨huse, hturn⟩).text_eq
  · exact ⟨hapart.usesOwnVariable, hapart.bindsInOrder, hapart.text_insertGuards⟩

/-- `let x = 1 in ((let x = 2 in x) + x)` -/
def sumOfShadowed : Expr :=
  .bind .int ⟨"x", .int⟩ (.literal .int (.int 1))
    (.binary .int .add
      (.bind .int ⟨"x", .int⟩ (.literal .int (.int 2)) (.param .int "x")) (.param .int "x"))

/-- `let x = -x in (let x = -x in x)` -/
def negatedTwice : Expr :=
  .bind .int ⟨"x", .int⟩ (.unary .int .neg (.param .int "x"))
    (.bind .int ⟨"x", .int⟩ (.unary .int .neg (.param .int "x")) (.param .int "x"))

/-- `(let x = 1 in ((let x = 2 in x) + x)) * (let x = 3 in (let x = -x in (let x = -x in x)))` -/
def manyNamedX : Expr :=
  .binary .int .mul sumOfShadowed (.bind .int ⟨"x", .int⟩ (.literal .int (.int 3)) negatedTwice)

/-- `order.Boss.Name` -/
def bossName : Expr :=
  .member .object (.member .object (.param .object "order") "Boss" .object) "Name" .object

theorem bindsInOrder_manyNamedX : manyNamedX.Every BindsInOrder := by
  have hsum : sumOfShadowed.Every BindsInOrder := every_bindsInOrder (by decide +kernel)
  have hnegated : (unary .int .neg (.param .int "x")).Every BindsInOrder :=
    every_bindsInOrder (by decide +kernel)
  have hinner : (bind .int ⟨"x", .int⟩ (.unary .int .neg (.param .int "x"))
      (.param .int "x")).Every BindsInOrder := every_bindsInOrder (by decide +kernel)
  -- Its value has the name that the inner node binds, but the text starts with its parameter.
  have hnegations : negatedTwice.Every BindsInOrder := by
    have hstarts : StartsWith "x" (.unary .int .neg (.param .int "x")) :=
      .part rfl (show _ = [] ++ _ :: [] from rfl) (by simp) .param
    refine .node (.inl (.value .param hstarts)) ?_
    simp [negatedTwice, children, hnegated, hinner]
  have hthree : (bind .int ⟨"x", .int⟩ (.literal .int (.int 3)) negatedTwice).Every
      BindsInOrder := by
    have hliteral : (literal .int (.int 3)).Every BindsInOrder :=
      every_bindsInOrder (by decide +kernel)
    refine .node (.inr (by decide +kernel)) ?_
    simp [children, hliteral, hnegations]
  refine .node trivial ?_
  simp [manyNamedX, children, hsum, hthree]

theorem text_manyNamedX :
    manyNamedX.Every UsesOwnVariable ∧ manyNamedX.Every BindsInOrder ∧
      manyNamedX.text .empty = "(((x = 2) + (x = 1)) * (x = -(x = -(x = 3))))" ∧
      bossName.KeepsApart ∧
      ∃ guarded left, bossName.insertGuards .empty {} .empty = (.ok guarded, left) ∧
        guarded.expr.text .empty =
          "(((_a = ((order == null) ? null : order.Boss)) == null) ? null : _a.Name)" := by
  have huse : manyNamedX.Every UsesOwnVariable := by decide +kernel
  have horder : manyNamedX.Every BindsInOrder := bindsInOrder_manyNamedX
  obtain ⟨-, htext, hturn, -⟩ := text_respects_scopes .empty manyNamedX
  have hnoLets : bossName.letNames = 0 := by cbv
  have hkeeps : bossName.KeepsApart := by
    refine ⟨hnoLets ▸ Multiset.nodup_zero, fun name hname => ?_⟩
    rw [hnoLets] at hname
    cases Multiset.notMem_zero name hname
  obtain ⟨-, -, -, hguarded, -⟩ := text_respects_scopes .empty bossName
  obtain ⟨-, -, hguardedText⟩ := hguarded hkeeps
  have hinsert : ∃ guarded left, bossName.insertGuards .empty {} .empty = (.ok guarded, left) ∧
      textOf (guarded.expr.rendering .empty) =
        "(((_a = ((order == null) ? null : order.Boss)) == null) ? null : _a.Name)" :=
    ⟨_, _, by cbv, by cbv⟩
  obtain ⟨guarded, left, hinsert, hrendering⟩ := hinsert
  refine ⟨huse, horder, ?_, hkeeps, guarded, left, hinsert, ?_⟩
  · rw [htext huse (hturn horder)]
    cbv
  · rw [hguardedText FallbackCache.empty_computed hinsert]
    exact hrendering

end Expr

end NullGuard
