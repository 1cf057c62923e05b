import NullGuard.Proofs.Eval.Comparison

/-! # Methods agree if the closures that they call do -/

namespace NullGuard

open List (Forall₂)

namespace Comparison

variable {S : Comparison}

theorem Argument.looselyEquals_eq {value value' item : Value} (h : S.Argument value value')
    (hitem : S.Data item) : item.looselyEquals value = item.looselyEquals value' := by
  cases h with
  | same => rfl
  | callee h => exact S.callees_equals h hitem

theorem Argument.headD {args args' : List Value} (h : Forall₂ S.Argument args args') :
    S.Argument (args.headD .null) (args'.headD .null) := by
  cases h with
  | nil => exact .same (.scalar rfl)
  | cons hhead _ => exact hhead

end Comparison

section Methods

open Comparison

variable {S : Comparison} {invoke invoke' : Invoke} (site : CallSite) {receiver : Value}
  {args args' : List Value}

/-- Lists of values that both evaluations may have. -/
abbrev Comparison.SameItems (S : Comparison) (items items' : List Value) : Prop :=
  items = items' ∧ ∀ item ∈ items, S.Data item

theorem Comparison.sameItems_of_forall₂ {items items' : List Value}
    (h : Forall₂ S.Same items items') : S.SameItems items items' := by
  induction h with
  | nil => exact ⟨rfl, nofun⟩
  | cons hitem _ ih =>
    obtain ⟨rfl, hdata⟩ := hitem
    obtain ⟨rfl, hrest⟩ := ih
    exact ⟨rfl, List.forall_mem_cons.mpr ⟨hdata, hrest⟩⟩

theorem CallSite.fail_agree {α β : Type} {R : α → β → Prop} (expected : String)
    {value value' : Value} (h : value.kindName = value'.kindName) :
    S.Agree R (site.fail expected value) (site.fail expected value') := by
  unfold CallSite.fail EvalError.mismatch
  rw [h]
  exact .fail rfl

theorem CallSite.items_agree (h : S.Data receiver) :
    S.Agree S.SameItems (site.items receiver) (site.items receiver) := by
  unfold CallSite.items
  split
  · exact .pure ⟨rfl, fun item => h.of_mem_items⟩
  · exact site.fail_agree _ rfl

theorem Total.add_agree (total : Total) (item : Value) :
    S.Agree Eq (total.add site item) (total.add site item) := by
  cases item with
  | null | int | double => exact .pure rfl
  | _ => exact site.fail_agree _ rfl

theorem Total.isScalar_value (total : Total) : total.value.isScalar = true := by
  unfold Total.value
  split <;> rfl

variable (hinvoke : ∀ callee callee' item, S.Argument callee callee' → S.Data item →
  S.Agree S.Same (invoke callee [item]) (invoke' callee' [item]))

include hinvoke

theorem CallSite.test_agree {predicate predicate' item : Value}
    (h : S.Argument predicate predicate') (hitem : S.Data item) :
    S.Agree Eq (site.test invoke predicate item) (site.test invoke' predicate' item) := by
  refine (hinvoke predicate predicate' item h hitem).bind fun answer _ hanswer => ?_
  obtain ⟨rfl, _⟩ := hanswer
  split
  · exact .pure rfl
  · exact site.fail_agree _ rfl

theorem CallSite.matching_agree (h : S.Data receiver) (hargs : Forall₂ S.Argument args args') :
    S.Agree S.SameItems (site.matching invoke receiver args)
      (site.matching invoke' receiver args') := by
  refine (site.items_agree h).bind fun items _ hitems => ?_
  obtain ⟨rfl, hdata⟩ := hitems
  cases hargs with
  | nil => exact .pure ⟨rfl, hdata⟩
  | cons hpredicate _ =>
    refine (Agree.keepM fun item hitem => ?_).mono fun kept kept' hkept => ?_
    · exact site.test_agree hinvoke hpredicate (hdata item hitem)
    · exact ⟨hkept.1, fun item hitem => hdata item (hkept.2 hitem)⟩

theorem Builtin.run_sum_agree (defs : Definitions) (h : S.Data receiver)
    (hargs : Forall₂ S.Argument args args') :
    S.Agree S.Same (Builtin.run defs invoke site receiver args .sum)
      (Builtin.run defs invoke' site receiver args' .sum) := by
  refine (site.items_agree h).bind fun items _ hitems => ?_
  obtain ⟨rfl, hdata⟩ := hitems
  refine (Agree.foldlM fun total item hitem => ?_).bind fun total _ htotal => ?_
  · cases hargs with
    | nil => exact total.add_agree site item
    | cons hselector _ =>
      refine (hinvoke _ _ item hselector (hdata item hitem)).bind fun value _ hvalue => ?_
      obtain ⟨rfl, _⟩ := hvalue
      exact total.add_agree site value
  · subst htotal
    exact .pure ⟨rfl, .scalar total.isScalar_value⟩

theorem Builtin.run_select_agree (defs : Definitions) (h : S.Data receiver)
    (hargs : Forall₂ S.Argument args args') :
    S.Agree S.Same (Builtin.run defs invoke site receiver args .select)
      (Builtin.run defs invoke' site receiver args' .select) := by
  refine (site.items_agree h).bind fun items _ hitems => ?_
  obtain ⟨rfl, hdata⟩ := hitems
  have hresults : S.Agree (Forall₂ S.Same)
      (items.mapM fun item => invoke (args.headD .null) [item])
      (items.mapM fun item => invoke' (args'.headD .null) [item]) :=
    .mapM (List.forall₂_same.mpr fun item hitem =>
      hinvoke _ _ item (Argument.headD hargs) (hdata item hitem))
  refine hresults.bind fun results results' hresults => ?_
  obtain ⟨rfl, hdata⟩ := sameItems_of_forall₂ hresults
  exact .pure ⟨rfl, .collection hdata⟩

omit hinvoke in
theorem Builtin.run_contains_agree (defs : Definitions) (h : S.Data receiver)
    (hargs : Forall₂ S.Argument args args') :
    S.Agree S.Same (Builtin.run defs invoke site receiver args .contains)
      (Builtin.run defs invoke' site receiver args' .contains) := by
  have hhead := Argument.headD hargs
  cases receiver with
  | string text =>
    dsimp only [Builtin.run]
    generalize args.headD .null = part at hhead ⊢
    generalize args'.headD .null = part' at hhead ⊢
    cases hhead with
    | same =>
      cases part with
      | string => exact .pure ⟨rfl, .scalar rfl⟩
      | _ => exact site.fail_agree _ rfl
    | callee hcallee =>
      obtain ⟨⟨_, _, _, rfl⟩, _, _, _, rfl⟩ := S.callees_closure hcallee
      exact site.fail_agree _ rfl
  | collection kind items =>
    refine (site.items_agree h).bind fun items _ hitems => ?_
    obtain ⟨rfl, hdata⟩ := hitems
    have hany : items.any (Value.looselyEquals · (args.headD .null)) =
        items.any (Value.looselyEquals · (args'.headD .null)) := by
      rw [Bool.eq_iff_iff, List.any_eq_true, List.any_eq_true]
      refine exists_congr fun item => and_congr_right fun hitem => ?_
      rw [hhead.looselyEquals_eq (hdata item hitem)]
    exact .pure ⟨congrArg Value.bool hany, .scalar rfl⟩
  | _ => exact site.fail_agree _ rfl

omit hinvoke in
theorem Builtin.run_isNullOrEmpty_agree (defs : Definitions)
    (hargs : Forall₂ S.Argument args args') :
    S.Agree S.Same (Builtin.run defs invoke site receiver args .isNullOrEmpty)
      (Builtin.run defs invoke' site receiver args' .isNullOrEmpty) := by
  cases hargs with
  | nil => exact .pure ⟨rfl, .scalar rfl⟩
  | @cons arg arg' _ _ harg _ =>
    cases harg with
    | same =>
      cases arg with
      | null | string => exact .pure ⟨rfl, .scalar rfl⟩
      | _ => exact site.fail_agree _ rfl
    | callee hcallee =>
      obtain ⟨⟨_, _, _, rfl⟩, _, _, _, rfl⟩ := S.callees_closure hcallee
      exact site.fail_agree _ rfl

theorem Builtin.run_agree (defs : Definitions) (h : S.Data receiver)
    (hargs : Forall₂ S.Argument args args') (method : Builtin) :
    S.Agree S.Same (Builtin.run defs invoke site receiver args method)
      (Builtin.run defs invoke' site receiver args' method) := by
  have hmatching := site.matching_agree hinvoke h hargs
  cases method with
  | count | any =>
    refine hmatching.bind fun kept _ hkept => ?_
    obtain ⟨rfl, _⟩ := hkept
    exact .pure ⟨rfl, .scalar rfl⟩
  | first =>
    refine hmatching.bind fun kept _ hkept => ?_
    obtain ⟨rfl, hdata⟩ := hkept
    split
    · exact .fail rfl
    · exact .pure ⟨rfl, hdata _ List.mem_cons_self⟩
  | firstOrDefault =>
    refine hmatching.bind fun kept _ hkept => ?_
    obtain ⟨rfl, hdata⟩ := hkept
    split
    · exact .pure ⟨rfl, Value.everyClosure_default defs _⟩
    · exact .pure ⟨rfl, hdata _ List.mem_cons_self⟩
  | filter =>
    cases hargs with
    | nil => exact site.fail_agree _ rfl
    | cons =>
      refine hmatching.bind fun kept _ hkept => ?_
      obtain ⟨rfl, hdata⟩ := hkept
      exact .pure ⟨rfl, .collection hdata⟩
  | select => exact run_select_agree site hinvoke defs h hargs
  | sum => exact run_sum_agree site hinvoke defs h hargs
  | contains => exact run_contains_agree site defs h hargs
  | toUpper =>
    cases receiver with
    | string => exact .pure ⟨rfl, .scalar rfl⟩
    | _ => exact site.fail_agree _ rfl
  | length =>
    cases receiver with
    | string | collection => exact .pure ⟨rfl, .scalar rfl⟩
    | _ => exact site.fail_agree _ rfl
  | isNullOrEmpty => exact run_isNullOrEmpty_agree site defs hargs

end Methods

end NullGuard
