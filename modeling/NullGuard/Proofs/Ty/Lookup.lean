import Mathlib.Data.List.Induction
import NullGuard.Ty.Definition

/-! # Definitions by number and by name

A name means the latest definition that has it. -/

namespace NullGuard.Definitions

variable {defs : Definitions} {name : String} {id : DefId} {definition last : Definition}

theorem get?_eq_some_iff :
    defs.get? id = some definition ↔
      ∃ position, id.number = position + 1 ∧ defs.toList[position]? = some definition := by
  unfold get?
  cases id.number with
  | zero => simp
  | succ position => simp

theorem number_le_size (h : defs.get? id = some definition) : id.number ≤ defs.size := by
  obtain ⟨position, hnumber, hfound⟩ := get?_eq_some_iff.mp h
  obtain ⟨hlt, _⟩ := List.getElem?_eq_some_iff.mp hfound
  rw [hnumber]
  exact hlt

theorem get?_register (defs : Definitions) (last : Definition) (id : DefId) :
    (defs.register last).2.get? id =
      if id.number = defs.size + 1 then some last else defs.get? id := by
  obtain ⟨number⟩ := id
  cases number with
  | zero => rfl
  | succ position =>
    simp only [register, get?, size, List.getElem?_append, Nat.add_right_cancel_iff]
    rcases Nat.lt_trichotomy position defs.toList.length with hlt | rfl | hgt
    · simp [hlt, Nat.ne_of_lt hlt]
    · simp
    · simp [Nat.not_lt_of_gt hgt, Nat.ne_of_gt hgt, Nat.sub_eq_zero_iff_le, hgt]

/-- Later definitions take no number away. -/
theorem get?_register_of_eq_some (h : defs.get? id = some definition) (last : Definition) :
    (defs.register last).2.get? id = some definition := by
  have hle := number_le_size h
  rw [get?_register, if_neg (by omega), h]

theorem get?_modify (defs : Definitions) (id : DefId) (change : Definition → Definition)
    (other : DefId) :
    (defs.modify id change).get? other =
      if other = id then (defs.get? other).map change else defs.get? other := by
  obtain ⟨number⟩ := id
  obtain ⟨number'⟩ := other
  cases number with
  | zero =>
    cases number' with
    | zero => rfl
    | succ => simp [modify]
  | succ position =>
    cases number' with
    | zero => simp [get?]
    | succ position' =>
      simp only [modify, get?, List.getElem?_modify, DefId.mk.injEq, Nat.add_right_cancel_iff,
        @eq_comm _ position]
      split
      · rfl
      · exact congrFun Option.map_id _

theorem find?_register (defs : Definitions) (last : Definition) (name : String) :
    (defs.register last).2.find? name =
      if last.name = name then some ⟨defs.size + 1⟩ else defs.find? name := by
  simp only [find?, register, size, List.reverse_append, List.reverse_cons, List.reverse_nil,
    List.nil_append, List.cons_append, List.findIdx?_cons, List.length_append, List.length_cons,
    List.length_nil, decide_eq_true_eq]
  split
  · rfl
  · simp only [Option.map_map]
    congr 1
    funext later
    simp only [Function.comp_apply, DefId.mk.injEq]
    omega

/-- The definition has the name and the number, and none with a higher number has the name. -/
structure Latest (defs : Definitions) (name : String) (id : DefId) (definition : Definition) :
    Prop where
  get?_eq : defs.get? id = some definition
  name_eq : definition.name = name
  later_ne : ∀ other later, id.number < other.number → defs.get? other = some later →
    later.name ≠ name

theorem latest_register_of_name_eq (h : last.name = name) :
    (defs.register last).2.Latest name id definition ↔
      id = ⟨defs.size + 1⟩ ∧ definition = last := by
  constructor
  · intro hlatest
    have hnumber : id.number = defs.size + 1 := by
      by_contra hne
      have hle : id.number ≤ defs.size := by
        have hget := hlatest.get?_eq
        rw [get?_register, if_neg hne] at hget
        exact number_le_size hget
      refine hlatest.later_ne ⟨defs.size + 1⟩ last (Nat.lt_succ_of_le hle) ?_ h
      rw [get?_register, if_pos rfl]
    have hget := hlatest.get?_eq
    rw [get?_register, if_pos hnumber] at hget
    exact ⟨congrArg DefId.mk hnumber, (Option.some.inj hget).symm⟩
  · rintro ⟨rfl, rfl⟩
    refine ⟨by rw [get?_register, if_pos rfl], h, fun other later hlt hget => ?_⟩
    rw [get?_register, if_neg (Nat.ne_of_gt hlt)] at hget
    exact absurd (number_le_size hget) (Nat.not_le_of_lt (Nat.lt_of_succ_lt hlt))

theorem latest_register_of_name_ne (h : last.name ≠ name) :
    (defs.register last).2.Latest name id definition ↔ defs.Latest name id definition := by
  constructor
  · intro hlatest
    have hget := hlatest.get?_eq
    rw [get?_register] at hget
    split at hget
    · cases hget
      exact absurd hlatest.name_eq h
    · refine ⟨hget, hlatest.name_eq, fun other later hlt hother => ?_⟩
      exact hlatest.later_ne other later hlt (get?_register_of_eq_some hother last)
  · intro hlatest
    refine ⟨get?_register_of_eq_some hlatest.get?_eq last, hlatest.name_eq,
      fun other later hlt hother => ?_⟩
    · rw [get?_register] at hother
      split at hother
      · cases hother
        exact h
      · exact hlatest.later_ne other later hlt hother

theorem find?_eq_some_iff :
    defs.find? name = some id ↔ ∃ definition, defs.Latest name id definition := by
  obtain ⟨definitions⟩ := defs
  induction definitions using List.reverseRecOn with
  | nil =>
    refine ⟨nofun, fun ⟨definition, hlatest⟩ => ?_⟩
    obtain ⟨position, _, hget⟩ := get?_eq_some_iff.mp hlatest.get?_eq
    cases hget
  | append_singleton earlier last ih =>
    change (register ⟨earlier⟩ last).2.find? name = some id ↔
      ∃ definition, (register ⟨earlier⟩ last).2.Latest name id definition
    rw [find?_register]
    by_cases h : last.name = name
    · simp only [if_pos h, latest_register_of_name_eq h, Option.some.injEq, exists_and_left,
        exists_eq, and_true]
      exact eq_comm
    · simp only [if_neg h, latest_register_of_name_ne h, ih]

theorem latest_of_find? (h : defs.find? name = some id) (hget : defs.get? id = some definition) :
    defs.Latest name id definition := by
  obtain ⟨found, hlatest⟩ := find?_eq_some_iff.mp h
  obtain rfl := Option.some.inj (hlatest.get?_eq.symm.trans hget)
  exact hlatest

end NullGuard.Definitions
