import Mathlib
import NullGuard.Ty.Numbering

/-! # Numbers and shapes

Each number stands for one shape and each shape has one number, whichever shards the shapes come
into, as long as the numbers fit into their bits. -/

namespace NullGuard

/-! ## The bits of a number -/

namespace TypeNumber

/-- How many positions of a shard have a number. -/
def positionCount : Nat := 2 ^ 28 - 7

variable {number : TypeNumber} {position : UInt32} {shard : Fin shardCount}

/-- The upper bits of a position that is too large are lost. -/
theorem toNat_ofPosition_eq_mod (position : UInt32) (shard : Fin shardCount) :
    (ofPosition position shard).value.toNat = (100 + (16 * position.toNat + shard)) % 2 ^ 32 := by
  have hshard : (shard : Nat) < 2 ^ 4 := shard.isLt
  have hshift : (position <<< 4).toNat = (position.toNat % 2 ^ 28) <<< 4 := by
    refine (UInt32.toNat_shiftLeft position 4).trans ?_
    rw [Nat.shiftLeft_eq, Nat.shiftLeft_eq]
    change position.toNat * 2 ^ 4 % 2 ^ 32 = _
    omega
  have hbits : (position <<< 4 ||| UInt32.ofNat shard).toNat =
      16 * (position.toNat % 2 ^ 28) + shard := by
    rw [UInt32.toNat_or, hshift, UInt32.toNat_ofNat_of_lt' (hshard.trans (by decide)),
      ← Nat.shiftLeft_add_eq_or_of_lt hshard, Nat.shiftLeft_eq]
    omega
  rw [ofPosition, UInt32.toNat_add, hbits]
  change (100 + _) % 2 ^ 32 = _
  omega

theorem toNat_ofPosition (h : position.toNat < positionCount) :
    (ofPosition position shard).value.toNat = 100 + (16 * position.toNat + shard) := by
  have hshard : (shard : Nat) < 16 := shard.isLt
  rw [positionCount] at h
  rw [toNat_ofPosition_eq_mod]
  omega

theorem firstFree_le_ofPosition (h : position.toNat < positionCount) :
    firstFree ≤ (ofPosition position shard).value := by
  rw [UInt32.le_iff_toNat_le, toNat_ofPosition h]
  exact Nat.le_add_right 100 _

theorem toNat_sub_firstFree (h : firstFree ≤ number.value) :
    (number.value - firstFree).toNat = number.value.toNat - 100 :=
  UInt32.toNat_sub_of_le _ _ h

theorem toNat_position (h : firstFree ≤ number.value) :
    number.position.toNat = (number.value.toNat - 100) / 16 := by
  rw [TypeNumber.position, UInt32.toNat_shiftRight, toNat_sub_firstFree h,
    Nat.shiftRight_eq_div_pow]
  rfl

theorem coe_shard (h : firstFree ≤ number.value) :
    (number.shard : Nat) = (number.value.toNat - 100) % 16 := by
  have hmask : ((number.value - firstFree) &&& 15).toNat = (number.value.toNat - 100) % 2 ^ 4 := by
    rw [UInt32.toNat_and, toNat_sub_firstFree h]
    exact Nat.and_two_pow_sub_one_eq_mod _ 4
  rw [TypeNumber.shard, Fin.val_ofNat, hmask]
  exact Nat.mod_mod _ _

/-- A number whose position is too large is reserved or that of an earlier position. -/
theorem ofPosition_lt_firstFree_or (position : UInt32) (shard : Fin shardCount) :
    (ofPosition position shard).value < firstFree ∨
      firstFree ≤ (ofPosition position shard).value ∧ (ofPosition position shard).shard = shard ∧
        (ofPosition position shard).position.toNat ≤ position.toNat := by
  rcases UInt32.lt_or_le (ofPosition position shard).value firstFree with hlt | hle
  · exact .inl hlt
  · have hshard : (shard : Nat) < 16 := shard.isLt
    have hvalue := toNat_ofPosition_eq_mod position shard
    have hfree : 100 ≤ (ofPosition position shard).value.toNat := UInt32.le_iff_toNat_le.mp hle
    refine .inr ⟨hle, ?_, ?_⟩
    · rw [Fin.ext_iff, coe_shard hle]
      omega
    · rw [toNat_position hle]
      omega

theorem position_ofPosition (h : position.toNat < positionCount) :
    (ofPosition position shard).position = position := by
  have hshard : (shard : Nat) < 16 := shard.isLt
  rw [← UInt32.toNat_inj, toNat_position (firstFree_le_ofPosition h), toNat_ofPosition h]
  omega

theorem shard_ofPosition (h : position.toNat < positionCount) :
    (ofPosition position shard).shard = shard := by
  have hshard : (shard : Nat) < 16 := shard.isLt
  rw [Fin.ext_iff, coe_shard (firstFree_le_ofPosition h), toNat_ofPosition h]
  omega

theorem ofPosition_position_shard (h : firstFree ≤ number.value)
    (hposition : number.position.toNat < positionCount) :
    ofPosition number.position number.shard = number := by
  have hle : 100 ≤ number.value.toNat := UInt32.le_iff_toNat_le.mp h
  have hvalue : (ofPosition number.position number.shard).value = number.value := by
    rw [← UInt32.toNat_inj, toNat_ofPosition hposition, toNat_position h, coe_shard h]
    omega
  exact congrArg TypeNumber.mk hvalue

/-- The numbers of built-in types are read back. -/
theorem ofNumber?_eq_some_iff {kind : Intrinsic} :
    Intrinsic.ofNumber? number.value.toNat = some kind ↔ number = ofIntrinsic kind := by
  have hkind : (ofIntrinsic kind).value.toNat = kind.number := by cases kind <;> rfl
  constructor
  · intro h
    have hnumber : kind.number = number.value.toNat := by simpa using List.find?_some h
    exact congrArg TypeNumber.mk (UInt32.toNat_inj.mp (hnumber.symm.trans hkind.symm))
  · rintro rfl
    rw [hkind, Intrinsic.ofNumber?_number]

theorem ofIntrinsic_lt_firstFree (kind : Intrinsic) : (ofIntrinsic kind).value < firstFree := by
  cases kind <;> decide

end TypeNumber

/-! ## Shards -/

namespace Shard

variable {shard : Shard} {shape other : Shape} {position : UInt32}

/-- The positions and the shapes of a shard tell the same. -/
structure InStep (shard : Shard) : Prop where
  getElem?_of_position? {shape : Shape} {position : UInt32}
    (h : shard.position? shape = some position) : shard.shapes[position.toNat]? = some shape
  position?_of_getElem? {shape : Shape} {index : Nat} (h : shard.shapes[index]? = some shape) :
    shard.position? shape = some (.ofNat index)

theorem inStep_empty : empty.InStep :=
  ⟨nofun, nofun⟩

theorem position?_add_self : (shard.add shape).position? shape = some shard.next := by
  simp [position?, add]

theorem position?_add_of_ne (h : other ≠ shape) :
    (shard.add shape).position? other = shard.position? other := by
  have hne : (other == shape) = false := beq_false_of_ne h
  simp [position?, add, List.lookup, hne]

theorem getElem?_add {index : Nat} :
    (shard.add shape).shapes[index]? =
      if index = shard.shapes.size then some shape else shard.shapes[index]? :=
  Array.getElem?_push

theorem toNat_next (h : shard.shapes.size < TypeNumber.positionCount) :
    shard.next.toNat = shard.shapes.size :=
  UInt32.toNat_ofNat_of_lt' (h.trans (by decide))

theorem InStep.add (h : shard.InStep) (hnew : shard.position? shape = none)
    (hroom : shard.shapes.size < TypeNumber.positionCount) : (shard.add shape).InStep := by
  constructor
  · intro other position hposition
    rw [getElem?_add]
    by_cases hother : other = shape
    · subst hother
      rw [position?_add_self] at hposition
      cases hposition
      rw [toNat_next hroom, if_pos rfl]
    · rw [position?_add_of_ne hother] at hposition
      have hold := h.getElem?_of_position? hposition
      have hlt := (Array.getElem?_eq_some_iff.mp hold).1
      rw [if_neg (Nat.ne_of_lt hlt), hold]
  · intro other index hindex
    rw [getElem?_add] at hindex
    split at hindex
    · rename_i hlast
      cases hindex
      rw [position?_add_self, hlast]
      rfl
    · have hold := h.position?_of_getElem? hindex
      have hother : other ≠ shape := by
        rintro rfl
        cases hnew.symm.trans hold
      rw [position?_add_of_ne hother, hold]

theorem InStep.nodup_shapes (h : shard.InStep)
    (hroom : shard.shapes.size < TypeNumber.positionCount) : shard.shapes.toList.Nodup := by
  have hfits {index : Nat} (hindex : index < shard.shapes.size) :
      (UInt32.ofNat index).toNat = index :=
    UInt32.toNat_ofNat_of_lt' ((hindex.trans hroom).trans (by decide))
  rw [List.nodup_iff_getElem?_ne_getElem?]
  intro i j hij hj hsame
  rw [Array.length_toList] at hj
  rw [Array.getElem?_toList, Array.getElem?_toList, Array.getElem?_eq_getElem hj] at hsame
  have hposition := (h.position?_of_getElem? hsame).symm.trans
    (h.position?_of_getElem? (Array.getElem?_eq_getElem hj))
  have hindex := congrArg UInt32.toNat (Option.some.inj hposition)
  rw [hfits (hij.trans hj), hfits hj] at hindex
  omega

end Shard

/-! ## One call -/

namespace Numbering

variable {shardOf : Shape → Fin TypeNumber.shardCount} {numbering after : Numbering}
  {shape : Shape} {number : TypeNumber} {index : Fin TypeNumber.shardCount}

/-- What a call for the number of a shape can give and leave. -/
inductive Assigns (shardOf : Shape → Fin TypeNumber.shardCount) (numbering : Numbering) :
    Shape → TypeNumber → Numbering → Prop where
  | builtin (kind : Intrinsic) :
      Assigns shardOf numbering (.intrinsic kind) (.ofIntrinsic kind) numbering
  | known {shape : Shape} {position : UInt32} (hshape : shape.isIntrinsic = false)
      (h : (numbering.shard (shardOf shape)).position? shape = some position) :
      Assigns shardOf numbering shape (.ofPosition position (shardOf shape)) numbering
  | new {shape : Shape} (hshape : shape.isIntrinsic = false)
      (h : (numbering.shard (shardOf shape)).position? shape = none) :
      Assigns shardOf numbering shape
        (.ofPosition (numbering.shard (shardOf shape)).next (shardOf shape))
        (numbering.setShard (shardOf shape) ((numbering.shard (shardOf shape)).add shape))

theorem assign_of_not_isIntrinsic (h : shape.isIntrinsic = false) :
    numbering.assign shardOf shape =
      match (numbering.shard (shardOf shape)).position? shape with
      | some position => (.ofPosition position (shardOf shape), numbering)
      | none => (.ofPosition (numbering.shard (shardOf shape)).next (shardOf shape),
        numbering.setShard (shardOf shape) ((numbering.shard (shardOf shape)).add shape)) := by
  cases shape with
  | intrinsic => cases h
  | _ => rfl

theorem assigns_iff :
    Assigns shardOf numbering shape number after ↔
      numbering.assign shardOf shape = (number, after) := by
  constructor
  · intro h
    cases h with
    | builtin kind => rfl
    | known hshape h => rw [assign_of_not_isIntrinsic hshape, h]
    | new hshape h => rw [assign_of_not_isIntrinsic hshape, h]
  · intro h
    cases hshape : shape.isIntrinsic with
    | true =>
      cases shape with
      | intrinsic kind =>
        cases h
        exact .builtin kind
      | _ => cases hshape
    | false =>
      rw [assign_of_not_isIntrinsic hshape] at h
      split at h
      · rename_i hposition
        cases h
        exact .known hshape hposition
      · rename_i hposition
        cases h
        exact .new hshape hposition

theorem shape?_eq_some_iff :
    numbering.shape? number = some shape ↔
      (∃ kind, shape = .intrinsic kind ∧ number = .ofIntrinsic kind) ∨
        TypeNumber.firstFree ≤ number.value ∧
          (numbering.shard number.shard).shapes[number.position.toNat]? = some shape := by
  unfold shape?
  by_cases hreserved : number.isReserved = true
  · have hnotFree : ¬ TypeNumber.firstFree ≤ number.value := by
      rw [UInt32.not_le]
      exact of_decide_eq_true (Bool.and_eq_true_iff.mp hreserved).2
    rw [if_pos hreserved, Option.map_eq_some_iff]
    simp only [TypeNumber.ofNumber?_eq_some_iff, hnotFree, false_and, or_false]
    exact exists_congr fun kind => and_comm.trans (and_congr_left' eq_comm)
  · have hkind (kind : Intrinsic) : number ≠ .ofIntrinsic kind := by
      rintro rfl
      exact hreserved (by cases kind <;> decide)
    rw [if_neg hreserved]
    by_cases hfree : TypeNumber.firstFree ≤ number.value
    · simp [hfree, UInt32.not_lt.mpr hfree, hkind]
    · simp [hfree, UInt32.not_le.mp hfree, hkind]

/-- Each shard is in step and holds the shapes that it is selected for. -/
structure InStep (shardOf : Shape → Fin TypeNumber.shardCount) (numbering : Numbering) : Prop where
  shard (index : Fin TypeNumber.shardCount) : (numbering.shard index).InStep
  home {index : Fin TypeNumber.shardCount} {shape : Shape}
    (h : shape ∈ (numbering.shard index).shapes) :
    shape.isIntrinsic = false ∧ shardOf shape = index

/-- No shard holds so many shapes that a number would not fit into its bits. -/
def HasRoom (numbering : Numbering) : Prop :=
  ∀ index, (numbering.shard index).shapes.size < TypeNumber.positionCount

theorem inStep_empty : empty.InStep shardOf := by
  refine ⟨fun index => ?_, fun {index shape} h => ?_⟩
  · rw [shard_empty]
    exact Shard.inStep_empty
  · rw [shard_empty] at h
    exact absurd h (Array.not_mem_empty shape)

section Assigns

variable (h : Assigns shardOf numbering shape number after)

include h

theorem Assigns.getElem?_shapes {position : Nat} {other : Shape}
    (hother : (numbering.shard index).shapes[position]? = some other) :
    (after.shard index).shapes[position]? = some other := by
  cases h with
  | builtin | known => exact hother
  | new =>
    by_cases hindex : index = shardOf shape
    · subst hindex
      have hlt := (Array.getElem?_eq_some_iff.mp hother).1
      rw [shard_setShard_self, Shard.getElem?_add, if_neg (Nat.ne_of_lt hlt), hother]
    · rw [shard_setShard_of_ne _ _ hindex, hother]

/-- What a number stands for stays. -/
theorem Assigns.shape?_of_shape? {other : TypeNumber} {shape' : Shape}
    (hother : numbering.shape? other = some shape') : after.shape? other = some shape' := by
  rw [shape?_eq_some_iff] at hother ⊢
  exact hother.imp_right fun ⟨hfree, hshape⟩ => ⟨hfree, h.getElem?_shapes hshape⟩

theorem Assigns.hasRoom (hroom : after.HasRoom) : numbering.HasRoom := by
  intro index
  refine Nat.lt_of_le_of_lt ?_ (hroom index)
  cases h with
  | builtin | known => exact Nat.le_refl _
  | new =>
    by_cases hindex : index = shardOf shape
    · subst hindex
      rw [shard_setShard_self]
      simp [Shard.add]
    · rw [shard_setShard_of_ne _ _ hindex]

theorem Assigns.inStep (hstep : numbering.InStep shardOf) (hroom : numbering.HasRoom) :
    after.InStep shardOf := by
  cases h with
  | builtin | known => exact hstep
  | new hshape hnew =>
    constructor
    · intro index
      by_cases hindex : index = shardOf shape
      · subst hindex
        rw [shard_setShard_self]
        exact (hstep.shard _).add hnew (hroom _)
      · rw [shard_setShard_of_ne _ _ hindex]
        exact hstep.shard index
    · intro index other hother
      by_cases hindex : index = shardOf shape
      · subst hindex
        rw [shard_setShard_self] at hother
        rcases Array.mem_push.mp hother with hother | rfl
        · exact hstep.home hother
        · exact ⟨hshape, rfl⟩
      · rw [shard_setShard_of_ne _ _ hindex] at hother
        exact hstep.home hother

/-- A shape that is not built in stands at the position that its number tells. -/
theorem Assigns.placed (hstep : numbering.InStep shardOf) (hroom : numbering.HasRoom) :
    (∃ kind, shape = .intrinsic kind ∧ number = .ofIntrinsic kind) ∨
      shape.isIntrinsic = false ∧ ∃ position : UInt32,
        position.toNat < TypeNumber.positionCount ∧
        number = .ofPosition position (shardOf shape) ∧
        (after.shard (shardOf shape)).shapes[position.toNat]? = some shape := by
  cases h with
  | builtin kind => exact .inl ⟨kind, rfl, rfl⟩
  | known hshape h =>
    have hget := (hstep.shard _).getElem?_of_position? h
    have hlt := (Array.getElem?_eq_some_iff.mp hget).1
    exact .inr ⟨hshape, _, hlt.trans (hroom _), rfl, hget⟩
  | new hshape h =>
    have hnext := Shard.toNat_next (hroom (shardOf shape))
    refine .inr ⟨hshape, _, hnext.trans_lt (hroom _), rfl, ?_⟩
    rw [shard_setShard_self, Shard.getElem?_add, if_pos hnext]

theorem Assigns.shape?_eq (hstep : numbering.InStep shardOf) (hroom : numbering.HasRoom) :
    after.shape? number = some shape := by
  rw [shape?_eq_some_iff]
  refine (h.placed hstep hroom).imp_right ?_
  rintro ⟨-, position, hposition, rfl, hget⟩
  rw [TypeNumber.shard_ofPosition hposition, TypeNumber.position_ofPosition hposition]
  exact ⟨TypeNumber.firstFree_le_ofPosition hposition, hget⟩

/-- The reserved numbers are those of the built-in shapes. -/
theorem Assigns.isIntrinsic_iff (hstep : numbering.InStep shardOf) (hroom : numbering.HasRoom) :
    shape.isIntrinsic = true ↔ number.value < TypeNumber.firstFree := by
  rcases h.placed hstep hroom with ⟨kind, rfl, rfl⟩ | ⟨hshape, position, hposition, rfl, -⟩
  · simp [Shape.isIntrinsic, TypeNumber.ofIntrinsic_lt_firstFree]
  · simp [hshape, TypeNumber.firstFree_le_ofPosition hposition]

end Assigns

/-- A shape that has a number keeps it, and nothing new comes in for it. -/
theorem InStep.assigns_of_shape? (h : numbering.InStep shardOf) (hroom : numbering.HasRoom)
    (hshape : numbering.shape? number = some shape) :
    Assigns shardOf numbering shape number numbering := by
  rcases shape?_eq_some_iff.mp hshape with ⟨kind, rfl, rfl⟩ | ⟨hfree, hget⟩
  · exact .builtin kind
  · obtain ⟨hnotIntrinsic, hshard⟩ := h.home (Array.mem_of_getElem? hget)
    have hposition := (h.shard _).position?_of_getElem? hget
    have hlt := (Array.getElem?_eq_some_iff.mp hget).1.trans (hroom number.shard)
    rw [UInt32.ofNat_toNat, ← hshard] at hposition
    have hknown := Assigns.known hnotIntrinsic hposition
    rwa [hshard, TypeNumber.ofPosition_position_shard hfree hlt] at hknown

/-! ## Many calls -/

/-- Asks for the numbers of shapes one after the other. -/
def assignAll (shardOf : Shape → Fin TypeNumber.shardCount) (numbering : Numbering) :
    List Shape → List TypeNumber × Numbering
  | [] => ([], numbering)
  | shape :: shapes =>
    let (number, middle) := numbering.assign shardOf shape
    let (numbers, last) := middle.assignAll shardOf shapes
    (number :: numbers, last)

inductive AssignsAll (shardOf : Shape → Fin TypeNumber.shardCount) :
    Numbering → List Shape → List TypeNumber → Numbering → Prop where
  | nil (numbering : Numbering) : AssignsAll shardOf numbering [] [] numbering
  | cons {numbering middle last : Numbering} {shape : Shape} {number : TypeNumber}
      {shapes : List Shape} {numbers : List TypeNumber}
      (h : Assigns shardOf numbering shape number middle)
      (hrest : AssignsAll shardOf middle shapes numbers last) :
      AssignsAll shardOf numbering (shape :: shapes) (number :: numbers) last

variable {calls : List Shape} {numbers : List TypeNumber}

theorem assignsAll_assignAll (shardOf : Shape → Fin TypeNumber.shardCount) (numbering : Numbering)
    (calls : List Shape) :
    AssignsAll shardOf numbering calls (numbering.assignAll shardOf calls).1
      (numbering.assignAll shardOf calls).2 := by
  induction calls generalizing numbering with
  | nil => exact .nil numbering
  | cons call calls ih => exact .cons (assigns_iff.mpr rfl) (ih _)

section AssignsAll

variable (h : AssignsAll shardOf numbering calls numbers after)

include h

theorem AssignsAll.length_eq : numbers.length = calls.length := by
  induction h with
  | nil => rfl
  | cons _ _ ih => rw [List.length_cons, List.length_cons, ih]

theorem AssignsAll.shape?_of_shape? (hshape : numbering.shape? number = some shape) :
    after.shape? number = some shape := by
  induction h with
  | nil => exact hshape
  | cons h _ ih => exact ih (h.shape?_of_shape? hshape)

theorem AssignsAll.hasRoom (hroom : after.HasRoom) : numbering.HasRoom := by
  induction h with
  | nil => exact hroom
  | cons h _ ih => exact h.hasRoom (ih hroom)

theorem AssignsAll.inStep (hstep : numbering.InStep shardOf) (hroom : after.HasRoom) :
    after.InStep shardOf := by
  induction h with
  | nil => exact hstep
  | cons h hrest ih => exact ih (h.inStep hstep (h.hasRoom (hrest.hasRoom hroom))) hroom

/-- What a call gives stands for its shape to the end. -/
theorem AssignsAll.forall_mem_zip (hstep : numbering.InStep shardOf) (hroom : after.HasRoom) :
    ∀ pair ∈ calls.zip numbers, after.shape? pair.2 = some pair.1 ∧
      (pair.1.isIntrinsic = true ↔ pair.2.value < TypeNumber.firstFree) := by
  induction h with
  | nil => exact nofun
  | cons h hrest ih =>
    have hfirst := h.hasRoom (hrest.hasRoom hroom)
    refine List.forall_mem_cons.mpr ⟨⟨?_, h.isIntrinsic_iff hstep hfirst⟩,
      ih (h.inStep hstep hfirst) hroom⟩
    exact hrest.shape?_of_shape? (h.shape?_eq hstep hfirst)

end AssignsAll

/-! ## How many numbers there are -/

/-- The shapes of all shards. -/
def shapes (numbering : Numbering) : List Shape :=
  numbering.shards.toList.flatMap fun shard => shard.shapes.toList

theorem length_shapes : numbering.shapes.length = numbering.size := by
  simp [shapes, size, List.length_flatMap, List.sum_eq_foldl, List.foldl_map]

theorem shards_toList : numbering.shards.toList = (List.finRange _).map numbering.shard := by
  refine List.ext_getElem (by simp) fun i hi _ => ?_
  simp [Numbering.shard]

theorem mem_shapes :
    shape ∈ numbering.shapes ↔ ∃ index, shape ∈ (numbering.shard index).shapes := by
  simp [shapes, shards_toList]

theorem InStep.nodup_shapes (h : numbering.InStep shardOf) (hroom : numbering.HasRoom) :
    numbering.shapes.Nodup := by
  rw [shapes, shards_toList, List.flatMap_map, List.nodup_flatMap]
  refine ⟨fun index _ => (h.shard index).nodup_shapes (hroom index), ?_⟩
  refine (List.nodup_finRange _).pairwise_of_forall_ne fun index _ other _ hne shape hmem hmem' =>
    hne ?_
  have hshard := (h.home (Array.mem_toList_iff.mp hmem)).2
  exact hshard.symm.trans (h.home (Array.mem_toList_iff.mp hmem')).2

theorem Assigns.mem_shapes (h : Assigns shardOf numbering shape number after)
    (hstep : numbering.InStep shardOf) {other : Shape} :
    other ∈ after.shapes ↔ other ∈ numbering.shapes ∨
      other = shape ∧ shape.isIntrinsic = false := by
  cases h with
  | builtin kind => simp [Shape.isIntrinsic]
  | known hshape h =>
    have hmem := Array.mem_of_getElem? ((hstep.shard _).getElem?_of_position? h)
    refine ⟨.inl, ?_⟩
    rintro (hother | ⟨rfl, -⟩)
    · exact hother
    · exact Numbering.mem_shapes.mpr ⟨_, hmem⟩
  | new hshape =>
    simp only [Numbering.mem_shapes]
    constructor
    · rintro ⟨index, hother⟩
      by_cases hindex : index = shardOf shape
      · subst hindex
        rw [shard_setShard_self] at hother
        exact (Array.mem_push.mp hother).imp (fun hother => ⟨_, hother⟩) fun heq => ⟨heq, hshape⟩
      · rw [shard_setShard_of_ne _ _ hindex] at hother
        exact .inl ⟨index, hother⟩
    · rintro (⟨index, hother⟩ | ⟨rfl, -⟩)
      · refine ⟨index, ?_⟩
        by_cases hindex : index = shardOf shape
        · subst hindex
          rw [shard_setShard_self]
          exact Array.mem_push_of_mem _ hother
        · rwa [shard_setShard_of_ne _ _ hindex]
      · refine ⟨shardOf other, ?_⟩
        rw [shard_setShard_self]
        exact Array.mem_push_self

theorem AssignsAll.mem_shapes (h : AssignsAll shardOf numbering calls numbers after)
    (hstep : numbering.InStep shardOf) (hroom : after.HasRoom) {other : Shape} :
    other ∈ after.shapes ↔ other ∈ numbering.shapes ∨
      other ∈ calls ∧ other.isIntrinsic = false := by
  induction h with
  | nil => simp
  | cons h hrest ih =>
    rw [ih (h.inStep hstep (h.hasRoom (hrest.hasRoom hroom))) hroom, h.mem_shapes hstep,
      List.mem_cons]
    constructor
    · rintro ((hother | ⟨rfl, hnew⟩) | ⟨hother, hnew⟩)
      · exact .inl hother
      · exact .inr ⟨.inl rfl, hnew⟩
      · exact .inr ⟨.inr hother, hnew⟩
    · rintro (hother | ⟨rfl | hother, hnew⟩)
      · exact .inl (.inl hother)
      · exact .inl (.inr ⟨rfl, hnew⟩)
      · exact .inr ⟨hother, hnew⟩

theorem shapes_empty : empty.shapes = [] := by
  decide

/-- From an empty start, there are as many numbers as different shapes that are not built in. -/
theorem AssignsAll.size_eq (h : AssignsAll shardOf empty calls numbers numbering)
    (hroom : numbering.HasRoom) :
    numbering.size = (calls.filter fun shape => !shape.isIntrinsic).toFinset.card := by
  have hnodup := (h.inStep inStep_empty hroom).nodup_shapes hroom
  rw [← length_shapes, ← List.toFinset_card_of_nodup hnodup]
  congr 1
  ext shape
  simp [h.mem_shapes inStep_empty hroom, shapes_empty]

/-! ## Numbers and shapes correspond -/

/-- Whichever shards the shapes come into, each number that is given stands for its shape, then
and later, and different shapes get different numbers. In a workspace the first calls are those
for the types of the collections. -/
theorem assign_bijective (shardOf : Shape → Fin TypeNumber.shardCount) (calls : List Shape)
    {numbers : List TypeNumber} {numbering : Numbering}
    (hrun : empty.assignAll shardOf calls = (numbers, numbering)) (hroom : numbering.HasRoom) :
    numbers.length = calls.length ∧
    (∀ shape number, (shape, number) ∈ calls.zip numbers →
      numbering.shape? number = some shape ∧
        (shape.isIntrinsic = true ↔ number.value < TypeNumber.firstFree)) ∧
    (∀ shape number, (shape, number) ∈ calls.zip numbers →
      ∀ shape' number', (shape', number') ∈ calls.zip numbers →
        (number = number' ↔ shape = shape')) ∧
    (∀ number shape, numbering.shape? number = some shape →
      numbering.assign shardOf shape = (number, numbering)) ∧
    (∀ more number shape, numbering.shape? number = some shape →
      (numbering.assignAll shardOf more).2.shape? number = some shape) ∧
    numbering.size = (calls.filter fun shape => !shape.isIntrinsic).toFinset.card := by
  have hall := assignsAll_assignAll shardOf empty calls
  rw [hrun] at hall
  have hstep := hall.inStep inStep_empty hroom
  have hgiven := hall.forall_mem_zip inStep_empty hroom
  have hagain {number : TypeNumber} {shape : Shape} (h : numbering.shape? number = some shape) :
      numbering.assign shardOf shape = (number, numbering) :=
    assigns_iff.mp (hstep.assigns_of_shape? hroom h)
  refine ⟨hall.length_eq, fun shape number hmem => hgiven _ hmem, ?_, fun _ _ => hagain,
    fun more number shape => (assignsAll_assignAll shardOf numbering more).shape?_of_shape?,
    hall.size_eq hroom⟩
  intro shape number hmem shape' number' hmem'
  have hshape := (hgiven _ hmem).1
  have hshape' := (hgiven _ hmem').1
  constructor
  · rintro rfl
    exact Option.some.inj (hshape.symm.trans hshape')
  · rintro rfl
    exact congrArg Prod.fst ((hagain hshape).symm.trans (hagain hshape'))

/-- An array type that is asked for twice, with a built-in type between and a nullable form after
it, in one shard. -/
def arrayCalls : List Shape :=
  [.array (.ofIntrinsic .int), .intrinsic .string, .array (.ofIntrinsic .int),
    .nullable (.ofIntrinsic .int)]

theorem assign_bijective_arrayCalls :
    ∃ numbers numbering, empty.assignAll (fun _ => 12) arrayCalls = (numbers, numbering) ∧
      numbering.HasRoom ∧ numbers = [⟨112⟩, ⟨9⟩, ⟨112⟩, ⟨128⟩] ∧
      numbering.shape? ⟨128⟩ = some (.nullable (.ofIntrinsic .int)) ∧
      numbering.assign (fun _ => 12) (.nullable (.ofIntrinsic .int)) = (⟨128⟩, numbering) ∧
      numbering.size = 2 := by
  have hrun : ∃ numbers numbering,
      empty.assignAll (fun _ => 12) arrayCalls = (numbers, numbering) ∧ numbering.HasRoom ∧
        numbers = [⟨112⟩, ⟨9⟩, ⟨112⟩, ⟨128⟩] :=
    ⟨_, _, rfl, by unfold HasRoom; decide, by decide⟩
  obtain ⟨numbers, numbering, hrun, hroom, rfl⟩ := hrun
  obtain ⟨-, hgiven, -, hagain, -, hsize⟩ := assign_bijective (fun _ => 12) arrayCalls hrun hroom
  have hshape := (hgiven (.nullable (.ofIntrinsic .int)) ⟨128⟩ (by decide)).1
  exact ⟨_, numbering, hrun, hroom, rfl, hshape, hagain _ _ hshape, hsize.trans (by decide)⟩

end Numbering

end NullGuard
