import NullGuard.Proofs.Ty.Making
import NullGuard.Proofs.Ty.Numbering

/-! # Numbers of parts

A type gets its number after its parts have theirs. From a number, the numbers of parts therefore
lead down to types without parts, even if there were so many numbers that some would be given
twice; up to there, numbers and types are one to one. -/

namespace NullGuard

/-! ## One more number -/

namespace Shard

variable {shard : Shard} {shape : Shape}

/-- Each position that is known is one of a shape. -/
def Within (shard : Shard) : Prop :=
  ∀ shape position, shard.position? shape = some position → position.toNat < shard.shapes.size

theorem toNat_next_le (shard : Shard) : shard.next.toNat ≤ shard.shapes.size := by
  rw [next, UInt32.toNat_ofNat']
  exact Nat.mod_le _ _

theorem Within.add (h : shard.Within) (shape : Shape) : (shard.add shape).Within := by
  intro other position hposition
  have hsize : (shard.add shape).shapes.size = shard.shapes.size + 1 := Array.size_push _
  rw [hsize]
  by_cases hother : other = shape
  · subst hother
    rw [position?_add_self] at hposition
    cases hposition
    exact Nat.lt_succ_of_le shard.toNat_next_le
  · rw [position?_add_of_ne hother] at hposition
    exact Nat.lt_succ_of_lt (h other position hposition)

end Shard

namespace Numbering

variable {shardOf : Shape → Fin TypeNumber.shardCount} {numbering after : Numbering}
  {shape : Shape} {number : TypeNumber}

/-- The first number is that of a part of what the second one stands for. -/
def IsPart (numbering : Numbering) (part whole : TypeNumber) : Prop :=
  ∃ shape, numbering.shape? whole = some shape ∧ part ∈ shape.parts

/-- The number is kept for built-in types or stands for a shape, so that no new shape gets it. -/
def Settled (numbering : Numbering) (number : TypeNumber) : Prop :=
  number.value < TypeNumber.firstFree ∨ ∃ shape, numbering.shape? number = some shape

/-- All numbers of parts are settled and lead down. -/
structure Orderly (numbering : Numbering) : Prop where
  within : ∀ index, (numbering.shard index).Within
  settled : ∀ {part whole}, numbering.IsPart part whole → numbering.Settled part
  wellFounded : WellFounded numbering.IsPart

theorem InStep.number_inj (h : numbering.InStep shardOf) (hroom : numbering.HasRoom)
    {other : TypeNumber} (hnumber : numbering.shape? number = some shape)
    (hother : numbering.shape? other = some shape) : number = other := by
  have hassign := assigns_iff.mp (h.assigns_of_shape? hroom hnumber)
  exact congrArg Prod.fst (hassign.symm.trans (assigns_iff.mp (h.assigns_of_shape? hroom hother)))

theorem shape?_empty_parts (h : empty.shape? number = some shape) : shape.parts = [] := by
  rcases shape?_eq_some_iff.mp h with ⟨kind, rfl, -⟩ | ⟨-, hget⟩
  · rfl
  · rw [shard_empty] at hget
    cases hget

theorem orderly_empty : empty.Orderly := by
  have hnone {part whole : TypeNumber} : ¬ empty.IsPart part whole := by
    rintro ⟨shape, hshape, hpart⟩
    rw [shape?_empty_parts hshape] at hpart
    exact absurd hpart List.not_mem_nil
  refine ⟨fun index => ?_, fun h => absurd h hnone, ⟨fun _ => .intro _ fun _ h => absurd h hnone⟩⟩
  rw [shard_empty]
  exact nofun

section Assigns

variable (h : Assigns shardOf numbering shape number after)

include h

theorem Assigns.settled_of_settled {other : TypeNumber} (hother : numbering.Settled other) :
    after.Settled other :=
  hother.imp_right fun ⟨shape', hshape'⟩ => ⟨shape', h.shape?_of_shape? hshape'⟩

theorem Assigns.within (hwithin : ∀ index, (numbering.shard index).Within) :
    ∀ index, (after.shard index).Within := by
  cases h with
  | builtin | known => exact hwithin
  | new =>
    intro index
    by_cases hindex : index = shardOf shape
    · subst hindex
      rw [shard_setShard_self]
      exact (hwithin _).add shape
    · rw [shard_setShard_of_ne _ _ hindex]
      exact hwithin index

/-- What is given is settled, even if the position does not fit into the number. -/
theorem Assigns.settled (hwithin : ∀ index, (numbering.shard index).Within) :
    after.Settled number := by
  have hplaced {numbering : Numbering} {position : UInt32} {index : Fin TypeNumber.shardCount}
      (hlt : position.toNat < (numbering.shard index).shapes.size) :
      numbering.Settled (.ofPosition position index) := by
    refine (TypeNumber.ofPosition_lt_firstFree_or position index).imp_right ?_
    rintro ⟨hfree, hshard, hposition⟩
    rw [← hshard] at hlt
    refine ⟨_, shape?_eq_some_iff.mpr (.inr ⟨hfree, Array.getElem?_eq_getElem ?_⟩)⟩
    exact Nat.lt_of_le_of_lt hposition hlt
  cases h with
  | builtin kind => exact .inl (TypeNumber.ofIntrinsic_lt_firstFree kind)
  | known _ h => exact hplaced (hwithin _ _ _ h)
  | new =>
    refine hplaced ?_
    rw [shard_setShard_self]
    exact (Nat.lt_succ_of_le (Shard.toNat_next_le _)).trans_eq (Array.size_push _).symm

/-- Only an unsettled number comes to stand for something new. -/
theorem Assigns.shape?_cases {other : TypeNumber} {shape' : Shape}
    (hother : after.shape? other = some shape') :
    numbering.shape? other = some shape' ∨ shape' = shape ∧ ¬ numbering.Settled other := by
  cases h with
  | builtin | known => exact .inl hother
  | new =>
    rw [shape?_eq_some_iff] at hother ⊢
    rcases hother with hkind | ⟨hfree, hget⟩
    · exact .inl (.inl hkind)
    by_cases hindex : other.shard = shardOf shape
    · rw [hindex, shard_setShard_self, Shard.getElem?_add] at hget
      split at hget
      · rename_i hlast
        refine .inr ⟨(Option.some.inj hget).symm, ?_⟩
        rintro (hlt | ⟨old, hold⟩)
        · exact absurd hfree (UInt32.not_le.mpr hlt)
        · rcases shape?_eq_some_iff.mp hold with ⟨kind, -, rfl⟩ | ⟨-, hold⟩
          · exact absurd hfree (UInt32.not_le.mpr (TypeNumber.ofIntrinsic_lt_firstFree kind))
          · rw [hindex, hlast] at hold
            exact absurd (Array.getElem?_eq_some_iff.mp hold).1 (Nat.lt_irrefl _)
      · rw [← hindex] at hget
        exact .inl (.inr ⟨hfree, hget⟩)
    · rw [shard_setShard_of_ne _ _ hindex] at hget
      exact .inl (.inr ⟨hfree, hget⟩)

theorem Assigns.orderly (horderly : numbering.Orderly)
    (hparts : ∀ part ∈ shape.parts, numbering.Settled part) : after.Orderly := by
  have hpart {part whole : TypeNumber} (hpart : after.IsPart part whole) :
      numbering.Settled part ∧ (numbering.Settled whole → numbering.IsPart part whole) := by
    obtain ⟨shape', hshape', hmem⟩ := hpart
    rcases h.shape?_cases hshape' with hold | ⟨rfl, hnew⟩
    · exact ⟨horderly.settled ⟨shape', hold, hmem⟩, fun _ => ⟨shape', hold, hmem⟩⟩
    · exact ⟨hparts part hmem, fun hwhole => absurd hwhole hnew⟩
  -- settled numbers have the parts that they had
  have hsettled (whole : TypeNumber) (hwhole : numbering.Settled whole) :
      Acc after.IsPart whole := by
    induction whole using horderly.wellFounded.induction with
    | _ whole ih =>
      refine .intro whole fun part hafter => ?_
      exact ih part ((hpart hafter).2 hwhole) (hpart hafter).1
  refine ⟨h.within horderly.within, fun hafter => h.settled_of_settled (hpart hafter).1,
    ⟨fun whole => .intro whole fun part hafter => hsettled part (hpart hafter).1⟩⟩

end Assigns

end Numbering

/-! ## The numbers of a catalogue -/

namespace Catalogue

variable {shardOf : Shape → Fin TypeNumber.shardCount} {catalogue : Catalogue}
  {table : Numbered} {ty other : Ty} {shape : Shape} {number : TypeNumber}

/-- How a catalogue comes to its numbers. -/
inductive Numbers (shardOf : Shape → Fin TypeNumber.shardCount) : Catalogue → Numbered → Prop where
  | empty : Numbers shardOf .empty .empty
  | enter {catalogue : Catalogue} {table : Numbered} {ty : Ty} {shape : Shape}
      {number : TypeNumber} {numbering : Numbering} (h : Numbers shardOf catalogue table)
      (hnew : ¬ catalogue.Knows ty) (hparts : ∀ part ∈ ty.parts, catalogue.Knows part)
      (hshape : table.shape? ty = some shape) (hcomposed : shape.isIntrinsic = false)
      (hassign : Numbering.Assigns shardOf table.numbering shape number numbering) :
      Numbers shardOf (catalogue.enter ty) ⟨(.of ty, number) :: table.numbers, numbering⟩

namespace Numbered

theorem number_cons_self {numbering : Numbering} (hshape : table.shape? ty = some shape)
    (hcomposed : shape.isIntrinsic = false) :
    Numbered.number ⟨(.of ty, number) :: table.numbers, numbering⟩ ty = number := by
  cases ty with
  | unknown => cases hshape
  | intrinsic =>
    cases hshape
    cases hcomposed
  | nullable | array | named | param => simp [Numbered.number, Entry.of]

theorem number_cons_of_ne {numbering : Numbering} (h : other ≠ ty) :
    Numbered.number ⟨(.of ty, number) :: table.numbers, numbering⟩ other = table.number other := by
  cases other <;> simp [Numbered.number, Entry.of, h.symm]

theorem parts_of_shape? (h : table.shape? ty = some shape) :
    shape.parts = ty.parts.map table.number := by
  cases ty <;> cases h <;> rfl

/-- The shape depends on the numbers of the parts only. -/
theorem shape?_cons {numbering : Numbering} (h : ∀ part ∈ other.parts, part ≠ ty) :
    Numbered.shape? ⟨(.of ty, number) :: table.numbers, numbering⟩ other = table.shape? other := by
  cases other with
  | unknown | intrinsic | param => rfl
  | nullable part | array part =>
    simp only [Numbered.shape?, number_cons_of_ne (h part List.mem_cons_self)]
  | named definition args =>
    have hargs : args.map (Numbered.number ⟨(.of ty, number) :: table.numbers, numbering⟩) =
        args.map table.number :=
      List.map_congr_left fun arg harg => number_cons_of_ne (h arg harg)
    simp only [Numbered.shape?, hargs]

/-- A type is told by its shape as far as its parts are told by their numbers. -/
theorem eq_of_shape? (hty : table.shape? ty = some shape) (hother : table.shape? other = some shape)
    (hparts : ∀ part ∈ ty.parts, ∀ part' ∈ other.parts,
      table.number part = table.number part' → part = part') : ty = other := by
  cases ty with
  | unknown => cases hty
  | intrinsic | param =>
    cases hty
    cases other <;> cases hother
    rfl
  | nullable part =>
    cases hty
    cases other with
    | nullable part' =>
      have hnumber := (Shape.nullable.inj (Option.some.inj hother)).symm
      rw [hparts part List.mem_cons_self part' List.mem_cons_self hnumber]
    | unknown | intrinsic | array | named | param => cases hother
  | array part =>
    cases hty
    cases other with
    | array part' =>
      have hnumber := (Shape.array.inj (Option.some.inj hother)).symm
      rw [hparts part List.mem_cons_self part' List.mem_cons_self hnumber]
    | unknown | intrinsic | nullable | named | param => cases hother
  | named definition args =>
    cases hty
    cases other with
    | named definition' args' =>
      obtain ⟨rfl, hnumbers⟩ := Shape.named.inj (Option.some.inj hother)
      have hlength : args.length = args'.length := by
        simpa using (congrArg List.length hnumbers).symm
      refine congrArg _ (List.ext_getElem hlength fun i hi hi' => ?_)
      refine hparts _ (List.getElem_mem hi) _ (List.getElem_mem hi') ?_
      have hget := congrArg (·[i]?) hnumbers
      simp only [List.getElem?_map, List.getElem?_eq_getElem hi, List.getElem?_eq_getElem hi']
        at hget
      exact (Option.some.inj hget).symm
    | unknown | intrinsic | nullable | array | param => cases hother

theorem shape?_eq_none_iff : table.shape? ty = none ↔ ∃ number, ty = .unknown number := by
  cases ty <;> simp [Numbered.shape?]

theorem ne_unknown (h : table.shape? ty = some shape) (number : Nat) : ty ≠ .unknown number := by
  rintro rfl
  cases h

end Numbered

theorem enter_of_knows (h : catalogue.Knows ty) : catalogue.enter ty = catalogue := by
  rcases h with ⟨kind, rfl⟩ | hmem
  · rfl
  · unfold enter
    split
    · rfl
    · rfl
    · exact dif_pos (contains_eq_true_iff.mpr hmem)

theorem entries_enter (hnew : ¬ catalogue.Knows ty) (hunknown : ∀ number, ty ≠ .unknown number) :
    (catalogue.enter ty).entries = catalogue.entries ++ [.of ty] := by
  unfold enter
  split
  · exact absurd rfl (hunknown _)
  · exact absurd (.inl ⟨_, rfl⟩) hnew
  · rw [dif_neg fun hmem => hnew (.inr (contains_eq_true_iff.mp hmem))]

theorem knows_enter (hunknown : ∀ number, ty ≠ .unknown number) :
    (catalogue.enter ty).Knows other ↔ catalogue.Knows other ∨ other = ty := by
  by_cases hknown : catalogue.Knows ty
  · rw [enter_of_knows hknown]
    exact ⟨.inl, fun h => h.elim id fun heq => heq ▸ hknown⟩
  · rw [Knows, mem_types_enter (fun kind hkind => hknown (.inl ⟨kind, hkind⟩)) hunknown, ← or_assoc]
    rfl

theorem Knows.ne (h : catalogue.Knows other) (hnew : ¬ catalogue.Knows ty) : other ≠ ty := by
  rintro rfl
  exact hnew h

theorem Grown.numbers (h : catalogue.Grown) (shardOf : Shape → Fin TypeNumber.shardCount) :
    Numbers shardOf catalogue (catalogue.numbered shardOf) := by
  induction h with
  | empty => exact .empty
  | @enter catalogue ty _ hparts ih =>
    by_cases hknown : catalogue.Knows ty
    · rwa [enter_of_knows hknown]
    cases hshape : (catalogue.numbered shardOf).shape? ty with
    | none =>
      obtain ⟨number, rfl⟩ := Numbered.shape?_eq_none_iff.mp hshape
      exact ih
    | some shape =>
      have hunknown := Numbered.ne_unknown hshape
      have hcomposed : shape.isIntrinsic = false := by
        cases ty with
        | intrinsic kind => exact absurd (.inl ⟨kind, rfl⟩) hknown
        | unknown => cases hshape
        | nullable | array | named | param =>
          cases hshape
          rfl
      have hnumbered : (catalogue.enter ty).numbered shardOf =
          (catalogue.numbered shardOf).add shardOf (.of ty) := by
        rw [numbered, entries_enter hknown hunknown, List.foldl_append]
        rfl
      rw [hnumbered, Numbered.add, Entry.of, hshape]
      exact .enter ih hknown hparts hshape hcomposed (Numbering.assigns_iff.mpr rfl)

section Numbers

variable (h : Numbers shardOf catalogue table)

include h

theorem Numbers.grown : catalogue.Grown := by
  induction h with
  | empty => exact .empty
  | enter _ _ hparts _ _ _ ih => exact ih.enter hparts

theorem Numbers.orderly_and_settled : table.numbering.Orderly ∧
    ∀ ty, catalogue.Knows ty → table.numbering.Settled (table.number ty) := by
  induction h with
  | empty =>
    refine ⟨Numbering.orderly_empty, fun ty hty => ?_⟩
    obtain ⟨kind, rfl⟩ := knows_empty.mp hty
    exact .inl (TypeNumber.ofIntrinsic_lt_firstFree kind)
  | enter _ hnew hparts hshape hcomposed hassign ih =>
    obtain ⟨horderly, hsettled⟩ := ih
    refine ⟨hassign.orderly horderly ?_, fun other hother => ?_⟩
    · rw [Numbered.parts_of_shape? hshape, List.forall_mem_map]
      exact fun part hpart => hsettled part (hparts part hpart)
    · rcases (knows_enter (Numbered.ne_unknown hshape)).mp hother with hold | rfl
      · rw [Numbered.number_cons_of_ne (hold.ne hnew)]
        exact hassign.settled_of_settled (hsettled other hold)
      · rw [Numbered.number_cons_self hshape hcomposed]
        exact hassign.settled horderly.within

/-! As long as there is room, numbers and types are one to one. -/

theorem Numbers.inStep (hroom : table.numbering.HasRoom) : table.numbering.InStep shardOf := by
  induction h with
  | empty => exact Numbering.inStep_empty
  | enter _ _ _ _ _ hassign ih =>
    exact hassign.inStep (ih (hassign.hasRoom hroom)) (hassign.hasRoom hroom)

theorem Numbers.exists_shape? (hty : catalogue.Knows ty) :
    ∃ shape, table.shape? ty = some shape := by
  rw [← Option.ne_none_iff_exists', ne_eq, Numbered.shape?_eq_none_iff]
  rintro ⟨number, rfl⟩
  induction h with
  | empty =>
    obtain ⟨kind, hkind⟩ := knows_empty.mp hty
    cases hkind
  | enter _ _ _ hshape _ _ ih =>
    rcases (knows_enter (Numbered.ne_unknown hshape)).mp hty with hold | rfl
    · exact ih hold
    · cases hshape

theorem Numbers.shape?_number (hroom : table.numbering.HasRoom) (hty : catalogue.Knows ty) :
    table.numbering.shape? (table.number ty) = table.shape? ty := by
  induction h generalizing ty with
  | empty =>
    obtain ⟨kind, rfl⟩ := knows_empty.mp hty
    exact Numbering.shape?_eq_some_iff.mpr (.inl ⟨kind, rfl, rfl⟩)
  | enter h hnew hparts hshape hcomposed hassign ih =>
    have hbefore := hassign.hasRoom hroom
    rcases (knows_enter (Numbered.ne_unknown hshape)).mp hty with hold | rfl
    · obtain ⟨shape, hother⟩ := h.exists_shape? hold
      have hparts := h.grown.knows_parts hold
      rw [Numbered.number_cons_of_ne (hold.ne hnew),
        Numbered.shape?_cons fun part hpart => (hparts part hpart).ne hnew, hother]
      exact hassign.shape?_of_shape? ((ih hbefore hold).trans hother)
    · rw [Numbered.number_cons_self hshape hcomposed,
        Numbered.shape?_cons fun part hpart => (hparts part hpart).ne hnew, hshape]
      exact hassign.shape?_eq (h.inStep hbefore) hbefore

theorem Numbers.exists_of_shape? (hroom : table.numbering.HasRoom)
    (hnumber : table.numbering.shape? number = some shape) :
    ∃ ty, catalogue.Knows ty ∧ table.number ty = number := by
  induction h generalizing shape with
  | empty =>
    rcases Numbering.shape?_eq_some_iff.mp hnumber with ⟨kind, -, rfl⟩ | ⟨-, hget⟩
    · exact ⟨.intrinsic kind, .inl ⟨kind, rfl⟩, rfl⟩
    · change (Numbering.empty.shard _).shapes[_]? = _ at hget
      rw [Numbering.shard_empty] at hget
      cases hget
  | enter h hnew hparts hshape hcomposed hassign ih =>
    have hbefore := hassign.hasRoom hroom
    have hunknown := Numbered.ne_unknown hshape
    rcases hassign.shape?_cases hnumber with hold | ⟨rfl, -⟩
    · obtain ⟨ty, hty, rfl⟩ := ih hbefore hold
      exact ⟨ty, (knows_enter hunknown).mpr (.inl hty), Numbered.number_cons_of_ne (hty.ne hnew)⟩
    · refine ⟨_, (knows_enter hunknown).mpr (.inr rfl), ?_⟩
      rw [Numbered.number_cons_self hshape hcomposed]
      have hstep := hassign.inStep (h.inStep hbefore) hbefore
      exact hstep.number_inj hroom (hassign.shape?_eq (h.inStep hbefore) hbefore) hnumber

theorem Numbers.number_inj (hroom : table.numbering.HasRoom) (hty : catalogue.Knows ty)
    (hother : catalogue.Knows other) (hnumber : table.number ty = table.number other) :
    ty = other := by
  induction ty using Ty.ind_parts generalizing other with
  | _ ty ih =>
    obtain ⟨shape, hshape⟩ := h.exists_shape? hty
    have hother' : table.shape? other = some shape := by
      rw [← h.shape?_number hroom hother, ← hnumber, h.shape?_number hroom hty, hshape]
    have hparts := h.grown.knows_parts hty
    have hparts' := h.grown.knows_parts hother
    exact Numbered.eq_of_shape? hshape hother' fun part hpart part' hpart' =>
      ih part hpart (hparts part hpart) (hparts' part' hpart')

end Numbers

/-- What the numbers of a catalogue tell: they are one to one with the types, and a shape shows what
its type is made of. -/
structure Represents (catalogue : Catalogue) (table : Numbered) : Prop where
  shape?_eq_some_iff : ∀ number shape, table.numbering.shape? number = some shape ↔
    ∃ ty, catalogue.Knows ty ∧ table.number ty = number ∧ table.shape? ty = some shape
  number_inj : ∀ ty, catalogue.Knows ty → ∀ other, catalogue.Knows other →
    table.number ty = table.number other → ty = other

theorem Numbers.represents (h : Numbers shardOf catalogue table)
    (hroom : table.numbering.HasRoom) : catalogue.Represents table := by
  refine ⟨fun number shape => ⟨fun hshape => ?_, ?_⟩, fun ty hty other hother =>
    h.number_inj hroom hty hother⟩
  · obtain ⟨ty, hty, rfl⟩ := h.exists_of_shape? hroom hshape
    exact ⟨ty, hty, rfl, h.shape?_number hroom hty ▸ hshape⟩
  · rintro ⟨ty, hty, rfl, hshape⟩
    exact (h.shape?_number hroom hty).trans hshape

end Catalogue

/-! ## Well-formed workspaces -/

/-- The value types that have a nullable form. -/
inductive Shape.IsPlainValue (defs : Definitions) : Shape → Prop where
  | intrinsic {kind : Intrinsic} (h : kind.isValueType = true) :
      IsPlainValue defs (.intrinsic kind)
  | struct {definition : DefId} (h : defs.kind? definition = some .structType)
      (args : List TypeNumber) : IsPlainValue defs (.named definition args)

theorem Ty.IsPlainValue.shape {defs : Definitions} {ty : Ty} (h : ty.IsPlainValue defs)
    (table : Catalogue.Numbered) :
    ∃ shape, table.shape? ty = some shape ∧ shape.IsPlainValue defs := by
  cases h with
  | intrinsic h => exact ⟨_, rfl, .intrinsic h⟩
  | struct h args => exact ⟨_, rfl, .struct h _⟩

namespace Workspace

/-- The second nullable form of a type is the first one, and nothing comes in for it. -/
theorem makeNullable_makeNullable {workspace : Workspace} (h : workspace.catalogue.Complete)
    (ty : Ty) :
    (do makeNullable (← makeNullable ty)).run workspace = (makeNullable ty).run workspace := by
  let made := ty.makeNullable workspace.defs
  let after := ((makeType made).run workspace).2
  have hrecord : after.catalogue.recordAll [made] = after.catalogue := by
    rw [Catalogue.recordAll, (holds_makeType h made).record_eq, Catalogue.recordAll]
  have hrun : (do makeNullable (← makeNullable ty)).run workspace =
      (made.makeNullable workspace.defs,
        { after with catalogue := after.catalogue.recordAll [made.makeNullable workspace.defs] }) :=
    rfl
  rw [hrun, Ty.makeNullable_makeNullable, hrecord]
  rfl

/-- Whatever calls have been made, the numbers of parts never lead back to where they come from.
Nullable forms are made of plain values, which stay plain values under any later calls, so that a
second nullable form changes nothing. As long as the numbers fit into their bits, all this can be
seen from the numbers alone. -/
theorem reaches_wellFormed {workspace later : Workspace} (hreaches : new.Reaches workspace)
    (hlater : workspace.Reaches later) :
    (∀ shardOf, WellFounded (workspace.catalogue.numbering shardOf).IsPart) ∧
    (∀ underlying, workspace.Knows (.nullable underlying) →
      workspace.Knows underlying ∧ underlying.IsPlainValue later.defs) ∧
    (∀ ty, (do makeNullable (← makeNullable ty)).run workspace =
      (makeNullable ty).run workspace) ∧
    ∀ shardOf, (workspace.catalogue.numbering shardOf).HasRoom →
      workspace.catalogue.Represents (workspace.catalogue.numbered shardOf) ∧
      ∀ number underlying,
        (workspace.catalogue.numbering shardOf).shape? number = some (.nullable underlying) →
          ∃ shape, (workspace.catalogue.numbering shardOf).shape? underlying = some shape ∧
            shape.IsPlainValue later.defs := by
  have hsound := sound_of_reaches hreaches
  have hgrown := hsound.catalogue.grown
  have hnullable (underlying : Ty) (h : workspace.Knows (.nullable underlying)) :
      workspace.Knows underlying ∧ underlying.IsPlainValue later.defs := by
    cases hsound.wellMade h with
    | nullable _ hplain =>
      exact ⟨hgrown.knows_parts h underlying List.mem_cons_self,
        hplain.mono (keepsKinds_of_reaches hlater)⟩
  refine ⟨fun shardOf => (hgrown.numbers shardOf).orderly_and_settled.1.wellFounded, hnullable,
    makeNullable_makeNullable hgrown.complete, fun shardOf hroom => ?_⟩
  have hrepresents := (hgrown.numbers shardOf).represents hroom
  refine ⟨hrepresents, fun number underlying hnumber => ?_⟩
  obtain ⟨ty, hty, -, hshape⟩ := (hrepresents.shape?_eq_some_iff number _).mp hnumber
  cases ty with
  | nullable part =>
    obtain rfl := Shape.nullable.inj (Option.some.inj hshape)
    obtain ⟨hpart, hplain⟩ := hnullable part hty
    obtain ⟨shape, hshape, hplain⟩ := hplain.shape (workspace.catalogue.numbered shardOf)
    exact ⟨shape, (hrepresents.shape?_eq_some_iff _ shape).mpr ⟨part, hpart, rfl, hshape⟩, hplain⟩
  | unknown | intrinsic | array | named | param => cases hshape

/-- A struct and the array of its nullable form. -/
def pointArray : Workspace :=
  (do
    let id ← define (.ofKind .structType "Point" [])
    let point ← makeType (.named id [])
    makeType (.array (← makeNullable point)) : WorkspaceM Ty).run new |>.2

theorem reaches_wellFormed_pointArray :
    ∃ later, new.Reaches pointArray ∧ pointArray.Reaches later ∧
      later.defs.find? "Point" = some ⟨10⟩ ∧ (Ty.named ⟨9⟩ []).IsPlainValue later.defs ∧
      (pointArray.catalogue.numbering fun _ => 0).HasRoom ∧
      (pointArray.catalogue.numbering fun _ => 0).shape? ⟨228⟩ = some (.nullable ⟨212⟩) ∧
      ∃ shape, (pointArray.catalogue.numbering fun _ => 0).shape? ⟨212⟩ = some shape ∧
        shape.IsPlainValue later.defs := by
  let point : Ty := .named ⟨9⟩ []
  let defined := ((define (.ofKind .structType "Point" [])).run new).2
  let named := ((makeType point).run defined).2
  let nullable := ((makeNullable point).run named).2
  let later := ((define (.ofKind .classType "Point" [])).run pointArray).2
  have hdefined : new.Step defined := .define nofun
  have hnamed : new.Reaches named := .tail (.single hdefined) (.named ⟨9⟩ nofun)
  have hpoint : named.Knows point := .inr (by decide +kernel)
  have hnullable : new.Reaches nullable := hnamed.tail (.nullable hpoint)
  have hknown : nullable.Knows (.nullable point) := .inr (by decide +kernel)
  have hreaches : new.Reaches pointArray := hnullable.tail (.array hknown)
  have hlater : pointArray.Reaches later := .single (.define nofun)
  have hroom : (pointArray.catalogue.numbering fun _ => 0).HasRoom := by
    unfold Numbering.HasRoom
    decide +kernel
  have hshape : (pointArray.catalogue.numbering fun _ => 0).shape? ⟨228⟩ =
      some (.nullable ⟨212⟩) := by decide +kernel
  obtain ⟨-, hplain, -, hnumbers⟩ := reaches_wellFormed hreaches hlater
  refine ⟨later, hreaches, hlater, by decide +kernel, (hplain point ?_).2, hroom, hshape,
    (hnumbers _ hroom).2 _ _ hshape⟩
  exact .inr (by decide +kernel)

end Workspace

end NullGuard
