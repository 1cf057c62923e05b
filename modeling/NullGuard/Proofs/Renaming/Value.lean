import NullGuard.Proofs.Eval.Value
import NullGuard.Proofs.Renaming.Guard

/-! # Values under other numbers -/

namespace NullGuard

open Definitions

variable {ρ : Equiv.Perm DefId} {defs defs' : Definitions}

namespace Value

mutual

/-- The value with other numbers for the definitions in its types. -/
@[simp] def rename (ρ : DefId → DefId) : Value → Value
  | null => null
  | bool value => bool value
  | int value => int value
  | double value => double value
  | string value => string value
  | object ty fields => object (ty.rename ρ) (renameFields ρ fields)
  | collection kind items => collection kind (renameItems ρ items)
  | closure params body env =>
    closure (params.map (Param.rename ρ)) (body.rename ρ) (renameFields ρ env)

def renameItems (ρ : DefId → DefId) : List Value → List Value
  | [] => []
  | item :: items => item.rename ρ :: renameItems ρ items

def renameFields (ρ : DefId → DefId) : List (String × Value) → List (String × Value)
  | [] => []
  | (name, value) :: fields => (name, value.rename ρ) :: renameFields ρ fields

end

@[simp] theorem renameItems_eq_map (ρ : DefId → DefId) (items : List Value) :
    renameItems ρ items = items.map (rename ρ) := by
  induction items with
  | nil => rfl
  | cons item items ih => rw [renameItems, ih, List.map_cons]

@[simp] theorem renameFields_eq_map (ρ : DefId → DefId) (fields : List (String × Value)) :
    renameFields ρ fields = fields.map (Prod.map id (rename ρ)) := by
  induction fields with
  | nil => rfl
  | cons field fields ih => rw [renameFields, ih, List.map_cons, Prod.map, id]

/-- Induction in which the parts of a value are reached by membership. -/
theorem ind {motive : Value → Prop} (scalar : ∀ value : Value, value.isScalar = true → motive value)
    (object : ∀ ty fields, (∀ field ∈ fields, motive field.2) → motive (.object ty fields))
    (collection : ∀ kind items, (∀ item ∈ items, motive item) → motive (.collection kind items))
    (closure : ∀ params body env, (∀ binding ∈ env, motive binding.2) →
      motive (.closure params body env)) : ∀ value, motive value := fun value =>
  Value.rec (motive_1 := motive) (motive_2 := fun fields => ∀ field ∈ fields, motive field.2)
    (motive_3 := fun items => ∀ item ∈ items, motive item) (motive_4 := fun field => motive field.2)
    (scalar null rfl) (fun value => scalar (bool value) rfl) (fun value => scalar (int value) rfl)
    (fun value => scalar (double value) rfl) (fun value => scalar (string value) rfl)
    object collection closure
    (List.forall_mem_nil _) (fun _ _ h hs => List.forall_mem_cons.mpr ⟨h, hs⟩)
    (List.forall_mem_nil _) (fun _ _ h hs => List.forall_mem_cons.mpr ⟨h, hs⟩)
    (fun _ _ h => h) value

theorem rename_of_isScalar {value : Value} (h : value.isScalar = true) :
    value.rename ρ = value := by
  cases value with
  | object | collection | closure => cases h
  | _ => rw [rename]

@[simp] theorem isNull_rename (value : Value) : (value.rename ρ).isNull = value.isNull := by
  cases value <;> simp [isNull]

@[simp] theorem kindName_rename (value : Value) : (value.rename ρ).kindName = value.kindName := by
  cases value <;> simp [kindName]

@[simp] theorem toFloat?_rename (value : Value) : (value.rename ρ).toFloat? = value.toFloat? := by
  cases value <;> simp [toFloat?]

/-! ## Texts and equality -/

theorem itemTexts_rename {items : List Value}
    (h : ∀ item ∈ items, (item.rename ρ).text = item.text) :
    itemTexts (items.map (rename ρ)) = itemTexts items := by
  induction items with
  | nil => rfl
  | cons item items ih =>
    rw [List.forall_mem_cons] at h
    rw [List.map_cons, itemTexts, itemTexts, h.1, ih h.2]

theorem fieldTexts_rename {fields : List (String × Value)}
    (h : ∀ field ∈ fields, (field.2.rename ρ).text = field.2.text) :
    fieldTexts (fields.map (Prod.map id (rename ρ))) = fieldTexts fields := by
  induction fields with
  | nil => rfl
  | cons field fields ih =>
    rw [List.forall_mem_cons] at h
    rw [List.map_cons, Prod.map, id, fieldTexts, fieldTexts, h.1, ih h.2]

@[simp] theorem text_rename (value : Value) : (value.rename ρ).text = value.text := by
  induction value using Value.ind with
  | scalar value h => rw [rename_of_isScalar h]
  | object ty fields ih => simp [text, fieldTexts_rename ih]
  | collection kind items ih => simp [text, itemTexts_rename ih]
  | closure params body env => simp [text]

theorem sameItems_rename {items : List Value}
    (h : ∀ item ∈ items, ∀ other : Value, (item.rename ρ).same (other.rename ρ) = item.same other)
    (others : List Value) :
    sameItems (items.map (rename ρ)) (others.map (rename ρ)) = sameItems items others := by
  induction items generalizing others with
  | nil => cases others <;> rfl
  | cons item items ih =>
    rw [List.forall_mem_cons] at h
    cases others with
    | nil => rfl
    | cons other others => rw [List.map_cons, List.map_cons, sameItems, sameItems, h.1, ih h.2]

theorem sameFields_rename {fields : List (String × Value)}
    (h : ∀ field ∈ fields, ∀ other : Value,
      (field.2.rename ρ).same (other.rename ρ) = field.2.same other)
    (others : List (String × Value)) :
    sameFields (fields.map (Prod.map id (rename ρ))) (others.map (Prod.map id (rename ρ))) =
      sameFields fields others := by
  induction fields with
  | nil => rfl
  | cons field fields ih =>
    rw [List.forall_mem_cons] at h
    rw [List.map_cons, Prod.map, id, sameFields, sameFields, lookup_map_values, ih h.2]
    cases others.lookup field.1 with
    | none => rfl
    | some value => exact congrArg (· && sameFields fields others) (h.1 value)

theorem same_rename (value other : Value) :
    (value.rename ρ).same (other.rename ρ) = value.same other := by
  induction value using Value.ind generalizing other with
  | scalar value h =>
    rw [rename_of_isScalar h]
    cases value with
    | object | collection | closure => cases h
    | _ => cases other <;> rfl
  | object ty fields ih =>
    cases other with
    | object ty' fields' => simp [same, sameFields_rename ih]
    | _ => rfl
  | collection kind items ih =>
    cases other with
    | collection kind' items' => simp [same, sameItems_rename ih]
    | _ => rfl
  | closure params body env ih =>
    cases other with
    | closure params' body' env' =>
      simp [same, sameFields_rename ih, Expr.same_rename,
        (List.map_injective_iff.mpr (Param.rename_injective ρ)).eq_iff]
    | _ => rfl

theorem looselyEquals_rename (value other : Value) :
    (value.rename ρ).looselyEquals (other.rename ρ) = value.looselyEquals other := by
  have hsame := same_rename (ρ := ρ) value other
  cases value <;> cases other <;> first | rfl | exact hsame

theorem concatText_rename (value : Value) : (value.rename ρ).concatText = value.concatText := by
  have htext := text_rename (ρ := ρ) value
  cases value <;> first | rfl | exact htext

/-! ## Construction -/

theorem insertUnique_rename (items : List Value) (item : Value) :
    insertUnique (items.map (rename ρ)) (item.rename ρ) =
      (insertUnique items item).map (rename ρ) := by
  unfold insertUnique
  simp only [List.any_map, Function.comp_def, looselyEquals_rename]
  split <;> simp

theorem list_rename (items : List Value) :
    list (items.map (rename ρ)) = (list items).rename ρ := by
  simp [list]

theorem array_rename (items : List Value) :
    array (items.map (rename ρ)) = (array items).rename ρ := by
  simp [array]

theorem set_rename (items : List Value) :
    set (items.map (rename ρ)) = (set items).rename ρ := by
  have hfold (start : List Value) :
      (items.map (rename ρ)).foldl insertUnique (start.map (rename ρ)) =
        (items.foldl insertUnique start).map (rename ρ) := by
    rw [List.foldl_map]
    exact List.foldl_hom (List.map (rename ρ)) fun found item => insertUnique_rename found item
  simpa [set] using hfold []

@[simp] theorem ofLiteral_rename (literal : Literal) :
    (ofLiteral literal).rename ρ = ofLiteral literal :=
  rename_of_isScalar (isScalar_ofLiteral literal)

theorem default_rename (h : OutlinesMatch ρ defs defs') (ty : Ty) :
    default defs' (ty.rename ρ) = (default defs ty).rename ρ := by
  unfold default
  rw [Ty.canBeNull_rename h]
  split
  · rfl
  · cases ty with
    | intrinsic kind => cases kind <;> rfl
    | named definition args =>
      simp only [Ty.rename_named, h.kind?_eq]
      split <;> simp
    | _ => simp

theorem construct_rename (h : Match ρ defs defs') (ty : Ty) :
    construct defs' (ty.rename ρ) = (construct defs ty).rename ρ := by
  have hdefault := default_rename h.outlines ty
  cases ty with
  | named definition args =>
    have hlist : ρ definition = Collection.list ↔ definition = Collection.list :=
      h.apply_eq_iff (by decide)
    have hset : ρ definition = Collection.hashSet ↔ definition = Collection.hashSet :=
      h.apply_eq_iff (by decide)
    rw [Ty.rename_named] at hdefault ⊢
    simp only [construct, hlist, hset, hdefault, isNull_rename]
    split
    · simp [list]
    · split
      · simp
      · split <;> simp
  | _ => exact hdefault

theorem convert_rename (value : Value) (ty : Ty) :
    (value.rename ρ).convert (ty.rename ρ) = (value.convert ty).rename ρ := by
  cases value with
  | int | double =>
    cases ty with
    | intrinsic kind => cases kind <;> rfl
    | _ => rfl
  | _ => rfl

end Value

/-! ## Operators -/

theorem UnaryOp.apply_rename (op : UnaryOp) (value : Value) :
    op.apply (value.rename ρ) = (op.apply value).map (Value.rename ρ) := by
  cases op <;> cases value <;> rfl

theorem compareValues_rename (symbol : String) (a b : Value) :
    compareValues symbol (a.rename ρ) (b.rename ρ) = compareValues symbol a b := by
  cases a <;> cases b <;> rfl

theorem comparison_rename (op : BinaryOp) (a b : Value) :
    comparison op (a.rename ρ) (b.rename ρ) = comparison op a b := by
  unfold comparison
  rw [Value.isNull_rename, Value.isNull_rename, compareValues_rename]

theorem arithmetic_rename (op : BinaryOp) (a b : Value) :
    arithmetic op (a.rename ρ) (b.rename ρ) = arithmetic op a b := by
  have htext := a.concatText_rename (ρ := ρ)
  cases a with
  | string s =>
    cases op with
    | add => exact congrArg (fun text => Except.ok (Value.string (s ++ text))) b.concatText_rename
    | _ => cases b <;> rfl
  | _ =>
    cases b with
    | string s =>
      cases op with
      | add => exact congrArg (fun text => Except.ok (Value.string (text ++ s))) htext
      | _ => rfl
    | _ => cases op <;> rfl

theorem BinaryOp.apply_rename (op : BinaryOp) (a b : Value) :
    op.apply (a.rename ρ) (b.rename ρ) = (op.apply a b).map (Value.rename ρ) := by
  have hscalar : (op.apply a b).map (Value.rename ρ) = op.apply a b := by
    cases happly : op.apply a b with
    | error error => rfl
    | ok value =>
      exact congrArg Except.ok (Value.rename_of_isScalar (BinaryOp.isScalar_apply happly))
  rw [hscalar]
  cases op with
  | eq | ne => simp [BinaryOp.apply, Value.looselyEquals_rename]
  | lt | le | gt | ge => exact comparison_rename _ a b
  | add | sub | mul | div => exact arithmetic_rename _ a b
  | and | or => cases a <;> cases b <;> rfl

theorem Value.elementAt_rename (target position : Value) :
    (target.rename ρ).elementAt (position.rename ρ) =
      (target.elementAt position).map (Value.rename ρ) := by
  cases target with
  | collection kind items =>
    cases position with
    | int i =>
      simp only [rename, renameItems_eq_map, elementAt, List.length_map, List.getElem?_map]
      by_cases hi : i < 0
      · simp [hi, Except.map]
      · cases items[i.toInt.toNat]? <;> simp [hi, Except.map]
    | _ => rfl
  | _ => rfl

end NullGuard
