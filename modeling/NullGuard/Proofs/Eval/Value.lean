import NullGuard.Eval.Operator

/-! # Values and the closures in them

Operators give values without any parts, so a property of all closures that are held in a value
passes from operands to results. -/

namespace NullGuard

namespace Value

/-- The values without parts. -/
def isScalar : Value → Bool
  | null | bool _ | int _ | double _ | string _ => true
  | _ => false

/-- Every closure that is held anywhere in the value satisfies `ok`. -/
inductive EveryClosure (ok : List Param → Expr → Env → Prop) : Value → Prop where
  | scalar {value : Value} (h : value.isScalar = true) : EveryClosure ok value
  | object {ty fields} (h : ∀ field ∈ fields, EveryClosure ok field.2) :
      EveryClosure ok (object ty fields)
  | collection {kind items} (h : ∀ item ∈ items, EveryClosure ok item) :
      EveryClosure ok (collection kind items)
  | closure {params body env} (h : ok params body env)
      (henv : ∀ binding ∈ env, EveryClosure ok binding.2) :
      EveryClosure ok (closure params body env)

/-- No closure is held anywhere in the value. -/
def IsData : Value → Prop :=
  EveryClosure fun _ _ _ => False

namespace EveryClosure

theorem mono {ok ok' : List Param → Expr → Env → Prop}
    (hok : ∀ params body env, ok params body env → ok' params body env) {value : Value}
    (h : EveryClosure ok value) : EveryClosure ok' value := by
  induction h with
  | scalar h => exact .scalar h
  | object _ ih => exact .object ih
  | collection _ ih => exact .collection ih
  | closure h _ ih => exact .closure (hok _ _ _ h) ih

variable {ok : List Param → Expr → Env → Prop} {kind : CollectionKind} {ty : Ty}
  {fields : List (String × Value)} {items : List Value}

theorem of_mem_items (h : EveryClosure ok (Value.collection kind items)) {item : Value}
    (hitem : item ∈ items) : EveryClosure ok item := by
  cases h with
  | scalar h => cases h
  | collection h => exact h item hitem

theorem of_lookup (h : EveryClosure ok (Value.object ty fields)) {name : String} {value : Value}
    (hvalue : fields.lookup name = some value) : EveryClosure ok value := by
  cases h with
  | scalar h => cases h
  | object h =>
    obtain ⟨first, rest, rfl, _⟩ := List.lookup_eq_some_iff.mp hvalue
    exact h (name, value) (by simp)

theorem of_closure {params : List Param} {body : Expr} {env : Env}
    (h : EveryClosure ok (Value.closure params body env)) :
    ok params body env ∧ ∀ binding ∈ env, EveryClosure ok binding.2 := by
  cases h with
  | scalar h => cases h
  | closure h henv => exact ⟨h, henv⟩

end EveryClosure

theorem eq_null_of_isNull {value : Value} (h : value.isNull = true) : value = null := by
  cases value with
  | null => rfl
  | _ => cases h

theorem IsData.ne_closure {value : Value} (h : value.IsData) (params : List Param) (body : Expr)
    (env : Env) : value ≠ closure params body env := by
  rintro rfl
  exact h.of_closure.1

theorem looselyEquals_closure {value : Value}
    (h : ∀ params body env, value ≠ closure params body env) (params : List Param) (body : Expr)
    (env : Env) : value.looselyEquals (closure params body env) = false := by
  cases value with
  | closure params' body' env' => exact absurd rfl (h params' body' env')
  | _ => simp [looselyEquals, same]

/-- Only null is equal to null. -/
theorem looselyEquals_null (value : Value) : value.looselyEquals null = value.isNull := by
  cases value <;> simp [looselyEquals, same, isNull]

theorem null_looselyEquals (value : Value) : null.looselyEquals value = value.isNull := by
  cases value <;> simp [looselyEquals, same, isNull]

/-! ## Results of operators -/

theorem isScalar_ofLiteral (literal : Literal) : (ofLiteral literal).isScalar = true := by
  cases literal <;> rfl

theorem default_of_canBeNull {defs : Definitions} {ty : Ty} (h : ty.canBeNull defs = true) :
    default defs ty = null := by
  simp [default, h]

theorem everyClosure_default {ok : List Param → Expr → Env → Prop} (defs : Definitions) (ty : Ty) :
    EveryClosure ok (default defs ty) := by
  unfold default
  split
  · exact .scalar rfl
  · split
    all_goals try split
    all_goals first | exact .scalar rfl | exact .object nofun

theorem everyClosure_construct {ok : List Param → Expr → Env → Prop} (defs : Definitions)
    (ty : Ty) : EveryClosure ok (construct defs ty) := by
  unfold construct
  split
  · split
    · exact .collection nofun
    · split
      · exact .collection nofun
      · dsimp only
        split
        · exact .object nofun
        · exact everyClosure_default defs _
  · exact everyClosure_default defs _

theorem convert_eq_or_isScalar (value : Value) (ty : Ty) :
    value.convert ty = value ∨ (value.convert ty).isScalar = true := by
  unfold convert
  split
  all_goals first | exact .inr rfl | exact .inl rfl

theorem EveryClosure.convert {ok : List Param → Expr → Env → Prop} {value : Value}
    (h : EveryClosure ok value) (ty : Ty) : EveryClosure ok (value.convert ty) := by
  rcases convert_eq_or_isScalar value ty with heq | hscalar
  · rwa [heq]
  · exact .scalar hscalar

end Value

theorem UnaryOp.isScalar_apply {op : UnaryOp} {operand value : Value}
    (h : op.apply operand = .ok value) : value.isScalar = true := by
  unfold UnaryOp.apply at h
  split at h
  all_goals cases h
  all_goals rfl

theorem comparison_eq_ok {op : BinaryOp} {a b value : Value} (h : comparison op a b = .ok value) :
    value.isScalar = true := by
  unfold comparison at h
  split at h
  · cases h
    rfl
  · cases horder : compareValues op.symbol a b with
    | error error => simp [horder, bind, Except.bind] at h
    | ok order =>
      simp only [horder, bind, Except.bind, pure, Except.pure, Except.ok.injEq] at h
      rw [← h]
      rfl

theorem isScalar_floatArithmetic (op : BinaryOp) (a b : Float) :
    (floatArithmetic op a b).isScalar = true := by
  unfold floatArithmetic
  split <;> rfl

theorem intArithmetic_eq_ok {op : BinaryOp} {a b : Int64} {value : Value}
    (h : intArithmetic op a b = .ok value) : value.isScalar = true := by
  unfold intArithmetic at h
  split at h
  iterate 3
    · cases h
      rfl
  · split at h
    · cases h
    · cases h
      rfl

theorem arithmetic_eq_ok {op : BinaryOp} {a b value : Value} (h : arithmetic op a b = .ok value) :
    value.isScalar = true := by
  unfold arithmetic at h
  split at h
  iterate 4
    · cases h
      rfl
  · exact intArithmetic_eq_ok h
  · split at h
    · cases h
      exact isScalar_floatArithmetic _ _ _
    · cases h
    · cases h

theorem BinaryOp.isScalar_apply {op : BinaryOp} {a b value : Value}
    (h : op.apply a b = .ok value) : value.isScalar = true := by
  unfold BinaryOp.apply at h
  split at h
  · cases h
    rfl
  · cases h
    rfl
  iterate 4 exact comparison_eq_ok h
  iterate 4 exact arithmetic_eq_ok h
  all_goals
    split at h
    all_goals cases h
    all_goals rfl

/-! ## Errors of operators -/

/-- The errors that a guard is meant to prevent. -/
def EvalError.isNullFault : EvalError → Bool
  | nullReference _ | nullReceiver _ => true
  | _ => false

/-- The errors that do not tell about null or about an unbound name. -/
def EvalError.isOrdinary : EvalError → Bool
  | nullReference _ | nullReceiver _ | unboundParameter _ => false
  | _ => true

theorem EvalError.isNullFault_of_isOrdinary {error : EvalError} (h : error.isOrdinary = true) :
    error.isNullFault = false := by
  cases error with
  | nullReference | nullReceiver => cases h
  | _ => rfl

theorem UnaryOp.apply_eq_error {op : UnaryOp} {operand : Value} {error : EvalError}
    (h : op.apply operand = .error error) : error.isOrdinary = true := by
  unfold UnaryOp.apply at h
  split at h
  all_goals cases h
  all_goals rfl

theorem compareValues_eq_error {symbol : String} {a b : Value} {error : EvalError}
    (h : compareValues symbol a b = .error error) : error.isOrdinary = true := by
  unfold compareValues at h
  split at h
  · cases h
  · cases h
  · split at h
    all_goals cases h
    all_goals rfl

theorem comparison_eq_error {op : BinaryOp} {a b : Value} {error : EvalError}
    (h : comparison op a b = .error error) : error.isOrdinary = true := by
  unfold comparison at h
  split at h
  · cases h
  · cases horder : compareValues op.symbol a b with
    | ok order => simp [horder, bind, Except.bind, pure, Except.pure] at h
    | error other =>
      obtain rfl : other = error := by simpa [horder, bind, Except.bind] using h
      exact compareValues_eq_error horder

theorem intArithmetic_eq_error {op : BinaryOp} {a b : Int64} {error : EvalError}
    (h : intArithmetic op a b = .error error) : error.isOrdinary = true := by
  unfold intArithmetic at h
  split at h
  iterate 3 cases h
  · split at h
    all_goals cases h
    all_goals rfl

theorem arithmetic_eq_error {op : BinaryOp} {a b : Value} {error : EvalError}
    (h : arithmetic op a b = .error error) : error.isOrdinary = true := by
  unfold arithmetic at h
  split at h
  iterate 4 cases h
  · exact intArithmetic_eq_error h
  · split at h
    all_goals cases h
    all_goals rfl

theorem BinaryOp.apply_eq_error {op : BinaryOp} {a b : Value} {error : EvalError}
    (h : op.apply a b = .error error) : error.isOrdinary = true := by
  unfold BinaryOp.apply at h
  split at h
  · cases h
  · cases h
  iterate 4 exact comparison_eq_error h
  iterate 4 exact arithmetic_eq_error h
  all_goals
    split at h
    all_goals cases h
    all_goals rfl

theorem Value.elementAt_eq_error {target position : Value} {error : EvalError}
    (h : target.elementAt position = .error error) :
    error.isOrdinary = true ∨ target = .null ∧ error.isNullFault = true := by
  unfold Value.elementAt at h
  split at h
  · cases h
    exact .inr ⟨rfl, rfl⟩
  · dsimp only at h
    split at h
    all_goals cases h
    exact .inl rfl
  all_goals
    cases h
    exact .inl rfl

theorem Value.elementAt_eq_ok {target position value : Value}
    (h : target.elementAt position = .ok value) :
    ∃ kind items, target = .collection kind items ∧ value ∈ items := by
  unfold Value.elementAt at h
  split at h
  case h_2 =>
    dsimp only at h
    split at h
    · rename_i item hfound
      cases h
      split at hfound
      · cases hfound
      · exact ⟨_, _, rfl, List.mem_of_getElem? hfound⟩
    · cases h
  all_goals cases h

end NullGuard
