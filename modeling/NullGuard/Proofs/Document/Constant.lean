import NullGuard.Document.Data
import NullGuard.Proofs.Eval.Fuel

/-! # Constants and data

A scalar of a document is a number of the same kind as a constant and as data of one type, unless
the type is a nullable form of a floating type: data looks through the nullable form, a constant
does not. -/

namespace NullGuard

namespace Json

/-- Null, a truth value, a number or a text. -/
def isScalar : Json → Bool
  | array _ | object _ => false
  | _ => true

/-- An integer that fits 64 bits with a sign. -/
def isLong : Json → Bool
  | int i => i < 0x8000000000000000
  | _ => false

end Json

/-- `double?` or `decimal?` -/
def Ty.isNullableFloating (ty : Ty) : Bool :=
  ty.underlying?.any Ty.isFloating

/-- Only a small integer is another value as an integer than as a double. -/
theorem integerLiteral_eq_iff {i : Int} {floating floating' : Bool} :
    Value.ofLiteral (integerLiteral i floating) = .ofLiteral (integerLiteral i floating') ↔
      (i < 0x8000000000000000 → floating = floating') := by
  by_cases hlong : i < 0x8000000000000000
  · have hlt : ¬ 0x8000000000000000 ≤ i := Int.not_le.mpr hlong
    cases floating <;> cases floating' <;> simp [integerLiteral, hlong, hlt, Value.ofLiteral]
  · have hle : 0x8000000000000000 ≤ i := Int.not_lt.mp hlong
    simp [integerLiteral, hlong, hle]

/-- Numbers of a type and of its data are of one kind, but for nullable forms. -/
theorem isFloating_eq_dataType_iff {ty : Ty} :
    ty.isFloating = (Json.dataType ty).isFloating ↔ ty.isNullableFloating = false := by
  cases ty with
  | nullable underlying =>
    change false = underlying.isFloating ↔ underlying.isFloating = false
    exact eq_comm
  | _ => exact iff_of_true rfl rfl

theorem exists_lowerConstant {json : Json} (h : json.isScalar = true) (ty : Ty) :
    ∃ literal, lowerConstant json (some ty) = .ok (.literal ty literal) ∧
      ∀ defs, ∃ value, json.toValue defs ty = .ok value ∧
        (value = .ofLiteral literal ↔ ¬ (json.isLong = true ∧ ty.isNullableFloating = true)) := by
  cases json with
  | array | object => cases h
  | int i =>
    refine ⟨_, rfl, fun defs => ⟨_, rfl, ?_⟩⟩
    have hsome : (some ty).any Ty.isFloating = ty.isFloating := rfl
    rw [integerLiteral_eq_iff, hsome, eq_comm, isFloating_eq_dataType_iff]
    simp [Json.isLong]
  | _ => exact ⟨_, rfl, fun defs => ⟨_, rfl, iff_of_true rfl nofun⟩⟩

/-- Lowering a scalar to a constant of a type and converting it to data of that type never fail,
and the constant evaluates to the data, except for integers where the type is `double?` or
`decimal?`. -/
theorem Json.ends_constant_iff {json : Json} (h : json.isScalar = true) (context : Context)
    (ty : Ty) (env : Env) (trace : Trace) :
    ∃ constant value, lowerConstant json (some ty) = .ok constant ∧
      json.toValue context.defs ty = .ok value ∧
      (context.Ends constant env trace (.ok value) trace ↔
        ¬ (json.isLong = true ∧ ty.isNullableFloating = true)) := by
  obtain ⟨literal, hconstant, hdata⟩ := exists_lowerConstant h ty
  obtain ⟨value, hvalue, hiff⟩ := hdata context.defs
  refine ⟨_, value, hconstant, hvalue, ?_⟩
  have hends : context.Ends (.literal ty literal) env trace (.ok (.ofLiteral literal)) trace :=
    ⟨1, rfl⟩
  rw [← hiff]
  constructor
  · intro hends'
    exact Except.ok.inj (hends'.unique hends).1
  · rintro rfl
    exact hends

/-- The integer `2` is a double as a constant and as data of type `double`. -/
theorem Json.ends_constant_two :
    ∃ constant value, lowerConstant (.int 2) (some .double) = .ok constant ∧
      (Json.int 2).toValue Collection.definitions .double = .ok value ∧
      Context.Ends ⟨Collection.definitions, .builtin⟩ constant [] .empty (.ok value) .empty := by
  have hscalar : (Json.int 2).isScalar = true := rfl
  obtain ⟨constant, value, hconstant, hvalue, hiff⟩ :=
    Json.ends_constant_iff hscalar ⟨Collection.definitions, .builtin⟩ .double [] .empty
  exact ⟨constant, value, hconstant, hvalue, hiff.mpr (by decide)⟩

/-- As a constant of type `double?` the integer `1` stays an integer, and as data it is a double. -/
theorem Json.ends_constant_nullable :
    ∃ constant number, lowerConstant (.int 1) (some (.nullable .double)) = .ok constant ∧
      Context.Ends ⟨Collection.definitions, .builtin⟩ constant [] .empty (.ok (.int 1)) .empty ∧
      (Json.int 1).toValue Collection.definitions (.nullable .double) = .ok (.double number) :=
  ⟨_, _, rfl, ⟨1, rfl⟩, rfl⟩

end NullGuard
