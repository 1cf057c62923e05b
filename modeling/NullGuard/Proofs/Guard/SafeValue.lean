import NullGuard.Proofs.Guard.NullSafety

/-! # Values of safe expressions

A safe expression has a value other than null if its trust path ends in a node that makes such a
value, or in one whose type is kept by its value. Some nodes are safe on trust alone, and null comes
through conversions and alternatives of those. -/

namespace NullGuard

def Expr.isCall : Expr → Bool
  | call .. | freeCall .. => true
  | _ => false

/-- The nodes that are safe and may be null all the same: calls, null literals, and instances of
types without a definition that can be null. These are `object` and `string`, arrays, type
parameters and nullable forms, of which an instance is what the type has by default. -/
def Expr.isTrustedBlindly (defs : Definitions) : Expr → Bool
  | call .. | freeCall .. | literal _ .null => true
  | construct ty _ => ty.named?.isNone && ty.canBeNull defs
  | _ => false

namespace Context

variable {context : Context} {fuel : Nat} {e : Expr} {env : Env} {trace after : Trace}
  {value : Value}

theorem isNull_of_runAt (hsafe : e.isSafe context.defs = true)
    (htrust : ∀ part ∈ e.trustPath, part.isTrustedBlindly context.defs = false)
    (htyped : ∀ part ∈ e.trustPath, part.ty.canBeNull context.defs = false →
      ∀ trace after, ¬ context.Ends part env trace (.ok .null) after)
    (hrun : (context.eval fuel e env).runAt trace = (.ok value, after)) :
    value.isNull = false := by
  induction fuel generalizing e trace after value with
  | zero => cases hrun
  | succ fuel ih =>
    have hself := htrust e e.mem_trustPath_self
    cases hty : e.ty.canBeNull context.defs with
    | false =>
      by_contra hnull
      obtain rfl := Value.eq_null_of_isNull (by simpa using hnull)
      exact htyped e e.mem_trustPath_self hty trace after ⟨fuel + 1, hrun⟩
    | true =>
      cases e with
      | literal ty literal =>
        cases literal with
        | null => cases hself
        | _ => exact isNull_of_isSolid rfl hrun
      | construct ty args =>
        have hty' : ty.canBeNull context.defs = true := hty
        simp only [Expr.isTrustedBlindly, hty', Bool.and_true, Option.isNone_eq_false_iff] at hself
        have hsolid : (Expr.construct ty args).isSolid = true := hself
        exact isNull_of_isSolid hsolid hrun
      | newArray ty elements => exact isNull_of_isSolid rfl hrun
      | convert ty operand =>
        obtain ⟨_, _, hoperand, hpure⟩ := EvalM.runAt_bind_eq_ok.mp hrun
        cases hpure
        have hoperand' : operand.isSafe context.defs = true := hsafe
        rw [Expr.trustPath, List.forall_mem_cons] at htrust htyped
        exact (Value.isNull_convert _ ty).trans (ih hoperand' htrust.2 htyped.2 hoperand)
      | coalesce ty left right =>
        obtain ⟨first, middle, _, hrest⟩ := EvalM.runAt_bind_eq_ok.mp hrun
        split at hrest
        · have hty' : ty.canBeNull context.defs = true := hty
          have hright : right.isSafe context.defs = true := by simpa [Expr.isSafe, hty'] using hsafe
          rw [Expr.trustPath, List.forall_mem_cons] at htrust htyped
          exact ih hright htrust.2 htyped.2 hrest
        · rename_i hfirst
          cases hrest
          simpa using hfirst
      | call | freeCall => cases hself
      | _ => simp [Expr.isSafe, hty] at hsafe

/-- The value of a safe expression is not null, if nothing on its trust path is trusted blindly or
is null against its type. -/
theorem isNull_of_isSafe (hsafe : e.isSafe context.defs = true)
    (htrust : ∀ part ∈ e.trustPath, part.isTrustedBlindly context.defs = false)
    (htyped : ∀ part ∈ e.trustPath, part.ty.canBeNull context.defs = false →
      ∀ trace after, ¬ context.Ends part env trace (.ok .null) after)
    (hends : context.Ends e env trace (.ok value) after) : value.isNull = false := by
  obtain ⟨fuel, hrun⟩ := hends
  exact isNull_of_runAt hsafe htrust htyped hrun

end Context

/-- `x ?? (object)(double)n` -/
def otherNumber : Expr :=
  .coalesce .object (.param .object "x") (.convert .object (.convert .double (.param .int "n")))

/-- With a null `x` the number counts, which its type keeps from being null. -/
theorem isNull_otherNumber :
    otherNumber.isSafe Collection.definitions = true ∧
      ∃ value, Context.Ends ⟨Collection.definitions, .builtin⟩ otherNumber
        [("x", .null), ("n", .int 3)] .empty (.ok value) .empty ∧ value.isNull = false := by
  let context : Context := ⟨Collection.definitions, .builtin⟩
  let env : Env := [("x", .null), ("n", .int 3)]
  have hsafe : otherNumber.isSafe context.defs = true := by decide
  have htrust : ∀ part ∈ otherNumber.trustPath, part.isTrustedBlindly context.defs = false := by
    decide
  have hnumber trace : context.Ends (.param .int "n") env trace (.ok (.int 3)) trace := ⟨1, rfl⟩
  have hconverted trace : context.Ends (.convert .double (.param .int "n")) env trace
      (.ok (.double (3 : Int64).toFloat)) trace := ⟨2, rfl⟩
  have htyped : ∀ part ∈ otherNumber.trustPath, part.ty.canBeNull context.defs = false →
      ∀ trace after, ¬ context.Ends part env trace (.ok .null) after := by
    have hobject : Ty.object.canBeNull context.defs = true := by decide
    simp only [otherNumber, Expr.trustPath, List.forall_mem_cons]
    refine ⟨fun h => ?_, fun h => ?_, fun _ trace after hnull => ?_, fun _ trace after hnull => ?_,
      List.forall_mem_nil _⟩
    · exact absurd hobject (Bool.eq_false_iff.mp h)
    · exact absurd hobject (Bool.eq_false_iff.mp h)
    · cases ((hconverted trace).unique hnull).1
    · cases ((hnumber trace).unique hnull).1
  have hends : context.Ends otherNumber env .empty (.ok (.double (3 : Int64).toFloat)) .empty :=
    ⟨4, rfl⟩
  exact ⟨hsafe, _, hends, Context.isNull_of_isSafe hsafe htrust htyped hends⟩

/-- `new string()` -/
def newText : Expr :=
  .construct .string []

/-- `(string)null` -/
def convertedNull : Expr :=
  .convert .string (.null .string)

/-- Instances and conversions are trusted to have a value. But an instance of a type without a
definition is null by default, and a conversion of a null literal is null, which no call and no
value against its type brings about. -/
theorem isSafe_newText :
    (newText.isSafe Collection.definitions = true ∧
      (newText.Every fun node => node.isCall = false) ∧
      (newText.Every fun node => node.ty.canBeNull Collection.definitions = true) ∧
      Context.Ends ⟨Collection.definitions, .builtin⟩ newText [] .empty (.ok .null) .empty) ∧
    (convertedNull.isSafe Collection.definitions = true ∧
      (convertedNull.Every fun node => node.isCall = false) ∧
      (convertedNull.Every fun node => node.ty.canBeNull Collection.definitions = true) ∧
      Context.Ends ⟨Collection.definitions, .builtin⟩ convertedNull [] .empty (.ok .null)
        .empty) := by
  constructor
  · exact ⟨by decide, by decide +kernel, by decide +kernel, 1, rfl⟩
  · exact ⟨by decide, by decide +kernel, by decide +kernel, 2, rfl⟩

end NullGuard
