import NullGuard.Proofs.Eval.Fuel

/-! # Arithmetic on integers

The results of `+`, `-`, `*`, `/` and of a sign change are those on integers of any size, cut down
to 64 bits. A quotient that needs the 65th bit is the exception: it is refused like a division by
zero. -/

namespace NullGuard

variable {a b : Int64}

/-- The result of an arithmetic operator on integers of any size. Quotients are cut off toward
zero. -/
def BinaryOp.onIntegers? : BinaryOp → Int → Int → Option Int
  | .add, a, b => some (a + b)
  | .sub, a, b => some (a - b)
  | .mul, a, b => some (a * b)
  | .div, a, b => some (a.tdiv b)
  | _, _, _ => none

/-- The quotient does not exist, or it is the one that is not among the integers of 64 bits. -/
def RefusesQuotient (a b : Int64) : Prop :=
  b = 0 ∨ a = Int64.minValue ∧ b = -1

instance (a b : Int64) : Decidable (RefusesQuotient a b) :=
  inferInstanceAs (Decidable (_ ∨ _))

/-! ## Operators on values -/

theorem ofInt_tdiv_toInt (a b : Int64) : Int64.ofInt (a.toInt.tdiv b.toInt) = a / b := by
  rw [Int64.ofInt_tdiv (Int64.minValue_le_toInt a) (Int64.toInt_le a) (Int64.minValue_le_toInt b)
    (Int64.toInt_le b), Int64.ofInt_toInt, Int64.ofInt_toInt]

/-- One equation for all four operators. -/
theorem intArithmetic_eq {op : BinaryOp} {n : Int} (hop : op.onIntegers? a.toInt b.toInt = some n) :
    intArithmetic op a b =
      if op = .div ∧ RefusesQuotient a b then .error .divideByZero
      else .ok (.int (.ofInt n)) := by
  cases op with
  | add | sub | mul =>
    cases hop
    simp [intArithmetic]
  | div =>
    cases hop
    simp [intArithmetic, RefusesQuotient, ofInt_tdiv_toInt]
  | _ => cases hop

theorem BinaryOp.apply_int {op : BinaryOp} {n : Int}
    (hop : op.onIntegers? a.toInt b.toInt = some n) :
    op.apply (.int a) (.int b) = intArithmetic op a b := by
  cases op with
  | add | sub | mul | div => rfl
  | _ => cases hop

theorem UnaryOp.apply_neg_int (a : Int64) :
    UnaryOp.neg.apply (.int a) = .ok (.int (.ofInt (-a.toInt))) := by
  rw [Int64.ofInt_neg, Int64.ofInt_toInt]
  rfl

/-! ## Evaluation -/

namespace Context

variable {context : Context} {left right : Expr} {env : Env} {trace middle after : Trace}

theorem runAt_ofExcept (outcome : Except EvalError Value) (trace : Trace) :
    (ofExcept outcome).runAt trace = (outcome.mapError .fault, trace) := by
  cases outcome <;> rfl

/-- An operator that needs both operands is applied to their values, the left one first. -/
theorem Ends.binary {op : BinaryOp} {first second : Value} (hop : op ≠ .and ∧ op ≠ .or)
    (hleft : context.Ends left env trace (.ok first) middle)
    (hright : context.Ends right env middle (.ok second) after) (ty : Ty) :
    context.Ends (.binary ty op left right) env trace (op.apply first second) after := by
  obtain ⟨fuel, hleft⟩ := hleft
  obtain ⟨fuel', hright⟩ := hright
  replace hleft := context.eval_eq_of_le (Nat.le_max_left fuel fuel') hleft nofun
  replace hright := context.eval_eq_of_le (Nat.le_max_right fuel fuel') hright nofun
  refine ⟨max fuel fuel' + 1, ?_⟩
  have hlogical : ¬ (op = .and || op = .or) = true := by simpa using hop
  rw [eval, evalNode, if_neg hlogical, EvalM.runAt_bind_of_ok hleft,
    EvalM.runAt_bind_of_ok hright, runAt_ofExcept]

theorem Ends.unary {value : Value} (hleft : context.Ends left env trace (.ok value) middle)
    (ty : Ty) (op : UnaryOp) :
    context.Ends (.unary ty op left) env trace (op.apply value) middle := by
  obtain ⟨fuel, hleft⟩ := hleft
  refine ⟨fuel + 1, ?_⟩
  have hrun : (context.eval fuel left env).runAt trace = (.ok value, middle) := hleft
  rw [eval, evalNode, EvalM.runAt_bind_of_ok hrun, runAt_ofExcept]

/-- Operators on integers give what they give on integers of any size, cut down to 64 bits in two's
complement. Only a division can fail, by zero or of the least integer by minus one. -/
theorem ends_of_integers (hleft : context.Ends left env trace (.ok (.int a)) middle)
    (hright : context.Ends right env middle (.ok (.int b)) after) (ty : Ty) :
    (∀ op n, BinaryOp.onIntegers? op a.toInt b.toInt = some n →
      context.Ends (.binary ty op left right) env trace
        (if op = .div ∧ RefusesQuotient a b then .error .divideByZero
          else .ok (.int (.ofInt n))) after) ∧
    context.Ends (.unary ty .neg left) env trace (.ok (.int (.ofInt (-a.toInt)))) middle := by
  constructor
  · intro op n hint
    have hop : op ≠ .and ∧ op ≠ .or := by
      constructor <;> (rintro rfl; cases hint)
    rw [← intArithmetic_eq hint, ← BinaryOp.apply_int hint]
    exact hleft.binary hop hright ty
  · rw [← UnaryOp.apply_neg_int]
    exact hleft.unary ty .neg

end Context

/-- Above the greatest integer the least one follows, which is its own negative. -/
theorem ends_of_integers_limits :
    Context.Ends ⟨Collection.definitions, .builtin⟩
      (.binary .long .sub (.literal .long (.int Int64.minValue)) (.literal .long (.int 1))) []
      .empty (.ok (.int Int64.maxValue)) .empty ∧
    Context.Ends ⟨Collection.definitions, .builtin⟩
      (.unary .long .neg (.literal .long (.int Int64.minValue))) [] .empty
      (.ok (.int Int64.minValue)) .empty := by
  have hliteral (i : Int64) : Context.Ends ⟨Collection.definitions, .builtin⟩
      (.literal .long (.int i)) [] .empty (.ok (.int i)) .empty := ⟨1, rfl⟩
  obtain ⟨hbinary, hneg⟩ :=
    Context.ends_of_integers (hliteral Int64.minValue) (hliteral 1) .long
  exact ⟨hbinary .sub _ rfl, hneg⟩

/-- The least integer divided by minus one is refused, although the divisor is not zero. -/
theorem ends_leastQuotient :
    Context.Ends ⟨Collection.definitions, .builtin⟩
      (.binary .long .div (.literal .long (.int Int64.minValue)) (.literal .long (.int (-1)))) []
      .empty (.error .divideByZero) .empty ∧ (-1 : Int64) ≠ 0 :=
  ⟨⟨2, by cbv⟩, by decide⟩

end NullGuard
