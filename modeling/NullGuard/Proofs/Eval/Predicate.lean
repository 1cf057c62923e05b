import NullGuard.Eval.Evaluate
import NullGuard.Proofs.Eval.Trace

/-! # Methods that take a predicate

Five methods take a predicate. Each of them asks it about all items in order before it does
anything else, so they agree in what they look at and in where they stop, and differ only in what
they make of the items that are accepted. -/

namespace NullGuard

/-! ## Asking about items -/

/-- The predicate answers for each of these items in turn, from the trace that the item before it
has left. -/
inductive Asks (invoke : Invoke) (predicate : Value) :
    Trace → List (Value × Bool) → Trace → Prop where
  | nil {trace} : Asks invoke predicate trace [] trace
  | cons {trace middle after item answer asked}
      (hitem : (invoke predicate [item]).runAt trace = (.ok (.bool answer), middle))
      (hrest : Asks invoke predicate middle asked after) :
      Asks invoke predicate trace ((item, answer) :: asked) after

/-- The items with the answer `true`, in order. -/
def accepted (asked : List (Value × Bool)) : List Value :=
  (asked.filter Prod.snd).map Prod.fst

/-- The invocation of a predicate gives no answer, and the method stops for that reason. -/
inductive CallSite.Refuses (site : CallSite) : Except Stop Value → Stop → Prop where
  | failed (stop : Stop) : Refuses site (.error stop) stop
  | notBool {value : Value} (h : ∀ answer, value ≠ .bool answer) :
      Refuses site (.ok value) (.fault (.mismatch site.method "bool" value))

section Filter

variable {invoke : Invoke} {predicate item : Value} {site : CallSite} {trace middle after : Trace}
  {asked : List (Value × Bool)} {outcome : Except Stop Value} {stop : Stop}

theorem CallSite.runAt_test_of_bool {answer : Bool}
    (h : (invoke predicate [item]).runAt trace = (.ok (.bool answer), after)) :
    (site.test invoke predicate item).runAt trace = (.ok answer, after) := by
  rw [test, EvalM.runAt_bind_of_ok h, EvalM.runAt_pure]

theorem CallSite.Refuses.runAt_test (hrefuses : site.Refuses outcome stop)
    (h : (invoke predicate [item]).runAt trace = (outcome, after)) :
    (site.test invoke predicate item).runAt trace = (.error stop, after) := by
  cases hrefuses with
  | failed => rw [test, EvalM.runAt_bind_of_error h]
  | @notBool value hvalue =>
    rw [test, EvalM.runAt_bind_of_ok h]
    cases value with
    | bool answer => exact absurd rfl (hvalue answer)
    | _ => rfl

theorem CallSite.answers_or_refuses (site : CallSite) (outcome : Except Stop Value) :
    (∃ answer, outcome = .ok (.bool answer)) ∨ ∃ stop, site.Refuses outcome stop := by
  cases outcome with
  | error stop => exact .inr ⟨stop, .failed stop⟩
  | ok value =>
    cases value with
    | bool answer => exact .inl ⟨answer, rfl⟩
    | _ => exact .inr ⟨_, .notBool nofun⟩

theorem Asks.runAt_keepM (h : Asks invoke predicate trace asked after) :
    (keepM (site.test invoke predicate) (asked.map Prod.fst)).runAt trace =
      (.ok (accepted asked), after) := by
  induction h with
  | nil => rfl
  | @cons _ _ _ item answer asked hitem _ ih =>
    rw [List.map_cons, keepM, EvalM.runAt_bind_of_ok (CallSite.runAt_test_of_bool hitem),
      EvalM.runAt_bind_of_ok ih, EvalM.runAt_pure]
    cases answer <;> simp [accepted]

/-- The filter stops at the first item without an answer, whatever comes behind it. -/
theorem Asks.runAt_keepM_of_refuses (h : Asks invoke predicate trace asked middle)
    (hitem : (invoke predicate [item]).runAt middle = (outcome, after))
    (hrefuses : site.Refuses outcome stop) (rest : List Value) :
    (keepM (site.test invoke predicate) (asked.map Prod.fst ++ item :: rest)).runAt trace =
      (.error stop, after) := by
  induction h with
  | nil =>
    rw [List.map_nil, List.nil_append, keepM,
      EvalM.runAt_bind_of_error (hrefuses.runAt_test hitem)]
  | cons hfirst _ ih =>
    rw [List.map_cons, List.cons_append, keepM,
      EvalM.runAt_bind_of_ok (CallSite.runAt_test_of_bool hfirst),
      EvalM.runAt_bind_of_error (ih hitem)]

/-- All items are answered for, or there is a first one that is not. -/
theorem exists_asks (invoke : Invoke) (predicate : Value) (site : CallSite) (trace : Trace)
    (items : List Value) :
    (∃ asked after, Asks invoke predicate trace asked after ∧ asked.map Prod.fst = items) ∨
      ∃ asked item rest middle outcome stop after, Asks invoke predicate trace asked middle ∧
        asked.map Prod.fst ++ item :: rest = items ∧
        (invoke predicate [item]).runAt middle = (outcome, after) ∧ site.Refuses outcome stop := by
  induction items generalizing trace with
  | nil => exact .inl ⟨[], trace, .nil, rfl⟩
  | cons item items ih =>
    rcases hitem : (invoke predicate [item]).runAt trace with ⟨outcome, middle⟩
    rcases site.answers_or_refuses outcome with ⟨answer, rfl⟩ | ⟨stop, hrefuses⟩
    · rcases ih middle with ⟨asked, after, hasks, rfl⟩ |
        ⟨asked, next, rest, last, outcome, stop, after, hasks, rfl, hnext, hrefuses⟩
      · exact .inl ⟨(item, answer) :: asked, after, .cons hitem hasks, rfl⟩
      · exact .inr ⟨(item, answer) :: asked, next, rest, last, outcome, stop, after,
          .cons hitem hasks, rfl, hnext, hrefuses⟩
    · exact .inr ⟨[], item, items, trace, outcome, stop, middle, .nil, rfl, hitem, hrefuses⟩

end Filter

/-! ## The methods -/

/-- What the methods that take a predicate make of the items that it accepts. -/
inductive CallSite.Concludes (defs : Definitions) (site : CallSite) (kept : List Value) :
    Builtin → Except EvalError Value → Prop where
  | filter : Concludes defs site kept .filter (.ok (.list kept))
  | count : Concludes defs site kept .count (.ok (.int (Int64.ofNat kept.length)))
  | any : Concludes defs site kept .any (.ok (.bool (kept ≠ [])))
  | first {item rest} (h : kept = item :: rest) : Concludes defs site kept .first (.ok item)
  | firstOfNone (h : kept = []) :
      Concludes defs site kept .first (.error (.emptySequence site.method))
  | firstOrDefault {item rest} (h : kept = item :: rest) :
      Concludes defs site kept .firstOrDefault (.ok item)
  | defaultOfNone (h : kept = []) :
      Concludes defs site kept .firstOrDefault (.ok (.default defs site.ty))

namespace Builtin

/-- The methods that take a predicate. -/
def withPredicate : List Builtin :=
  [filter, count, any, first, firstOrDefault]

variable {defs : Definitions} {invoke : Invoke} {site : CallSite} {receiver predicate : Value}
  {more : List Value} {method : Builtin} {trace after : Trace}

/-- Such a method filters first, and goes on with nothing but the accepted items. -/
theorem exists_run_eq_bind (h : method ∈ withPredicate) :
    ∃ next : List Value → EvalM Value, run defs invoke site receiver (predicate :: more) method =
      site.matching invoke receiver (predicate :: more) >>= next := by
  simp only [withPredicate, List.mem_cons, List.not_mem_nil, or_false] at h
  rcases h with rfl | rfl | rfl | rfl | rfl <;> exact ⟨_, rfl⟩

theorem runAt_of_concludes {kept : List Value} {outcome : Except EvalError Value}
    (hmatching :
      (site.matching invoke receiver (predicate :: more)).runAt trace = (.ok kept, after))
    (h : site.Concludes defs kept method outcome) :
    (run defs invoke site receiver (predicate :: more) method).runAt trace =
      (outcome.mapError .fault, after) := by
  cases h with
  | filter => exact EvalM.runAt_bind_of_ok hmatching
  | count => exact EvalM.runAt_bind_of_ok hmatching
  | any =>
    have hany : (!kept.isEmpty) = decide (kept ≠ []) := by cases kept <;> rfl
    rw [← hany]
    exact EvalM.runAt_bind_of_ok hmatching
  | first h | firstOfNone h | firstOrDefault h | defaultOfNone h =>
    subst h
    exact EvalM.runAt_bind_of_ok hmatching

/-- With a predicate that answers for all items, these methods leave the same trace, and give what
they make of the accepted items. They all stop at the first item without an answer, for the same
reason and with the trace that its invocation has left. -/
theorem runAt_withPredicate (defs : Definitions) (invoke : Invoke) (site : CallSite)
    (kind : CollectionKind) (items : List Value) (predicate : Value) (more : List Value)
    (trace : Trace) :
    (∀ asked after, Asks invoke predicate trace asked after → asked.map Prod.fst = items →
      ∀ method outcome, site.Concludes defs (accepted asked) method outcome →
        (run defs invoke site (.collection kind items) (predicate :: more) method).runAt trace =
          (outcome.mapError .fault, after)) ∧
    (∀ asked item rest middle outcome stop after, Asks invoke predicate trace asked middle →
      asked.map Prod.fst ++ item :: rest = items →
      (invoke predicate [item]).runAt middle = (outcome, after) → site.Refuses outcome stop →
        ∀ method ∈ withPredicate,
          (run defs invoke site (.collection kind items) (predicate :: more) method).runAt trace =
            (.error stop, after)) ∧
    ((∃ asked after, Asks invoke predicate trace asked after ∧ asked.map Prod.fst = items) ∨
      ∃ asked item rest middle outcome stop after, Asks invoke predicate trace asked middle ∧
        asked.map Prod.fst ++ item :: rest = items ∧
        (invoke predicate [item]).runAt middle = (outcome, after) ∧
        site.Refuses outcome stop) := by
  refine ⟨?answered, ?refused, exists_asks invoke predicate site trace items⟩
  case answered =>
    rintro asked after hasks rfl method outcome hconcludes
    exact runAt_of_concludes hasks.runAt_keepM hconcludes
  case refused =>
    rintro asked item rest middle outcome stop after hasks rfl hitem hrefuses method hmethod
    obtain ⟨next, hrun⟩ := exists_run_eq_bind hmethod
    rw [hrun]
    exact EvalM.runAt_bind_of_error (hasks.runAt_keepM_of_refuses hitem hrefuses rest)

/-- `s => s.Length < 2` -/
def isShort : Value :=
  .closure [⟨"s", .string⟩]
    (.binary .bool .lt (.member .int (.param .string "s") "Length" .string)
      (.literal .int (.int 2))) []

/-- One of two texts is short. Behind them a null stops all five methods, and they have looked at
the lengths of the two texts by then. -/
theorem runAt_isShort :
    let invoke := Context.invoke (Context.eval ⟨.empty, .builtin⟩ 3)
    let lengths : Trace := ⟨[.member "Length", .member "Length"], []⟩
    (run .empty invoke ⟨"Where", .object⟩ (.list [.string "a", .string "bb"]) [isShort]
        .filter).runAt .empty = (.ok (.list [.string "a"]), lengths) ∧
      ∀ method ∈ withPredicate,
        (run .empty invoke ⟨method.name, .object⟩ (.list [.string "a", .string "bb", .null])
            [isShort] method).runAt .empty =
          (.error (.fault (.nullReference "Length")), lengths) := by
  intro invoke lengths
  have hasks : Asks invoke isShort .empty [(.string "a", true), (.string "bb", false)] lengths :=
    .cons rfl (.cons rfl .nil)
  have hnull : (invoke isShort [.null]).runAt lengths =
      (.error (.fault (.nullReference "Length")), lengths) := rfl
  constructor
  · exact (runAt_withPredicate .empty invoke ⟨"Where", .object⟩ .list _ isShort [] .empty).1
      _ lengths hasks rfl .filter _ .filter
  · intro method hmethod
    exact (runAt_withPredicate .empty invoke ⟨method.name, .object⟩ .list _ isShort [] .empty).2.1
      _ .null [] lengths _ _ lengths hasks rfl hnull (.failed _) method hmethod

end Builtin

end NullGuard
