import NullGuard.Expr.Build
import NullGuard.Proofs.Eval.Chain

/-! # Chains of declared members

A chain can be built by the names of its members, if each of them is declared for the type of the
member before it. What reading goes on to after a value depends only on the value, so that an
evaluation can be followed from one link to the next. -/

namespace NullGuard

/-! ## Evaluation in two stages -/

/-- With some more levels, `e` is evaluated by evaluating `part` first and going on from its
value. -/
def Context.Continues (context : Context) (part e : Expr) (next : Value → EvalM Value) : Prop :=
  ∃ more less, ∀ fuel env, context.eval (fuel + more) e env =
    context.eval (fuel + less) part env >>= next

theorem Link.continues (context : Context) (link : Link) (receiver : Expr) :
    context.Continues receiver (link.on receiver) (link.follow context receiver.ty) :=
  ⟨1, 0, fun fuel env => link.eval_on receiver context fuel env⟩

namespace Context.Continues

variable {context : Context} {part e : Expr} {next : Value → EvalM Value} {env : Env}
  {trace middle after : Trace} {outcome : Except EvalError Value}
  (h : context.Continues part e next)

include h

theorem ends_of_ok {value : Value} (hpart : context.Ends part env trace (.ok value) middle)
    (hnext : (next value).runAt middle = (outcome.mapError .fault, after)) :
    context.Ends e env trace outcome after := by
  obtain ⟨more, less, heval⟩ := h
  obtain ⟨fuel, hrun⟩ := hpart
  refine ⟨fuel + more, ?_⟩
  rw [heval, EvalM.runAt_bind_of_ok (context.eval_eq_of_le (Nat.le_add_right fuel less) hrun nofun),
    hnext]

theorem ends_of_error {error : EvalError}
    (hpart : context.Ends part env trace (.error error) after) :
    context.Ends e env trace (.error error) after := by
  obtain ⟨more, less, heval⟩ := h
  obtain ⟨fuel, hrun⟩ := hpart
  refine ⟨fuel + more, ?_⟩
  rw [heval]
  exact EvalM.runAt_bind_of_error
    (context.eval_eq_of_le (Nat.le_add_right fuel less) hrun (mapError_fault_ne (.error error)))

/-- Either the part fails, or the evaluation goes on from its value. -/
theorem cases_of_ends (hends : context.Ends e env trace outcome after) :
    (∃ error, outcome = .error error ∧ context.Ends part env trace (.error error) after) ∨
      ∃ value middle, context.Ends part env trace (.ok value) middle ∧
        (next value).runAt middle = (outcome.mapError .fault, after) := by
  obtain ⟨more, less, heval⟩ := h
  obtain ⟨fuel, hrun⟩ := hends
  replace hrun := context.eval_eq_of_le (Nat.le_add_right fuel more) hrun (mapError_fault_ne _)
  rw [heval] at hrun
  rcases hpart : (context.eval (fuel + less) part env).runAt trace with ⟨stop | value, middle⟩
  · rw [EvalM.runAt_bind_of_error hpart, Prod.mk.injEq] at hrun
    obtain ⟨hstop, rfl⟩ := hrun
    cases outcome with
    | ok => cases hstop
    | error error =>
      cases hstop
      exact .inl ⟨error, rfl, ⟨_, hpart⟩⟩
  · rw [EvalM.runAt_bind_of_ok hpart] at hrun
    exact .inr ⟨value, middle, ⟨_, hpart⟩, hrun⟩

end Context.Continues

/-! ## Declared members -/

/-- Reads of declared members one after the other, none of which is a `bool`. -/
inductive FieldChain (defs : Definitions) (start : Expr) : List Link → Prop where
  | nil : FieldChain defs start []
  | snoc {links name ty} (h : FieldChain defs start links)
      (hfield : (chain start links).ty.fieldType? defs name = some ty) (hbool : ty ≠ .bool) :
      FieldChain defs start (links ++ [.read ty name (chain start links).ty])

theorem chain_append (start : Expr) (links links' : List Link) :
    chain start (links ++ links') = chain (chain start links) links' :=
  List.foldl_append

theorem fieldType?_bool (defs : Definitions) (name : String) :
    Ty.bool.fieldType? defs name = none :=
  rfl

namespace FieldChain

variable {defs : Definitions} {start : Expr} {links : List Link} {link : Link}

theorem of_append_singleton (h : FieldChain defs start (links ++ [link])) :
    FieldChain defs start links ∧
      ∃ name ty, link = .read ty name (chain start links).ty ∧
        (chain start links).ty.fieldType? defs name = some ty ∧ ty ≠ .bool := by
  generalize hlinks : links ++ [link] = all at h
  cases h with
  | nil => simp at hlinks
  | snoc h hfield hbool =>
    obtain ⟨rfl, rfl⟩ := List.append_singleton_inj.mp hlinks
    exact ⟨h, _, _, rfl, hfield, hbool⟩

/-- A chain that is built from the names of its members reads declared members. -/
theorem exists_of_foldlM {names : List String} {e : Expr}
    (h : names.foldlM (Expr.member? defs) start = .ok e) (hbool : e.ty ≠ .bool) :
    ∃ links, FieldChain defs start links ∧ chain start links = e ∧ links.map Link.name = names := by
  induction names using List.reverseRecOn generalizing e with
  | nil =>
    cases h
    exact ⟨[], .nil, rfl, rfl⟩
  | append_singleton names name ih =>
    rw [List.foldlM_append] at h
    cases htarget : names.foldlM (Expr.member? defs) start with
    | error error =>
      rw [htarget] at h
      cases h
    | ok target =>
      have hlast : target.member? defs name = .ok e := by
        simp only [htarget, List.foldlM_cons, List.foldlM_nil, bind_pure] at h
        exact h
      unfold Expr.member? at hlast
      split at hlast
      · rename_i ty hfield
        cases hlast
        have htargetBool : target.ty ≠ .bool := by
          intro heq
          rw [heq, fieldType?_bool] at hfield
          cases hfield
        obtain ⟨links, hlinks, rfl, rfl⟩ := ih htarget htargetBool
        refine ⟨_, .snoc hlinks hfield hbool, ?_, by simp [Link.name]⟩
        simp [Link.on, Expr.memberOf]
      · cases hlast

end FieldChain

/-! ## Where a chain meets null -/

section Null

variable {context : Context} {target ty : Ty} {name : String}

/-- A declared member that is no `bool` is not the one that null has. -/
theorem readMember_null_of_fieldType? (hfield : target.fieldType? context.defs name = some ty)
    (hbool : ty ≠ .bool) :
    context.readMember .null target name ty = EvalM.fail (.nullReference name) := by
  refine context.readMember_null ?_ ty
  rintro ⟨rfl, hnullable⟩
  cases target with
  | nullable underlying => exact hbool (Option.some.inj hfield).symm
  | _ => cases hnullable

/-- Of values other than null no member fails at null. -/
theorem Link.runAt_follow_ne_nullReference {link : Link} {value : Value} {member : String}
    {middle after : Trace} (h : value.isNull = false) :
    (link.follow context target value).runAt middle ≠
      (.error (.fault (.nullReference member)), after) := by
  intro hrun
  rcases @Link.follow_of_not_isNull link context target value h with
    ⟨rest, hrest, heq⟩ | ⟨error, herror, heq⟩
  · rw [heq, EvalM.runAt_bind_of_ok (EvalM.runAt_record _ _)] at hrun
    obtain ⟨outcome, _, hrun', _, hordinary⟩ :=
      hrest { middle with accesses := link.access :: middle.accesses }
    rw [hrun, Prod.mk.injEq] at hrun'
    cases outcome with
    | ok => cases hrun'.1
    | error error =>
      cases hrun'.1
      cases hordinary _ rfl
  · rw [heq] at hrun
    cases hrun
    cases herror

variable {links : List Link} {env : Env} {trace after : Trace} {member : String}

/-- A chain that fails at null reaches null at one of its links. -/
theorem FieldChain.exists_null {paramTy : Ty} {param : String}
    (h : FieldChain context.defs (.param paramTy param) links)
    (hends : context.Ends (chain (.param paramTy param) links) env trace
      (.error (.nullReference member)) after) :
    ∃ before rest, links = before ++ rest ∧ rest ≠ [] ∧
      context.Ends (chain (.param paramTy param) before) env trace (.ok .null) after := by
  induction h with
  | nil =>
    obtain ⟨fuel, hrun⟩ := hends
    replace hrun := context.eval_eq_of_le (Nat.le_succ fuel) hrun nofun
    rw [chain_nil] at hrun
    cases hlookup : List.lookup param env with
    | none =>
      rw [context.eval_param_of_unbound fuel hlookup] at hrun
      cases hrun
    | some value =>
      rw [context.eval_param_of_lookup fuel hlookup] at hrun
      cases hrun
  | @snoc links name ty _ hfield hbool ih =>
    rw [chain_append_singleton] at hends
    rcases (Link.continues context _ _).cases_of_ends hends with
      ⟨error, heq, hpart⟩ | ⟨value, middle, hpart, hfollow⟩
    · cases heq
      obtain ⟨before, rest, rfl, hrest, hnull⟩ := ih hpart
      exact ⟨before, rest ++ [_], List.append_assoc .., by simp, hnull⟩
    · cases hvalue : value.isNull with
      | true =>
        obtain rfl := Value.eq_null_of_isNull hvalue
        have hfail := readMember_null_of_fieldType? hfield hbool
        rw [Link.follow, hfail] at hfollow
        cases hfollow
        exact ⟨links, [_], rfl, by simp, hpart⟩
      | false => exact absurd hfollow (Link.runAt_follow_ne_nullReference hvalue)

end Null

/-! ## Members of values that stand for missing ones -/

/-- Ends of evaluations from which no member leads to a collection. -/
inductive OffTrack : Except EvalError Value → Prop where
  | error {error} : OffTrack (.error error)
  | bool {value} : OffTrack (.ok (.bool value))
  | int {value} : OffTrack (.ok (.int value))

namespace OffTrack

variable (context : Context) {target : Ty} (name : String) (ty : Ty)

theorem ne_collection {outcome : Except EvalError Value} (h : OffTrack outcome)
    (kind : CollectionKind) (items : List Value) : outcome ≠ .ok (.collection kind items) := by
  cases h <;> nofun

theorem readNullable (isNullable : Bool) {value : Value}
    (h : isNullable = true → OffTrack (.ok value)) (trace : Trace) :
    ∃ outcome after, OffTrack outcome ∧
      (Context.readMember.readNullable isNullable name value).runAt trace =
        (outcome.mapError .fault, after) := by
  unfold Context.readMember.readNullable
  split
  · exact ⟨.ok (.bool true), trace, .bool, rfl⟩
  · split
    · rename_i hvalue
      exact ⟨.ok value, trace, h (by simp_all), rfl⟩
    · exact ⟨.error (.unknownMember name value.kindName), trace, .error, rfl⟩

theorem readMember {value : Value} (h : OffTrack (.ok value)) (trace : Trace) :
    ∃ outcome after, OffTrack outcome ∧
      (context.readMember value target name ty).runAt trace =
        (outcome.mapError .fault, after) := by
  have hread : context.readMember value target name ty = (do
      EvalM.record (.member name)
      Context.readMember.readNullable target.underlying?.isSome name value) := by
    cases h <;> rfl
  rw [hread, EvalM.runAt_bind_of_ok (EvalM.runAt_record _ _)]
  exact readNullable name target.underlying?.isSome (fun _ => h) _

/-- Of an empty collection no member leads to a collection either. -/
theorem readMember_collection (h : target.underlying? = none) (kind : CollectionKind)
    (trace : Trace) :
    ∃ outcome after, OffTrack outcome ∧
      (context.readMember (.collection kind []) target name ty).runAt trace =
        (outcome.mapError .fault, after) := by
  have hread : context.readMember (.collection kind []) target name ty = (do
      EvalM.record (.member name)
      if name = "Count" || name = "Length" then return .int 0
      else Context.readMember.readNullable target.underlying?.isSome name (.collection kind [])) :=
    rfl
  rw [hread, EvalM.runAt_bind_of_ok (EvalM.runAt_record _ _)]
  split
  · exact ⟨.ok (.int 0), _, .int, rfl⟩
  · exact readNullable name target.underlying?.isSome (fun hsome => by simp [h] at hsome) _

end OffTrack

section Struct

variable {context : Context} {target ty : Ty} {name : String}
  (hfield : target.fieldType? context.defs name = some ty)
  (hstruct : target.canBeNull context.defs = false)

include hfield hstruct

/-- Of the types that cannot be null only structs have members. -/
theorem default_of_fieldType? : Value.default context.defs target = .object target [] := by
  cases target with
  | named definition args =>
    have hkind : context.defs.kind? definition = some .structType := by
      simpa [Ty.canBeNull, Ty.isValueType] using hstruct
    simp [Value.default, hstruct, hkind]
  | intrinsic kind => cases kind <;> first | cases hfield | cases hstruct
  | array | nullable => cases hstruct
  | unknown | param => cases hfield

/-- A struct that was never assigned has the default values of its members. -/
theorem readMember_default (trace : Trace) :
    ∃ after, (context.readMember (.default context.defs target) target name ty).runAt trace =
      (.ok (.default context.defs ty), after) := by
  have hread : context.readMember (.object target []) target name ty = (do
      EvalM.record (.member name)
      EvalM.recordLookup target name
      if (target.fieldType? context.defs name).isSome then
        return .default context.defs ty
      EvalM.fail (.unknownMember name (target.text context.defs))) :=
    rfl
  rw [default_of_fieldType? hfield hstruct, hread,
    EvalM.runAt_bind_of_ok (EvalM.runAt_record _ _),
    EvalM.runAt_bind_of_ok (EvalM.runAt_recordLookup _ _ _), hfield]
  exact ⟨_, rfl⟩

end Struct

end NullGuard
