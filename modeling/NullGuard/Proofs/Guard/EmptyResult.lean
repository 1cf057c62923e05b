import NullGuard.Proofs.Eval.FieldChain
import NullGuard.Proofs.Guard.Chain
import NullGuard.Proofs.Guard.Trust

/-! # Empty results of guarded chains

A chain that meets null and ends in a collection should give an empty one where short circuits
prefer empty instances. Whether it does is decided by the types of the receivers from the null on:
the value that stands for the missing one has to come through them all as null, and the last of
them has to be one that is tested. -/

namespace NullGuard

variable {context : Context} {rules : GuardRules} {known : List String}

/-! ## One link -/

/-- What a guarded link goes on to from a null receiver of that type. -/
inductive AtNull (context : Context) (rules : GuardRules) (ty : Ty) (link : Link) :
    EvalM Value → Prop where
  | unguarded (hty : ty.canBeNull rules.defs = false) :
      AtNull context rules ty link (link.follow context ty .null)
  | replaced {recipe kind} (hty : ty.canBeNull rules.defs = true)
      (hfallback : rules.fallback ty = some recipe) :
      AtNull context rules ty link (link.follow context ty (.collection kind []))
  | answered {answer} (hty : ty.canBeNull rules.defs = true) (hfallback : rules.fallback ty = none)
      (hanswer : ∀ fuel env,
        context.eval (fuel + 2) (rules.shortCircuit link.ty) env = pure answer) :
      AtNull context rules ty link (pure answer)

/-- A guarded link goes on from its receiver like the link itself, except from null. -/
theorem Seals.continues {link : Link} {receiver r : Expr}
    (h : Seals rules known (link.on receiver) r) (hdefs : rules.defs = context.defs)
    (hjudged : receiver.NeedsNoGuard rules.defs known ↔
      receiver.ty.canBeNull rules.defs = false) :
    ∃ next, context.Continues receiver r next ∧
      (∀ value, value.isNull = false → next value = link.follow context receiver.ty value) ∧
      AtNull context rules receiver.ty link (next .null) := by
  have hnull : ¬ receiver.NeedsNoGuard rules.defs known →
      receiver.ty.canBeNull rules.defs = true := by
    rw [hjudged, Bool.not_eq_false]
    exact id
  cases h.sealed with
  | kept hsafe =>
    exact ⟨_, link.continues context receiver, fun _ _ => rfl, .unguarded (hjudged.mp hsafe)⟩
  | @coalesced recipe hneeds hfallback =>
    obtain ⟨kind, hkind⟩ := context.eval_emptyInstance (rules.emptyInstance hfallback)
    refine ⟨fun value => link.follow context receiver.ty
      (if value.isNull then .collection kind [] else value), ⟨4, 2, fun fuel env => ?_⟩,
      fun value hvalue => by simp [hvalue], .replaced (hnull hneeds) hfallback⟩
    rw [Link.eval_on, context.eval_coalesceOf, hkind, bind_assoc]
    refine bind_congr fun value => ?_
    cases value.isNull <;> simp [Expr.coalesceOf, Expr.ty]
  | tested hneeds hfallback htested =>
    obtain ⟨answer, hanswer⟩ := context.eval_shortCircuit hdefs link.ty
    exact ⟨_, ⟨4, 3, fun fuel env => htested.eval_eq context hanswer fuel env⟩,
      fun value hvalue => by simp [hvalue], .answered (hnull hneeds) hfallback hanswer⟩

/-! ## Before the null -/

theorem Guards.needsNoGuard_iff {e r : Expr} (h : Guards rules [] e r)
    (hjudged : e.isJudgedByType = true) :
    r.NeedsNoGuard rules.defs [] ↔ r.ty.canBeNull rules.defs = false := by
  have hr : r.isJudgedByType = true := by
    cases h with
    | node _ _ hseal =>
      exact hseal.isJudgedByType ((Expr.isJudgedByType_withChildren e _).trans hjudged)
  simp [Expr.NeedsNoGuard, Expr.isSafe_of_isJudgedByType hr]

section FieldChain

variable {ty : Ty} {name : String} {links : List Link} {link : Link} {r : Expr} {env : Env}
  {trace after : Trace} {outcome : Except EvalError Value} (hdefs : rules.defs = context.defs)

theorem FieldChain.isJudgedByType (h : FieldChain context.defs (.param ty name) links) :
    (chain (.param ty name) links).isJudgedByType = true := by
  cases h with
  | nil => rfl
  | snoc =>
    rw [chain_append_singleton]
    rfl

include hdefs

theorem FieldChain.continues (h : FieldChain context.defs (.param ty name) links)
    (hguards : Guards rules [] (chain (.param ty name) (links ++ [link])) r) :
    ∃ guarded next, Guards rules [] (chain (.param ty name) links) guarded ∧
      context.Continues guarded r next ∧
      (∀ value, value.isNull = false →
        next value = link.follow context (chain (.param ty name) links).ty value) ∧
      AtNull context rules (chain (.param ty name) links).ty link (next .null) := by
  rw [chain_append_singleton] at hguards
  obtain ⟨guarded, hguarded, hseal⟩ := Link.exists_guards_on hguards
  have hnext := hseal.continues hdefs (hguarded.needsNoGuard_iff h.isJudgedByType)
  rw [hguarded.ty_eq] at hnext
  obtain ⟨next, hcontinues, hfollow, hnull⟩ := hnext
  exact ⟨guarded, next, hguarded, hcontinues, hfollow, hnull⟩

/-- Without a null guards change nothing. -/
theorem FieldChain.ends_guards (h : FieldChain context.defs (.param ty name) links)
    (hguards : Guards rules [] (chain (.param ty name) links) r)
    (hends : context.Ends (chain (.param ty name) links) env trace outcome after)
    (hnull : ∀ member, outcome ≠ .error (.nullReference member)) :
    context.Ends r env trace outcome after := by
  induction h generalizing r outcome after with
  | nil =>
    obtain rfl := hguards.eq_of_isAtom rfl
    exact hends
  | snoc h hfield hbool ih =>
    obtain ⟨guarded, next, hguarded, hcontinues, hfollow, _⟩ := h.continues hdefs hguards
    rw [chain_append_singleton] at hends
    rcases (Link.continues context _ _).cases_of_ends hends with
      ⟨error, rfl, hpart⟩ | ⟨value, middle, hpart, hrun⟩
    · exact hcontinues.ends_of_error (ih hguarded hpart hnull)
    · cases hvalue : value.isNull with
      | true =>
        obtain rfl := Value.eq_null_of_isNull hvalue
        rw [Link.follow, readMember_null_of_fieldType? hfield hbool, EvalM.runAt_fail,
          Prod.mk.injEq] at hrun
        exact absurd (Context.mapError_fault_injective hrun.1.symm) (hnull _)
      | false =>
        have hends := ih hguarded hpart fun _ => by simp
        exact hcontinues.ends_of_ok hends (hfollow value hvalue ▸ hrun)

end FieldChain

/-! ## From the null on -/

/-- The value that stands for a missing one comes from the null at `start` through the links: a
receiver that can be null is tested, and what the test gives for it is no empty instance. -/
inductive Carries (defs : Definitions) (start : Expr) : List Link → Prop where
  | here (hstart : start.ty.canBeNull defs = true) : Carries defs start []
  | snoc {links link} (h : Carries defs start links)
      (hlink : (chain start links).ty.canBeNull defs = true →
        fallback? defs (chain start links).ty = none ∧ fallback? defs link.ty = none) :
      Carries defs start (links ++ [link])

theorem carries_nil {defs : Definitions} {start : Expr} :
    Carries defs start [] ↔ start.ty.canBeNull defs = true := by
  refine ⟨fun h => ?_, .here⟩
  generalize hall : [] = all at h
  cases h with
  | here hstart => exact hstart
  | snoc => simp at hall

theorem carries_append_singleton {defs : Definitions} {start : Expr} {links : List Link}
    {link : Link} :
    Carries defs start (links ++ [link]) ↔ Carries defs start links ∧
      ((chain start links).ty.canBeNull defs = true →
        fallback? defs (chain start links).ty = none ∧ fallback? defs link.ty = none) := by
  refine ⟨fun h => ?_, fun ⟨h, hlink⟩ => .snoc h hlink⟩
  generalize hall : links ++ [link] = all at h
  cases h with
  | here => simp at hall
  | snoc h hlink =>
    obtain ⟨rfl, rfl⟩ := List.append_singleton_inj.mp hall
    exact ⟨h, hlink⟩

/-- Ends of evaluations of that type from which no member leads to null. -/
inductive Spent (defs : Definitions) (ty : Ty) : Except EvalError Value → Prop where
  | offTrack {outcome} (h : OffTrack outcome) : Spent defs ty outcome
  | empty {kind} (hty : ty.underlying? = none) : Spent defs ty (.ok (.collection kind []))
  | null (hty : ty.canBeNull defs = false) : Spent defs ty (.ok .null)

/-- How a guarded chain ends at a link of that type on the way from the null. -/
inductive Stands (defs : Definitions) (ty : Ty) (carries : Prop) :
    Except EvalError Value → Prop where
  | carried (h : carries) : Stands defs ty carries (.ok (.default defs ty))
  | spent {outcome} (h : ¬ carries) (hspent : Spent defs ty outcome) :
      Stands defs ty carries outcome

/-- How it ends one link further, with a member of the other type. -/
inductive Passes (defs : Definitions) (ty memberTy : Ty) (carries : Prop) :
    Except EvalError Value → Prop where
  | untested (h : carries) (hty : ty.canBeNull defs = false) :
      Passes defs ty memberTy carries (.ok (.default defs memberTy))
  | tested {answer} (h : carries) (hty : ty.canBeNull defs = true)
      (hnone : fallback? defs ty = none)
      (hdefault : fallback? defs memberTy = none → answer = .default defs memberTy)
      (hempty : fallback? defs memberTy ≠ none → ∃ kind, answer = .collection kind []) :
      Passes defs ty memberTy carries (.ok answer)
  | offTrack {outcome} (hlost : carries → ty.canBeNull defs = true ∧ fallback? defs ty ≠ none)
      (h : OffTrack outcome) : Passes defs ty memberTy carries outcome

theorem Passes.stands {defs : Definitions} {start : Expr} {links : List Link} {link : Link}
    {outcome : Except EvalError Value}
    (h : Passes defs (chain start links).ty link.ty (Carries defs start links) outcome) :
    Stands defs link.ty (Carries defs start (links ++ [link])) outcome := by
  cases h with
  | untested h hty =>
    refine .carried (.snoc h fun hnull => ?_)
    rw [hty] at hnull
    cases hnull
  | tested h hty hnone hdefault hempty =>
    by_cases hlink : fallback? defs link.ty = none
    · exact hdefault hlink ▸ .carried (.snoc h fun _ => ⟨hnone, hlink⟩)
    · obtain ⟨kind, rfl⟩ := hempty hlink
      obtain ⟨recipe, hrecipe⟩ := Option.ne_none_iff_exists'.mp hlink
      refine .spent (fun hcarries => ?_)
        (.empty (emptyInstance_of_fallback? hrecipe).underlying?_eq_none)
      exact hlink ((carries_append_singleton.mp hcarries).2 hty).2
  | offTrack hlost h =>
    refine .spent (fun hcarries => ?_) (.offTrack h)
    obtain ⟨hcarries, hlink⟩ := carries_append_singleton.mp hcarries
    exact (hlost hcarries).2 (hlink (hlost hcarries).1).1

section Answer

variable {answer : Value} {ty : Ty} (hanswer : ∀ fuel env,
  context.eval (fuel + 2) (rules.shortCircuit ty) env = pure answer)

include hanswer

theorem GuardRules.eq_answer {value : Value}
    (hvalue : context.eval 2 (rules.shortCircuit ty) [] = pure value) : answer = value := by
  have hrun := congrArg (·.runAt .empty) ((hanswer 0 []).symm.trans hvalue)
  exact Except.ok.inj (Prod.mk.inj hrun).1

theorem GuardRules.answer_eq_default (hdefs : rules.defs = context.defs)
    (hnone : rules.fallback ty = none) : answer = .default context.defs ty :=
  rules.eq_answer hanswer (context.eval_shortCircuit_of_none 0 hdefs (by simp [hnone]))

theorem GuardRules.answer_eq_collection (hempty : rules.emptyCollections = true)
    (hsome : rules.fallback ty ≠ none) : ∃ kind, answer = .collection kind [] := by
  obtain ⟨recipe, hrecipe⟩ := Option.ne_none_iff_exists'.mp hsome
  obtain ⟨kind, hkind⟩ := context.eval_emptyInstance (rules.emptyInstance hrecipe)
  refine ⟨kind, rules.eq_answer hanswer ?_⟩
  rw [GuardRules.shortCircuit, hempty, if_pos rfl, hrecipe]
  exact hkind 0 []

end Answer

section Passing

variable {paramTy ty target : Ty} {param name : String} {links : List Link} {guarded r : Expr}
  {next : Value → EvalM Value} {env : Env} {trace middle : Trace} {carries : Prop}
  {outcome : Except EvalError Value} (hdefs : rules.defs = context.defs)

section Link

variable (hcontinues : context.Continues guarded r next)
  (hfollow : ∀ value, value.isNull = false →
    next value = (Link.read ty name target).follow context target value)
  (hnull : AtNull context rules target (.read ty name target) (next .null))
  (hfield : target.fieldType? context.defs name = some ty)

include hdefs hcontinues hfollow hnull hfield

/-- One more link after the value that stands for the missing one. -/
theorem passes_of_carried (hanswers : rules.fallback = fallback? context.defs)
    (hempty : rules.emptyCollections = true) (hcarries : carries)
    (hends : context.Ends guarded env trace (.ok (.default context.defs target)) middle) :
    ∃ outcome after, context.Ends r env trace outcome after ∧
      Passes context.defs target ty carries outcome := by
  cases hty : target.canBeNull context.defs with
  | false =>
    have hvalue : (Value.default context.defs target).isNull = false := by
      rw [default_of_fieldType? hfield hty]
      rfl
    obtain ⟨after, hrun⟩ := readMember_default hfield hty middle
    have hends' : context.Ends r env trace (.ok (.default context.defs ty)) after :=
      hcontinues.ends_of_ok hends (hfollow _ hvalue ▸ hrun)
    exact ⟨_, after, hends', .untested hcarries hty⟩
  | true =>
    rw [Value.default_of_canBeNull hty] at hends
    generalize hnext : next .null = action at hnull
    cases hnull with
    | unguarded hty' =>
      rw [hdefs, hty] at hty'
      cases hty'
    | replaced _ hfallback =>
      have hnullable := (rules.emptyInstance hfallback).underlying?_eq_none
      obtain ⟨outcome, after, hoff, hrun⟩ :=
        OffTrack.readMember_collection context name ty hnullable _ middle
      refine ⟨outcome, after, hcontinues.ends_of_ok hends (hnext ▸ hrun),
        .offTrack (fun _ => ⟨hty, ?_⟩) hoff⟩
      rw [← hanswers, hfallback]
      nofun
    | @answered answer _ hfallback hanswer =>
      refine ⟨.ok answer, middle, hcontinues.ends_of_ok hends (hnext ▸ rfl),
        .tested hcarries hty (hanswers ▸ hfallback) (fun hnone => ?_) fun hsome => ?_⟩
      · exact rules.answer_eq_default hanswer hdefs (hanswers ▸ hnone)
      · exact rules.answer_eq_collection hanswer hempty (hanswers ▸ hsome)

/-- Where no member leads to null, one more link does not lead there either. -/
theorem Spent.offTrack_of_ends (hspent : Spent context.defs target outcome) (hbool : ty ≠ .bool)
    (hends : context.Ends guarded env trace outcome middle) :
    ∃ outcome after, context.Ends r env trace outcome after ∧ OffTrack outcome := by
  cases hspent with
  | offTrack hoff =>
    cases outcome with
    | error error => exact ⟨_, middle, hcontinues.ends_of_error hends, .error⟩
    | ok value =>
      have hvalue : value.isNull = false := by
        cases hoff <;> rfl
      obtain ⟨outcome, after, hoff, hrun⟩ := hoff.readMember context name ty middle
      exact ⟨outcome, after, hcontinues.ends_of_ok hends (hfollow value hvalue ▸ hrun), hoff⟩
  | @empty kind hnullable =>
    obtain ⟨outcome, after, hoff, hrun⟩ :=
      OffTrack.readMember_collection context name ty hnullable kind middle
    have hcollection := hfollow (.collection kind []) rfl
    exact ⟨outcome, after, hcontinues.ends_of_ok hends (hcollection ▸ hrun), hoff⟩
  | null hty =>
    generalize hnext : next .null = action at hnull
    cases hnull with
    | unguarded =>
      rw [Link.follow, readMember_null_of_fieldType? hfield hbool] at hnext
      refine ⟨.error (.nullReference name), middle, hcontinues.ends_of_ok hends ?_, .error⟩
      rw [hnext]
      rfl
    | replaced hty' | answered hty' =>
      rw [hdefs, hty] at hty'
      cases hty'

end Link

variable (hanswers : rules.fallback = fallback? context.defs)
  (hempty : rules.emptyCollections = true)

include hdefs hanswers hempty

/-- One more link on the way from the null. -/
theorem FieldChain.passes (h : FieldChain context.defs (.param paramTy param) links)
    (hfield : (chain (.param paramTy param) links).ty.fieldType? context.defs name = some ty)
    (hbool : ty ≠ .bool)
    (hstands : ∀ guarded, Guards rules [] (chain (.param paramTy param) links) guarded →
      ∃ outcome after, context.Ends guarded env trace outcome after ∧
        Stands context.defs (chain (.param paramTy param) links).ty carries outcome)
    (hguards : Guards rules [] (chain (.param paramTy param)
      (links ++ [.read ty name (chain (.param paramTy param) links).ty])) r) :
    ∃ outcome after, context.Ends r env trace outcome after ∧
      Passes context.defs (chain (.param paramTy param) links).ty ty carries outcome := by
  obtain ⟨guarded, next, hguarded, hcontinues, hfollow, hnull⟩ := h.continues hdefs hguards
  obtain ⟨outcome, middle, hends, hstands⟩ := hstands guarded hguarded
  cases hstands with
  | carried hcarries =>
    exact passes_of_carried hdefs hcontinues hfollow hnull hfield hanswers hempty hcarries hends
  | spent hlost hspent =>
    obtain ⟨outcome, after, hends, hoff⟩ :=
      hspent.offTrack_of_ends hdefs hcontinues hfollow hnull hfield hbool hends
    exact ⟨outcome, after, hends, .offTrack (fun h => absurd h hlost) hoff⟩

theorem FieldChain.stands {before rest : List Link} {after : Trace}
    (h : FieldChain context.defs (.param paramTy param) (before ++ rest))
    (hnull : context.Ends (chain (.param paramTy param) before) env trace (.ok .null) after)
    (hguards : Guards rules [] (chain (.param paramTy param) (before ++ rest)) r) :
    ∃ outcome after, context.Ends r env trace outcome after ∧
      Stands context.defs (chain (.param paramTy param) (before ++ rest)).ty
        (Carries context.defs (chain (.param paramTy param) before) rest) outcome := by
  induction rest using List.reverseRecOn generalizing r with
  | nil =>
    rw [List.append_nil] at h hguards ⊢
    have hends := h.ends_guards hdefs hguards hnull nofun
    cases hty : (chain (.param paramTy param) before).ty.canBeNull context.defs with
    | true =>
      refine ⟨_, after, hends, ?_⟩
      rw [← Value.default_of_canBeNull hty]
      exact .carried (.here hty)
    | false =>
      refine ⟨_, after, hends, .spent (fun hcarries => ?_) (.null hty)⟩
      exact absurd (hty.symm.trans (carries_nil.mp hcarries)) Bool.false_ne_true
  | append_singleton rest link ih =>
    rw [← List.append_assoc] at h hguards ⊢
    obtain ⟨hfirst, name, ty, rfl, hfield, hbool⟩ := h.of_append_singleton
    obtain ⟨outcome, after, hends, hpasses⟩ := hfirst.passes hdefs hanswers hempty hfield hbool
      (fun guarded hguarded => ih hfirst hguarded) hguards
    refine ⟨outcome, after, hends, ?_⟩
    rw [chain_append] at hpasses
    rw [chain_append_singleton, Link.ty_on]
    exact hpasses.stands

end Passing

theorem Value.default_ne_collection (defs : Definitions) (ty : Ty) (kind : CollectionKind)
    (items : List Value) : Value.default defs ty ≠ .collection kind items := by
  unfold Value.default
  split
  · nofun
  · split
    case h_8 => split <;> nofun
    all_goals nofun

/-- A chain that meets null on the way to a type with an empty instance gives an empty collection
exactly if the null is carried to the last receiver and that one is tested. A struct on the way
whose members have default values, or a receiver that an empty instance replaces, keeps it from
there. -/
theorem Context.ends_insertGuards_empty_iff {context : Context} {options : GuardOptions}
    {cache left : FallbackCache} {ty : Ty} {name : String} {names : List String} {e : Expr}
    {guarded : Guarded} {env : Env} {trace after : Trace} {member : String}
    (hcache : cache.Agrees context.defs) (hempty : options.emptyCollections = true)
    (hchain : names.foldlM (Expr.member? context.defs) (.param ty name) = .ok e)
    (hfallback : fallback? context.defs e.ty ≠ none)
    (hinsert : e.insertGuards context.defs options cache = (.ok guarded, left))
    (hends : context.Ends e env trace (.error (.nullReference member)) after) :
    ∃ before rest link, chain (.param ty name) (before ++ rest ++ [link]) = e ∧
      (before ++ rest ++ [link]).map Link.name = names ∧
      context.Ends (chain (.param ty name) before) env trace (.ok .null) after ∧
      ((∃ kind after', context.Ends guarded.expr env trace (.ok (.collection kind [])) after') ↔
        Carries context.defs (chain (.param ty name) before) rest ∧
          (chain (.param ty name) (before ++ rest)).ty.canBeNull context.defs = true ∧
          fallback? context.defs (chain (.param ty name) (before ++ rest)).ty = none) := by
  have hbool : e.ty ≠ .bool := by
    obtain ⟨recipe, hrecipe⟩ := Option.ne_none_iff_exists'.mp hfallback
    exact (emptyInstance_of_fallback? hrecipe).ty_ne_intrinsic .bool
  have hguards := Expr.insertGuards_guards hcache.computed hinsert
  obtain ⟨links, hlinks, rfl, hnames⟩ := FieldChain.exists_of_foldlM hchain hbool
  obtain ⟨before, rest, rfl, hrest, hnull⟩ := hlinks.exists_null hends
  obtain ⟨rest, link, rfl⟩ := List.eq_nil_or_concat' rest |>.resolve_left hrest
  rw [← List.append_assoc] at hlinks hguards hfallback hnames
  refine ⟨before, rest, link, by rw [List.append_assoc], hnames, hnull, ?_⟩
  obtain ⟨hfirst, linkName, linkTy, rfl, hfield, hbool⟩ := hlinks.of_append_singleton
  obtain ⟨outcome, after', hends', hpasses⟩ := hfirst.passes rfl hcache.answer_eq hempty hfield
    hbool (fun _ => hfirst.stands rfl hcache.answer_eq hempty hnull) hguards
  rw [chain_append_singleton, Link.ty_on] at hfallback
  constructor
  · rintro ⟨kind, after'', hcollection⟩
    have heq := (hends'.unique hcollection).1
    cases hpasses with
    | untested => exact absurd (Except.ok.inj heq) (Value.default_ne_collection _ _ _ _)
    | tested hcarries hty hnone => exact ⟨hcarries, hty, hnone⟩
    | offTrack _ hoff => exact absurd heq (hoff.ne_collection _ _)
  · rintro ⟨hcarries, hty, hnone⟩
    cases hpasses with
    | untested _ hty' => exact absurd (hty.symm.trans hty') nofun
    | tested _ _ _ _ hempty =>
      obtain ⟨kind, rfl⟩ := hempty hfallback
      exact ⟨kind, after', hends'⟩
    | offTrack hlost => exact absurd hnone (hlost hcarries).2

/-- Teams with their players, which they have themselves and in the struct of their roster. -/
def teamDefinitions : Definitions where
  toList := Collection.definitions.toList ++
    [{ Definition.ofKind .structType "Roster" [] with fields := [⟨"Players", .listOf .int⟩] },
      { Definition.ofKind .classType "Team" [] with
        fields := [⟨"Roster", .named ⟨9⟩ []⟩, ⟨"Players", .listOf .int⟩] }]

/-- `team` -/
def teamParam : Expr :=
  .param (.named ⟨10⟩ []) "team"

/-- The players of a missing team are none. -/
theorem ends_insertGuards_teamPlayers :
    ∃ e guarded left, ["Players"].foldlM (Expr.member? teamDefinitions) teamParam = .ok e ∧
      e.insertGuards teamDefinitions ⟨500, true⟩ .empty = (.ok guarded, left) ∧
      ∃ kind after, Context.Ends ⟨teamDefinitions, .builtin⟩ guarded.expr [("team", .null)] .empty
        (.ok (.collection kind [])) after := by
  have hchain : ["Players"].foldlM (Expr.member? teamDefinitions) teamParam =
      .ok (.member (.listOf .int) teamParam "Players" (.named ⟨10⟩ [])) := by
    cbv
  have hinsert : ∃ guarded left, Expr.insertGuards teamDefinitions ⟨500, true⟩ .empty
      (.member (.listOf .int) teamParam "Players" (.named ⟨10⟩ [])) = (.ok guarded, left) :=
    ⟨_, _, by cbv⟩
  have hcache : FallbackCache.empty.Agrees (Context.defs ⟨teamDefinitions, .builtin⟩) :=
    FallbackCache.empty_agrees teamDefinitions
  have hfallback : (fallback? teamDefinitions (.listOf .int)).isSome := by
    cbv
  have hends : Context.Ends ⟨teamDefinitions, .builtin⟩
      (.member (.listOf .int) teamParam "Players" (.named ⟨10⟩ [])) [("team", .null)] .empty
      (.error (.nullReference "Players")) .empty := ⟨2, by cbv⟩
  obtain ⟨guarded, left, hinsert⟩ := hinsert
  obtain ⟨before, rest, link, _, hnames, _, hiff⟩ := Context.ends_insertGuards_empty_iff hcache rfl
    hchain (Option.isSome_iff_ne_none.mp hfallback) hinsert hends
  obtain ⟨rfl, rfl⟩ : before = [] ∧ rest = [] := by
    have hlength := congrArg List.length hnames
    simp only [List.length_map, List.length_append, List.length_singleton] at hlength
    exact ⟨List.eq_nil_of_length_eq_zero (by omega), List.eq_nil_of_length_eq_zero (by omega)⟩
  exact ⟨_, guarded, left, hchain, hinsert, hiff.mpr ⟨.here rfl, rfl, by cbv⟩⟩

/-- The players in the roster of a missing team are not even that: they are null. -/
theorem ends_insertGuards_rosterPlayers :
    ∃ e guarded left,
      ["Roster", "Players"].foldlM (Expr.member? teamDefinitions) teamParam = .ok e ∧
      (fallback? teamDefinitions e.ty).isSome ∧
      e.insertGuards teamDefinitions ⟨500, true⟩ .empty = (.ok guarded, left) ∧
      Context.Ends ⟨teamDefinitions, .builtin⟩ e [("team", .null)] .empty
        (.error (.nullReference "Roster")) .empty ∧
      ∃ after, Context.Ends ⟨teamDefinitions, .builtin⟩ guarded.expr [("team", .null)] .empty
        (.ok .null) after :=
  ⟨_, _, _, by cbv, by cbv, by cbv, ⟨3, by cbv⟩, _, ⟨8, by cbv⟩⟩

end NullGuard
