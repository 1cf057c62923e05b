import NullGuard.Proofs.Expr.Writing

/-! # The order of binders

Names may be bound again, next to each other or within each other, as long as up to the first
parameter of a `bind` node no other parameter has its name, and no value waits for a parameter of
its value. Then every value is assigned to its own parameter. -/

namespace NullGuard.Expr

variable {defs : Definitions} {e : Expr} {name : String}

/-- Before the first parameter of the name, which is free, only values are written that are assigned
to their variables there. -/
inductive StartsWith : String → Expr → Prop where
  | param {name : String} {ty : Ty} : StartsWith name (.param ty name)
  | part {name : String} {e part : Expr} {before behind : List Expr}
      (hpasses : e.passesNames = true) (hparts : e.children = before ++ part :: behind)
      (hbefore : ∀ other ∈ before, other.names = []) (hpart : StartsWith name part) :
      StartsWith name e
  | lambda {name : String} {ty : Ty} {params : List Param} {body : Expr}
      (hparams : name ∉ params.map Param.name) (hbody : StartsWith name body) :
      StartsWith name (.lambda ty params body)
  | value {name : String} {ty : Ty} {var : Param} {value body : Expr}
      (hbody : StartsWith var.name body) (hvalue : StartsWith name value) :
      StartsWith name (.bind ty var value body)

/-- If the node binds the name, then to a value that has one parameter at most. -/
def BindsBriefly (name : String) : Expr → Prop
  | lambda _ params _ => name ∉ params.map Param.name
  | bind _ var _ body => var.name = name → body.freeNames.count name ≤ 1
  | _ => True

/-- The body binds the name of the node briefly if at all, and it binds none of the names in the
value. -/
def BindsApart : Expr → Prop
  | bind _ var value body =>
    body.Every (BindsBriefly var.name) ∧ ∀ name ∈ body.letNames, name ∉ value.names
  | _ => True

/-- Up to the first parameter of a `bind` node no other parameter has its name, and no value waits
for a parameter of its value: the body starts with that parameter, or it binds the names apart. -/
def BindsInOrder : Expr → Prop
  | bind ty var value body => StartsWith var.name body ∨ BindsApart (bind ty var value body)
  | _ => True

instance (name : String) : DecidablePred (BindsBriefly name)
  | lambda _ params _ => inferInstanceAs (Decidable (name ∉ params.map Param.name))
  | bind _ var _ body =>
    inferInstanceAs (Decidable (var.name = name → body.freeNames.count name ≤ 1))
  | param .. | literal .. | default _ | member .. | staticMember .. | call .. | freeCall ..
  | binary .. | unary .. | coalesce .. | cond .. | convert .. | construct .. | newArray ..
  | index .. => isTrue trivial

instance : DecidablePred BindsApart
  | bind _ var value body =>
    inferInstanceAs (Decidable
      (body.Every (BindsBriefly var.name) ∧ ∀ name ∈ body.letNames, name ∉ value.names))
  | param .. | literal .. | default _ | member .. | staticMember .. | call .. | freeCall ..
  | lambda .. | binary .. | unary .. | coalesce .. | cond .. | convert .. | construct ..
  | newArray .. | index .. => isTrue trivial

theorem BindsApart.bindsInOrder (h : e.BindsApart) : e.BindsInOrder := by
  cases e with
  | bind => exact .inr h
  | _ => trivial

theorem every_bindsInOrder (h : e.Every BindsApart) : e.Every BindsInOrder :=
  h.mono fun _ => BindsApart.bindsInOrder

/-! ## Names in renderings -/

theorem signals_pieces (name : String) (f : Expr → List Mark) (defs : Definitions) (e : Expr) :
    signals name ((e.pieces defs).flatMap (Piece.marks f)) =
      e.children.flatMap fun part => signals name (f part) := by
  rw [signals_marks, filterMap_expr?_pieces]

/-- The assignment of another name moves the text of its value to where that name is first used. -/
theorem signals_assignFirst {other : String} (hne : other ≠ name) (value : Expr)
    (written body : List Mark) :
    ∃ before after, signals name body = before ++ after ∧
      signals name (assignFirst other value written body) =
        before ++ (signals name written ++ after) := by
  by_cases h : other ∈ openNames body
  · obtain ⟨before, after, rfl, hbefore⟩ := exists_first h
    refine ⟨signals name before, signals name after, by simp [Mark.signal?, hne], ?_⟩
    rw [assignFirst_append_cons hbefore, signals_hold_of_ne hne]
    simp [Mark.signal?]
  · refine ⟨[], signals name body, rfl, ?_⟩
    rw [assignFirst, if_neg h]
    simp [Mark.signal?]

/-- Only names that occur leave a trace, and they are only used where no `bind` node binds them. -/
theorem of_mem_signals {signal : Signal} (h : signal ∈ signals name (e.rendering defs)) :
    name ∈ e.names ∧ (signal = .used ∨ name ∈ e.letNames) := by
  induction e using Expr.induction_children with
  | step e ih =>
    have hparts (hmem : signal ∈ e.children.flatMap fun part =>
        signals name (part.rendering defs)) :
        name ∈ e.names ∧ (signal = .used ∨ name ∈ e.letNames) := by
      obtain ⟨part, hpart, hsignal⟩ := List.mem_flatMap.mp hmem
      obtain ⟨hnames, hused⟩ := ih part hpart hsignal
      exact ⟨names_subset_of_mem_children hpart hnames,
        hused.imp_right fun hlet => mem_letNames.mpr (.inr ⟨part, hpart, hlet⟩)⟩
    cases e with
    | param ty other =>
      by_cases hother : other = name
      · subst hother
        exact ⟨by simp, .inl (by simpa [Mark.signal?] using h)⟩
      · simp [Mark.signal?, hother] at h
    | lambda =>
      rw [rendering_lambda, signals_close, signals_pieces] at h
      exact hparts h
    | bind ty var value body =>
      by_cases hvar : var.name = name
      · have hlet : name ∈ (bind ty var value body).letNames :=
          mem_letNames.mpr (.inl (by simp [ownLet, hvar]))
        exact ⟨mem_names_of_mem_letNames hlet, .inr hlet⟩
      · obtain ⟨before, after, hbody, hsignals⟩ := signals_assignFirst hvar value
          (value.rendering defs) (body.rendering defs)
        rw [rendering_bind, hsignals] at h
        refine hparts ?_
        simp only [children, List.flatMap_cons, List.flatMap_nil, hbody, List.mem_append] at h ⊢
        tauto
    | _ =>
      rw [rendering_of_passesNames rfl, signals_pieces] at h
      exact hparts h

theorem signals_eq_nil (h : name ∉ e.names) : signals name (e.rendering defs) = [] :=
  List.eq_nil_iff_forall_not_mem.mpr fun _ hsignal => h (of_mem_signals hsignal).1

theorem Mark.eq_param_of_used {mark : Mark} (h : mark.signal? name = some .used) :
    ∃ isOpen, mark = .param name isOpen := by
  unfold Mark.signal? at h
  split at h
  next other isOpen =>
    split at h
    next heq => exact ⟨isOpen, heq ▸ rfl⟩
    next => cases h
  next => split at h <;> cases h
  next => split at h <;> cases h
  next => cases h

theorem Mark.close_eq_param {mark : Mark} {names : List String} {isOpen : Bool}
    (h : mark.close names = .param name isOpen) :
    ∃ isOpen', mark = .param name isOpen' ∧ (isOpen' = true → name ∉ names → isOpen = true) := by
  cases mark with
  | param other isOpen' =>
    cases h
    exact ⟨isOpen', rfl, fun hopen hname => by simp [hopen, hname]⟩
  | _ => cases h

theorem not_mem_openNames_of_count {before after : List Mark}
    (hcount : e.freeNames.count name ≤ 1)
    (heq : e.rendering defs = before ++ .param name true :: after) : name ∉ openNames after := by
  intro htwice
  have hopen := (openNames_rendering defs e).count_eq name
  simp only [heq, openNames_append, openNames_cons, Mark.openName?, Option.toList_some,
    List.count_append, List.count_singleton_self] at hopen
  have hafter := List.count_pos_iff.mpr htwice
  omega

/-- Where a name is bound briefly, all its parameters are free: a value that it is bound to there is
assigned to the only one that it has. -/
theorem isOpen_of_bindsBriefly (hbrief : e.Every (BindsBriefly name)) {isOpen : Bool}
    (h : .param name isOpen ∈ e.rendering defs) : isOpen = true := by
  induction e using Expr.induction_children generalizing isOpen with
  | step e ih =>
    replace ih (part : Expr) (hpart : part ∈ e.children) {isOpen : Bool}
        (h : .param name isOpen ∈ part.rendering defs) : isOpen = true :=
      ih part hpart (hbrief.of_mem_children hpart) h
    have hpieces {isOpen : Bool}
        (h : .param name isOpen ∈ (e.pieces defs).flatMap (Piece.marks (rendering defs))) :
        isOpen = true := by
      obtain ⟨piece, hpiece, hmark⟩ := List.mem_flatMap.mp h
      cases piece with
      | text s => cases List.mem_singleton.mp hmark
      | expr part => exact ih part (expr_mem_pieces.mp hpiece) hmark
    cases e with
    | param ty other =>
      simp only [rendering_param, List.mem_singleton, Mark.param.injEq] at h
      exact h.2
    | lambda ty params body =>
      rw [rendering_lambda] at h
      obtain ⟨mark, hmark, hclose⟩ := List.mem_map.mp h
      obtain ⟨isOpen', rfl, hopen⟩ := Mark.close_eq_param hclose
      exact hopen (hpieces hmark) hbrief.here
    | bind ty var value body =>
      have hvalue : value ∈ (bind ty var value body).children := by simp [children]
      have hbody : body ∈ (bind ty var value body).children := by simp [children]
      rw [rendering_bind] at h
      by_cases hvar : var.name ∈ openNames (body.rendering defs)
      · obtain ⟨before, after, heq, hbefore⟩ := exists_first hvar
        rw [heq, assignFirst_append_cons hbefore] at h
        simp only [List.mem_cons, List.mem_append, List.mem_map, reduceCtorEq, false_or] at h
        rcases h with h | h | ⟨mark, hmark, hclose⟩
        · exact ih body hbody (by simp [heq, h])
        · exact ih value hvalue h
        · obtain ⟨isOpen', rfl, hopen⟩ := Mark.close_eq_param hclose
          have hafter : isOpen' = true :=
            ih body hbody (heq ▸ List.mem_append_right _ (List.mem_cons_of_mem _ hmark))
          refine hopen hafter fun hname => ?_
          obtain rfl := List.mem_singleton.mp hname
          exact not_mem_openNames_of_count (hbrief.here rfl) heq
            (List.mem_filterMap.mpr ⟨_, hmark, hafter ▸ rfl⟩)
      · rw [assignFirst, if_neg hvar] at h
        simp only [List.mem_cons, List.mem_append, List.not_mem_nil, reduceCtorEq, false_or,
          or_false] at h
        exact h.elim (ih value hvalue) (ih body hbody)
    | _ =>
      rw [rendering_of_passesNames rfl] at h
      exact hpieces h

/-! ## Where values are assigned -/

theorem not_mem_openNames {marks : List Mark} (h : .used ∉ signals name marks) :
    name ∉ openNames marks := by
  intro hopen
  obtain ⟨before, after, rfl, -⟩ := exists_first hopen
  exact h (by simp [Mark.signal?])

/-- No parameter is written by its name, and every value that begins to wait is assigned. -/
def Balanced (marks : List Mark) : Prop :=
  ∀ name, .used ∉ signals name marks ∧ Leads [] (signals name marks) []

theorem Balanced.append {marks others : List Mark} (h : Balanced marks)
    (hothers : Balanced others) : Balanced (marks ++ others) := by
  intro name
  rw [signals_append, List.mem_append, not_or]
  exact ⟨⟨(h name).1, (hothers name).1⟩, (h name).2.append (hothers name).2⟩

theorem Balanced.close {marks : List Mark} (h : Balanced marks) (names : List String) :
    Balanced (marks.map (Mark.close names)) := by
  intro name
  rw [signals_close]
  exact h name

theorem Balanced.hold {before rest : List Mark} (hbefore : Balanced before) (hrest : Balanced rest)
    (bound : String) (value : Expr) :
    Balanced (.held bound value :: (before ++ .assigned bound value :: rest)) := by
  intro name
  by_cases hbound : bound = name
  · subst hbound
    rw [signals_hold_self]
    refine ⟨?_, (hbefore bound).2.hold (hbefore bound).1 value (hrest bound).2⟩
    simp [(hbefore bound).1, (hrest bound).1]
  · rw [signals_hold_of_ne hbound, ← signals_append]
    exact (hbefore.append hrest) name

theorem balanced_of_names_eq_nil {pieces : List Piece}
    (h : ∀ part ∈ pieces.filterMap Piece.expr?, part.names = []) :
    Balanced (pieces.flatMap (Piece.marks (rendering defs))) := by
  intro name
  have hsignals : signals name (pieces.flatMap (Piece.marks (rendering defs))) = [] := by
    rw [signals_marks]
    exact List.flatMap_eq_nil_iff.mpr fun part hpart =>
      signals_eq_nil (h part hpart ▸ List.not_mem_nil)
  rw [hsignals]
  exact ⟨List.not_mem_nil, .done⟩

theorem exists_pieces_eq {part : Expr} {before behind : List Expr}
    (h : e.children = before ++ part :: behind) (defs : Definitions) :
    ∃ first rest, e.pieces defs = first ++ .expr part :: rest ∧
      first.filterMap Piece.expr? = before := by
  rw [← filterMap_expr?_pieces defs, List.filterMap_eq_append_iff] at h
  obtain ⟨first, rest, hpieces, hfirst, hrest⟩ := h
  obtain ⟨texts, piece, rest, rfl, htexts, hpiece, -⟩ := List.filterMap_eq_cons_iff.mp hrest
  cases piece with
  | text => cases hpiece
  | expr other =>
    cases hpiece
    refine ⟨first ++ texts, rest, by rw [hpieces, List.append_assoc], ?_⟩
    rw [List.filterMap_append, hfirst, List.filterMap_eq_nil_iff.mpr htexts, List.append_nil]

theorem StartsWith.exists_rendering_eq (h : StartsWith name e) (defs : Definitions) :
    ∃ before after, e.rendering defs = before ++ .param name true :: after ∧ Balanced before := by
  induction h with
  | param => exact ⟨[], [], rendering_param _ _, fun other => ⟨List.not_mem_nil, .done⟩⟩
  | part hpasses hparts hbefore _ ih =>
    obtain ⟨before, after, hpart, hbalanced⟩ := ih
    obtain ⟨first, rest, hpieces, hfirst⟩ := exists_pieces_eq hparts defs
    refine ⟨first.flatMap (Piece.marks (rendering defs)) ++ before,
      after ++ rest.flatMap (Piece.marks (rendering defs)), ?_, ?_⟩
    · rw [rendering_of_passesNames hpasses, hpieces]
      simp [Piece.marks, hpart]
    · exact (balanced_of_names_eq_nil (hfirst ▸ hbefore)).append hbalanced
  | @lambda name ty params body hparams _ ih =>
    obtain ⟨before, after, hbody, hbalanced⟩ := ih
    obtain ⟨first, rest, hpieces, hfirst⟩ := exists_pieces_eq
      (show (Expr.lambda ty params body).children = [] ++ body :: [] from rfl) defs
    refine ⟨(first.flatMap (Piece.marks (rendering defs)) ++ before).map
        (Mark.close (params.map Param.name)),
      (after ++ rest.flatMap (Piece.marks (rendering defs))).map
        (Mark.close (params.map Param.name)), ?_, ?_⟩
    · rw [rendering_lambda, hpieces]
      have hclose : (Mark.param name true).close (params.map Param.name) = .param name true := by
        simp [Mark.close, hparams]
      simp [Piece.marks, hbody, hclose]
    · have hnone : ∀ part ∈ first.filterMap Piece.expr?, part.names = [] := by
        simp [hfirst]
      exact ((balanced_of_names_eq_nil hnone).append hbalanced).close _
  | @value _ _ var value _ _ _ ihbody ihvalue =>
    obtain ⟨before, after, hbody, hbefore⟩ := ihbody
    obtain ⟨before', after', hvalue, hbefore'⟩ := ihvalue
    refine ⟨.held var.name value :: (before ++ .assigned var.name value :: before'),
      after' ++ .text ")" :: after.map (Mark.close [var.name]), ?_, hbefore.hold hbefore' _ _⟩
    rw [rendering_bind, hbody, assignFirst_append_cons (not_mem_openNames (hbefore _).1), hvalue]
    simp

/-- Where binders are in order, nobody uses the name of a `bind` node before its first parameter,
and no value waits there for a parameter of its own value. -/
theorem BindsInOrder.exists_first {ty : Ty} {var : Param} {value body : Expr}
    (h : BindsInOrder (.bind ty var value body))
    (hopen : var.name ∈ openNames (body.rendering defs)) :
    ∃ before after, body.rendering defs = before ++ .param var.name true :: after ∧
      .used ∉ signals var.name before ∧
      ∀ name, .used ∈ signals name (value.rendering defs) →
        Leads [] (signals name before) [] := by
  rcases h with hstarts | ⟨hbrief, hnames⟩
  · obtain ⟨before, after, heq, hbalanced⟩ := hstarts.exists_rendering_eq defs
    exact ⟨before, after, heq, (hbalanced _).1, fun name _ => (hbalanced name).2⟩
  · obtain ⟨before, after, heq, hbefore⟩ := Expr.exists_first hopen
    refine ⟨before, after, heq, fun hused => ?_, fun name hused => ?_⟩
    · obtain ⟨mark, hmark, hsignal⟩ := mem_signals.mp hused
      obtain ⟨isOpen, rfl⟩ := mark.eq_param_of_used hsignal
      have : isOpen = true :=
        isOpen_of_bindsBriefly hbrief (heq ▸ List.mem_append_left _ hmark)
      exact hbefore (List.mem_filterMap.mpr ⟨_, hmark, this ▸ rfl⟩)
    · refine leads_of_forall_used fun signal hsignal => ?_
      have hbody : signal ∈ signals name (body.rendering defs) := by
        rw [heq, signals_append]
        exact List.mem_append_left _ hsignal
      exact (of_mem_signals hbody).2.resolve_right fun hlet =>
        hnames name hlet (of_mem_signals hused).1

/-- If binders are in order, the values of a name come and go as on a stack. -/
theorem leads_rendering (h : e.Every BindsInOrder) (name : String) :
    Leads [] (signals name (e.rendering defs)) [] := by
  induction e using Expr.induction_children with
  | step e ih =>
    replace ih (part : Expr) (hpart : part ∈ e.children) :
        Leads [] (signals name (part.rendering defs)) [] :=
      ih part hpart (h.of_mem_children hpart)
    cases e with
    | param ty other =>
      have hlet : name ∉ (param ty other).letNames := by
        rw [letNames, isBinding_ownLet.gather_param]
        exact Multiset.notMem_zero name
      exact leads_of_forall_used fun signal hsignal =>
        (of_mem_signals hsignal).2.resolve_right hlet
    | lambda =>
      rw [rendering_lambda, signals_close, signals_pieces]
      exact leads_flatMap ih
    | bind ty var value body =>
      have hvalue := ih value List.mem_cons_self
      have hbody := ih body (List.mem_cons_of_mem _ List.mem_cons_self)
      rw [rendering_bind]
      by_cases hopen : var.name ∈ openNames (body.rendering defs)
      · obtain ⟨before, after, heq, hunused, hclear⟩ := h.here.exists_first hopen
        rw [heq, assignFirst_append_cons (not_mem_openNames hunused)]
        rw [heq] at hbody
        by_cases hvar : var.name = name
        · subst hvar
          obtain ⟨hbefore, hafter⟩ : Leads [] (signals var.name before) [] ∧
              Leads [] (signals var.name after) [] :=
            Leads.of_append_used (by simpa [Mark.signal?] using hbody)
          rw [signals_hold_self]
          refine hbefore.hold hunused value ?_
          simpa [Mark.signal?] using hvalue.append hafter
        · rw [signals_hold_of_ne hvar]
          have hrest : Leads [] (signals name before ++ signals name after) [] := by
            simpa [Mark.signal?, hvar] using hbody
          simpa [Mark.signal?] using hrest.insert hvalue (hclear name)
      · rw [assignFirst, if_neg hopen]
        simpa [Mark.signal?] using hvalue.append hbody
    | _ =>
      rw [rendering_of_passesNames rfl, signals_pieces]
      exact leads_flatMap ih

theorem inTurn_rendering (h : e.Every BindsInOrder) : InTurn [] (e.rendering defs) :=
  fun name => ⟨[], leads_rendering h name⟩

end NullGuard.Expr
