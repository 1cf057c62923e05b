import NullGuard.Proofs.Expr.Waiting

/-! # Writing and scopes

A text is written from left to right, with a list of the values that still wait for their
variables. The list knows names and no scopes: a value goes to the first parameter of its name,
whichever binder that parameter has. The marks of the text that the scopes ask for show when this
makes no difference. -/

namespace NullGuard.Expr

open List (Forall₂)

variable {defs : Definitions} {e : Expr}

/-! ## How a text is to be understood -/

/-- What the marks say is what remains to be written of the pieces, if every parameter is understood
as its mark says. -/
inductive Resolves (defs : Definitions) : List Piece → List Mark → Prop where
  | nil : Resolves defs [] []
  | text {s pieces marks} (rest : Resolves defs pieces marks) :
      Resolves defs (.text s :: pieces) (.text s :: marks)
  | param {ty name isOpen pieces marks} (rest : Resolves defs pieces marks) :
      Resolves defs (.expr (param ty name) :: pieces) (.param name isOpen :: marks)
  | assigned {ty name value pieces marks}
      (rest : Resolves defs (.expr value :: .text ")" :: pieces) marks) :
      Resolves defs (.expr (param ty name) :: pieces) (.assigned name value :: marks)
  | held {ty var value body pieces marks} (hmentions : body.mentions var.name = true)
      (rest : Resolves defs (.expr body :: pieces) marks) :
      Resolves defs (.expr (bind ty var value body) :: pieces) (.held var.name value :: marks)
  | stated {ty var value body pieces marks} (hmentions : body.mentions var.name = false)
      (rest :
        Resolves defs (.expr value :: .text ", " :: .expr body :: .text ")" :: pieces) marks) :
      Resolves defs (.expr (bind ty var value body) :: pieces) (.stated var.name value :: marks)
  | node {e pieces marks} (hparam : ∀ ty name, e ≠ param ty name)
      (hbind : ∀ ty var value body, e ≠ bind ty var value body)
      (rest : Resolves defs (e.pieces defs ++ pieces) marks) :
      Resolves defs (.expr e :: pieces) marks

/-- Where the marks take the values in turn, it is written as they say. -/
theorem write_eq_of_inTurn {pieces : List Piece} {marks : List Mark}
    (h : Resolves defs pieces marks) {waiting : List (String × Expr)}
    (hturn : InTurn waiting marks) :
    write defs waiting pieces = marks.filterMap Mark.text? := by
  induction h generalizing waiting with
  | nil => simp [write]
  | text _ ih => simp [write, ih (inTurn_text.mp hturn), Mark.text?]
  | param _ ih =>
    obtain ⟨hnone, hrest⟩ := inTurn_param.mp hturn
    rw [write.eq_3, hnone]
    simp [ih hrest, Mark.text?]
  | assigned _ ih =>
    obtain ⟨others, htaken, hrest⟩ := inTurn_assigned.mp hturn
    rw [write.eq_3, htaken]
    simp [ih hrest, Mark.text?]
  | held hmentions _ ih =>
    simp [write, hmentions, ih (inTurn_held.mp hturn), List.filterMap_cons, Mark.text?]
  | stated hmentions _ ih => simp [write, hmentions, ih (inTurn_stated.mp hturn), Mark.text?]
  | node hparam hbind _ ih => rw [write.eq_5 _ _ _ _ hparam hbind, ih hturn]

/-- Marks that differ at most in whether a parameter is open. -/
inductive Mark.Alike : Mark → Mark → Prop where
  | refl (mark : Mark) : Alike mark mark
  | param (name : String) (isOpen isOpen' : Bool) :
      Alike (.param name isOpen) (.param name isOpen')

theorem alike_refl (marks : List Mark) : Forall₂ Mark.Alike marks marks :=
  List.forall₂_same.mpr fun mark _ => .refl mark

theorem close_alike (names : List String) (marks : List Mark) :
    Forall₂ Mark.Alike (marks.map (Mark.close names)) marks := by
  refine List.forall₂_map_left_iff.mpr (List.forall₂_same.mpr fun mark _ => ?_)
  cases mark with
  | param => exact .param _ _ _
  | _ => exact .refl _

theorem alike_close (names : List String) (marks : List Mark) :
    Forall₂ Mark.Alike marks (marks.map (Mark.close names)) := by
  refine List.forall₂_map_right_iff.mpr (List.forall₂_same.mpr fun mark _ => ?_)
  cases mark with
  | param => exact .param _ _ _
  | _ => exact .refl _

/-- Whatever is written can be understood so that the values are taken in turn. -/
theorem exists_resolves (defs : Definitions) (waiting : List (String × Expr))
    (pieces : List Piece) : ∃ marks, Resolves defs pieces marks ∧ InTurn waiting marks := by
  induction waiting, pieces using write.induct defs with
  | case1 waiting => exact ⟨[], .nil, inTurn_nil⟩
  | case2 waiting s rest ih =>
    obtain ⟨marks, hrest, hturn⟩ := ih
    exact ⟨_, .text hrest, inTurn_text.mpr hturn⟩
  | case3 waiting ty name rest value others htaken ih =>
    obtain ⟨marks, hrest, hturn⟩ := ih
    exact ⟨_, .assigned hrest, inTurn_assigned.mpr ⟨others, htaken, hturn⟩⟩
  | case4 waiting ty name rest htaken ih =>
    obtain ⟨marks, hrest, hturn⟩ := ih
    exact ⟨.param name true :: marks, .param hrest, inTurn_param.mpr ⟨htaken, hturn⟩⟩
  | case5 waiting ty var value body rest hmentions ih =>
    obtain ⟨marks, hrest, hturn⟩ := ih
    exact ⟨_, .held hmentions hrest, inTurn_held.mpr hturn⟩
  | case6 waiting ty var value body rest hmentions ih =>
    obtain ⟨marks, hrest, hturn⟩ := ih
    exact ⟨_, .stated (Bool.eq_false_iff.mpr hmentions) hrest, inTurn_stated.mpr hturn⟩
  | case7 waiting e rest hparam hbind ih =>
    obtain ⟨marks, hrest, hturn⟩ := ih
    exact ⟨_, .node hparam hbind hrest, hturn⟩

/-- There is no other way to understand it so. -/
theorem Resolves.unique {pieces : List Piece} {marks marks' : List Mark}
    {waiting : List (String × Expr)} (h : Resolves defs pieces marks)
    (h' : Resolves defs pieces marks') (hturn : InTurn waiting marks)
    (hturn' : InTurn waiting marks') : Forall₂ Mark.Alike marks marks' := by
  induction h generalizing waiting marks' with
  | nil =>
    cases h'
    exact .nil
  | text _ ih =>
    cases h' with
    | text rest' =>
      exact .cons (.refl _) (ih rest' (inTurn_text.mp hturn) (inTurn_text.mp hturn'))
  | param _ ih =>
    obtain ⟨hnone, hturn⟩ := inTurn_param.mp hturn
    cases h' with
    | param rest' => exact .cons (.param _ _ _) (ih rest' hturn (inTurn_param.mp hturn').2)
    | assigned rest' =>
      obtain ⟨others, htaken, -⟩ := inTurn_assigned.mp hturn'
      cases hnone.symm.trans htaken
    | node hparam => exact absurd rfl (hparam _ _)
  | assigned _ ih =>
    obtain ⟨others, htaken, hturn⟩ := inTurn_assigned.mp hturn
    cases h' with
    | param rest' => cases htaken.symm.trans (inTurn_param.mp hturn').1
    | assigned rest' =>
      obtain ⟨others', htaken', hturn'⟩ := inTurn_assigned.mp hturn'
      cases htaken.symm.trans htaken'
      exact .cons (.refl _) (ih rest' hturn hturn')
    | node hparam => exact absurd rfl (hparam _ _)
  | held hmentions _ ih =>
    cases h' with
    | held _ rest' =>
      exact .cons (.refl _) (ih rest' (inTurn_held.mp hturn) (inTurn_held.mp hturn'))
    | stated hmentions' => cases hmentions.symm.trans hmentions'
    | node _ hbind => exact absurd rfl (hbind _ _ _ _)
  | stated hmentions _ ih =>
    cases h' with
    | held hmentions' => cases hmentions.symm.trans hmentions'
    | stated _ rest' =>
      exact .cons (.refl _) (ih rest' (inTurn_stated.mp hturn) (inTurn_stated.mp hturn'))
    | node _ hbind => exact absurd rfl (hbind _ _ _ _)
  | node hparam hbind _ ih =>
    cases h' with
    | param => exact absurd rfl (hparam _ _)
    | assigned => exact absurd rfl (hparam _ _)
    | held => exact absurd rfl (hbind _ _ _ _)
    | stated => exact absurd rfl (hbind _ _ _ _)
    | node _ _ rest' => exact ih rest' hturn hturn'

/-- Which parameters are open does not matter to writing. -/
theorem Resolves.of_alike {pieces : List Piece} {marks marks' : List Mark}
    (h : Resolves defs pieces marks) (halike : Forall₂ Mark.Alike marks' marks) :
    Resolves defs pieces marks' := by
  induction h generalizing marks' with
  | nil =>
    cases halike
    exact .nil
  | param _ ih =>
    obtain _ | ⟨_ | _, hrest⟩ := halike <;> exact .param (ih hrest)
  | text _ ih =>
    obtain _ | ⟨_ | _, hrest⟩ := halike
    exact .text (ih hrest)
  | assigned _ ih =>
    obtain _ | ⟨_ | _, hrest⟩ := halike
    exact .assigned (ih hrest)
  | held hmentions _ ih =>
    obtain _ | ⟨_ | _, hrest⟩ := halike
    exact .held hmentions (ih hrest)
  | stated hmentions _ ih =>
    obtain _ | ⟨_ | _, hrest⟩ := halike
    exact .stated hmentions (ih hrest)
  | node hparam hbind _ ih => exact .node hparam hbind (ih halike)

/-- Wherever the expression stands, it can be understood as the marks say. -/
def CanRead (defs : Definitions) (e : Expr) (read : List Mark) : Prop :=
  ∀ ⦃pieces marks⦄, Resolves defs pieces marks → Resolves defs (.expr e :: pieces) (read ++ marks)

/-- A parameter can be understood as an assignment of any value instead. -/
theorem Resolves.assign (name : String) {value : Expr} {written : List Mark}
    (hwritten : CanRead defs value written) {pieces : List Piece} {marks : List Mark}
    (h : Resolves defs pieces marks) :
    Resolves defs pieces (assign name value written marks) := by
  induction h with
  | nil => exact .nil
  | text _ ih => exact .text ih
  | param rest ih =>
    unfold Expr.assign
    split
    next hopen =>
      cases openName?_eq_some.mp hopen
      exact .assigned (hwritten (.text (rest.of_alike (close_alike _ _))))
    next => exact .param ih
  | assigned _ ih => exact .assigned ih
  | held hmentions _ ih => exact .held hmentions ih
  | stated hmentions _ ih => exact .stated hmentions ih
  | node hparam hbind _ ih => exact .node hparam hbind ih

theorem assign_append {name : String} {marks : List Mark} (h : name ∈ openNames marks)
    (value : Expr) (written others : List Mark) :
    assign name value written (marks ++ others) =
      assign name value written marks ++ others.map (Mark.close [name]) := by
  induction marks with
  | nil => cases h
  | cons mark marks ih =>
    by_cases hmark : mark.openName? = some name
    · simp [assign, hmark]
    · have hrest : name ∈ openNames marks := by
        simpa [hmark] using h
      simp [assign, hmark, ih hrest]

/-- Where the body of a `bind` node mentions the variable, some parameter stands for its value. -/
def UsesOwnVariable : Expr → Prop
  | bind _ var _ body => body.mentions var.name = true → body.FreeIn var.name
  | _ => True

instance : DecidablePred UsesOwnVariable
  | bind _ var _ body =>
    inferInstanceAs (Decidable (body.mentions var.name = true → body.FreeIn var.name))
  | param .. | literal .. | default _ | member .. | staticMember .. | call .. | freeCall ..
  | lambda .. | binary .. | unary .. | coalesce .. | cond .. | convert .. | construct ..
  | newArray .. | index .. => isTrue trivial

theorem FreeIn.mentions {name : String} (h : e.FreeIn name) : e.mentions name = true := by
  induction h with
  | param => simp [Expr.mentions, anyNode_eq, isParamNamed]
  | part hpart _ _ ih =>
    rw [Expr.mentions, anyNode_eq, Bool.or_eq_true, List.any_eq_true]
    exact .inr ⟨_, mem_children_of_mem_boundScopes hpart, ih⟩

theorem ne_of_passesNames (h : e.passesNames = true) :
    (∀ ty name, e ≠ param ty name) ∧ ∀ ty var value body, e ≠ bind ty var value body := by
  constructor
  · rintro ty name rfl
    cases h
  · rintro ty var value body rfl
    cases h

theorem resolves_pieces {f : Expr → List Mark} {node pieces : List Piece} {marks : List Mark}
    (hparts : ∀ part, .expr part ∈ node → CanRead defs part (f part))
    (h : Resolves defs pieces marks) :
    Resolves defs (node ++ pieces) (node.flatMap (Piece.marks f) ++ marks) := by
  induction node with
  | nil => exact h
  | cons piece node ih =>
    rw [List.flatMap_cons, List.append_assoc]
    have hrest := ih fun part hpart => hparts part (List.mem_cons_of_mem _ hpart)
    cases piece with
    | text s => exact .text hrest
    | expr part => exact hparts part List.mem_cons_self hrest

/-- The text that the scopes ask for is one that can be written. -/
theorem canRead_rendering (huse : e.Every UsesOwnVariable) : CanRead defs e (e.rendering defs) := by
  induction e using Expr.induction_children with
  | step e ih =>
    intro pieces marks h
    replace ih (part : Expr) (hpart : part ∈ e.children) :
        CanRead defs part (part.rendering defs) :=
      ih part hpart (huse.of_mem_children hpart)
    have hnode : Resolves defs (e.pieces defs ++ pieces)
        ((e.pieces defs).flatMap (Piece.marks (rendering defs)) ++ marks) :=
      resolves_pieces (fun part hpart => ih part (expr_mem_pieces.mp hpart)) h
    by_cases hpasses : e.passesNames = true
    · obtain ⟨hparam, hbind⟩ := ne_of_passesNames hpasses
      rw [rendering_of_passesNames hpasses]
      exact .node hparam hbind hnode
    · cases e with
      | param ty name =>
        rw [rendering_param]
        exact .param h
      | lambda ty params body =>
        rw [rendering_lambda]
        exact .node (by simp) (by simp)
          (hnode.of_alike (List.rel_append (close_alike _ _) (alike_refl marks)))
      | bind ty var value body =>
        have hvalue := ih value List.mem_cons_self
        have hbody := ih body (List.mem_cons_of_mem _ List.mem_cons_self)
        rw [rendering_bind, assignFirst]
        split
        next hopen =>
          have hassign := (hbody h).assign var.name hvalue
          rw [assign_append hopen] at hassign
          exact .held (mem_openNames_rendering.mp hopen).mentions
            (hassign.of_alike (List.rel_append (alike_refl _) (alike_close _ _)))
        next hopen =>
          have hmentions : body.mentions var.name = false :=
            Bool.eq_false_iff.mpr fun h => hopen (mem_openNames_rendering.mpr (huse.here h))
          have hstated := hvalue (.text (s := ", ") (hbody (.text (s := ")") h)))
          exact .stated hmentions (by simpa using hstated)
      | _ => exact absurd rfl hpasses

theorem resolves_rendering (huse : e.Every UsesOwnVariable) :
    Resolves defs [.expr e] (e.rendering defs) := by
  have hresolves : Resolves defs [.expr e] (e.rendering defs ++ []) :=
    canRead_rendering huse .nil
  rwa [List.append_nil] at hresolves

theorem signals_eq_of_alike {marks marks' : List Mark} (h : Forall₂ Mark.Alike marks marks')
    (name : String) : signals name marks = signals name marks' := by
  induction h with
  | nil => rfl
  | cons hmark _ ih =>
    rw [signals_cons, signals_cons, ih]
    cases hmark <;> rfl

theorem InTurn.of_alike {waiting : List (String × Expr)} {marks marks' : List Mark}
    (h : InTurn waiting marks) (halike : Forall₂ Mark.Alike marks' marks) :
    InTurn waiting marks' :=
  fun name => signals_eq_of_alike halike name ▸ h name

/-- Where a value is assigned it is read next, and what follows it may as well follow the
parameter. -/
theorem Resolves.exists_assigned {name : String} {value : Expr} {pieces : List Piece}
    {before marks : List Mark}
    (h : Resolves defs pieces (before ++ .assigned name value :: marks)) :
    ∃ others, Resolves defs (.expr value :: .text ")" :: others) marks ∧
      ∀ {marks' : List Mark}, Resolves defs others marks' →
        Resolves defs pieces (before ++ .param name true :: marks') := by
  generalize hall : before ++ .assigned name value :: marks = all at h
  induction h generalizing before with
  | nil => cases List.append_eq_nil_iff.mp hall |>.2
  | text _ ih =>
    cases before <;> cases hall
    obtain ⟨others, hvalue, hothers⟩ := ih rfl
    exact ⟨others, hvalue, fun h => .text (hothers h)⟩
  | param _ ih =>
    cases before <;> cases hall
    obtain ⟨others, hvalue, hothers⟩ := ih rfl
    exact ⟨others, hvalue, fun h => .param (hothers h)⟩
  | @assigned _ _ _ pieces _ rest ih =>
    cases before with
    | nil =>
      cases hall
      exact ⟨pieces, rest, .param⟩
    | cons =>
      cases hall
      obtain ⟨others, hvalue, hothers⟩ := ih rfl
      exact ⟨others, hvalue, fun h => .assigned (hothers h)⟩
  | held hmentions _ ih =>
    cases before <;> cases hall
    obtain ⟨others, hvalue, hothers⟩ := ih rfl
    exact ⟨others, hvalue, fun h => .held hmentions (hothers h)⟩
  | stated hmentions _ ih =>
    cases before <;> cases hall
    obtain ⟨others, hvalue, hothers⟩ := ih rfl
    exact ⟨others, hvalue, fun h => .stated hmentions (hothers h)⟩
  | node hparam hbind _ ih =>
    obtain ⟨others, hvalue, hothers⟩ := ih hall
    exact ⟨others, hvalue, fun h => .node hparam hbind (hothers h)⟩

theorem Resolves.of_node {pieces : List Piece} {marks : List Mark}
    (h : Resolves defs (.expr e :: pieces) marks) (hparam : ∀ ty name, e ≠ .param ty name)
    (hbind : ∀ ty var value body, e ≠ .bind ty var value body) :
    Resolves defs (e.pieces defs ++ pieces) marks := by
  cases h with
  | param => exact absurd rfl (hparam _ _)
  | assigned => exact absurd rfl (hparam _ _)
  | held => exact absurd rfl (hbind _ _ _ _)
  | stated => exact absurd rfl (hbind _ _ _ _)
  | node _ _ h => exact h

theorem Resolves.of_bind {ty : Ty} {var : Param} {value body : Expr} {pieces : List Piece}
    {marks : List Mark} (h : Resolves defs (.expr (.bind ty var value body) :: pieces) marks) :
    (∃ rest, marks = .held var.name value :: rest ∧ Resolves defs (.expr body :: pieces) rest) ∨
      ∃ rest, marks = .stated var.name value :: rest ∧ body.mentions var.name = false ∧
        Resolves defs (.expr value :: .text ", " :: .expr body :: .text ")" :: pieces) rest := by
  cases h with
  | held _ h => exact .inl ⟨_, rfl, h⟩
  | stated hmentions h => exact .inr ⟨_, rfl, hmentions, h⟩
  | node _ hbind => exact absurd rfl (hbind _ _ _ _)

/-- Where the marks are what is read of the expression, each body in it that mentions its variable
uses it, and what follows is read by itself. -/
def Accounts (defs : Definitions) (e : Expr) (read : List Mark) : Prop :=
  ∀ ⦃pieces marks⦄, Resolves defs (.expr e :: pieces) (read ++ marks) →
    e.Every UsesOwnVariable ∧ Resolves defs pieces marks

theorem Resolves.accounts_pieces {f : Expr → List Mark} {node pieces : List Piece}
    {marks : List Mark} (h : Resolves defs (node ++ pieces) (node.flatMap (Piece.marks f) ++ marks))
    (hparts : ∀ part, .expr part ∈ node → Accounts defs part (f part)) :
    (∀ part, .expr part ∈ node → part.Every UsesOwnVariable) ∧ Resolves defs pieces marks := by
  induction node with
  | nil => exact ⟨fun _ hpart => absurd hpart List.not_mem_nil, h⟩
  | cons piece node ih =>
    rw [List.flatMap_cons, List.append_assoc] at h
    have hnode := fun part hpart => hparts part (List.mem_cons_of_mem _ hpart)
    cases piece with
    | text s =>
      cases h with
      | text h =>
        obtain ⟨huses, hrest⟩ := ih h hnode
        exact ⟨fun part hpart => huses part (by simpa using hpart), hrest⟩
    | expr first =>
      obtain ⟨hfirst, h⟩ := hparts first List.mem_cons_self h
      obtain ⟨huses, hrest⟩ := ih h hnode
      refine ⟨fun part hpart => ?_, hrest⟩
      rcases List.mem_cons.mp hpart with heq | hpart
      · cases heq
        exact hfirst
      · exact huses part hpart

theorem accounts_bind {ty : Ty} {var : Param} {value body : Expr}
    (hvalue : Accounts defs value (value.rendering defs))
    (hbody : Accounts defs body (body.rendering defs)) :
    Accounts defs (bind ty var value body) ((bind ty var value body).rendering defs) := by
  intro pieces marks h
  rw [rendering_bind] at h
  by_cases hopen : var.name ∈ openNames (body.rendering defs)
  · obtain ⟨before, after, heq, hbefore⟩ := exists_first hopen
    rw [heq, assignFirst_append_cons hbefore, List.cons_append] at h
    obtain ⟨_, hmarks, h⟩ | ⟨_, hmarks, -⟩ := h.of_bind
    case inr => cases hmarks
    obtain rfl := (List.cons.inj hmarks).2
    simp only [List.append_assoc, List.cons_append] at h
    -- With the parameter in the place of the assignment, the body is read as its own marks say.
    obtain ⟨others, hassigned, hothers⟩ := h.exists_assigned
    obtain ⟨hvalueUse, _ | hclosed⟩ := hvalue hassigned
    have hopened : Resolves defs (.expr body :: pieces) (body.rendering defs ++ marks) := by
      rw [heq, List.append_assoc]
      exact (hothers hclosed).of_alike (List.rel_append (alike_refl _)
        (.cons (.refl _) (List.rel_append (alike_close _ _) (alike_refl _))))
    obtain ⟨hbodyUse, hrest⟩ := hbody hopened
    refine ⟨.node (fun _ => mem_openNames_rendering.mp hopen) ?_, hrest⟩
    simp [children, hvalueUse, hbodyUse]
  · rw [assignFirst, if_neg hopen, List.cons_append] at h
    obtain ⟨_, hmarks, -⟩ | ⟨_, hmarks, hmentions, h⟩ := h.of_bind
    case inl => cases hmarks
    obtain rfl := (List.cons.inj hmarks).2
    simp only [List.append_assoc, List.cons_append, List.nil_append] at h
    obtain ⟨hvalueUse, _ | h⟩ := hvalue h
    obtain ⟨hbodyUse, _ | hrest⟩ := hbody h
    refine ⟨.node (fun h => ?_) ?_, hrest⟩
    · cases hmentions.symm.trans h
    · simp [children, hvalueUse, hbodyUse]

/-- If a tree is read as its scopes ask for, then each body that mentions its variable uses it. -/
theorem accounts_rendering (defs : Definitions) (e : Expr) :
    Accounts defs e (e.rendering defs) := by
  induction e using Expr.induction_children with
  | step e ih =>
    intro pieces marks h
    have hnode (hown : UsesOwnVariable e) (h : Resolves defs (e.pieces defs ++ pieces)
        ((e.pieces defs).flatMap (Piece.marks (rendering defs)) ++ marks)) :
        e.Every UsesOwnVariable ∧ Resolves defs pieces marks := by
      obtain ⟨hparts, hrest⟩ :=
        h.accounts_pieces fun part hpart => ih part (expr_mem_pieces.mp hpart)
      exact ⟨.node hown fun part hpart => hparts part (expr_mem_pieces.mpr hpart), hrest⟩
    by_cases hpasses : e.passesNames = true
    · obtain ⟨hparam, hbind⟩ := ne_of_passesNames hpasses
      rw [rendering_of_passesNames hpasses] at h
      refine hnode ?_ (h.of_node hparam hbind)
      cases e with
      | bind => cases hpasses
      | _ => trivial
    · cases e with
      | param ty name =>
        rw [rendering_param] at h
        cases h with
        | param h => exact ⟨.node trivial fun _ hpart => absurd hpart List.not_mem_nil, h⟩
        | node hparam => exact absurd rfl (hparam _ _)
      | lambda ty params body =>
        rw [rendering_lambda] at h
        have hopened := h.of_alike (List.rel_append (alike_close _ _) (alike_refl marks))
        exact hnode trivial (hopened.of_node (by simp) (by simp))
      | bind ty var value body =>
        have hvalue := ih value List.mem_cons_self
        have hbody := ih body (List.mem_cons_of_mem _ List.mem_cons_self)
        exact accounts_bind hvalue hbody h
      | _ => exact absurd rfl hpasses

/-! ## Texts -/

/-- How the text of an expression is to be understood. -/
structure IsReading (defs : Definitions) (e : Expr) (marks : List Mark) : Prop where
  resolves : Resolves defs [.expr e] marks
  inTurn : InTurn [] marks

theorem exists_isReading (defs : Definitions) (e : Expr) : ∃ marks, e.IsReading defs marks := by
  obtain ⟨marks, hresolves, hturn⟩ := exists_resolves defs [] [.expr e]
  exact ⟨marks, hresolves, hturn⟩

theorem IsReading.text_eq {marks : List Mark} (h : e.IsReading defs marks) :
    e.text defs = textOf marks := by
  rw [text, textOf, write_eq_of_inTurn h.resolves h.inTurn]

theorem IsReading.unique {marks marks' : List Mark} (h : e.IsReading defs marks)
    (h' : e.IsReading defs marks') : Forall₂ Mark.Alike marks marks' :=
  h.resolves.unique h'.resolves h.inTurn h'.inTurn

theorem isReading_rendering_iff :
    e.IsReading defs (e.rendering defs) ↔
      e.Every UsesOwnVariable ∧ InTurn [] (e.rendering defs) := by
  constructor
  · rintro ⟨hresolves, hturn⟩
    rw [← List.append_nil (e.rendering defs)] at hresolves
    exact ⟨(accounts_rendering defs e hresolves).1, hturn⟩
  · rintro ⟨huse, hturn⟩
    exact ⟨resolves_rendering huse, hturn⟩

/-- The way in which a text is to be understood is the one of the scopes exactly if each body that
mentions its variable uses it, and the values are taken in turn where the scopes ask for them. -/
theorem IsReading.alike_rendering_iff {marks : List Mark} (h : e.IsReading defs marks) :
    Forall₂ Mark.Alike (e.rendering defs) marks ↔
      e.Every UsesOwnVariable ∧ InTurn [] (e.rendering defs) := by
  rw [← isReading_rendering_iff]
  constructor
  · exact fun halike => ⟨h.resolves.of_alike halike, h.inTurn.of_alike halike⟩
  · exact fun hrendering => hrendering.unique h

/-- `let x = 1 in (x => x)` -/
def hidden : Expr :=
  .bind .object ⟨"x", .int⟩ (.literal .int (.int 1))
    (.lambda .object [⟨"x", .int⟩] (.param .int "x"))

/-- The value is assigned to the parameter of the lambda, which the scopes do not ask for. -/
theorem text_hidden :
    hidden.text .empty = "x => (x = 1)" ∧ textOf (hidden.rendering .empty) = "(x = 1, x => x)" := by
  constructor
  · cbv
  · cbv

end NullGuard.Expr
