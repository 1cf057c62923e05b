import NullGuard.Expr.Text
import NullGuard.Proofs.Expr.Census
import NullGuard.Proofs.Expr.FreeNames

/-! # The text that the scopes ask for

Every parameter of a tree belongs to the nearest binder of its name. A bound value is to be written
where its own variable first appears, and if it has none, before its body. The text is put together
here from the parts of a tree up, with marks that tell what each stretch of it stands for. -/

namespace NullGuard.Expr

/-- A stretch of a text with its meaning. A parameter is open as long as no binder around it binds
its name. At `held` nothing is written, and a value begins to wait for its variable. -/
inductive Mark where
  | text (s : String)
  | param (name : String) (isOpen : Bool)
  | held (name : String) (value : Expr)
  | assigned (name : String) (value : Expr)
  | stated (name : String) (value : Expr)

namespace Mark

def text? : Mark → Option String
  | text s => some s
  | param name _ => some name
  | held .. => none
  | assigned name _ | stated name _ => some ("(" ++ name ++ " = ")

/-- The name and the value of an assignment that is written. -/
def assignment? : Mark → Option (String × Expr)
  | assigned name value | stated name value => some (name, value)
  | _ => none

def openName? : Mark → Option String
  | param name true => some name
  | _ => none

/-- Binds the open parameters of the names. -/
def close (names : List String) : Mark → Mark
  | param name isOpen => param name (isOpen && name ∉ names)
  | mark => mark

end Mark

namespace Piece

def expr? : Piece → Option Expr
  | text _ => none
  | expr e => some e

def marks (f : Expr → List Mark) : Piece → List Mark
  | text s => [.text s]
  | expr e => f e

end Piece

def textOf (marks : List Mark) : String :=
  String.join (marks.filterMap Mark.text?)

/-- The names of the open parameters. -/
def openNames (marks : List Mark) : List String :=
  marks.filterMap Mark.openName?

/-- All assignments that are written. -/
def assignments (marks : List Mark) : Multiset (String × Expr) :=
  marks.filterMap Mark.assignment?

/-- The first open parameter of the name becomes the assignment of the value, whose marks are
`written`. The others of the name are bound by it too. -/
def assign (name : String) (value : Expr) (written : List Mark) : List Mark → List Mark
  | [] => []
  | mark :: marks =>
    if mark.openName? = some name then
      .assigned name value :: (written ++ .text ")" :: marks.map (Mark.close [name]))
    else mark :: assign name value written marks

/-- A value waits for the first open parameter of its name. If there is none, it is written before
its body. -/
def assignFirst (name : String) (value : Expr) (written body : List Mark) : List Mark :=
  if name ∈ openNames body then .held name value :: assign name value written body
  else .stated name value :: (written ++ .text ", " :: (body ++ [.text ")"]))

/-- The pieces of a node, with the marks of its parts in their places. -/
def fill : List Piece → List (List Mark) → List Mark
  | .text s :: pieces, parts => .text s :: fill pieces parts
  | .expr _ :: pieces, part :: parts => part ++ fill pieces parts
  | _, _ => []

/-- The text of a tree in which every parameter belongs to the nearest binder of its name. -/
def rendering (defs : Definitions) : Expr → List Mark :=
  fold fun e parts =>
    match e, parts with
    | param _ name, _ => [.param name true]
    | bind _ var value _, [written, body] => assignFirst var.name value written body
    | lambda _ params _, parts =>
      (fill (e.pieces defs) parts).map (Mark.close (params.map Param.name))
    | _, parts => fill (e.pieces defs) parts

variable {defs : Definitions} {e : Expr}

/-! ## Renderings of nodes -/

theorem filterMap_expr?_commas (es : List Expr) : (Piece.commas es).filterMap Piece.expr? = es := by
  induction es using Piece.commas.induct with
  | case1 => rfl
  | case2 => rfl
  | case3 e es hne ih => simp [Piece.commas.eq_3 e es hne, List.filterMap_cons, Piece.expr?, ih]

/-- Every part of a node is written once, in the order of evaluation. -/
theorem filterMap_expr?_pieces (defs : Definitions) (e : Expr) :
    (e.pieces defs).filterMap Piece.expr? = e.children := by
  cases e with
  | newArray ty elements =>
    cases elements with
    | nil => simp [pieces, Piece.expr?, children]
    | cons =>
      simp [pieces, List.filterMap_cons, Piece.expr?, children, filterMap_expr?_commas]
  | _ => simp [pieces, List.filterMap_cons, Piece.expr?, children, filterMap_expr?_commas]

theorem expr_mem_pieces {part : Expr} : .expr part ∈ e.pieces defs ↔ part ∈ e.children := by
  rw [← filterMap_expr?_pieces defs, List.mem_filterMap]
  constructor
  · exact fun h => ⟨_, h, rfl⟩
  · rintro ⟨piece, hpiece, heq⟩
    cases piece with
    | text => cases heq
    | expr other =>
      cases heq
      exact hpiece

theorem fill_map (f : Expr → List Mark) (pieces : List Piece) :
    fill pieces ((pieces.filterMap Piece.expr?).map f) = pieces.flatMap (Piece.marks f) := by
  induction pieces with
  | nil => rfl
  | cons piece pieces ih =>
    cases piece <;> simp [fill, List.filterMap_cons, Piece.expr?, Piece.marks, ih]

theorem fill_pieces (f : Expr → List Mark) (defs : Definitions) (e : Expr) :
    fill (e.pieces defs) (e.children.map f) = (e.pieces defs).flatMap (Piece.marks f) := by
  rw [← filterMap_expr?_pieces defs e, fill_map]

@[simp] theorem rendering_param (ty : Ty) (name : String) :
    (param ty name).rendering defs = [.param name true] := by
  rw [rendering, fold_eq]

theorem rendering_lambda (ty : Ty) (params : List Param) (body : Expr) :
    (lambda ty params body).rendering defs =
      (((lambda ty params body).pieces defs).flatMap (Piece.marks (rendering defs))).map
        (Mark.close (params.map Param.name)) := by
  rw [← fill_pieces, rendering, fold_eq]

theorem rendering_bind (ty : Ty) (var : Param) (value body : Expr) :
    (bind ty var value body).rendering defs =
      assignFirst var.name value (value.rendering defs) (body.rendering defs) := by
  rw [rendering, fold_eq]
  rfl

theorem rendering_of_passesNames (h : e.passesNames = true) :
    e.rendering defs = (e.pieces defs).flatMap (Piece.marks (rendering defs)) := by
  rw [← fill_pieces, rendering, fold_eq]
  cases e with
  | param | lambda | bind => cases h
  | _ => rfl

/-- What is read off the marks of expressions is read off the marks of pieces. -/
theorem filterMap_marks {α : Type} {own : Mark → Option α} (hown : ∀ s, own (.text s) = none)
    (f : Expr → List Mark) (pieces : List Piece) :
    (pieces.flatMap (Piece.marks f)).filterMap own =
      (pieces.filterMap Piece.expr?).flatMap fun part => (f part).filterMap own := by
  induction pieces with
  | nil => rfl
  | cons piece pieces ih =>
    cases piece <;> simp [List.filterMap_cons, Piece.marks, Piece.expr?, hown, ih]

/-! ## Open parameters -/

theorem openName?_eq_some {mark : Mark} {name : String} :
    mark.openName? = some name ↔ mark = .param name true := by
  constructor
  · intro h
    cases mark with
    | param other isOpen =>
      cases isOpen with
      | true => rw [Option.some.inj h]
      | false => cases h
    | _ => cases h
  · rintro rfl
    rfl

@[simp] theorem openNames_nil : openNames [] = [] := rfl

@[simp] theorem openNames_cons (mark : Mark) (marks : List Mark) :
    openNames (mark :: marks) = mark.openName?.toList ++ openNames marks := by
  cases h : mark.openName? <;> simp [openNames, h]

@[simp] theorem openNames_append (marks others : List Mark) :
    openNames (marks ++ others) = openNames marks ++ openNames others :=
  List.filterMap_append

theorem openNames_pieces (f : Expr → List Mark) (defs : Definitions) (e : Expr) :
    openNames ((e.pieces defs).flatMap (Piece.marks f)) =
      e.children.flatMap fun part => openNames (f part) := by
  rw [openNames, filterMap_marks fun _ => rfl, filterMap_expr?_pieces]
  rfl

@[simp] theorem openNames_close (names : List String) (marks : List Mark) :
    openNames (marks.map (Mark.close names)) = (openNames marks).filter (· ∉ names) := by
  induction marks with
  | nil => rfl
  | cons mark marks ih =>
    rw [List.map_cons, openNames_cons, openNames_cons, List.filter_append, ih]
    congr 1
    cases mark with
    | param name isOpen =>
      by_cases hname : name ∈ names <;> cases isOpen <;>
        simp [Mark.close, Mark.openName?, hname]
    | _ => rfl

theorem exists_first {name : String} {marks : List Mark} (h : name ∈ openNames marks) :
    ∃ before after, marks = before ++ .param name true :: after ∧ name ∉ openNames before := by
  induction marks with
  | nil => cases h
  | cons mark marks ih =>
    by_cases hmark : mark.openName? = some name
    · obtain rfl := openName?_eq_some.mp hmark
      exact ⟨[], marks, rfl, List.not_mem_nil⟩
    · have hrest : name ∈ openNames marks := by
        simpa [hmark] using h
      obtain ⟨before, after, rfl, hbefore⟩ := ih hrest
      exact ⟨mark :: before, after, rfl, by simp [hmark, hbefore]⟩

/-- What is assigned is the first open parameter of the name. -/
theorem assign_append_cons {name : String} {before : List Mark} (h : name ∉ openNames before)
    (value : Expr) (written after : List Mark) :
    assign name value written (before ++ .param name true :: after) =
      before ++ .assigned name value ::
        (written ++ .text ")" :: after.map (Mark.close [name])) := by
  induction before with
  | nil => exact if_pos rfl
  | cons mark before ih =>
    rw [openNames_cons, List.mem_append, not_or, Option.mem_toList] at h
    rw [List.cons_append, assign, if_neg h.1, ih h.2]
    rfl

theorem assignFirst_append_cons {name : String} {before : List Mark} (h : name ∉ openNames before)
    (value : Expr) (written after : List Mark) :
    assignFirst name value written (before ++ .param name true :: after) =
      .held name value :: (before ++ .assigned name value ::
        (written ++ .text ")" :: after.map (Mark.close [name]))) := by
  have hopen : name ∈ openNames (before ++ .param name true :: after) := by
    simp [Mark.openName?]
  rw [assignFirst, if_pos hopen, assign_append_cons h]

theorem openNames_assignFirst (name : String) (value : Expr) (written body : List Mark) :
    (openNames (assignFirst name value written body)).Perm
      (openNames written ++ (openNames body).filter (· ≠ name)) := by
  have hkeep {names : List String} (h : name ∉ names) : names.filter (· ≠ name) = names :=
    List.filter_eq_self.mpr fun other hother => decide_eq_true fun heq => h (heq ▸ hother)
  by_cases h : name ∈ openNames body
  · obtain ⟨before, after, rfl, hbefore⟩ := exists_first h
    rw [assignFirst_append_cons hbefore, openNames_append, List.filter_append, hkeep hbefore]
    simpa [Mark.openName?] using List.perm_append_comm_assoc _ _ _
  · rw [assignFirst, if_neg h, hkeep h]
    simp [Mark.openName?]

/-- Exactly the free parameters are open. -/
theorem openNames_rendering (defs : Definitions) (e : Expr) :
    (openNames (e.rendering defs)).Perm e.freeNames := by
  induction e using Expr.induction_children with
  | step e ih =>
    by_cases hpasses : e.passesNames = true
    · rw [rendering_of_passesNames hpasses, openNames_pieces, freeNames_of_passesNames hpasses,
        ← List.flatMap_def]
      exact .flatMap (.refl _) ih
    · cases e with
      | param ty name => simp [Mark.openName?]
      | lambda ty params body =>
        rw [rendering_lambda, openNames_close, openNames_pieces, freeNames_lambda]
        simpa [children] using (ih body List.mem_cons_self).filter _
      | bind ty var value body =>
        rw [rendering_bind, freeNames_bind]
        have hvalue := ih value List.mem_cons_self
        have hbody := ih body (List.mem_cons_of_mem _ List.mem_cons_self)
        exact (openNames_assignFirst _ _ _ _).trans (hvalue.append (hbody.filter _))
      | _ => exact absurd rfl hpasses

theorem mem_openNames_rendering {name : String} :
    name ∈ openNames (e.rendering defs) ↔ e.FreeIn name :=
  (openNames_rendering defs e).mem_iff.trans mem_freeNames

/-! ## Assignments -/

/-- The variable of a `bind` node with its value. -/
def ownAssignment : Expr → Multiset (String × Expr)
  | bind _ var value _ => {(var.name, value)}
  | _ => 0

@[simp] theorem assignments_nil : assignments [] = 0 := rfl

@[simp] theorem assignments_cons (mark : Mark) (marks : List Mark) :
    assignments (mark :: marks) = mark.assignment?.toList + assignments marks := by
  cases h : mark.assignment? <;> simp [assignments, h]

@[simp] theorem assignments_append (marks others : List Mark) :
    assignments (marks ++ others) = assignments marks + assignments others := by
  simp [assignments]

theorem assignments_pieces (f : Expr → List Mark) (defs : Definitions) (e : Expr) :
    assignments ((e.pieces defs).flatMap (Piece.marks f)) =
      (e.children.map fun part => assignments (f part)).sum := by
  rw [assignments, filterMap_marks fun _ => rfl, filterMap_expr?_pieces]
  induction e.children with
  | nil => rfl
  | cons part parts ih =>
    rw [List.flatMap_cons, ← Multiset.coe_add, ih, List.map_cons, List.sum_cons, assignments]

theorem assignments_close (names : List String) (marks : List Mark) :
    assignments (marks.map (Mark.close names)) = assignments marks := by
  induction marks with
  | nil => rfl
  | cons mark marks ih =>
    rw [List.map_cons, assignments_cons, assignments_cons, ih]
    cases mark <;> rfl

theorem assignments_assignFirst (name : String) (value : Expr) (written body : List Mark) :
    assignments (assignFirst name value written body) =
      {(name, value)} + (assignments written + assignments body) := by
  by_cases h : name ∈ openNames body
  · obtain ⟨before, after, rfl, hbefore⟩ := exists_first h
    rw [assignFirst_append_cons hbefore]
    simp only [assignments_cons, assignments_append, assignments_close, Mark.assignment?,
      Option.toList_some, Option.toList_none, Multiset.coe_singleton, Multiset.coe_nil]
    abel
  · rw [assignFirst, if_neg h]
    simp [Mark.assignment?]

/-- Every bound value is written once. -/
theorem assignments_rendering (defs : Definitions) (e : Expr) :
    assignments (e.rendering defs) = e.gather ownAssignment := by
  induction e using Expr.induction_children with
  | step e ih =>
    have hparts : (e.children.map fun part => assignments (part.rendering defs)).sum =
        (e.children.map (gather ownAssignment)).sum :=
      congrArg List.sum (List.map_congr_left ih)
    rw [gather_eq, ← hparts]
    cases e with
    | param => simp [ownAssignment, children, Mark.assignment?]
    | lambda ty params body =>
      rw [rendering_lambda, assignments_close, assignments_pieces]
      simp [ownAssignment]
    | bind ty var value body =>
      rw [rendering_bind, assignments_assignFirst]
      simp [ownAssignment, children]
    | _ =>
      rw [rendering_of_passesNames rfl, assignments_pieces]
      simp [ownAssignment]

end NullGuard.Expr
