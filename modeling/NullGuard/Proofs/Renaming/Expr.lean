import NullGuard.Expr.Build
import NullGuard.Expr.Equality
import NullGuard.Expr.Text
import NullGuard.Guard.Safety
import NullGuard.Proofs.Expr.Parts
import NullGuard.Proofs.Renaming.Hierarchy

/-! # Expressions under other numbers -/

namespace NullGuard

open Definitions

variable {ρ : Equiv.Perm DefId} {defs defs' : Definitions}

def Param.rename (ρ : DefId → DefId) (param : Param) : Param :=
  { param with ty := param.ty.rename ρ }

theorem Param.rename_injective (ρ : Equiv.Perm DefId) : Function.Injective (Param.rename ρ) := by
  rintro ⟨name, ty⟩ ⟨name', ty'⟩ h
  simpa [Param.rename] using h

namespace Expr

mutual

/-- The expression with other numbers for the definitions in its types. -/
@[simp] def rename (ρ : DefId → DefId) : Expr → Expr
  | param ty name => param (ty.rename ρ) name
  | literal ty value => literal (ty.rename ρ) value
  | default ty => default (ty.rename ρ)
  | member ty target name declaring =>
    member (ty.rename ρ) (target.rename ρ) name (declaring.rename ρ)
  | staticMember ty name declaring => staticMember (ty.rename ρ) name (declaring.rename ρ)
  | call ty object method args =>
    call (ty.rename ρ) (object.rename ρ) method (renameAll ρ args)
  | freeCall ty method args => freeCall (ty.rename ρ) method (renameAll ρ args)
  | lambda ty params body => lambda (ty.rename ρ) (params.map (Param.rename ρ)) (body.rename ρ)
  | binary ty op left right => binary (ty.rename ρ) op (left.rename ρ) (right.rename ρ)
  | unary ty op operand => unary (ty.rename ρ) op (operand.rename ρ)
  | coalesce ty left right => coalesce (ty.rename ρ) (left.rename ρ) (right.rename ρ)
  | cond ty test ifTrue ifFalse =>
    cond (ty.rename ρ) (test.rename ρ) (ifTrue.rename ρ) (ifFalse.rename ρ)
  | convert ty operand => convert (ty.rename ρ) (operand.rename ρ)
  | construct ty args => construct (ty.rename ρ) (renameAll ρ args)
  | newArray ty elements => newArray (ty.rename ρ) (renameAll ρ elements)
  | index ty target position => index (ty.rename ρ) (target.rename ρ) (position.rename ρ)
  | bind ty var value body => bind (ty.rename ρ) (var.rename ρ) (value.rename ρ) (body.rename ρ)

def renameAll (ρ : DefId → DefId) : List Expr → List Expr
  | [] => []
  | e :: es => e.rename ρ :: renameAll ρ es

end

@[simp] theorem renameAll_eq_map (ρ : DefId → DefId) (es : List Expr) :
    renameAll ρ es = es.map (rename ρ) := by
  induction es with
  | nil => rfl
  | cons e es ih => rw [renameAll, ih, List.map_cons]

@[simp] theorem ty_rename (e : Expr) : (e.rename ρ).ty = e.ty.rename ρ := by
  cases e <;> simp [ty]

@[simp] theorem children_rename (e : Expr) :
    (e.rename ρ).children = e.children.map (rename ρ) := by
  cases e <;> simp [children]

@[simp] theorem isNull_rename (e : Expr) : (e.rename ρ).isNull = e.isNull := by
  cases e with
  | literal ty value => cases value <;> simp [isNull]
  | _ => simp [isNull]

@[simp] theorem ownNames_rename (e : Expr) : (e.rename ρ).ownNames = e.ownNames := by
  cases e with
  | lambda ty params body => simp [ownNames, Param.rename, Function.comp_def]
  | _ => simp [ownNames, Param.rename]

@[simp] theorem names_rename (e : Expr) : (e.rename ρ).names = e.names := by
  induction e using induction_children with
  | step e ih =>
    rw [names_eq, names_eq e, ownNames_rename, children_rename, List.map_map]
    exact congrArg (e.ownNames ++ List.flatten ·) (List.map_congr_left ih)

theorem anyNode_rename {test : Expr → Bool} (htest : ∀ e : Expr, test (e.rename ρ) = test e)
    (e : Expr) : (e.rename ρ).anyNode test = e.anyNode test := by
  induction e using induction_children with
  | step e ih =>
    have heq (e : Expr) : e.anyNode test = (test e || (e.children.map (anyNode test)).any id) :=
      fold_eq _ e
    rw [heq, heq e, htest, children_rename, List.map_map]
    exact congrArg (test e || List.any · id) (List.map_congr_left ih)

@[simp] theorem mentions_rename (name : String) (e : Expr) :
    (e.rename ρ).mentions name = e.mentions name :=
  e.anyNode_rename fun e => by cases e <;> simp [isParamNamed]

/-! ## Built nodes -/

@[simp] theorem null_rename (ty : Ty) : (null ty).rename ρ = null (ty.rename ρ) := by
  simp [null]

@[simp] theorem binaryOf_rename (op : BinaryOp) (left right : Expr) :
    (binaryOf op left right).rename ρ = binaryOf op (left.rename ρ) (right.rename ρ) := by
  cases op <;> simp [binaryOf, BinaryOp.isPredicate]

@[simp] theorem coalesceOf_rename (left right : Expr) :
    (coalesceOf left right).rename ρ = coalesceOf (left.rename ρ) (right.rename ρ) := by
  simp [coalesceOf]

/-! ## Receivers -/

theorem withChildren_rename (e : Expr) (parts : List Expr) :
    (e.withChildren parts).rename ρ = (e.rename ρ).withChildren (parts.map (rename ρ)) := by
  cases e <;> rcases parts with _ | ⟨_, _ | ⟨_, _ | ⟨_, _ | _⟩⟩⟩ <;> simp [withChildren]

theorem receiver?_rename (e : Expr) : (e.rename ρ).receiver? = e.receiver?.map (rename ρ) := by
  cases e with
  | freeCall ty method args =>
    cases args <;> simp [receiver?]
  | _ => simp [receiver?]

theorem withReceiver_rename (node receiver : Expr) :
    (node.withReceiver receiver).rename ρ =
      (node.rename ρ).withReceiver (receiver.rename ρ) := by
  cases node with
  | freeCall ty method args => cases args <;> simp [withReceiver]
  | _ => simp [withReceiver]

theorem isSafe_rename (h : OutlinesMatch ρ defs defs') (e : Expr) :
    (e.rename ρ).isSafe defs' = e.isSafe defs := by
  induction e using induction_children with
  | step e ih =>
    cases e with
    | convert ty operand => exact ih operand List.mem_cons_self
    | coalesce ty left right =>
      rw [rename, isSafe, isSafe, ih right (by simp [children]), Ty.canBeNull_rename h]
    | _ => simp [isSafe, ty, Ty.canBeNull_rename h]

theorem nullTest?_rename (e : Expr) : (e.rename ρ).nullTest? = e.nullTest? := by
  cases e with
  | binary ty op left right =>
    cases op <;> try rfl
    all_goals
      cases left with
      | param =>
        cases right with
        | literal _ value => cases value <;> rfl
        | _ => rfl
      | literal _ value => cases value <;> cases right <;> rfl
      | _ => rfl
  | _ => simp [nullTest?]

/-! ## Equality -/

theorem sameAll_rename {es : List Expr}
    (h : ∀ e ∈ es, ∀ e' : Expr, (e.rename ρ).same (e'.rename ρ) = e.same e') (es' : List Expr) :
    sameAll (es.map (rename ρ)) (es'.map (rename ρ)) = sameAll es es' := by
  induction es generalizing es' with
  | nil => cases es' <;> rfl
  | cons e es ih =>
    rw [List.forall_mem_cons] at h
    cases es' with
    | nil => rfl
    | cons e' es' => rw [List.map_cons, List.map_cons, sameAll, sameAll, h.1, ih h.2]

theorem same_rename (e e' : Expr) : (e.rename ρ).same (e'.rename ρ) = e.same e' := by
  induction e using induction_children generalizing e' with
  | step e ih =>
    cases e with
    | param | literal | default | staticMember => cases e' <;> first | rfl | simp [same]
    | freeCall ty method args | construct ty args | newArray ty args =>
      have hargs (args' : List Expr) :
          sameAll (args.map (rename ρ)) (args'.map (rename ρ)) = sameAll args args' :=
        sameAll_rename ih args'
      cases e' <;> first | rfl | simp [same, hargs]
    | call ty object method args =>
      obtain ⟨hobject, hargs⟩ := List.forall_mem_cons.mp ih
      have hargs := sameAll_rename hargs
      cases e' <;> first | rfl | simp [same, hobject, hargs]
    | _ =>
      simp only [children, List.forall_mem_cons] at ih
      cases e' <;> first
        | rfl
        | simp [same, ih, (Param.rename_injective ρ).eq_iff,
            (List.map_injective_iff.mpr (Param.rename_injective ρ)).eq_iff]

/-! ## Texts -/

namespace Piece

def rename (ρ : DefId → DefId) : Piece → Piece
  | text s => text s
  | expr e => expr (e.rename ρ)

theorem commas_rename (es : List Expr) :
    commas (es.map (Expr.rename ρ)) = (commas es).map (rename ρ) := by
  induction es using commas.induct with
  | case1 => rfl
  | case2 e => rfl
  | case3 e es hne ih =>
    rw [commas.eq_3 e es hne, List.map_cons, commas.eq_3, ih]
    · rfl
    · simpa using hne

end Piece

variable (h : OutlinesMatch ρ defs defs')

include h

theorem pieces_rename (e : Expr) :
    (e.rename ρ).pieces defs' = (e.pieces defs).map (Piece.rename ρ) := by
  cases e with
  | lambda ty params body =>
    rcases params with _ | ⟨_, _ | _⟩ <;>
      simp [pieces, Piece.rename, Param.rename, Function.comp_def]
  | newArray ty elements =>
    cases elements with
    | nil => simp [pieces, Piece.rename, Ty.text_rename h]
    | cons element elements =>
      have hcommas := Piece.commas_rename (ρ := ρ) (element :: elements)
      rw [List.map_cons] at hcommas
      simp [pieces, Piece.rename, hcommas, Ty.text_rename h]
  | _ => simp [pieces, Piece.rename, Piece.commas_rename, Ty.text_rename h]

omit h in
theorem takeBinding_rename (name : String) (bindings : List (String × Expr)) :
    takeBinding name (bindings.map (Prod.map id (rename ρ))) =
      (takeBinding name bindings).map
        (Prod.map (rename ρ) (List.map (Prod.map id (rename ρ)))) := by
  induction bindings with
  | nil => rfl
  | cons binding bindings ih =>
    obtain ⟨other, value⟩ := binding
    simp only [List.map_cons, Prod.map_apply, id, takeBinding, ih]
    split
    · rfl
    · cases takeBinding name bindings <;> rfl

theorem write_rename (bindings : List (String × Expr)) (pieces : List Piece) :
    write defs' (bindings.map (Prod.map id (rename ρ))) (pieces.map (Piece.rename ρ)) =
      write defs bindings pieces := by
  induction bindings, pieces using write.induct defs with
  | case1 bindings => simp [write]
  | case2 bindings s rest ih => simp [write, Piece.rename, ih]
  | case3 bindings ty name rest value bindings' htaken ih =>
    have htaken' := takeBinding_rename (ρ := ρ) name bindings
    rw [htaken] at htaken'
    rw [List.map_cons, Piece.rename, rename, write.eq_3, write.eq_3, htaken', htaken]
    simpa [Piece.rename] using ih
  | case4 bindings ty name rest htaken ih =>
    have htaken' := takeBinding_rename (ρ := ρ) name bindings
    rw [htaken] at htaken'
    rw [List.map_cons, Piece.rename, rename, write.eq_3, write.eq_3, htaken', htaken]
    simpa using ih
  | case5 bindings ty var value body rest hmentions ih =>
    simpa [write, Piece.rename, Param.rename, hmentions] using ih
  | case6 bindings ty var value body rest hmentions ih =>
    simpa [write, Piece.rename, Param.rename, hmentions] using ih
  | case7 bindings e rest hparam hbind ih =>
    rw [List.map_cons, Piece.rename, write.eq_5, write.eq_5 defs _ e rest hparam hbind,
      pieces_rename h, ← List.map_append, ih]
    · cases e with
      | param ty name => exact absurd rfl (hparam ty name)
      | _ => simp
    · cases e with
      | bind ty var value body => exact absurd rfl (hbind ty var value body)
      | _ => simp

theorem text_rename (e : Expr) : (e.rename ρ).text defs' = e.text defs :=
  congrArg String.join (write_rename h [] [.expr e])

end Expr

end NullGuard
