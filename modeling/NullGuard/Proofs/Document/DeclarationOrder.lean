import Mathlib.Logic.Equiv.Basic
import NullGuard.Cli.Report
import NullGuard.Proofs.Document.Declare
import NullGuard.Proofs.Renaming.Guard

/-! # The order of declarations

Another order of the declarations gives the declared types other numbers and changes nothing else.
The report of a document names types, but it does not show their numbers. -/

namespace NullGuard

open Definitions

/-! ## Positions in a reordered list -/

/-- Entries behind a front part change their positions in the same way, whatever stands at them. -/
theorem exists_perm_getElem?_eq {α : Type} {items items' : List α} (h : items'.Perm items)
    (start : Nat) :
    ∃ σ : Equiv.Perm Nat, (∀ position < start, σ position = position) ∧
      ∀ {β : Type} (f : α → β) (front : List β), front.length = start → ∀ position,
        (front ++ items'.map f)[σ position]? = (front ++ items.map f)[position]? := by
  induction h generalizing start with
  | nil => exact ⟨1, fun _ _ => rfl, fun _ _ _ _ => rfl⟩
  | cons item _ ih =>
    obtain ⟨σ, hfixed, hmoved⟩ := ih (start + 1)
    refine ⟨σ, fun position hlt => hfixed position (by omega), fun f front hfront position => ?_⟩
    have hrest := hmoved f (front ++ [f item]) (by simp [hfront]) position
    rwa [List.append_assoc, List.append_assoc] at hrest
  | swap item item' items =>
    refine ⟨Equiv.swap start (start + 1), fun position hlt =>
      Equiv.swap_apply_of_ne_of_ne (by omega) (by omega), fun f front hfront position => ?_⟩
    subst hfront
    rcases Nat.lt_or_ge position front.length with hlt | hge
    · rw [Equiv.swap_apply_of_ne_of_ne (by omega) (by omega), List.getElem?_append_left hlt,
        List.getElem?_append_left hlt]
    · obtain ⟨distance, rfl⟩ := Nat.exists_eq_add_of_le hge
      rcases distance with _ | _ | distance
      · simp
      · simp
      · rw [Equiv.swap_apply_of_ne_of_ne (by omega) (by omega)]
        simp [List.getElem?_append_right]
  | trans _ _ ih ih' =>
    obtain ⟨σ, hfixed, hmoved⟩ := ih start
    obtain ⟨σ', hfixed', hmoved'⟩ := ih' start
    refine ⟨σ * σ', fun position hlt => ?_, fun f front hfront position => ?_⟩
    · rw [Equiv.Perm.mul_apply, hfixed' position hlt, hfixed position hlt]
    · rw [Equiv.Perm.mul_apply, hmoved f front hfront, hmoved' f front hfront]

/-! ## Numbers of reordered declarations -/

/-- Other numbers for definitions, by a permutation of all numbers. -/
def DefId.permute (σ : Equiv.Perm Nat) : Equiv.Perm DefId where
  toFun id := ⟨σ id.number⟩
  invFun id := ⟨σ.symm id.number⟩
  left_inv id := congrArg DefId.mk (σ.symm_apply_apply id.number)
  right_inv id := congrArg DefId.mk (σ.apply_symm_apply id.number)

theorem Definitions.get?_eq_join (defs : Definitions) (id : DefId) :
    defs.get? id = ((none :: defs.toList.map some)[id.number]?).join := by
  obtain ⟨_ | position⟩ := id
  · rfl
  · change defs.toList[position]? = _
    rw [List.getElem?_cons_succ, List.getElem?_map]
    cases defs.toList[position]? <;> rfl

/-- The declarations `decls` stand in `decls'` in another order, and numbers behind those of the
collections move with them. -/
structure Reordered (ρ : Equiv.Perm DefId) (decls decls' : List TypeDecl) : Prop where
  collection {id : DefId} : id.number ≤ Collection.definitions.size → ρ id = id
  get?_eq (define : TypeDecl → Definition) (id : DefId) :
    get? ⟨Collection.definitions.toList ++ decls'.map define⟩ (ρ id) =
      get? ⟨Collection.definitions.toList ++ decls.map define⟩ id

theorem exists_reordered {decls decls' : List TypeDecl} (h : decls'.Perm decls) :
    ∃ ρ, Reordered ρ decls decls' := by
  obtain ⟨σ, hfixed, hmoved⟩ := exists_perm_getElem?_eq h (Collection.definitions.size + 1)
  refine ⟨DefId.permute σ, fun hle => congrArg DefId.mk (hfixed _ (Nat.lt_succ_of_le hle)),
    fun define id => ?_⟩
  have hnumber := hmoved (some ∘ define) (none :: Collection.definitions.toList.map some)
    (by rfl) id.number
  rw [get?_eq_join, get?_eq_join, List.map_append, List.map_append, List.map_map, List.map_map]
  exact congrArg Option.join hnumber

theorem Definitions.find?_eq_of_nodup {ρ : Equiv.Perm DefId} {defs defs' : Definitions}
    (h : (defs.toList.map Definition.name).Nodup) (h' : (defs'.toList.map Definition.name).Nodup)
    (hname : ∀ id, (defs'.get? (ρ id)).map Definition.name = (defs.get? id).map Definition.name)
    (name : String) : defs'.find? name = (defs.find? name).map ρ := by
  ext id'
  obtain ⟨id, rfl⟩ := ρ.surjective id'
  rw [← Option.map_some, (Option.map_injective ρ.injective).eq_iff, Option.map_some,
    find?_eq_some_iff_of_nodup h', find?_eq_some_iff_of_nodup h, hname]

theorem Definitions.get?_map (definitions : List Definition) (change : Definition → Definition)
    (id : DefId) :
    get? ⟨definitions.map change⟩ id = (get? ⟨definitions⟩ id).map change := by
  obtain ⟨_ | position⟩ := id
  · rfl
  · exact List.getElem?_map

namespace Reordered

variable {ρ : Equiv.Perm DefId} {decls decls' : List TypeDecl} (h : Reordered ρ decls decls')

include h

theorem rename_collections :
    Collection.definitions.toList.map (Definition.rename ρ) = Collection.definitions.toList := by
  simp [Collection.definitions, Collection.interfaceOf, Collection.classOf, Definition.ofKind,
    Definition.rename, Field.rename, Collection.countField, Ty.int, h.collection, Definitions.size]

variable (hperm : decls'.Perm decls) (hnew : TypeDecl.AreNew Collection.definitions decls)

include hperm hnew

theorem find?_eq {define define' : TypeDecl → Definition}
    (hname : ∀ decl, (define decl).name = decl.name)
    (hname' : ∀ decl, (define' decl).name = (define decl).name) (name : String) :
    find? ⟨Collection.definitions.toList ++ decls'.map define'⟩ name =
      (find? ⟨Collection.definitions.toList ++ decls.map define⟩ name).map ρ := by
  have hcollections : (Collection.definitions.toList.map Definition.name).Nodup := by decide
  have hmoved := find?_eq_of_nodup (ρ := ρ) (hnew.nodup_names hcollections hname)
    ((hnew.perm hperm).nodup_names hcollections hname)
    (fun id => congrArg (Option.map Definition.name) (h.get?_eq define id)) name
  rw [← hmoved, find?_eq_findIdx?_names, find?_eq_findIdx?_names]
  simp [Function.comp_def, hname']

theorem outlinesMatch :
    OutlinesMatch ρ ⟨Collection.definitions.toList ++ decls.map TypeDecl.outline⟩
      ⟨Collection.definitions.toList ++ decls'.map TypeDecl.outline⟩ where
  outline_eq id := congrArg (Option.map Definition.outline) (h.get?_eq TypeDecl.outline id)
  find?_eq := h.find?_eq hperm hnew TypeDecl.outline_name fun _ => rfl

theorem match_of_rename {define define' : TypeDecl → Definition}
    (hname : ∀ decl, (define decl).name = decl.name)
    (hdefine : ∀ decl, define' decl = (define decl).rename ρ) :
    Match ρ ⟨Collection.definitions.toList ++ decls.map define⟩
      ⟨Collection.definitions.toList ++ decls'.map define'⟩ where
  collection := h.collection
  get?_eq id := by
    have hrenamed : Collection.definitions.toList ++ decls'.map define' =
        (Collection.definitions.toList ++ decls'.map define).map (Definition.rename ρ) := by
      rw [List.map_append, h.rename_collections, List.map_map]
      exact congrArg _ (List.map_congr_left fun decl _ => hdefine decl)
    rw [hrenamed, get?_map, h.get?_eq]
  find?_eq := h.find?_eq hperm hnew hname fun decl => by rw [hdefine, Definition.rename]

end Reordered

/-! ## Declaring in another order -/

namespace TypeDecl

variable {ρ : Equiv.Perm DefId} {defs defs' : Definitions}

theorem resolve_sameFate (h : OutlinesMatch ρ defs defs') (decl : TypeDecl) :
    SameFate (Definition.rename ρ) (decl.resolve defs) (decl.resolve defs') := by
  refine .bind (f := List.map (Ty.rename ρ)) (.within _ (.mapM_same fun base _ =>
    resolveType_sameFate h base)) fun bases => .bind (f := List.map (Field.rename ρ))
      (.within _ (.mapM_same fun field _ => ?_)) fun fields => .pure rfl
  exact .bind (resolveType_sameFate h field.ty) fun _ => .pure rfl

theorem resolved_rename (h : OutlinesMatch ρ defs defs') (decl : TypeDecl) :
    decl.resolved defs' = (decl.resolved defs).rename ρ := by
  have hfate := decl.resolve_sameFate h
  have houtline : decl.outline.rename ρ = decl.outline := by
    rw [← decl.outline_outline]
    rfl
  unfold resolved
  generalize decl.resolve defs = attempt at hfate
  generalize decl.resolve defs' = mirror at hfate
  cases hfate with
  | ok definition => rfl
  | error error error' => exact houtline.symm

end TypeDecl

namespace Document

variable {document : Document} {types : List TypeDecl}

/-- The same types are declared in any order. -/
theorem declareTypes_perm (hperm : types.Perm document.types) {declared : Definitions}
    (h : document.declareTypes Collection.definitions = .ok declared) :
    ∃ ρ declared', { document with types }.declareTypes Collection.definitions = .ok declared' ∧
      Match ρ declared declared' := by
  obtain ⟨hnew, hresolve, rfl⟩ := declareTypes_eq_ok.mp h
  obtain ⟨ρ, hreordered⟩ := exists_reordered hperm
  have houtlines := hreordered.outlinesMatch hperm hnew
  refine ⟨ρ, _, declareTypes_eq_ok.mpr ⟨hnew.perm hperm, fun decl hdecl => ?_, rfl⟩,
    hreordered.match_of_rename hperm hnew (TypeDecl.resolved_name _)
      (TypeDecl.resolved_rename houtlines)⟩
  exact (decl.resolve_sameFate houtlines).isOk_eq.trans (hresolve decl (hperm.mem_iff.mp hdecl))

end Document

/-! ## Reports under other numbers -/

namespace Cli

variable {ρ : Equiv.Perm DefId} {defs defs' : Definitions} (h : Match ρ defs defs')

include h

theorem Outcome.ofEvaluation_rename (methods : MethodTable) (e : Expr) (env : Env) :
    ofEvaluation ⟨defs', methods⟩ (e.rename ρ) (env.rename ρ) =
      ofEvaluation ⟨defs, methods⟩ e env := by
  have heval := Context.eval_mirrors h methods Context.plenty e env .empty
  have hresult : (Context.evaluate ⟨defs', methods⟩ (e.rename ρ) (env.rename ρ) .empty).1 =
      (Context.evaluate ⟨defs, methods⟩ e env .empty).1.map (Value.rename ρ) :=
    congrArg Prod.fst heval
  unfold ofEvaluation
  rw [hresult]
  generalize (Context.evaluate ⟨defs, methods⟩ e env .empty).1 = result
  cases result with
  | ok value => exact congrArg Outcome.value value.text_rename
  | error stop => rfl

theorem evaluationReport_sameFate (document : Document) (plain guarded : Expr) :
    SameFate id (evaluationReport document defs plain guarded)
      (evaluationReport document defs' (plain.rename ρ) (guarded.rename ρ)) := by
  refine .bind (document.environment_sameFate h) fun env => .pure ?_
  rw [Outcome.ofEvaluation_rename h, Outcome.ofEvaluation_rename h, id]

theorem process_sameFate {document : Document} {types : List TypeDecl}
    (hdeclared : document.declareTypes Collection.definitions = .ok defs)
    (hdeclared' : { document with types }.declareTypes Collection.definitions = .ok defs')
    (args : Args) :
    SameFate id (process document args) (process { document with types } args) := by
  unfold process
  rw [hdeclared, hdeclared']
  change SameFate id (document.expr defs >>= _) (document.expr defs' >>= _)
  refine .bind (document.expr_sameFate h) fun expr => ?_
  have hguards := expr.insertGuards_rename h args.guardOptions .empty
  change Expr.insertGuards defs' args.guardOptions .empty (expr.rename ρ) = _ at hguards
  dsimp only
  rw [hguards]
  generalize expr.insertGuards defs args.guardOptions .empty = outcome
  obtain ⟨result, cache⟩ := outcome
  cases result with
  | error error => exact .error _ _
  | ok guarded =>
    refine .bind (.ok guarded) fun guarded => ?_
    simp only [Guarded.rename, Expr.text_rename h.outlines, Expr.ty_rename,
      Ty.text_rename h.outlines, FallbackCache.size_rename]
    split
    · exact .bind (f := id) (.bind (evaluationReport_sameFate h document expr guarded.expr)
        fun _ => .pure rfl) fun _ => .pure rfl
    · exact .bind (f := id) (.pure rfl) fun _ => .pure rfl

omit h

/-- Another order of the declarations changes neither whether a document can be processed nor what
is reported about it. -/
theorem process_perm (document : Document) {types : List TypeDecl}
    (hperm : types.Perm document.types) (args : Args) :
    (∃ report, process document args = .ok report ∧
      process { document with types } args = .ok report) ∨
    ∃ error error', process document args = .error error ∧
      process { document with types } args = .error error' := by
  cases hdeclared : document.declareTypes Collection.definitions with
  | ok declared =>
    obtain ⟨ρ, declared', hdeclared', hmatch⟩ := document.declareTypes_perm hperm hdeclared
    exact (process_sameFate hmatch hdeclared hdeclared' args).eq_or_error
  | error error =>
    cases hdeclared' : { document with types }.declareTypes Collection.definitions with
    | ok declared' =>
      -- The first order is one of the second one's, so it cannot fail alone.
      obtain ⟨_, declared, hdeclared'', -⟩ :=
        @Document.declareTypes_perm { document with types } document.types hperm.symm _ hdeclared'
      cases hdeclared.symm.trans hdeclared''
    | error error' =>
      refine .inr ⟨error, error', ?_, ?_⟩
      · rw [process, hdeclared]
        rfl
      · rw [process, hdeclared']
        rfl

/-- Two types with members of each other's type, a base and a nullable struct. -/
def petHome : Document where
  types :=
    [ { name := "Owner", kind := .classType, bases := ["Named"], isConstructible := true
        fields := [⟨"Pet", "Pet"⟩] },
      { name := "Pet", kind := .classType, bases := [], isConstructible := true
        fields := [⟨"Owner", "Owner"⟩] },
      { name := "Named", kind := .interfaceType, bases := [], isConstructible := true
        fields := [⟨"Home", "Place?"⟩] },
      { name := "Place", kind := .structType, bases := [], isConstructible := true, fields := [] } ]
  parameters := [("pet", "Pet")]
  query := .member (.member (.param "pet") "Owner") "Home"
  data := [("pet", .object [("Owner", .null)])]

/-- Evaluation and statistics. -/
def fullReport : Args := ⟨"-", .json, true, none, true, false⟩

theorem process_perm_petHome :
    petHome.types.reverse.Perm petHome.types ∧ petHome.types.reverse ≠ petHome.types ∧
      ∃ report, process petHome fullReport = .ok report ∧
        process { petHome with types := petHome.types.reverse } fullReport = .ok report := by
  have hperm : petHome.types.reverse.Perm petHome.types := List.reverse_perm _
  have hok : (process petHome fullReport).isOk := by decide +kernel
  refine ⟨hperm, by decide, ?_⟩
  rcases process_perm petHome hperm fullReport with hreport | ⟨error, _, herror, _⟩
  · exact hreport
  · rw [herror] at hok
    cases hok

end Cli

end NullGuard
