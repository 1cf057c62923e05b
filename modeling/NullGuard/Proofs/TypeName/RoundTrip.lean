import NullGuard.Proofs.Ty.Catalogue
import NullGuard.Proofs.TypeName.Meaning
import NullGuard.Ty.Text

/-! # The text of a type is read as that type

A type is written with the names of its definitions, which are read again as the same definitions
if none of them is a keyword or hidden by a later definition. -/

namespace NullGuard

open List (Forall₂)
open NullGuard.TypeName

/-! ## Spelling in parts -/

namespace TypeName

variable {text rest : List Char} {ks ks' : List TokenKind} {c : Char}

/-- Texts can be put together unless a name would go on from one to the other. -/
theorem Spells.append (h : Spells text ks) (hrest : Spells rest ks')
    (hend : ∀ c ∈ rest.head?, Text.isNameChar c = false) : Spells (text ++ rest) (ks ++ ks') :=
  h.append_of_apart hrest fun _ _ next hnext _ => hend next hnext

theorem Spells.append_mark (h : Spells text ks) (hmark : IsMark c) (hrest : Spells rest ks') :
    Spells (text ++ c :: rest) (ks ++ .mark c :: ks') :=
  h.append (.mark hmark hrest) (by simpa using hmark.2)

theorem spells_name {chars : List Char} (hne : chars ≠ [])
    (hchars : ∀ c ∈ chars, Text.isNameChar c = true) : Spells chars [.name chars] := by
  have hspelled : Spells (chars ++ []) [.name chars] := .name hne hchars nofun .nil
  rwa [List.append_nil] at hspelled

/-- The characters that the texts of types put between names. -/
theorem isMark_of_mem {c : Char} (h : c ∈ ['<', ',', '>', '?', '[', ']']) : IsMark c := by
  have hmarks : ['<', ',', '>', '?', '[', ']'].all (IsMark ·) = true := by decide +kernel
  exact of_decide_eq_true (List.all_eq_true.mp hmarks c h)

end TypeName

/-! ## Types that can be named -/

/-- A name that is read as one token and is no keyword. -/
structure IsTypeName (name : String) : Prop where
  ne_nil : name.toList ≠ []
  isNameChar : ∀ c ∈ name.toList, Text.isNameChar c = true
  ne_keyword : ∀ kind : Intrinsic, kind.name ≠ name

/-- The types that are made of built-in types and of the latest definitions of proper names, each
with as many arguments as it has parameters. -/
inductive Ty.Nameable (defs : Definitions) : Ty → Prop where
  | intrinsic (kind : Intrinsic) : Nameable defs (.intrinsic kind)
  | nullable {ty} (h : Nameable defs ty) : Nameable defs (ty.makeNullable defs)
  | array {element} (h : Nameable defs element) : Nameable defs (.array element)
  | named {id} (definition : Definition) {args} (hname : IsTypeName definition.name)
      (hlatest : defs.Latest definition.name id definition)
      (harity : definition.arity = args.length) (hargs : ∀ arg ∈ args, Nameable defs arg) :
      Nameable defs (.named id args)

namespace Ty

variable {defs : Definitions}

/-- The text of the type spells a written type that means it. -/
def WrittenAs (defs : Definitions) (ty : Ty) (e : TypeExpr) : Prop :=
  Spells (ty.text defs).toList e.tokens ∧ e.Denotes defs ty

theorem writtenAs_intrinsic (kind : Intrinsic) :
    WrittenAs defs (.intrinsic kind) (.apply kind.name []) := by
  have hname : kind.name.toList ≠ [] ∧ kind.name.toList.all Text.isNameChar = true := by
    cases kind <;> decide
  refine ⟨?_, .apply .nil (.keyword rfl)⟩
  rw [text]
  exact spells_name hname.1 (List.all_eq_true.mp hname.2)

theorem WrittenAs.nullable {ty : Ty} {e : TypeExpr} (h : WrittenAs defs ty e) :
    ∃ e', WrittenAs defs (ty.makeNullable defs) e' := by
  by_cases hnew : ty.isValueType defs = true ∧ ty.underlying? = none
  · refine ⟨.nullable e, ?_, .nullable h.2⟩
    have hspelled := h.1.append_mark (isMark_of_mem (c := '?') (by simp)) .nil
    simpa [makeNullable, hnew, text, TypeExpr.tokens] using hspelled
  · rw [makeNullable, if_neg hnew]
    exact ⟨e, h⟩

theorem WrittenAs.array {element : Ty} {e : TypeExpr} (h : WrittenAs defs element e) :
    WrittenAs defs (.array element) (.array e) := by
  refine ⟨?_, .array h.2⟩
  have hspelled := h.1.append_mark (isMark_of_mem (c := '[') (by simp))
    (.mark (isMark_of_mem (c := ']') (by simp)) .nil)
  simpa [text, TypeExpr.tokens] using hspelled

/-- Further arguments and what stands behind them begin with a mark. -/
theorem isNameChar_head?_textRest (args : List Ty) {c : Char} (hmark : IsMark c)
    (rest : List Char) : ∀ first ∈ ((textRest defs args).toList ++ c :: rest).head?,
      Text.isNameChar first = false := by
  cases args with
  | nil => simpa [textRest] using hmark.2
  | cons arg args => simpa [textRest] using (isMark_of_mem (c := ',') (by simp)).2

theorem spells_textRest {args : List Ty} {es : List TypeExpr}
    (h : Forall₂ (WrittenAs defs) args es) {c : Char} (hmark : IsMark c) {rest : List Char}
    {ks : List TokenKind} (hrest : Spells rest ks) :
    Spells ((textRest defs args).toList ++ c :: rest)
      (TypeExpr.furtherTokens es ++ .mark c :: ks) := by
  induction h with
  | nil => simpa [textRest, TypeExpr.furtherTokens] using .mark hmark hrest
  | @cons arg e args es harg _ ih =>
    have hspelled := harg.1.append ih (isNameChar_head?_textRest args hmark rest)
    have hcomma := Spells.mark (isMark_of_mem (c := ',') (by simp))
      (.blank (c := ' ') (by decide) hspelled)
    simpa [textRest, TypeExpr.furtherTokens] using hcomma

theorem WrittenAs.named {id : DefId} {definition : Definition} {args : List Ty}
    {es : List TypeExpr} (hname : IsTypeName definition.name)
    (hlatest : defs.Latest definition.name id definition)
    (harity : definition.arity = args.length) (hargs : Forall₂ (WrittenAs defs) args es) :
    WrittenAs defs (.named id args) (.apply definition.name es) := by
  have hdenotes : Forall₂ (TypeExpr.Denotes defs) es args :=
    (hargs.imp fun _ _ h => h.2).flip
  refine ⟨?_, .apply hdenotes (.defined hname.ne_keyword hlatest harity)⟩
  have hspelled : Spells definition.name.toList [.name definition.name.toList] :=
    spells_name hname.ne_nil hname.isNameChar
  rw [text.eq_def]
  simp only [hlatest.get?_eq, Option.map_some, Option.getD_some]
  cases hargs with
  | nil => exact hspelled
  | @cons arg e args es harg hrest =>
    have hclose : IsMark '>' := isMark_of_mem (by simp)
    have hspelled := hspelled.append_mark (isMark_of_mem (c := '<') (by simp))
      (harg.1.append (spells_textRest hrest hclose .nil)
        (isNameChar_head?_textRest args hclose []))
    simpa [TypeExpr.tokens] using hspelled

theorem exists_forall₂_writtenAs {args : List Ty} (h : ∀ arg ∈ args, ∃ e, WrittenAs defs arg e) :
    ∃ es, Forall₂ (WrittenAs defs) args es := by
  induction args with
  | nil => exact ⟨[], .nil⟩
  | cons arg args ih =>
    rw [List.forall_mem_cons] at h
    obtain ⟨⟨e, he⟩, hargs⟩ := h
    obtain ⟨es, hes⟩ := ih hargs
    exact ⟨e :: es, .cons he hes⟩

theorem Nameable.exists_writtenAs {ty : Ty} (h : ty.Nameable defs) : ∃ e, WrittenAs defs ty e := by
  induction h with
  | intrinsic kind => exact ⟨_, writtenAs_intrinsic kind⟩
  | nullable _ ih =>
    obtain ⟨e, he⟩ := ih
    exact he.nullable
  | array _ ih =>
    obtain ⟨e, he⟩ := ih
    exact ⟨_, he.array⟩
  | named _ hname hlatest harity _ ih =>
    obtain ⟨es, hes⟩ := exists_forall₂_writtenAs ih
    exact ⟨_, .named hname hlatest harity hes⟩

end Ty

/-! ## Reading texts back -/

namespace Workspace

/-- The text of a type that has been made is read as that type, and nothing new is made. -/
theorem parseType_text {workspace : Workspace} {ty : Ty} (hty : ty.Nameable workspace.defs)
    (hmade : workspace.catalogue.Holds ty) :
    (parseType (ty.text workspace.defs)).run workspace = (.ok ty, workspace) := by
  obtain ⟨e, hspells, hdenotes⟩ := hty.exists_writtenAs
  have hread := read_of_spells hspells hdenotes
  have hrecord : workspace.catalogue.recordAll [ty] = workspace.catalogue := by
    rw [Catalogue.recordAll, hmade.record_eq, Catalogue.recordAll]
  let reading := read workspace.defs (ty.text workspace.defs)
  let catalogue := workspace.catalogue.recordAll reading.built
  have hrun : (parseType (ty.text workspace.defs)).run workspace =
      (reading.result, { workspace with catalogue }) := rfl
  rw [hrun]
  simp only [catalogue, reading, hread, hrecord]

/-- A struct `Point` besides the collections, and the type `List<Point?[]>`. -/
def pointLists : Ty :=
  .listOf (.array (.nullable (.named ⟨9⟩ [])))

def pointWorkspace : Workspace :=
  (do discard <| define (.ofKind .structType "Point" []); makeType pointLists : WorkspaceM Ty).run
    .new |>.2

theorem parseType_text_pointLists :
    pointLists.Nameable pointWorkspace.defs ∧ pointWorkspace.catalogue.Holds pointLists ∧
      pointLists.text pointWorkspace.defs = "List<Point?[]>" ∧
      (parseType (pointLists.text pointWorkspace.defs)).run pointWorkspace =
        (.ok pointLists, pointWorkspace) := by
  have hkeyword (name : String) (h : Intrinsic.ofName? name = none) :
      ∀ kind : Intrinsic, kind.name ≠ name :=
    Intrinsic.ofName?_eq_none_iff.mp h
  have hlatest : pointWorkspace.defs.Latest "Point" ⟨9⟩ (.ofKind .structType "Point" []) :=
    Definitions.latest_of_find? (by decide) rfl
  have hpoint : Ty.Nameable pointWorkspace.defs (.named ⟨9⟩ []) := by
    have hname : IsTypeName "Point" :=
      ⟨by decide, List.all_eq_true.mp (by decide +kernel), hkeyword _ (by decide)⟩
    exact .named (.ofKind .structType "Point" []) hname hlatest rfl nofun
  have hnullable : (Ty.named ⟨9⟩ []).makeNullable pointWorkspace.defs =
      .nullable (.named ⟨9⟩ []) := by decide
  let listClass := Collection.classOf "List" [Collection.listInterface, Collection.readOnlyList]
  have hlist : pointWorkspace.defs.Latest "List" Collection.list listClass :=
    Definitions.latest_of_find? (by decide) rfl
  have hnameable : pointLists.Nameable pointWorkspace.defs := by
    have hname : IsTypeName "List" :=
      ⟨by decide, List.all_eq_true.mp (by decide +kernel), hkeyword _ (by decide)⟩
    refine .named listClass hname hlist rfl ?_
    refine List.forall_mem_singleton.mpr (.array ?_)
    rw [← hnullable]
    exact .nullable hpoint
  have hholds : pointWorkspace.catalogue.Holds pointLists := holds_makeType complete_new pointLists
  exact ⟨hnameable, hholds, by decide +kernel, parseType_text hnameable hholds⟩

end Workspace

end NullGuard
