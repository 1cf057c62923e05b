import NullGuard.Proofs.Expr.Parts
import NullGuard.Proofs.Guard.FreshNames

/-! # The sequence of fresh names

Drawn one after the other, fresh names are the names of the sequence in order without those that
the expression uses. A name that has been drawn is never met again, so that taking it makes no
difference to later searches. -/

namespace NullGuard

namespace Expr

/-- A parameter of that name stands somewhere in the tree, or a lambda or a `bind` node somewhere in
it binds the name. -/
def UsesName (name : String) : Expr → Prop
  | param _ other => other = name
  | literal .. | default _ | staticMember .. => False
  | member _ target _ _ => target.UsesName name
  | call _ object _ args =>
    object.UsesName name ∨ ∃ (arg : Expr) (_ : arg ∈ args), arg.UsesName name
  | freeCall _ _ args => ∃ (arg : Expr) (_ : arg ∈ args), arg.UsesName name
  | lambda _ params body => (∃ param ∈ params, param.name = name) ∨ body.UsesName name
  | binary _ _ left right | coalesce _ left right => left.UsesName name ∨ right.UsesName name
  | unary _ _ operand | convert _ operand => operand.UsesName name
  | cond _ test ifTrue ifFalse =>
    test.UsesName name ∨ ifTrue.UsesName name ∨ ifFalse.UsesName name
  | construct _ args => ∃ (arg : Expr) (_ : arg ∈ args), arg.UsesName name
  | newArray _ elements => ∃ (element : Expr) (_ : element ∈ elements), element.UsesName name
  | index _ target position => target.UsesName name ∨ position.UsesName name
  | bind _ var value body => var.name = name ∨ value.UsesName name ∨ body.UsesName name

theorem mem_names_iff_usesName {name : String} {e : Expr} : name ∈ e.names ↔ e.UsesName name := by
  induction e using Expr.induction_children with
  | step e ih =>
    rw [mem_names]
    cases e with
    | freeCall | construct | newArray =>
      simp only [UsesName, ownNames, children, exists_prop, List.not_mem_nil, false_or]
      exact exists_congr fun part => and_congr_right (ih part)
    | call ty object method args =>
      simp only [UsesName, ownNames, children, exists_prop, List.not_mem_nil, false_or,
        List.mem_cons, exists_eq_or_imp]
      refine or_congr (ih object List.mem_cons_self) (exists_congr fun arg => ?_)
      exact and_congr_right fun harg => ih arg (List.mem_cons_of_mem object harg)
    | _ => simp_all [UsesName, ownNames, children, eq_comm]

instance (name : String) (e : Expr) : Decidable (e.UsesName name) :=
  decidable_of_iff _ mem_names_iff_usesName

end Expr

namespace FreshNames

/-- From its next position on, the search skips the names of `used` and no others. -/
def Skips (names : FreshNames) (used : List String) : Prop :=
  ∀ position, names.next ≤ position → (nameAt position ∈ names.taken ↔ nameAt position ∈ used)

variable {names : FreshNames} {used : List String}

/-- A search goes on to the first free position, and then still skips the same names. -/
theorem Skips.fresh (h : names.Skips used) :
    ∃ skipped, names.fresh.1 = nameAt (names.next + skipped) ∧
      names.fresh.2.next = names.next + skipped + 1 ∧
      (∀ i < skipped, nameAt (names.next + i) ∈ used) ∧
      nameAt (names.next + skipped) ∉ used ∧ names.fresh.2.Skips used := by
  obtain ⟨skipped, -, hposition, hbefore, -⟩ :=
    firstFree_spec names.taken names.next names.taken.length
  have hfree := fresh_not_mem names
  have hname : names.fresh.1 = nameAt (names.next + skipped) := congrArg nameAt hposition
  have hnext : names.fresh.2.next = names.next + skipped + 1 := congrArg (· + 1) hposition
  refine ⟨skipped, hname, hnext, fun i hi => (h _ (by omega)).mp (hbefore i hi), ?_, ?_⟩
  · rw [hname] at hfree
    exact mt (h _ (by omega)).mpr hfree
  · intro position hle
    rw [hnext] at hle
    have hne : nameAt position ≠ names.fresh.1 := by
      rw [hname]
      exact fun heq => absurd (nameAt_injective heq) (by omega)
    rw [taken_fresh, List.mem_cons, or_iff_right hne]
    exact h position (by omega)

/-- What is drawn is what is left of a segment of the sequence. -/
theorem Skips.freshMany (h : names.Skips used) (count : Nat) :
    ∃ searched, (names.freshMany count).2.next = names.next + searched ∧
      (names.freshMany count).1 =
        ((List.range' names.next searched).map nameAt).filter (· ∉ used) ∧
      (names.freshMany count).1.length = count := by
  induction count generalizing names with
  | zero => exact ⟨0, rfl, rfl, rfl⟩
  | succ count ih =>
    obtain ⟨skipped, hname, hnext, hbefore, hfree, hskips⟩ := h.fresh
    obtain ⟨searched, hsearched, hdrawn, hlength⟩ := ih hskips
    have hskipped : ((List.range' names.next skipped).map nameAt).filter (· ∉ used) = [] := by
      simp only [List.filter_eq_nil_iff, List.forall_mem_map, List.mem_range'_1, decide_eq_true_eq,
        not_not]
      intro position hposition
      obtain ⟨i, rfl⟩ := Nat.exists_eq_add_of_le hposition.1
      exact hbefore i (by omega)
    refine ⟨skipped + 1 + searched, ?_, ?_, congrArg Nat.succ hlength⟩
    · change (names.fresh.2.freshMany count).2.next = _
      rw [hsearched, hnext]
      omega
    · change names.fresh.1 :: (names.fresh.2.freshMany count).1 = _
      rw [hdrawn, hnext, hname, ← List.range'_append_1, List.range'_1_concat, List.map_append,
        List.map_append, List.filter_append, List.filter_append, hskipped]
      simp [hfree, Nat.add_assoc]

theorem nodup_segment (count : Nat) : ((List.range count).map nameAt).Nodup :=
  List.nodup_range.map fun _ _ => nameAt_injective

/-- A list keeps at most as many names out of others as it holds. -/
theorem length_le_filter_add (used : List String) {names : List String} (h : names.Nodup) :
    names.length ≤ (names.filter (· ∉ used)).length + used.length := by
  have hkept : (names.filter fun name => !decide (name ∉ used)).length ≤ used.length := by
    refine (List.subperm_of_subset (h.filter _) fun name hname => ?_).length_le
    simpa using (List.mem_filter.mp hname).2
  rw [List.length_eq_length_filter_add (decide <| · ∉ used)]
  omega

/-- Whatever the expression, as many fresh names as are asked for are the first names of the
sequence that it does not use, in order and each once. The search for them looks at no more names
than these and the ones that the expression uses. -/
theorem freshMany_reserving (e : Expr) (count : Nat) :
    ∃ searched ≤ count + e.names.length,
      ((reserving e).freshMany count).2.next = searched ∧
      ((reserving e).freshMany count).1 =
        ((List.range searched).map nameAt).filter (fun name => ¬ e.UsesName name) ∧
      ((reserving e).freshMany count).1.length = count ∧
      ((reserving e).freshMany count).1.Nodup := by
  have hskips : (reserving e).Skips e.names := fun _ _ => Iff.rfl
  obtain ⟨searched, hnext, hdrawn, hlength⟩ := hskips.freshMany count
  change _ = ((List.range' 0 searched).map nameAt).filter (· ∉ e.names) at hdrawn
  rw [← List.range_eq_range'] at hdrawn
  have hle := length_le_filter_add e.names (nodup_segment searched)
  rw [← hdrawn, hlength, List.length_map, List.length_range] at hle
  refine ⟨searched, hle, hnext.trans (Nat.zero_add searched), ?_, hlength, ?_⟩
  · simp only [hdrawn, Expr.mem_names_iff_usesName]
  · rw [hdrawn]
    exact (nodup_segment searched).filter _

example : ((reserving (.lambda .object [⟨"_b", .int⟩] (.param .int "x"))).freshMany 3).1 =
    ["_a", "_c", "_d"] := by
  cbv

end FreshNames

end NullGuard
