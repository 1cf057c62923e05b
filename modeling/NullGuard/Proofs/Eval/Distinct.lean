import NullGuard.Eval.Evaluate
import NullGuard.Proofs.Eval.Trace

/-! # Sets

A set keeps the first of equal items, where equality is that of queries. That relation is not
transitive across integers and doubles, and a value with a NaN inside is not equal to itself, so all
that can be used is what the loop has found: which items it kept, and for each of the others a kept
one that stands before it and is equal to it. -/

namespace NullGuard

namespace Value

variable {items start : List Value}

/-! ## One item -/

theorem insertUnique_of_equal {earlier item : Value} (hmem : earlier ∈ start)
    (hequal : earlier.looselyEquals item = true) : insertUnique start item = start := by
  rw [insertUnique, if_pos (List.any_eq_true.mpr ⟨earlier, hmem, hequal⟩)]

theorem insertUnique_of_new {item : Value}
    (h : ∀ earlier ∈ start, earlier.looselyEquals item = false) :
    insertUnique start item = start ++ [item] := by
  rw [insertUnique, if_neg]
  simpa using h

theorem exists_equal_or_new (start : List Value) (item : Value) :
    (∃ earlier ∈ start, earlier.looselyEquals item = true) ∨
      ∀ earlier ∈ start, earlier.looselyEquals item = false := by
  by_cases h : ∃ earlier ∈ start, earlier.looselyEquals item = true
  · exact .inl h
  · exact .inr (by simpa using h)

/-- No item is equal to a later one. -/
def Distinct (items : List Value) : Prop :=
  items.Pairwise fun earlier later => earlier.looselyEquals later = false

theorem Distinct.insertUnique (h : Distinct start) (item : Value) :
    Distinct (insertUnique start item) := by
  rcases exists_equal_or_new start item with ⟨earlier, hmem, hequal⟩ | hnew
  · rwa [insertUnique_of_equal hmem hequal]
  · rw [insertUnique_of_new hnew]
    refine List.pairwise_append.mpr ⟨h, List.pairwise_singleton _ _, fun earlier hmem => ?_⟩
    exact List.forall_mem_singleton.mpr (hnew earlier hmem)

/-! ## All items -/

theorem Distinct.foldl_insertUnique (h : Distinct start) (items : List Value) :
    Distinct (items.foldl Value.insertUnique start) := by
  induction items generalizing start with
  | nil => exact h
  | cons item items ih => exact ih (h.insertUnique item)

/-- Items that differ from all before them are all kept. -/
theorem foldl_insertUnique_of_distinct (h : Distinct (start ++ items)) :
    items.foldl insertUnique start = start ++ items := by
  induction items generalizing start with
  | nil => simp
  | cons item items ih =>
    have hnew : ∀ earlier ∈ start, earlier.looselyEquals item = false := fun earlier hmem =>
      (List.pairwise_append.mp h).2.2 earlier hmem item List.mem_cons_self
    rw [List.append_cons] at h
    rw [List.foldl_cons, insertUnique_of_new hnew, ih h, ← List.append_cons]

/-- The numbered items that are kept: they are among all numbered items in order, and each item
that is not kept is equal to one that stands before it and is. -/
structure Keeps (start : List Value) (entries kept : List (Value × Nat)) : Prop where
  sublist : kept.Sublist entries
  equal : ∀ entry ∈ entries, entry ∈ kept ∨
    (∃ earlier ∈ start, earlier.looselyEquals entry.1 = true) ∨
      ∃ earlier ∈ kept, earlier.2 < entry.2 ∧ earlier.1.looselyEquals entry.1 = true

theorem Keeps.drop {entries kept : List (Value × Nat)} {earlier item : Value} {position : Nat}
    (h : Keeps start entries kept) (hmem : earlier ∈ start)
    (hequal : earlier.looselyEquals item = true) :
    Keeps start ((item, position) :: entries) kept where
  sublist := h.sublist.cons _
  equal := List.forall_mem_cons.mpr ⟨.inr (.inl ⟨earlier, hmem, hequal⟩), h.equal⟩

theorem Keeps.keep {entries kept : List (Value × Nat)} {item : Value} {position : Nat}
    (h : Keeps (start ++ [item]) entries kept) (hlater : ∀ entry ∈ entries, position < entry.2) :
    Keeps start ((item, position) :: entries) ((item, position) :: kept) where
  sublist := h.sublist.cons_cons _
  equal := by
    refine List.forall_mem_cons.mpr ⟨.inl List.mem_cons_self, fun entry hentry => ?_⟩
    rcases h.equal entry hentry with hkept | ⟨earlier, hstart, hequal⟩ | ⟨earlier, hkept, hequal⟩
    · exact .inl (List.mem_cons_of_mem _ hkept)
    · rcases List.mem_append.mp hstart with hstart | hitem
      · exact .inr (.inl ⟨earlier, hstart, hequal⟩)
      · obtain rfl := List.mem_singleton.mp hitem
        exact .inr (.inr ⟨_, List.mem_cons_self, hlater entry hentry, hequal⟩)
    · exact .inr (.inr ⟨earlier, List.mem_cons_of_mem _ hkept, hequal⟩)

theorem exists_keeps (items start : List Value) (position : Nat) :
    ∃ kept, Keeps start (items.zipIdx position) kept ∧
      items.foldl insertUnique start = start ++ kept.map Prod.fst := by
  induction items generalizing start position with
  | nil => exact ⟨[], ⟨List.Sublist.refl _, nofun⟩, by simp⟩
  | cons item items ih =>
    rw [List.zipIdx_cons, List.foldl_cons]
    rcases exists_equal_or_new start item with ⟨earlier, hmem, hequal⟩ | hnew
    · obtain ⟨kept, hkeeps, hkept⟩ := ih start (position + 1)
      rw [insertUnique_of_equal hmem hequal]
      exact ⟨kept, hkeeps.drop hmem hequal, hkept⟩
    · obtain ⟨kept, hkeeps, hkept⟩ := ih (start ++ [item]) (position + 1)
      rw [insertUnique_of_new hnew]
      refine ⟨(item, position) :: kept, hkeeps.keep fun entry hentry => ?_, ?_⟩
      · exact List.le_snd_of_mem_zipIdx hentry
      · simp [hkept]

/-! ## Sets -/

theorem runAt_contains (defs : Definitions) (invoke : Invoke) (site : CallSite)
    (kind : CollectionKind) (items : List Value) (item : Value) (more : List Value)
    (trace : Trace) :
    (Builtin.run defs invoke site (.collection kind items) (item :: more) .contains).runAt trace =
      (.ok (.bool (items.any (looselyEquals · item))), trace) :=
  rfl

/-- The items of a set are some of the given ones, in order. No two of them are equal, each item
that is not kept is equal to one that stands before it and is, and a set of the kept items is the
same set. It contains every given item that is equal to itself. -/
theorem set_keepsFirst (items : List Value) (defs : Definitions) (invoke : Invoke) (site : CallSite)
    (more : List Value) (trace : Trace) :
    ∃ kept : List (Value × Nat), kept.Sublist items.zipIdx ∧
      set items = .collection .set (kept.map Prod.fst) ∧
      Distinct (kept.map Prod.fst) ∧
      (∀ entry ∈ items.zipIdx, entry ∈ kept ∨
        ∃ earlier ∈ kept, earlier.2 < entry.2 ∧ earlier.1.looselyEquals entry.1 = true) ∧
      set (kept.map Prod.fst) = set items ∧
      ∀ item ∈ items, item.looselyEquals item = true →
        (Builtin.run defs invoke site (set items) (item :: more) .contains).runAt trace =
          (.ok (.bool true), trace) := by
  obtain ⟨kept, hkeeps, hkept⟩ := exists_keeps items [] 0
  rw [List.nil_append] at hkept
  have hset : set items = .collection .set (kept.map Prod.fst) := congrArg _ hkept
  have hdistinct : Distinct (kept.map Prod.fst) :=
    hkept ▸ Distinct.foldl_insertUnique List.Pairwise.nil items
  have hequal : ∀ entry ∈ items.zipIdx, entry ∈ kept ∨
      ∃ earlier ∈ kept, earlier.2 < entry.2 ∧ earlier.1.looselyEquals entry.1 = true := by
    simpa using hkeeps.equal
  refine ⟨kept, hkeeps.sublist, hset, hdistinct, hequal, ?again, fun item hitem hself => ?contains⟩
  case again =>
    have hagain : Distinct ([] ++ kept.map Prod.fst) := hdistinct
    rw [hset, set, foldl_insertUnique_of_distinct hagain, List.nil_append]
  case contains =>
    obtain ⟨position, hposition⟩ := List.mem_iff_getElem?.mp hitem
    have hany : (kept.map Prod.fst).any (looselyEquals · item) = true := by
      rw [List.any_map, List.any_eq_true]
      rcases hequal _ (List.mk_mem_zipIdx_iff_getElem?.mpr hposition) with
        hmem | ⟨earlier, hmem, _, hearlier⟩
      · exact ⟨_, hmem, hself⟩
      · exact ⟨earlier, hmem, hearlier⟩
    rw [hset, runAt_contains, hany]

/-- A NaN that was measured twice, and a text that was. -/
def readings : List Value :=
  [.double (0.0 / 0.0), .string "a", .double (0.0 / 0.0), .string "a"]

/-- Both NaNs are kept, and the text once. -/
theorem set_readings :
    set readings = .collection .set [.double (0.0 / 0.0), .string "a", .double (0.0 / 0.0)] ∧
      (Builtin.run .empty (Context.invoke (Context.eval ⟨.empty, .builtin⟩ 1))
        ⟨"Contains", .bool⟩ (set readings) [.string "a"] .contains).runAt .empty =
          (.ok (.bool true), .empty) := by
  obtain ⟨_, _, _, _, _, _, hcontains⟩ := set_keepsFirst readings .empty
    (Context.invoke (Context.eval ⟨.empty, .builtin⟩ 1)) ⟨"Contains", .bool⟩ [] .empty
  have hnan : ((0.0 / 0.0 : Float) == 0.0 / 0.0) = false := by decide
  refine ⟨?_, hcontains (.string "a") (by simp [readings]) (by decide)⟩
  simp [readings, set, insertUnique, looselyEquals, same, hnan]

end Value

end NullGuard
