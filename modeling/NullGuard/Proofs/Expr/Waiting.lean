import NullGuard.Proofs.Expr.Rendering

/-! # Values that wait

While a text is written, the values of each name form a stack: a value begins to wait on top of the
others, and only the one on top is assigned. Names do not interfere with each other, so that the
marks of one name are read by themselves. -/

namespace NullGuard.Expr

variable {name : String}

/-! ## What a text does with one name -/

/-- A use of a name, and what becomes of its values. -/
inductive Signal where
  | used
  | held (value : Expr)
  | assigned (value : Expr)

/-- What a mark does with the name. -/
def Mark.signal? (name : String) : Mark → Option Signal
  | param other _ => if other = name then some .used else none
  | held other value => if other = name then some (.held value) else none
  | assigned other value => if other = name then some (.assigned value) else none
  | _ => none

def signals (name : String) (marks : List Mark) : List Signal :=
  marks.filterMap (Mark.signal? name)

@[simp] theorem signals_nil (name : String) : signals name [] = [] := rfl

@[simp] theorem signals_append (name : String) (marks others : List Mark) :
    signals name (marks ++ others) = signals name marks ++ signals name others :=
  List.filterMap_append

@[simp] theorem signals_cons (name : String) (mark : Mark) (marks : List Mark) :
    signals name (mark :: marks) = (mark.signal? name).toList ++ signals name marks := by
  cases h : mark.signal? name <;> simp [signals, h]

theorem Mark.signal?_close (name : String) (names : List String) (mark : Mark) :
    (mark.close names).signal? name = mark.signal? name := by
  cases mark <;> rfl

@[simp] theorem signals_close (name : String) (names : List String) (marks : List Mark) :
    signals name (marks.map (Mark.close names)) = signals name marks := by
  rw [signals, List.filterMap_map]
  exact List.filterMap_congr fun mark _ => mark.signal?_close name names

theorem signals_marks (name : String) (f : Expr → List Mark) (pieces : List Piece) :
    signals name (pieces.flatMap (Piece.marks f)) =
      (pieces.filterMap Piece.expr?).flatMap fun part => signals name (f part) :=
  filterMap_marks (fun _ => rfl) f pieces

theorem mem_signals {signal : Signal} {marks : List Mark} :
    signal ∈ signals name marks ↔ ∃ mark ∈ marks, mark.signal? name = some signal :=
  List.mem_filterMap

theorem signals_hold_self (name : String) (value : Expr) (before rest : List Mark) :
    signals name (.held name value :: (before ++ .assigned name value :: rest)) =
      .held value :: (signals name before ++ .assigned value :: signals name rest) := by
  simp [Mark.signal?]

theorem signals_hold_of_ne {bound : String} (hne : bound ≠ name) (value : Expr)
    (before rest : List Mark) :
    signals name (.held bound value :: (before ++ .assigned bound value :: rest)) =
      signals name before ++ signals name rest := by
  simp [Mark.signal?, hne]

/-! ## Stacks -/

/-- From the values of a name that wait, the latest first, to those that are left. The name is used
where no value waits, and the value that is assigned is the latest. -/
inductive Leads : List Expr → List Signal → List Expr → Prop where
  | done {values} : Leads values [] values
  | used {word left} (rest : Leads [] word left) : Leads [] (.used :: word) left
  | held {values value word left} (rest : Leads (value :: values) word left) :
      Leads values (.held value :: word) left
  | assigned {values value word left} (rest : Leads values word left) :
      Leads (value :: values) (.assigned value :: word) left

section Leads

variable {values middle left : List Expr} {value : Expr} {word rest before after : List Signal}

theorem leads_used : Leads values (.used :: word) left ↔ values = [] ∧ Leads [] word left := by
  constructor
  · intro h
    cases h with
    | used hrest => exact ⟨rfl, hrest⟩
  · rintro ⟨rfl, hrest⟩
    exact .used hrest

theorem leads_held :
    Leads values (.held value :: word) left ↔ Leads (value :: values) word left :=
  ⟨fun | .held hrest => hrest, .held⟩

theorem leads_assigned :
    Leads values (.assigned value :: word) left ↔
      ∃ others, values = value :: others ∧ Leads others word left := by
  constructor
  · intro h
    cases h with
    | assigned hrest => exact ⟨_, rfl, hrest⟩
  · rintro ⟨others, rfl, hrest⟩
    exact .assigned hrest

theorem Leads.append (h : Leads values word middle) (hrest : Leads middle rest left) :
    Leads values (word ++ rest) left := by
  induction h with
  | done => exact hrest
  | used _ ih => exact .used (ih hrest)
  | held _ ih => exact .held (ih hrest)
  | assigned _ ih => exact .assigned (ih hrest)

theorem Leads.exists_middle (h : Leads values (word ++ rest) left) :
    ∃ middle, Leads values word middle ∧ Leads middle rest left := by
  induction word generalizing values with
  | nil => exact ⟨values, .done, h⟩
  | cons signal word ih =>
    cases h with
    | used h =>
      obtain ⟨middle, hword, hrest⟩ := ih h
      exact ⟨middle, .used hword, hrest⟩
    | held h =>
      obtain ⟨middle, hword, hrest⟩ := ih h
      exact ⟨middle, .held hword, hrest⟩
    | assigned h =>
      obtain ⟨middle, hword, hrest⟩ := ih h
      exact ⟨middle, .assigned hword, hrest⟩

theorem Leads.unique (h : Leads values word left) (h' : Leads values word middle) :
    left = middle := by
  induction h with
  | done =>
    cases h'
    rfl
  | used _ ih => exact ih (leads_used.mp h').2
  | held _ ih => exact ih (leads_held.mp h')
  | assigned _ ih =>
    obtain ⟨_, heq, hrest⟩ := leads_assigned.mp h'
    cases heq
    exact ih hrest

/-- Values below those that a word takes do not matter to it, unless the name is used. -/
theorem Leads.frame (h : Leads values word left) (hused : .used ∉ word) (others : List Expr) :
    Leads (values ++ others) word (left ++ others) := by
  induction h with
  | done => exact .done
  | used => exact absurd List.mem_cons_self hused
  | held _ ih => exact .held (ih (List.not_mem_of_not_mem_cons hused))
  | assigned _ ih => exact .assigned (ih (List.not_mem_of_not_mem_cons hused))

/-- Where the name is used no value waits. -/
theorem Leads.of_append_used (h : Leads values (word ++ .used :: rest) left) :
    Leads values word [] ∧ Leads [] rest left := by
  obtain ⟨middle, hword, hused⟩ := h.exists_middle
  obtain ⟨rfl, hrest⟩ := leads_used.mp hused
  exact ⟨hword, hrest⟩

theorem leads_of_forall_used (h : ∀ signal ∈ word, signal = .used) : Leads [] word [] := by
  induction word with
  | nil => exact .done
  | cons signal word ih =>
    rw [List.forall_mem_cons] at h
    rw [h.1]
    exact .used (ih h.2)

theorem leads_flatMap {α : Type} {f : α → List Signal} {parts : List α}
    (h : ∀ part ∈ parts, Leads [] (f part) []) : Leads [] (parts.flatMap f) [] := by
  induction parts with
  | nil => exact .done
  | cons part parts ih =>
    rw [List.forall_mem_cons] at h
    exact h.1.append (ih h.2)

/-- A value waits while others come and go. -/
theorem Leads.hold (h : Leads [] before []) (hused : .used ∉ before) (value : Expr)
    (hrest : Leads [] rest left) :
    Leads [] (.held value :: (before ++ .assigned value :: rest)) left :=
  .held ((h.frame hused [value]).append (.assigned hrest))

/-- A word that leaves the stack as it is may stand anywhere, if no value waits where it uses the
name. -/
theorem Leads.insert (h : Leads [] (before ++ after) left) (hword : Leads [] word [])
    (hclear : .used ∈ word → Leads [] before []) : Leads [] (before ++ (word ++ after)) left := by
  obtain ⟨middle, hbefore, hafter⟩ := h.exists_middle
  refine hbefore.append (.append ?_ hafter)
  by_cases hused : .used ∈ word
  · rw [hbefore.unique (hclear hused)]
    exact hword
  · exact hword.frame hused middle

end Leads

/-- The values that wait under a name, the latest first. -/
def valuesOf (name : String) (waiting : List (String × Expr)) : List Expr :=
  (waiting.filter (·.1 = name)).map Prod.snd

/-- The values that wait are taken in turn: where a parameter is written no value waits under its
name, and where a value is assigned it is the one of its name that has waited least. -/
def InTurn (waiting : List (String × Expr)) (marks : List Mark) : Prop :=
  ∀ name, ∃ left, Leads (valuesOf name waiting) (signals name marks) left

/-! ## The list of all values -/

theorem valuesOf_cons (name bound : String) (value : Expr) (waiting : List (String × Expr)) :
    valuesOf name ((bound, value) :: waiting) =
      if bound = name then value :: valuesOf name waiting else valuesOf name waiting := by
  by_cases hbound : bound = name <;> simp [valuesOf, hbound]

theorem takeBinding_eq_none {waiting : List (String × Expr)} :
    takeBinding name waiting = none ↔ valuesOf name waiting = [] := by
  induction waiting with
  | nil => simp [takeBinding, valuesOf]
  | cons binding waiting ih =>
    rw [valuesOf_cons, takeBinding]
    by_cases hbound : binding.1 = name
    · simp [hbound]
    · simp [hbound, ih]

/-- What is taken is the latest value of the name, and the other values still wait. -/
theorem valuesOf_of_takeBinding {waiting others : List (String × Expr)} {value : Expr}
    (h : takeBinding name waiting = some (value, others)) :
    valuesOf name waiting = value :: valuesOf name others ∧
      ∀ other, other ≠ name → valuesOf other others = valuesOf other waiting := by
  induction waiting generalizing others with
  | nil => cases h
  | cons binding waiting ih =>
    rw [takeBinding] at h
    split at h
    next hbound =>
      cases h
      refine ⟨by rw [valuesOf_cons, if_pos hbound], fun other hother => ?_⟩
      rw [valuesOf_cons, if_neg fun heq => hother (heq.symm.trans hbound)]
    next hbound =>
      obtain ⟨⟨_, others⟩, htaken, heq⟩ := Option.map_eq_some_iff.mp h
      cases heq
      obtain ⟨hname, hothers⟩ := ih htaken
      refine ⟨?_, fun other hother => ?_⟩
      · rw [valuesOf_cons, valuesOf_cons, if_neg hbound, if_neg hbound, hname]
      · rw [valuesOf_cons, valuesOf_cons, hothers other hother]

theorem exists_takeBinding {waiting : List (String × Expr)} {value : Expr} {values : List Expr}
    (h : valuesOf name waiting = value :: values) :
    ∃ others, takeBinding name waiting = some (value, others) := by
  cases htaken : takeBinding name waiting with
  | none => cases h.symm.trans (takeBinding_eq_none.mp htaken)
  | some taken =>
    obtain ⟨found, others⟩ := taken
    cases h.symm.trans (valuesOf_of_takeBinding htaken).1
    exact ⟨others, rfl⟩

section InTurn

variable {waiting : List (String × Expr)} {marks : List Mark} {value : Expr}

theorem inTurn_nil : InTurn waiting [] :=
  fun _ => ⟨_, .done⟩

theorem inTurn_text {s : String} : InTurn waiting (.text s :: marks) ↔ InTurn waiting marks := by
  simp [InTurn, Mark.signal?]

theorem inTurn_stated : InTurn waiting (.stated name value :: marks) ↔ InTurn waiting marks := by
  simp [InTurn, Mark.signal?]

theorem inTurn_held :
    InTurn waiting (.held name value :: marks) ↔ InTurn ((name, value) :: waiting) marks := by
  refine forall_congr' fun other => ?_
  rw [valuesOf_cons, signals_cons, Mark.signal?]
  split
  next => simp [leads_held]
  next => simp

/-- The values of one name are looked at by themselves. -/
theorem inTurn_at (name : String) :
    InTurn waiting marks ↔
      (∃ left, Leads (valuesOf name waiting) (signals name marks) left) ∧
        ∀ other, other ≠ name →
          ∃ left, Leads (valuesOf other waiting) (signals other marks) left := by
  constructor
  · exact fun h => ⟨h name, fun other _ => h other⟩
  · rintro ⟨hname, hothers⟩ other
    by_cases hne : other = name
    · exact hne ▸ hname
    · exact hothers other hne

theorem inTurn_cons {mark : Mark} {signal : Signal} (hname : mark.signal? name = some signal)
    (hother : ∀ other, other ≠ name → mark.signal? other = none) :
    InTurn waiting (mark :: marks) ↔
      (∃ left, Leads (valuesOf name waiting) (signal :: signals name marks) left) ∧
        ∀ other, other ≠ name →
          ∃ left, Leads (valuesOf other waiting) (signals other marks) left := by
  rw [inTurn_at name, signals_cons, hname]
  refine and_congr Iff.rfl (forall₂_congr fun other hne => ?_)
  rw [signals_cons, hother other hne]
  rfl

/-- A parameter is written by its name if no value waits for it. -/
theorem inTurn_param {isOpen : Bool} :
    InTurn waiting (.param name isOpen :: marks) ↔
      takeBinding name waiting = none ∧ InTurn waiting marks := by
  have hname : (Mark.param name isOpen).signal? name = some .used := if_pos rfl
  rw [inTurn_cons hname fun other hne => if_neg hne.symm, takeBinding_eq_none, inTurn_at name]
  constructor
  · rintro ⟨⟨left, h⟩, hothers⟩
    obtain ⟨hnone, hrest⟩ := leads_used.mp h
    exact ⟨hnone, ⟨left, hnone ▸ hrest⟩, hothers⟩
  · rintro ⟨hnone, ⟨left, hrest⟩, hothers⟩
    exact ⟨⟨left, leads_used.mpr ⟨hnone, hnone ▸ hrest⟩⟩, hothers⟩

/-- A value is assigned if it is the one that is taken. -/
theorem inTurn_assigned :
    InTurn waiting (.assigned name value :: marks) ↔
      ∃ others, takeBinding name waiting = some (value, others) ∧ InTurn others marks := by
  have hname : (Mark.assigned name value).signal? name = some (.assigned value) := if_pos rfl
  rw [inTurn_cons hname fun other hne => if_neg hne.symm]
  constructor
  · rintro ⟨⟨left, h⟩, hrest⟩
    obtain ⟨values, hvalues, h⟩ := leads_assigned.mp h
    obtain ⟨others, htaken⟩ := exists_takeBinding hvalues
    obtain ⟨hlatest, hothers⟩ := valuesOf_of_takeBinding htaken
    cases hvalues.symm.trans hlatest
    refine ⟨others, htaken, (inTurn_at name).mpr ⟨⟨left, h⟩, fun other hne => ?_⟩⟩
    rw [hothers other hne]
    exact hrest other hne
  · rintro ⟨others, htaken, h⟩
    obtain ⟨⟨left, hname⟩, hrest⟩ := (inTurn_at name).mp h
    obtain ⟨hlatest, hothers⟩ := valuesOf_of_takeBinding htaken
    refine ⟨⟨left, leads_assigned.mpr ⟨_, hlatest, hname⟩⟩, fun other hne => ?_⟩
    rw [← hothers other hne]
    exact hrest other hne

end InTurn

end NullGuard.Expr
