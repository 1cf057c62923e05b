import NullGuard.Eval.Builtin

/-! # Actions that do the same up to a translation

Two actions mirror each other if from translated states the second one does what the first one
does, with a translated result. Errors hold nothing that has to be translated. -/

namespace NullGuard

variable {σ ε α β γ δ : Type} {s : σ → σ} {f : α → β} {g : γ → δ}

/-! ## Actions with a state -/

def Mirrors (s : σ → σ) (f : α → β) (action : StateM σ α) (mirror : StateM σ β) : Prop :=
  ∀ state, mirror.run (s state) = (f (action.run state).1, s (action.run state).2)

namespace Mirrors

theorem pure {a : α} {b : β} (h : b = f a) : Mirrors s f (Pure.pure a) (Pure.pure b) := by
  subst h
  exact fun _ => rfl

theorem bind {action : StateM σ α} {mirror : StateM σ β} {next : α → StateM σ γ}
    {next' : β → StateM σ δ} (h : Mirrors s f action mirror)
    (hnext : ∀ a, Mirrors s g (next a) (next' (f a))) :
    Mirrors s g (action >>= next) (mirror >>= next') := by
  intro state
  change (next' (mirror.run (s state)).1).run (mirror.run (s state)).2 = _
  rw [h state]
  exact hnext _ _

theorem state : Mirrors s s (get : StateM σ σ) get :=
  fun _ => rfl

theorem update {change change' : σ → σ} (h : ∀ state, change' (s state) = s (change state)) :
    Mirrors s id (modify change) (modify change') :=
  fun state => congrArg (Prod.mk ()) (h state)

theorem anyM {items : List α} {test : α → StateM σ Bool} {test' : β → StateM σ Bool}
    (h : ∀ item ∈ items, Mirrors s id (test item) (test' (f item))) :
    Mirrors s id (items.anyM test) ((items.map f).anyM test') := by
  induction items with
  | nil => exact pure rfl
  | cons item items ih =>
    rw [List.forall_mem_cons] at h
    rw [List.map_cons, List.anyM, List.anyM]
    refine h.1.bind fun found => ?_
    cases found with
    | true => exact pure rfl
    | false => exact ih h.2

theorem findSomeM {items : List α} {find : α → StateM σ (Option γ)}
    {find' : β → StateM σ (Option δ)}
    (h : ∀ item ∈ items, Mirrors s (Option.map g) (find item) (find' (f item))) :
    Mirrors s (Option.map g) (items.findSomeM? find) ((items.map f).findSomeM? find') := by
  induction items with
  | nil => exact pure rfl
  | cons item items ih =>
    rw [List.forall_mem_cons] at h
    rw [List.map_cons, List.findSomeM?, List.findSomeM?]
    refine h.1.bind fun found => ?_
    cases found with
    | some found => exact pure rfl
    | none => exact ih h.2

end Mirrors

/-! ## Actions that may fail -/

def MirrorsExcept (s : σ → σ) (f : α → β) (action : ExceptT ε (StateM σ) α)
    (mirror : ExceptT ε (StateM σ) β) : Prop :=
  Mirrors s (Except.map f) action.run mirror.run

namespace MirrorsExcept

theorem pure {a : α} {b : β} (h : b = f a) :
    MirrorsExcept (ε := ε) s f (Pure.pure a) (Pure.pure b) :=
  Mirrors.pure (congrArg Except.ok h)

theorem throw (error : ε) :
    MirrorsExcept s f (throwThe ε error : ExceptT ε (StateM σ) α) (throwThe ε error) :=
  Mirrors.pure rfl

theorem bind {action : ExceptT ε (StateM σ) α} {mirror : ExceptT ε (StateM σ) β}
    {next : α → ExceptT ε (StateM σ) γ} {next' : β → ExceptT ε (StateM σ) δ}
    (h : MirrorsExcept s f action mirror)
    (hnext : ∀ a, MirrorsExcept s g (next a) (next' (f a))) :
    MirrorsExcept s g (action >>= next) (mirror >>= next') := by
  change Mirrors s (Except.map g) (action.run >>= ExceptT.bindCont next)
    (mirror.run >>= ExceptT.bindCont next')
  refine Mirrors.bind h fun result => ?_
  cases result with
  | error error => exact Mirrors.pure rfl
  | ok a => exact hnext a

theorem state : MirrorsExcept (ε := ε) s s get get :=
  fun _ => rfl

theorem update {change change' : σ → σ} (h : ∀ state, change' (s state) = s (change state)) :
    MirrorsExcept (ε := ε) s id (modify change) (modify change') :=
  fun state => congrArg (Prod.mk (Except.ok ())) (h state)

theorem mapM {items : List α} {run : α → ExceptT ε (StateM σ) γ}
    {run' : β → ExceptT ε (StateM σ) δ}
    (h : ∀ item ∈ items, MirrorsExcept s g (run item) (run' (f item))) :
    MirrorsExcept s (List.map g) (items.mapM run) ((items.map f).mapM run') := by
  induction items with
  | nil => exact pure rfl
  | cons item items ih =>
    rw [List.forall_mem_cons] at h
    rw [List.map_cons, List.mapM_cons, List.mapM_cons]
    exact h.1.bind fun _ => (ih h.2).bind fun _ => pure rfl

theorem foldlM {items : List α} {step : γ → α → ExceptT ε (StateM σ) γ}
    {step' : δ → β → ExceptT ε (StateM σ) δ}
    (h : ∀ total, ∀ item ∈ items, MirrorsExcept s g (step total item) (step' (g total) (f item)))
    (start : γ) :
    MirrorsExcept s g (items.foldlM step start) ((items.map f).foldlM step' (g start)) := by
  induction items generalizing start with
  | nil => exact pure rfl
  | cons item items ih =>
    rw [List.map_cons, List.foldlM_cons, List.foldlM_cons]
    exact (h start item List.mem_cons_self).bind fun total =>
      ih (fun total item hitem => h total item (List.mem_cons_of_mem _ hitem)) total

theorem keepM {items : List α} {test : α → ExceptT ε (StateM σ) Bool}
    {test' : β → ExceptT ε (StateM σ) Bool}
    (h : ∀ item ∈ items, MirrorsExcept s id (test item) (test' (f item))) :
    MirrorsExcept s (List.map f) (NullGuard.keepM test items)
      (NullGuard.keepM test' (items.map f)) := by
  induction items with
  | nil => exact pure rfl
  | cons item items ih =>
    rw [List.forall_mem_cons] at h
    refine h.1.bind fun accepted => (ih h.2).bind fun kept => ?_
    cases accepted with
    | true => exact pure rfl
    | false => exact pure rfl

end MirrorsExcept

end NullGuard
