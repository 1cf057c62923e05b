import NullGuard.Eval.Value

/-! # Environments -/

namespace NullGuard

namespace Env

theorem lookup_filter_ne (env : Env) {name other : String} (h : other ≠ name) :
    (env.filter fun binding => binding.1 ≠ name).lookup other = env.lookup other := by
  induction env with
  | nil => rfl
  | cons binding env ih =>
    obtain ⟨key, value⟩ := binding
    by_cases hkey : key = name
    · have hother : (other == key) = false := by simpa [hkey] using h
      rw [List.filter_cons_of_neg (by simpa using hkey), ih, List.lookup_cons, hother]
    · rw [List.filter_cons_of_pos (by simpa using hkey), List.lookup_cons, List.lookup_cons, ih]

theorem lookup_insert_self (env : Env) (name : String) (value : Value) :
    List.lookup name (env.insert name value) = some value := by
  simp [Env.insert]

theorem lookup_insert_of_ne (env : Env) {name other : String} (h : other ≠ name) (value : Value) :
    List.lookup other (env.insert name value) = List.lookup other env := by
  have hother : (other == name) = false := by simpa using h
  rw [Env.insert, List.lookup_cons, hother]
  exact lookup_filter_ne env h

/-- The bindings that the body of a closure runs under. -/
def insertAll (env : Env) (params : List Param) (args : List Value) : Env :=
  (params.zip args).foldl (fun env pair => env.insert pair.1.name pair.2) env

theorem insertAll_cons (env : Env) (param : Param) (params : List Param) (arg : Value)
    (args : List Value) :
    env.insertAll (param :: params) (arg :: args) =
      (env.insert param.name arg).insertAll params args :=
  rfl

theorem lookup_insertAll_of_not_mem (env : Env) {params : List Param} (args : List Value)
    {name : String} (h : name ∉ params.map (·.name)) :
    List.lookup name (env.insertAll params args) = List.lookup name env := by
  induction params generalizing env args with
  | nil => rfl
  | cons param params ih =>
    cases args with
    | nil => rfl
    | cons arg args =>
      simp only [List.map_cons, List.mem_cons, not_or] at h
      rw [insertAll_cons, ih _ _ h.2, lookup_insert_of_ne env h.1]

/-! ## Values that are bound -/

/-- All values that are bound satisfy `P`. -/
def All (P : Value → Prop) (env : Env) : Prop :=
  ∀ binding ∈ env, P binding.2

variable {P : Value → Prop} {env env' : Env}

theorem All.of_lookup (h : All P env) {name : String} {value : Value}
    (hvalue : List.lookup name env = some value) : P value := by
  obtain ⟨first, rest, rfl, _⟩ := List.lookup_eq_some_iff.mp hvalue
  exact h (name, value) (by simp)

theorem All.insert (h : All P env) (name : String) {value : Value} (hvalue : P value) :
    All P (env.insert name value) := by
  intro binding hbinding
  rcases List.mem_cons.mp hbinding with rfl | hbinding
  · exact hvalue
  · exact h binding (List.mem_filter.mp hbinding).1

theorem All.insertAll (h : All P env) (params : List Param) {args : List Value}
    (hargs : ∀ arg ∈ args, P arg) : All P (env.insertAll params args) := by
  induction params generalizing env args with
  | nil => exact h
  | cons param params ih =>
    cases args with
    | nil => exact h
    | cons arg args =>
      rw [List.forall_mem_cons] at hargs
      exact ih (h.insert param.name hargs.1) hargs.2

/-! ## Environments that bind some names alike -/

/-- Both environments bind these names alike. -/
def AgreeOn (names : List String) (env env' : Env) : Prop :=
  ∀ name ∈ names, List.lookup name env' = List.lookup name env

variable {names names' : List String}

theorem AgreeOn.refl (names : List String) (env : Env) : AgreeOn names env env :=
  fun _ _ => rfl

theorem AgreeOn.mono (h : AgreeOn names env env') (hnames : names' ⊆ names) :
    AgreeOn names' env env' :=
  fun name hname => h name (hnames hname)

theorem AgreeOn.insert (h : AgreeOn names env env') (name : String) (value : Value) :
    AgreeOn names (env.insert name value) (env'.insert name value) := by
  intro other hother
  by_cases heq : other = name
  · rw [heq, lookup_insert_self, lookup_insert_self]
  · rw [lookup_insert_of_ne _ heq, lookup_insert_of_ne _ heq, h other hother]

theorem AgreeOn.insertAll (h : AgreeOn names env env') (params : List Param) (args : List Value) :
    AgreeOn names (env.insertAll params args) (env'.insertAll params args) := by
  induction params generalizing env env' args with
  | nil => exact h
  | cons param params ih =>
    cases args with
    | nil => exact h
    | cons arg args => exact ih (h.insert param.name arg) args

/-- A name that does not occur may be bound on one side. -/
theorem AgreeOn.insert_of_not_mem (h : AgreeOn names env env') {name : String}
    (hname : name ∉ names) (value : Value) : AgreeOn names env (env'.insert name value) := by
  intro other hother
  have hne : other ≠ name := fun heq => hname (heq ▸ hother)
  rw [lookup_insert_of_ne _ hne, h other hother]

end Env

end NullGuard
