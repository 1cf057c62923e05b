import NullGuard.Ty.Basic

/-!
Equality of types. Arguments in place of parameters make types in which the same part stands many
times, so that a few objects in memory can be a tree too large to walk through. A comparison
therefore looks at a limited number of parts first. Where these do not decide, equal parts are
brought together in memory, after which a part that is met again is known by its address.
-/

namespace NullGuard.Ty

/-! ### Comparison in a limited number of steps -/

/-- Whether the types of each pair are equal, if `steps` pairs of parts are enough to tell. -/
def agreeWithin : Nat → List (Ty × Ty) → Option Bool
  | _, [] => some true
  | 0, _ :: _ => none
  | steps + 1, (a, b) :: pairs =>
    match a, b with
    | .unknown m, .unknown n => if m = n then agreeWithin steps pairs else some false
    | .intrinsic j, .intrinsic k => if j = k then agreeWithin steps pairs else some false
    | .nullable a, .nullable b => agreeWithin steps ((a, b) :: pairs)
    | .array a, .array b => agreeWithin steps ((a, b) :: pairs)
    | .named d as, .named e bs =>
      if d = e ∧ as.length = bs.length then agreeWithin steps (as.zip bs ++ pairs)
      else some false
    | .param m, .param n => if m = n then agreeWithin steps pairs else some false
    | _, _ => some false

/-- The types of each pair are equal. -/
def Agree (pairs : List (Ty × Ty)) : Prop :=
  ∀ pair ∈ pairs, pair.1 = pair.2

theorem agree_cons {a b : Ty} {pairs : List (Ty × Ty)} :
    Agree ((a, b) :: pairs) ↔ a = b ∧ Agree pairs := by
  simp [Agree]

theorem agree_append {pairs pairs' : List (Ty × Ty)} :
    Agree (pairs ++ pairs') ↔ Agree pairs ∧ Agree pairs' := by
  simp [Agree, or_imp, forall_and]

theorem agree_zip {as bs : List Ty} (h : as.length = bs.length) :
    Agree (as.zip bs) ↔ as = bs := by
  induction as generalizing bs with
  | nil =>
    cases bs with
    | nil => simp [Agree]
    | cons => simp at h
  | cons a as ih =>
    cases bs with
    | nil => simp at h
    | cons b bs =>
      rw [List.zip_cons_cons, agree_cons, ih (by simpa using h), List.cons.injEq]

/-- An answer is never wrong. -/
theorem agreeWithin_eq_some {steps : Nat} {pairs : List (Ty × Ty)} {answer : Bool}
    (h : agreeWithin steps pairs = some answer) : answer = true ↔ Agree pairs := by
  induction steps generalizing pairs with
  | zero =>
    cases pairs with
    | nil => simp_all [agreeWithin, Agree]
    | cons => simp [agreeWithin] at h
  | succ steps ih =>
    cases pairs with
    | nil => simp_all [agreeWithin, Agree]
    | cons pair pairs =>
      obtain ⟨a, b⟩ := pair
      rw [agree_cons]
      unfold agreeWithin at h
      split at h
      case h_3 | h_4 => simpa [agree_cons] using ih h
      case h_5 d as e bs =>
        split at h
        · rename_i hhead
          rw [ih h, agree_append, agree_zip hhead.2]
          simp [hhead.1]
        · rename_i hhead
          obtain rfl : false = answer := Option.some.inj h
          simp only [named.injEq, Bool.false_eq_true, false_iff]
          rintro ⟨⟨rfl, rfl⟩, -⟩
          exact hhead ⟨rfl, rfl⟩
      case h_7 hunknown hintrinsic hnullable harray hnamed hparam =>
        obtain rfl : false = answer := Option.some.inj h
        simp only [Bool.false_eq_true, false_iff]
        rintro ⟨rfl, -⟩
        cases a with
        | unknown number => exact hunknown _ _ rfl rfl
        | intrinsic kind => exact hintrinsic _ _ rfl rfl
        | nullable underlying => exact hnullable _ _ rfl rfl
        | array element => exact harray _ _ rfl rfl
        | named definition args => exact hnamed _ _ _ _ rfl rfl
        | param index => exact hparam _ _ rfl rfl
      all_goals
        split at h
        · simpa [*] using ih h
        · simp_all

/-! ### Comparison by address -/

mutual

/-- Compares two parts only if they are two objects in memory. -/
def decEqShared (a b : Ty) : Decidable (a = b) :=
  withPtrEqDecEq a b fun _ =>
    match a, b with
    | .unknown m, .unknown n => decidable_of_iff (m = n) (by simp)
    | .intrinsic j, .intrinsic k => decidable_of_iff (j = k) (by simp)
    | .nullable a, .nullable b =>
      have := decEqShared a b
      decidable_of_iff (a = b) (by simp)
    | .array a, .array b =>
      have := decEqShared a b
      decidable_of_iff (a = b) (by simp)
    | .named d as, .named e bs =>
      if h : d = e then
        have := decEqSharedAll as bs
        decidable_of_iff (as = bs) (by simp [h])
      else isFalse (by simp [h])
    | .param m, .param n => decidable_of_iff (m = n) (by simp)
    | .unknown _, .intrinsic _ | .unknown _, .nullable _ | .unknown _, .array _
    | .unknown _, .named .. | .unknown _, .param _ => isFalse nofun
    | .intrinsic _, .unknown _ | .intrinsic _, .nullable _ | .intrinsic _, .array _
    | .intrinsic _, .named .. | .intrinsic _, .param _ => isFalse nofun
    | .nullable _, .unknown _ | .nullable _, .intrinsic _ | .nullable _, .array _
    | .nullable _, .named .. | .nullable _, .param _ => isFalse nofun
    | .array _, .unknown _ | .array _, .intrinsic _ | .array _, .nullable _
    | .array _, .named .. | .array _, .param _ => isFalse nofun
    | .named .., .unknown _ | .named .., .intrinsic _ | .named .., .nullable _
    | .named .., .array _ | .named .., .param _ => isFalse nofun
    | .param _, .unknown _ | .param _, .intrinsic _ | .param _, .nullable _
    | .param _, .array _ | .param _, .named .. => isFalse nofun

def decEqSharedAll (as bs : List Ty) : Decidable (as = bs) :=
  match as, bs with
  | [], [] => isTrue rfl
  | a :: as, b :: bs =>
    match decEqShared a b with
    | isTrue h =>
      have := decEqSharedAll as bs
      decidable_of_iff (as = bs) (by simp [h])
    | isFalse h => isFalse (by simp [h])
  | [], _ :: _ | _ :: _, [] => isFalse nofun

end

/-- The number of parts that are compared before equal parts are brought together. -/
def quickSteps : Nat := 4096

instance : DecidableEq Ty := fun a b =>
  withPtrEqDecEq a b fun _ =>
    match h : agreeWithin quickSteps [(a, b)] with
    | some true => isTrue (agree_cons.mp ((agreeWithin_eq_some h).mp rfl)).1
    | some false => isFalse fun hab =>
        nomatch (agreeWithin_eq_some h).mpr (agree_cons.mpr ⟨hab, nofun⟩)
    | none =>
      let shared := ShareCommon.shareCommon' (a, b)
      (decEqShared shared.1 shared.2 : Decidable (a = b))

end NullGuard.Ty
