import Mathlib
import NullGuard.Guard.FreshNames

/-! # Fresh names

The names of the sequence differ from each other, so a search among more positions than there are
taken names finds a free one. -/

namespace NullGuard.FreshNames

/-! ## The sequence of names -/

theorem toString_injective {a b : Nat} (h : toString a = toString b) : a = b := by
  have hdigits : Nat.toDigits 10 a = Nat.toDigits 10 b := by
    simpa using congrArg String.toList h
  rw [← Nat.ofDigitChars_ten_toDigits (n := a), hdigits, Nat.ofDigitChars_ten_toDigits]

/-- The digits of a round, none in the first one. -/
def roundText (round : Nat) : String :=
  if round = 0 then "" else toString round

theorem roundText_injective {a b : Nat} (h : roundText a = roundText b) : a = b := by
  have hne : ∀ n : Nat, toString n ≠ "" := by
    intro n hn
    have hdigits : Nat.toDigits 10 n = [] := by simpa using congrArg String.toList hn
    exact Nat.toDigits_ne_nil hdigits
  unfold roundText at h
  split at h <;> split at h
  · omega
  · exact absurd h.symm (hne b)
  · exact absurd h (hne a)
  · exact toString_injective h

theorem toList_nameAt (position : Nat) :
    (nameAt position).toList =
      '_' :: Char.ofNat ('a'.toNat + position % 26) :: (roundText (position / 26)).toList := by
  by_cases hround : position / 26 = 0
  · simp only [nameAt, roundText, hround, if_true]
    simp
  · simp only [nameAt, roundText, hround, if_false]
    simp

theorem letter_injective {a b : Nat} (ha : a < 26) (hb : b < 26)
    (h : Char.ofNat ('a'.toNat + a) = Char.ofNat ('a'.toNat + b)) : a = b := by
  have hletters : ∀ a < 26, (Char.ofNat ('a'.toNat + a)).toNat = 'a'.toNat + a := by decide
  have := congrArg Char.toNat h
  rw [hletters a ha, hletters b hb] at this
  omega

theorem nameAt_injective {a b : Nat} (h : nameAt a = nameAt b) : a = b := by
  have hlist := congrArg String.toList h
  rw [toList_nameAt, toList_nameAt] at hlist
  simp only [List.cons.injEq, true_and, String.toList_inj] at hlist
  have hletter := letter_injective (by omega) (by omega) hlist.1
  have hround := roundText_injective hlist.2
  omega

/-! ## The search for a free name -/

/-- The search stops at the first free position, or behind all positions that it may look at. -/
theorem firstFree_spec (taken : List String) (position count : Nat) :
    ∃ skipped ≤ count, firstFree taken position count = position + skipped ∧
      (∀ i < skipped, nameAt (position + i) ∈ taken) ∧
      (skipped < count → nameAt (position + skipped) ∉ taken) := by
  induction count generalizing position with
  | zero => exact ⟨0, Nat.le_refl 0, rfl, by simp, by simp⟩
  | succ count ih =>
    rw [firstFree]
    by_cases htaken : nameAt position ∈ taken
    · obtain ⟨skipped, hle, heq, hbefore, hfree⟩ := ih (position + 1)
      refine ⟨skipped + 1, by omega, ?_, ?_, ?_⟩
      · simp [htaken, heq]
        omega
      · intro i hi
        cases i with
        | zero => exact htaken
        | succ i =>
          have := hbefore i (by omega)
          rwa [show position + (i + 1) = position + 1 + i by omega]
      · intro hlt
        rw [show position + (skipped + 1) = position + 1 + skipped by omega]
        exact hfree (by omega)
    · exact ⟨0, by omega, by simp [htaken], by simp, fun _ => htaken⟩

/-- Names at different positions differ, so a list has at most as many of them as its length. -/
theorem le_length_of_nameAt_mem {taken : List String} {position count : Nat}
    (h : ∀ i < count, nameAt (position + i) ∈ taken) : count ≤ taken.length := by
  have hnodup : ((List.range count).map fun i => nameAt (position + i)).Nodup := by
    apply List.Nodup.map _ List.nodup_range
    intro i j hij
    have := nameAt_injective hij
    omega
  have hsubset : ((List.range count).map fun i => nameAt (position + i)) ⊆ taken := by
    intro name hname
    obtain ⟨i, hi, rfl⟩ := List.mem_map.mp hname
    exact h i (List.mem_range.mp hi)
  simpa using (List.subperm_of_subset hnodup hsubset).length_le

/-- Among more positions than taken names the search finds a free one. -/
theorem nameAt_firstFree_not_mem (taken : List String) (position : Nat) :
    nameAt (firstFree taken position taken.length) ∉ taken := by
  obtain ⟨skipped, hle, heq, hbefore, hfree⟩ := firstFree_spec taken position taken.length
  rw [heq]
  by_cases hlt : skipped < taken.length
  · exact hfree hlt
  · intro hmem
    have hall : ∀ i < skipped + 1, nameAt (position + i) ∈ taken := by
      intro i hi
      rcases Nat.lt_succ_iff_lt_or_eq.mp hi with hi | rfl
      · exact hbefore i hi
      · exact hmem
    have := le_length_of_nameAt_mem hall
    omega

theorem fresh_not_mem (names : FreshNames) : names.fresh.1 ∉ names.taken :=
  nameAt_firstFree_not_mem names.taken names.next

theorem taken_fresh (names : FreshNames) : names.fresh.2.taken = names.fresh.1 :: names.taken :=
  rfl

end NullGuard.FreshNames
