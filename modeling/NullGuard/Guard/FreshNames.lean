import NullGuard.Expr.Children

/-!
Names for the variables of guards: `_a` to `_z`, then `_a1` to `_z1`, `_a2` and so on, without
those that are taken.
-/

namespace NullGuard

/-- `next` is the position in the sequence of names from which the search goes on. -/
structure FreshNames where
  taken : List String
  next : Nat
  deriving Inhabited

namespace FreshNames

/-- The name at a position of the sequence. -/
def nameAt (position : Nat) : String :=
  let letter := String.singleton (Char.ofNat ('a'.toNat + position % 26))
  let round := position / 26
  if round = 0 then "_" ++ letter else "_" ++ letter ++ toString round

/-- Takes all names that the expression uses, bound or not. -/
def reserving (e : Expr) : FreshNames :=
  ⟨e.names, 0⟩

/-- The first position from `position` on whose name is not taken, if one of the next `count`
positions or the one after them has it. -/
def firstFree (taken : List String) (position : Nat) : Nat → Nat
  | 0 => position
  | count + 1 =>
    if taken.contains (nameAt position) then firstFree taken (position + 1) count else position

/-- The next free name, which is then taken. Among more positions than taken names one is free. -/
def fresh (names : FreshNames) : String × FreshNames :=
  let position := firstFree names.taken names.next names.taken.length
  (nameAt position, ⟨nameAt position :: names.taken, position + 1⟩)

/-- The next `count` free names in order. -/
def freshMany (names : FreshNames) : Nat → List String × FreshNames
  | 0 => ([], names)
  | count + 1 =>
    let (name, names) := names.fresh
    let (rest, names) := names.freshMany count
    (name :: rest, names)

end FreshNames

end NullGuard
