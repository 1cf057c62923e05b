import NullGuard.Ty.Equality

/-!
The catalogue of the types made so far. Each composed type gets a number of its own when it
first comes in and keeps it; built-in types have reserved numbers and are never entered.
-/

namespace NullGuard

/-- The number of steps from a type to its first part, that part's first part and so on. -/
def Ty.spine : Ty → Nat
  | .nullable underlying => underlying.spine + 1
  | .array element => element.spine + 1
  | .named _ (arg :: _) => arg.spine + 1
  | .named _ [] | .unknown _ | .intrinsic _ | .param _ => 0

namespace Catalogue

/-- A type with the length of its spine, by which most types are told apart at once. -/
structure Entry where
  ty : Ty
  spine : Nat
  spine_eq : spine = ty.spine

def Entry.of (ty : Ty) : Entry :=
  ⟨ty, ty.spine, rfl⟩

end Catalogue

/-- The entries in the order in which they have come in. -/
structure Catalogue where
  entries : List Catalogue.Entry
  nodup : (entries.map (·.ty)).Nodup

namespace Catalogue

def empty : Catalogue := ⟨[], .nil⟩

instance : Inhabited Catalogue := ⟨empty⟩

def size (catalogue : Catalogue) : Nat :=
  catalogue.entries.length

/-- The types that have been entered. -/
def types (catalogue : Catalogue) : List Ty :=
  catalogue.entries.map (·.ty)

def contains (catalogue : Catalogue) (ty : Ty) : Bool :=
  let spine := ty.spine
  catalogue.entries.any fun entry => entry.spine = spine && entry.ty = ty

@[simp]
theorem contains_eq_true_iff {catalogue : Catalogue} {ty : Ty} :
    catalogue.contains ty = true ↔ ty ∈ catalogue.types := by
  simp only [contains, types, List.any_eq_true, List.mem_map, Bool.and_eq_true, decide_eq_true_eq]
  refine exists_congr fun entry => and_congr_right fun _ => ?_
  exact ⟨And.right, fun h => ⟨h ▸ entry.spine_eq, h⟩⟩

/-- Only a composed type is entered, and only once. -/
def enter (catalogue : Catalogue) : Ty → Catalogue
  | .unknown _ | .intrinsic _ => catalogue
  | ty =>
    if h : catalogue.contains ty then catalogue
    else ⟨catalogue.entries ++ [.of ty], by
      rw [List.map_append, List.nodup_append]
      refine ⟨catalogue.nodup, by simp, ?_⟩
      rintro a ha b hb rfl
      obtain rfl : a = ty := by simpa [Entry.of] using hb
      exact h (contains_eq_true_iff.mpr ha)⟩

mutual

/-- Enters a type and all that it is made of, parts first. A type that is there is not taken apart
again, because its parts came in before it. -/
def record (catalogue : Catalogue) (ty : Ty) : Catalogue :=
  if catalogue.contains ty then catalogue
  else match ty with
    | .nullable underlying => (catalogue.record underlying).enter (.nullable underlying)
    | .array element => (catalogue.record element).enter (.array element)
    | .named definition args => (catalogue.recordAll args).enter (.named definition args)
    | ty => catalogue.enter ty

def recordAll (catalogue : Catalogue) : List Ty → Catalogue
  | [] => catalogue
  | ty :: tys => (catalogue.record ty).recordAll tys

end

end Catalogue

end NullGuard
