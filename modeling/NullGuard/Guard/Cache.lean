import NullGuard.Guard.Fallback

/-!
Remembered fallbacks. The answer for a type, also that it has none, is kept from the first time
that it is asked for.
-/

namespace NullGuard

/-- The latest entry comes first. -/
structure FallbackCache where
  entries : List (Ty × Option Expr)
  hits : Nat
  misses : Nat
  deriving Inhabited

namespace FallbackCache

def empty : FallbackCache := ⟨[], 0, 0⟩

def size (cache : FallbackCache) : Nat :=
  cache.entries.length

/-- What is remembered for a type: nothing, that it has no fallback, or its fallback. -/
def get? (cache : FallbackCache) (ty : Ty) : Option (Option Expr) :=
  cache.entries.lookup ty

/-- The fallback of a type, worked out if it is not remembered. -/
def fallback? (cache : FallbackCache) (defs : Definitions) (ty : Ty) :
    Option Expr × FallbackCache :=
  match cache.get? ty with
  | some known => (known, { cache with hits := cache.hits + 1 })
  | none =>
    let found := NullGuard.fallback? defs ty
    (found, { cache with entries := (ty, found) :: cache.entries, misses := cache.misses + 1 })

/-- The types that came into a cache since an earlier state of it, the latest first. -/
def newSince (cache earlier : FallbackCache) : List Ty :=
  (cache.entries.take (cache.size - earlier.size)).map (·.1)

end FallbackCache

end NullGuard
