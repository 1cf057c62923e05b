import NullGuard.Proofs.Expr.Parts

/-! # First-order queries

Only methods run closures in a first-order query, so that no closure is its value or is compared
with another value. -/

namespace NullGuard

namespace Expr

def isLambda : Expr → Bool
  | lambda .. => true
  | _ => false

/-- Whether the node asks a value whether it is there. -/
def readsHasValue : Expr → Bool
  | member _ _ name _ => name = "HasValue"
  | _ => false

/-- Whether the node, if it asks a nullable whether it has a value, is a `bool`. -/
def typesHasValue : Expr → Bool
  | member ty target name _ =>
    !(name = "HasValue" && target.ty.underlying?.isSome) || ty = .bool
  | _ => true

/-- A query whose lambdas are all passed to methods. -/
structure PassesLambdas (e : Expr) : Prop where
  not_isLambda : e.isLambda = false
  every : e.Every fun node => ∀ part ∈ node.plainParts, part.isLambda = false

/-- A query whose lambdas are all passed to methods, and in which it is a `bool` whether a nullable
has a value. -/
structure IsFirstOrder (e : Expr) : Prop extends e.PassesLambdas where
  typesHasValue : e.Every fun node => node.typesHasValue = true

/-- A first-order query whose trace is of interest only if it does not ask whether values are
there. -/
structure IsComparable (exact : Prop) (e : Expr) : Prop extends e.IsFirstOrder where
  reads : exact → e.Every fun node => node.readsHasValue = false

theorem PassesLambdas.of_mem_children {e part : Expr} (h : e.PassesLambdas)
    (hpart : part ∈ e.children) (hlambda : part.isLambda = false) : part.PassesLambdas :=
  ⟨hlambda, h.every.of_mem_children hpart⟩

theorem PassesLambdas.of_mem_plainParts {e part : Expr} (h : e.PassesLambdas)
    (hpart : part ∈ e.plainParts) : part.PassesLambdas :=
  h.of_mem_children (List.mem_of_mem_take hpart) (h.every.here part hpart)

/-- The body of a lambda that is passed to a method. -/
theorem PassesLambdas.of_lambda {e body : Expr} {ty : Ty} {params : List Param}
    (h : e.PassesLambdas) (hpart : lambda ty params body ∈ e.children) : body.PassesLambdas :=
  have hbody : body ∈ (lambda ty params body).children := List.mem_cons_self
  ⟨(h.every.of_mem_children hpart).here body hbody,
    (h.every.of_mem_children hpart).of_mem_children hbody⟩

theorem IsComparable.of_mem_children {exact : Prop} {e part : Expr} (h : e.IsComparable exact)
    (hpart : part ∈ e.children) (hlambda : part.isLambda = false) : part.IsComparable exact :=
  ⟨⟨h.toPassesLambdas.of_mem_children hpart hlambda, h.typesHasValue.of_mem_children hpart⟩,
    fun hexact => (h.reads hexact).of_mem_children hpart⟩

theorem IsComparable.of_mem_plainParts {exact : Prop} {e part : Expr} (h : e.IsComparable exact)
    (hpart : part ∈ e.plainParts) : part.IsComparable exact :=
  h.of_mem_children (List.mem_of_mem_take hpart) (h.every.here part hpart)

/-- The body of a lambda that is passed to a method. -/
theorem IsComparable.of_lambda {exact : Prop} {e body : Expr} {ty : Ty} {params : List Param}
    (h : e.IsComparable exact) (hpart : lambda ty params body ∈ e.children) :
    body.IsComparable exact := by
  have hbody : body ∈ (lambda ty params body).children := List.mem_cons_self
  refine ⟨⟨h.toPassesLambdas.of_lambda hpart, ?_⟩, fun hexact => ?_⟩
  · exact (h.typesHasValue.of_mem_children hpart).of_mem_children hbody
  · exact ((h.reads hexact).of_mem_children hpart).of_mem_children hbody

end Expr

end NullGuard
