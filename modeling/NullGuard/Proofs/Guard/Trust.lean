import NullGuard.Proofs.Guard.Insertion

/-! # Receivers that deserve their trust

The receivers of a guarded query are solid, which means that they never are null, or parameters
that are known not to be null where they stand. This needs receivers whose trust is not misplaced:
a call is trusted although it may give null. -/

namespace NullGuard

open List (Forall₂)

namespace Expr

/-- The nodes that decide whether the expression is trusted as a receiver. -/
def trustPath : Expr → List Expr
  | convert ty operand => convert ty operand :: operand.trustPath
  | coalesce ty left right => coalesce ty left right :: right.trustPath
  | e => [e]

/-- A node that may hold null by its type, and is not trusted where it could be null. -/
def isTrustworthy (defs : Definitions) (node : Expr) : Bool :=
  node.ty.canBeNull defs && match node with
    | call .. | freeCall .. | literal _ .null => false
    | construct ty _ => ty.named?.isSome
    | _ => true

def isIndex : Expr → Bool
  | index .. => true
  | _ => false

theorem isIndex_withChildren (e : Expr) (parts : List Expr) :
    (e.withChildren parts).isIndex = e.isIndex := by
  unfold withChildren
  split <;> rfl

/-- A query in which trust is never misplaced. Positions are not guarded, so there are none. -/
def IsTrustworthy (defs : Definitions) (e : Expr) : Prop :=
  e.Every fun node => node.isIndex = false ∧
    ∀ receiver ∈ node.receiver?, ∀ part ∈ receiver.trustPath, part.isTrustworthy defs = true

/-- The expressions that are never null. -/
def isSolid : Expr → Bool
  | literal _ value => match value with
    | .null => false
    | _ => true
  | construct ty _ => ty.named?.isSome
  | newArray .. => true
  | convert _ operand => operand.isSolid
  | coalesce _ _ right => right.isSolid
  | _ => false

/-- A node that never fails at null where the parameters `known` are not null. -/
def Secure (known : List String) (node : Expr) : Prop :=
  node.isIndex = false ∧ node.lacksReceiver = false ∧
    ∀ receiver, node.receiver? = some receiver →
      receiver.isSolid = true ∨ ∃ ty name, receiver = param ty name ∧ name ∈ known

theorem secure_of_isPlain {known : List String} {e : Expr} (h : e.isPlain = true) :
    e.Secure known := by
  cases e with
  | member | call | freeCall | index => cases h
  | _ => exact ⟨rfl, rfl, nofun⟩

theorem Secure.mono {known other : List String} {node : Expr} (h : node.Secure known)
    (hknown : known ⊆ other) : node.Secure other :=
  ⟨h.1, h.2.1, fun receiver hreceiver => (h.2.2 receiver hreceiver).imp_right
    fun ⟨ty, name, heq, hname⟩ => ⟨ty, name, heq, hknown hname⟩⟩

theorem secure_of_receiver? {known : List String} {node receiver : Expr}
    (h : node.receiver? = some receiver)
    (hsafe : receiver.isSolid = true ∨ ∃ ty name, receiver = param ty name ∧ name ∈ known) :
    node.Secure known := by
  refine ⟨?_, lacksReceiver_of_receiver? h, fun other hother => ?_⟩
  · obtain ⟨_, _, _, rfl⟩ | ⟨_, _, _, rfl⟩ | ⟨_, _, _, _, rfl⟩ := exists_of_receiver? h <;> rfl
  · cases h.symm.trans hother
    exact hsafe

end Expr

theorem EmptyInstance.isSolid {ty : Ty} {recipe : Expr} (h : EmptyInstance ty recipe) :
    recipe.isSolid = true := by
  cases h <;> rfl

theorem GuardedReceiver.isSolid_or {known : List String} {receiver : Expr}
    (h : GuardedReceiver known receiver) :
    receiver.isSolid = true ∨ ∃ ty name, receiver = .param ty name ∧ name ∈ known := by
  cases h with
  | alternative hrecipe => exact .inl hrecipe.isSolid
  | known hname => exact .inr ⟨_, _, rfl, hname⟩

namespace Expr

theorem mem_trustPath_self (e : Expr) : e ∈ e.trustPath := by
  cases e <;> simp [trustPath]

/-- The expressions that are safe only by their types. -/
def isJudgedByType : Expr → Bool
  | call .. | freeCall .. | literal .. | construct .. | newArray .. | convert ..
  | coalesce .. => false
  | _ => true

theorem isSafe_of_isJudgedByType {defs : Definitions} {e : Expr} (h : e.isJudgedByType = true) :
    e.isSafe defs = !e.ty.canBeNull defs := by
  cases e with
  | call | freeCall | literal | construct | newArray | convert | coalesce => cases h
  | _ => rfl

theorem isJudgedByType_withChildren (e : Expr) (parts : List Expr) :
    (e.withChildren parts).isJudgedByType = e.isJudgedByType := by
  unfold withChildren
  split <;> rfl

end Expr

theorem Seals.isJudgedByType {rules : GuardRules} {known : List String} {node r : Expr}
    (h : Seals rules known node r) (hnode : node.isJudgedByType = true) :
    r.isJudgedByType = true := by
  cases h with
  | free | kept => exact hnode
  | coalesced hreceiver =>
    obtain ⟨_, _, _, rfl⟩ | ⟨_, _, _, rfl⟩ | ⟨_, _, _, _, rfl⟩ := Expr.exists_of_receiver? hreceiver
    · rfl
    · cases hnode
    · cases hnode
  | tested | held => rfl

/-- By its type the receiver may be null, and guards have not changed the type. -/
theorem Guards.isSafe_of_isJudgedByType {rules : GuardRules} {known : List String} {e r : Expr}
    (h : Guards rules known e r) (hjudged : e.isJudgedByType = true)
    (htrust : e.isTrustworthy rules.defs = true) : r.isSafe rules.defs = false := by
  have hty := h.ty_eq
  cases h with
  | @node _ _ parts _ _ _ hseal =>
    have hr := hseal.isJudgedByType ((Expr.isJudgedByType_withChildren e parts).trans hjudged)
    simp only [Expr.isTrustworthy, Bool.and_eq_true] at htrust
    rw [Expr.isSafe_of_isJudgedByType hr, hty, htrust.1]
    rfl

/-- A guarded receiver that is safe is solid if the receiver deserved its trust. -/
theorem Guards.isSolid {rules : GuardRules} {known : List String} {e r : Expr}
    (h : Guards rules known e r)
    (htrust : ∀ part ∈ e.trustPath, part.isTrustworthy rules.defs = true)
    (hsafe : r.isSafe rules.defs = true) : r.isSolid = true := by
  induction e using Expr.induction_children generalizing known r with
  | step e ih =>
    have hself := htrust e e.mem_trustPath_self
    cases hjudged : e.isJudgedByType with
    | true =>
      rw [h.isSafe_of_isJudgedByType hjudged hself] at hsafe
      cases hsafe
    | false =>
      cases h with
      | node _ hparts hseal =>
        cases e with
        | convert ty operand =>
          rcases hparts with _ | ⟨hoperand, _ | _⟩
          obtain rfl := hseal.eq_of_receiver?_eq_none rfl
          have hsolid := ih operand (by simp [Expr.children]) hoperand
            (fun part hpart => htrust part (by simp [Expr.trustPath, hpart])) hsafe
          exact hsolid
        | coalesce ty left right =>
          rcases hparts with _ | ⟨hleft, _ | ⟨hright, _ | _⟩⟩
          obtain rfl := hseal.eq_of_receiver?_eq_none rfl
          simp only [Expr.isTrustworthy, Expr.ty, Bool.and_true] at hself
          have hsolid := ih right (by simp [Expr.children]) hright
            (fun part hpart => htrust part (by simp [Expr.trustPath, hpart]))
            (by simpa [Expr.withChildren, Expr.isSafe, hself] using hsafe)
          exact hsolid
        | literal ty value =>
          obtain rfl := hseal.eq_of_receiver?_eq_none rfl
          cases value with
          | null => simp [Expr.isTrustworthy] at hself
          | _ => rfl
        | construct ty args =>
          obtain rfl := hseal.eq_of_receiver?_eq_none rfl
          simp only [Expr.isTrustworthy, Bool.and_eq_true] at hself
          exact hself.2
        | newArray ty elements =>
          obtain rfl := hseal.eq_of_receiver?_eq_none rfl
          rfl
        | call | freeCall => simp [Expr.isTrustworthy] at hself
        | _ => cases hjudged

/-- Guards leave no node that could fail at null. -/
theorem Guards.secure {rules : GuardRules} {known : List String} {e r : Expr}
    (h : Guards rules known e r) (he : e.IsTrustworthy rules.defs) :
    r.Throughout Expr.Secure known := by
  refine h.throughout (fun _ _ _ hknown hsecure => hsecure.mono hknown) Expr.secure_of_isPlain
    (fun hreceiver hguarded => Expr.secure_of_receiver? hreceiver hguarded.isSolid_or) ?_
  refine he.mono fun node hnode known parts hcomplete hparts hsafe => ?_
  refine ⟨(Expr.isIndex_withChildren node parts).trans hnode.1,
    (Expr.lacksReceiver_withChildren (GuardsParts.length_eq hparts)).trans hcomplete,
    fun receiver hreceiver => (hsafe receiver hreceiver).imp_left fun hsafe => ?_⟩
  have hscope := Expr.changesScope_of_receiver? hreceiver
  rw [Expr.changesScope_withChildren] at hscope
  obtain ⟨_, original, horiginal, hguards⟩ :=
    exists_receiver_of_withChildren (GuardsParts.of_not_changesScope hparts hscope) hreceiver
  exact hguards.isSolid (hnode.2 original horiginal) hsafe

end NullGuard
