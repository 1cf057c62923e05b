import NullGuard.Expr.Text
import NullGuard.Proofs.Expr.Parts

/-! # What a text tells of its tree

Operators with two operands and conditions are in parentheses, and so is all that stands inside
them. Prefix operators are not: `-a.Value` is the text of a sign before a member and of a member of
what has a sign. A text tells everything else, which is seen by reading it from its end. -/

namespace NullGuard.Expr

/-- No character of a name means anything else in a text. -/
def isNameChar (c : Char) : Bool :=
  c ∉ [' ', '.', '(', ')', '[', ']', '!', '-']

def PlainName (name : String) : Prop :=
  name.toList ≠ [] ∧ name.toList.all isNameChar = true

instance : DecidablePred PlainName :=
  fun _ => inferInstanceAs (Decidable (_ ∧ _))

theorem PlainName.isNameChar_of_mem {name : String} {c : Char} (h : PlainName name)
    (hc : c ∈ name.toList.reverse) : isNameChar c = true :=
  List.all_eq_true.mp h.2 c (List.mem_reverse.mp hc)

/-- Trees of parameters, members, operators and conditions. -/
inductive Ordinary : Expr → Prop where
  | param {ty name} (hname : PlainName name) : Ordinary (param ty name)
  | member {ty target name declaring} (htarget : Ordinary target) (hname : PlainName name) :
      Ordinary (member ty target name declaring)
  | index {ty target position} (htarget : Ordinary target) (hposition : Ordinary position) :
      Ordinary (index ty target position)
  | unary {ty op operand} (hoperand : Ordinary operand) : Ordinary (unary ty op operand)
  | binary {ty op left right} (hleft : Ordinary left) (hright : Ordinary right) :
      Ordinary (binary ty op left right)
  | coalesce {ty left right} (hleft : Ordinary left) (hright : Ordinary right) :
      Ordinary (coalesce ty left right)
  | cond {ty test ifTrue ifFalse} (htest : Ordinary test) (hifTrue : Ordinary ifTrue)
      (hifFalse : Ordinary ifFalse) : Ordinary (cond ty test ifTrue ifFalse)

/-- The tree with one and the same type everywhere. -/
def eraseTypes : Expr → Expr
  | param _ name => param .object name
  | member _ target name _ => member .object target.eraseTypes name .object
  | index _ target position => index .object target.eraseTypes position.eraseTypes
  | unary _ op operand => unary .object op operand.eraseTypes
  | binary _ op left right => binary .object op left.eraseTypes right.eraseTypes
  | coalesce _ left right => coalesce .object left.eraseTypes right.eraseTypes
  | cond _ test ifTrue ifFalse =>
    cond .object test.eraseTypes ifTrue.eraseTypes ifFalse.eraseTypes
  | e => e

/-- Below its prefix operators an expression is replaced. -/
def underPrefixes (f : Expr → Expr) : Expr → Expr
  | unary ty op operand => unary ty op (operand.underPrefixes f)
  | e => f e

/-- The tree in which prefix operators apply to members and elements, not to what these are taken
of. -/
def hoisted : Expr → Expr
  | member ty target name declaring =>
    target.hoisted.underPrefixes fun target => member ty target name declaring
  | index ty target position =>
    target.hoisted.underPrefixes fun target => index ty target position.hoisted
  | unary ty op operand => unary ty op operand.hoisted
  | binary ty op left right => binary ty op left.hoisted right.hoisted
  | coalesce ty left right => coalesce ty left.hoisted right.hoisted
  | cond ty test ifTrue ifFalse => cond ty test.hoisted ifTrue.hoisted ifFalse.hoisted
  | e => e

/-- The text of an ordinary tree from its last character to its first. -/
def backward : Expr → List Char
  | param _ name => name.toList.reverse
  | member _ target name _ => name.toList.reverse ++ '.' :: target.backward
  | index _ target position => ']' :: (position.backward ++ '[' :: target.backward)
  | unary _ op operand => operand.backward ++ op.symbol.toList.reverse
  | binary _ op left right =>
    ')' :: (right.backward ++ ' ' :: (op.symbol.toList.reverse ++ ' ' :: (left.backward ++ ['('])))
  | coalesce _ left right =>
    ')' :: (right.backward ++ ' ' :: ("??".toList.reverse ++ ' ' :: (left.backward ++ ['('])))
  | cond _ test ifTrue ifFalse =>
    ')' :: (ifFalse.backward ++ ' ' :: (":".toList.reverse ++ ' ' :: (ifTrue.backward ++
      ' ' :: ("?".toList.reverse ++ ' ' :: (test.backward ++ ['('])))))
  | _ => []

variable {e : Expr}

theorem toList_write (h : e.Ordinary) (defs : Definitions) (rest : List Piece) :
    (String.join (write defs [] (.expr e :: rest))).toList =
      e.backward.reverse ++ (String.join (write defs [] rest)).toList := by
  induction h generalizing rest with
  | param => simp [write, takeBinding, backward]
  | member _ _ ih => simp [write, pieces, backward, ih]
  | index _ _ ih ih' => simp [write, pieces, backward, ih, ih']
  | unary _ ih => simp [write, pieces, backward, ih]
  | binary _ _ ih ih' => simp [write, pieces, backward, ih, ih']
  | coalesce _ _ ih ih' => simp [write, pieces, backward, ih, ih']
  | cond _ _ _ ih ih' ih'' => simp [write, pieces, backward, ih, ih', ih'']

theorem toList_text (h : e.Ordinary) (defs : Definitions) :
    (e.text defs).toList = e.backward.reverse := by
  rw [text, toList_write h]
  simp [write]

theorem text_eq_text_iff {e' : Expr} {defs defs' : Definitions} (h : e.Ordinary)
    (h' : e'.Ordinary) : e.text defs = e'.text defs' ↔ e.backward = e'.backward := by
  rw [← String.toList_inj, toList_text h, toList_text h', List.reverse_inj]

/-! ## Prefix operators -/

def isPrefixed : Expr → Bool
  | unary .. => true
  | _ => false

/-- What a node takes a member or an element of has no prefix operator. -/
def TakesOfNoPrefixed : Expr → Prop
  | member _ target _ _ | index _ target _ => target.isPrefixed = false
  | _ => True

instance : DecidablePred TakesOfNoPrefixed := by
  intro e
  unfold TakesOfNoPrefixed
  split <;> infer_instance

/-- The prefix operators, from the outermost inwards. -/
def prefixes : Expr → List UnaryOp
  | unary _ op operand => op :: operand.prefixes
  | _ => []

/-- What the prefix operators apply to. -/
def core : Expr → Expr
  | unary _ _ operand => operand.core
  | e => e

def letter : UnaryOp → Char
  | .not => '!'
  | .neg => '-'

/-- Prefix operators read backward. -/
def letters (ops : List UnaryOp) : List Char :=
  (ops.map letter).reverse

theorem symbol_reverse (op : UnaryOp) : op.symbol.toList.reverse = [letter op] := by
  cases op <;> rfl

theorem letters_injective : Function.Injective letters :=
  List.reverse_injective.comp (List.map_injective_iff.mpr fun op op' => by
    cases op <;> cases op' <;> decide)

theorem backward_eq_core (e : Expr) : e.backward = e.core.backward ++ letters e.prefixes := by
  induction e using Expr.core.induct with
  | case1 ty op operand ih =>
    rw [backward, ih, symbol_reverse]
    simp [core, prefixes, letters]
  | case2 e he =>
    rw [core.eq_2 e he, prefixes.eq_2 e he]
    simp [letters]

theorem eraseTypes_eq_core (e : Expr) :
    e.eraseTypes = e.prefixes.foldr (unary .object) e.core.eraseTypes := by
  induction e using Expr.core.induct with
  | case1 ty op operand ih =>
    rw [eraseTypes, ih]
    rfl
  | case2 e he => rw [core.eq_2 e he, prefixes.eq_2 e he, List.foldr_nil]

theorem Ordinary.core (h : e.Ordinary) : e.core.Ordinary := by
  induction e using Expr.core.induct with
  | case1 ty op operand ih =>
    cases h with
    | unary hoperand => exact ih hoperand
  | case2 e he => rwa [core.eq_2 e he]

theorem Every.core {P : Expr → Prop} (h : e.Every P) : e.core.Every P := by
  induction e using Expr.core.induct with
  | case1 ty op operand ih => exact ih (h.of_mem_children (by simp [children]))
  | case2 e he => rwa [core.eq_2 e he]

theorem isPrefixed_core (e : Expr) : e.core.isPrefixed = false := by
  induction e using Expr.core.induct with
  | case1 ty op operand ih => exact ih
  | case2 e he =>
    rw [core.eq_2 e he]
    cases e with
    | unary ty op operand => exact absurd rfl (he ty op operand)
    | _ => rfl

theorem core_of_not_isPrefixed (h : e.isPrefixed = false) : e.core = e ∧ e.prefixes = [] := by
  cases e with
  | unary => cases h
  | _ => exact ⟨rfl, rfl⟩

/-! ## Reading from the end -/

/-- Two texts that begin with as many characters of one kind as there are begin with the same. -/
theorem run_eq {kind : Char → Bool} {run run' rest rest' : List Char}
    (hrun : ∀ c ∈ run, kind c = true) (hrun' : ∀ c ∈ run', kind c = true)
    (hrest : ∀ c ∈ rest.head?, kind c = false) (hrest' : ∀ c ∈ rest'.head?, kind c = false)
    (h : run ++ rest = run' ++ rest') : run = run' ∧ rest = rest' := by
  induction run generalizing run' with
  | nil =>
    cases run' with
    | nil => exact ⟨rfl, h⟩
    | cons c run' =>
      obtain rfl : rest = c :: (run' ++ rest') := h
      have := hrest c rfl
      rw [hrun' c List.mem_cons_self] at this
      cases this
  | cons c run ih =>
    cases run' with
    | nil =>
      obtain rfl : c :: (run ++ rest) = rest' := h
      have := hrest' c rfl
      rw [hrun c List.mem_cons_self] at this
      cases this
    | cons c' run' =>
      simp only [List.cons_append, List.cons.injEq] at h
      obtain ⟨rfl, h⟩ := h
      obtain ⟨rfl, rfl⟩ := ih (fun c hc => hrun c (List.mem_cons_of_mem _ hc))
        (fun c hc => hrun' c (List.mem_cons_of_mem _ hc)) h
      exact ⟨rfl, rfl⟩

theorem mem_letters {ops : List UnaryOp} {c : Char} (h : c ∈ letters ops) : c = '!' ∨ c = '-' := by
  obtain ⟨op, -, rfl⟩ := List.mem_map.mp (List.mem_reverse.mp h)
  cases op
  · exact .inl rfl
  · exact .inr rfl

/-- The characters before an expression that are not prefix operators. -/
def isOpening (c : Char) : Bool :=
  c ∈ ['(', ' ', '[']

/-- Before the text of an expression nothing stands that could belong to it, but for prefix
operators. -/
def Stops (before : List Char) : Prop :=
  ∀ c ∈ before.head?, isOpening c = true ∨ c = '!' ∨ c = '-'

theorem stops_cons {c : Char} (hc : isOpening c = true) (before : List Char) :
    Stops (c :: before) := by
  intro c' hc'
  obtain rfl := Option.some.inj hc'
  exact .inl hc

theorem stops_letters {before : List Char} (h : Stops before) (ops : List UnaryOp) :
    Stops (letters ops ++ before) := by
  intro c hc
  rw [List.head?_append] at hc
  cases hhead : (letters ops).head? with
  | none =>
    rw [hhead] at hc
    exact h c hc
  | some first =>
    rw [hhead] at hc
    obtain rfl := Option.some.inj hc
    exact .inr (mem_letters (List.mem_of_head? hhead))

theorem Stops.not_isNameChar {before : List Char} (h : Stops before) :
    ∀ c ∈ before.head?, isNameChar c = false := by
  intro c hc
  rcases h c hc with hopening | rfl | rfl
  · simp only [isOpening, List.mem_cons, List.not_mem_nil, or_false, decide_eq_true_eq] at hopening
    rcases hopening with rfl | rfl | rfl <;> decide
  · decide
  · decide

theorem not_stops_dot (before : List Char) : ¬ Stops ('.' :: before) := by
  intro h
  rcases h '.' rfl with h | h | h <;> revert h <;> decide

theorem not_isNameChar_dot (before : List Char) :
    ∀ c ∈ ('.' :: before).head?, isNameChar c = false := by
  intro c hc
  obtain rfl := Option.some.inj hc
  rfl

/-- A name is told, and what stands before it. -/
theorem name_eq {name name' : String} {before before' : List Char} (hname : PlainName name)
    (hname' : PlainName name') (hbefore : ∀ c ∈ before.head?, isNameChar c = false)
    (hbefore' : ∀ c ∈ before'.head?, isNameChar c = false)
    (h : name.toList.reverse ++ before = name'.toList.reverse ++ before') :
    name = name' ∧ before = before' := by
  obtain ⟨heq, hrest⟩ := run_eq (fun _ => hname.isNameChar_of_mem)
    (fun _ => hname'.isNameChar_of_mem) hbefore hbefore' h
  exact ⟨String.toList_inj.mp (List.reverse_inj.mp heq), hrest⟩

/-- A symbol between blanks is told. -/
theorem symbol_eq {symbol symbol' : String} {before before' : List Char}
    (hsymbol : ' ' ∉ symbol.toList) (hsymbol' : ' ' ∉ symbol'.toList)
    (h : symbol.toList.reverse ++ ' ' :: before = symbol'.toList.reverse ++ ' ' :: before') :
    symbol = symbol' ∧ before = before' := by
  have hkind {symbol : String} (hsymbol : ' ' ∉ symbol.toList) (c : Char)
      (hc : c ∈ symbol.toList.reverse) : decide (c ≠ ' ') = true :=
    decide_eq_true fun heq => hsymbol (heq ▸ List.mem_reverse.mp hc)
  have hend (before : List Char) (c : Char) (hc : c ∈ (' ' :: before).head?) :
      decide (c ≠ ' ') = false := by
    obtain rfl := Option.some.inj hc
    rfl
  obtain ⟨heq, hrest⟩ := run_eq (hkind hsymbol) (hkind hsymbol') (hend before) (hend before') h
  exact ⟨String.toList_inj.mp (List.reverse_inj.mp heq), List.tail_eq_of_cons_eq hrest⟩

theorem symbol_injective : Function.Injective BinaryOp.symbol := by
  intro op op' h
  have hread (op : BinaryOp) : BinaryOp.ofSymbol? op.symbol = some op := by cases op <;> rfl
  exact Option.some.inj ((hread op).symm.trans ((congrArg _ h).trans (hread op')))

theorem blank_not_mem_symbol (op : BinaryOp) : ' ' ∉ op.symbol.toList := by
  cases op <;> decide

/-! ## Trees from texts -/

/-- An ordinary tree in which every prefix operator is as far out as its text allows. -/
structure Direct (e : Expr) : Prop where
  ordinary : e.Ordinary
  targets : e.Every TakesOfNoPrefixed

theorem Ordinary.of_mem_children {part : Expr} (h : e.Ordinary) (hpart : part ∈ e.children) :
    part.Ordinary := by
  cases h with
  | param => cases hpart
  | member htarget | unary htarget =>
    obtain rfl := List.mem_singleton.mp hpart
    exact htarget
  | index hleft hright | binary hleft hright | coalesce hleft hright =>
    simp only [children, List.mem_cons, List.not_mem_nil, or_false] at hpart
    rcases hpart with rfl | rfl
    · exact hleft
    · exact hright
  | cond htest hifTrue hifFalse =>
    simp only [children, List.mem_cons, List.not_mem_nil, or_false] at hpart
    rcases hpart with rfl | rfl | rfl
    · exact htest
    · exact hifTrue
    · exact hifFalse

theorem Direct.of_mem_children {part : Expr} (h : e.Direct) (hpart : part ∈ e.children) :
    part.Direct :=
  ⟨h.ordinary.of_mem_children hpart, h.targets.of_mem_children hpart⟩

theorem Direct.core (h : e.Direct) : e.core.Direct :=
  ⟨h.ordinary.core, h.targets.core⟩

/-- From its last character on the text tells the tree, whatever stands before it. -/
def Tells (e : Expr) : Prop :=
  ∀ ⦃e' : Expr⦄ ⦃before before' : List Char⦄, e'.Direct → Stops before → Stops before' →
    e.backward ++ before = e'.backward ++ before' →
    e.core.eraseTypes = e'.core.eraseTypes ∧
      letters e.prefixes ++ before = letters e'.prefixes ++ before'

/-- The operators of the other expression can be left to what stands before it. -/
theorem tells_of_core (he : e.isPrefixed = false)
    (h : ∀ ⦃e' : Expr⦄ ⦃before before' : List Char⦄, e'.Direct → e'.isPrefixed = false →
      Stops before → Stops before' → e.backward ++ before = e'.backward ++ before' →
      e.eraseTypes = e'.eraseTypes ∧ before = before') : Tells e := by
  intro e' before before' hdirect hbefore hbefore' heq
  rw [backward_eq_core e', List.append_assoc] at heq
  obtain ⟨hcore, hprefixes⟩ := core_of_not_isPrefixed he
  rw [hcore, hprefixes]
  exact h hdirect.core (isPrefixed_core e') hbefore (stops_letters hbefore' _) heq

/-- What has no prefix operator is told with what stands before it. -/
theorem Tells.of_not_isPrefixed {e' : Expr} {before before' : List Char} (h : e.Tells)
    (he : e.isPrefixed = false) (he' : e'.isPrefixed = false) (hdirect : e'.Direct)
    (hbefore : Stops before) (hbefore' : Stops before')
    (heq : e.backward ++ before = e'.backward ++ before') :
    e.eraseTypes = e'.eraseTypes ∧ before = before' := by
  have htold := h hdirect hbefore hbefore' heq
  rw [(core_of_not_isPrefixed he).1, (core_of_not_isPrefixed he').1,
    (core_of_not_isPrefixed he).2, (core_of_not_isPrefixed he').2] at htold
  exact htold

/-- After an opening character the whole expression is told. -/
theorem Tells.whole {e' : Expr} {c : Char} {before before' : List Char} (h : e.Tells)
    (hdirect : e'.Direct) (hc : isOpening c = true)
    (heq : e.backward ++ c :: before = e'.backward ++ c :: before') :
    e.eraseTypes = e'.eraseTypes ∧ before = before' := by
  obtain ⟨hcore, hletters⟩ := h hdirect (stops_cons hc before) (stops_cons hc before') heq
  have hkind (ops : List UnaryOp) (c' : Char) (hc' : c' ∈ letters ops) :
      (!isOpening c') = true := by
    obtain rfl | rfl := mem_letters hc' <;> decide
  have hend (before : List Char) (c' : Char) (hc' : c' ∈ (c :: before).head?) :
      (!isOpening c') = false := by
    obtain rfl := Option.some.inj hc'
    rw [hc]
    rfl
  obtain ⟨hprefixes, hrest⟩ :=
    run_eq (hkind e.prefixes) (hkind e'.prefixes) (hend before) (hend before') hletters
  refine ⟨?_, List.tail_eq_of_cons_eq hrest⟩
  rw [eraseTypes_eq_core e, eraseTypes_eq_core e', hcore, letters_injective hprefixes]

/-- The last operand of an operator is told, and the operator. -/
theorem Tells.operand {e' : Expr} {symbol symbol' : String} {before before' : List Char}
    (h : e.Tells) (hdirect : e'.Direct) (hsymbol : ' ' ∉ symbol.toList)
    (hsymbol' : ' ' ∉ symbol'.toList)
    (heq : e.backward ++ ' ' :: (symbol.toList.reverse ++ ' ' :: before) =
      e'.backward ++ ' ' :: (symbol'.toList.reverse ++ ' ' :: before')) :
    e.eraseTypes = e'.eraseTypes ∧ symbol = symbol' ∧ before = before' := by
  obtain ⟨hoperand, hrest⟩ := h.whole hdirect rfl heq
  exact ⟨hoperand, symbol_eq hsymbol hsymbol' hrest⟩

def endsInName : Expr → Bool
  | param .. | member .. => true
  | _ => false

theorem exists_backward_eq_cons (h : e.Ordinary) (he : e.isPrefixed = false) :
    ∃ c rest, e.backward = c :: rest ∧ isNameChar c = e.endsInName := by
  have hlast {name : String} (hname : PlainName name) :
      ∃ c rest, name.toList.reverse = c :: rest ∧ isNameChar c = true := by
    obtain ⟨c, rest, hrest⟩ := List.exists_cons_of_ne_nil (List.reverse_ne_nil_iff.mpr hname.1)
    exact ⟨c, rest, hrest, hname.isNameChar_of_mem (hrest ▸ List.mem_cons_self)⟩
  cases h with
  | param hname => exact hlast hname
  | member _ hname =>
    obtain ⟨c, rest, hrest, hc⟩ := hlast hname
    exact ⟨c, _, by rw [backward, hrest]; rfl, hc⟩
  | unary => cases he
  | _ => exact ⟨_, _, rfl, rfl⟩

theorem endsInName_eq {e' : Expr} {before before' : List Char} (h : e.Ordinary)
    (he : e.isPrefixed = false) (h' : e'.Ordinary) (he' : e'.isPrefixed = false)
    (heq : e.backward ++ before = e'.backward ++ before') : e.endsInName = e'.endsInName := by
  obtain ⟨c, rest, hrest, hc⟩ := exists_backward_eq_cons h he
  obtain ⟨c', rest', hrest', hc'⟩ := exists_backward_eq_cons h' he'
  rw [hrest, hrest'] at heq
  obtain rfl : c = c' := (List.cons.inj heq).1
  exact hc.symm.trans hc'

/-- A node in parentheses with its last operand, the symbol before it, and the rest up to the
opening parenthesis. -/
inductive Closes : Expr → Expr → String → List Char → Prop where
  | binary {ty op left right} :
      Closes (binary ty op left right) right op.symbol (left.backward ++ ['('])
  | coalesce {ty left right} : Closes (coalesce ty left right) right "??" (left.backward ++ ['('])
  | cond {ty test ifTrue ifFalse} : Closes (cond ty test ifTrue ifFalse) ifFalse ":"
      (ifTrue.backward ++ ' ' :: ("?".toList.reverse ++ ' ' :: (test.backward ++ ['('])))

theorem Closes.backward_eq {e last : Expr} {symbol : String} {front : List Char}
    (h : Closes e last symbol front) :
    e.backward = ')' :: (last.backward ++ ' ' :: (symbol.toList.reverse ++ ' ' :: front)) := by
  cases h <;> rfl

theorem Closes.blank_not_mem {e last : Expr} {symbol : String} {front : List Char}
    (h : Closes e last symbol front) : ' ' ∉ symbol.toList := by
  cases h with
  | binary => exact blank_not_mem_symbol _
  | coalesce | cond => decide

theorem Closes.mem_children {e last : Expr} {symbol : String} {front : List Char}
    (h : Closes e last symbol front) : last ∈ e.children := by
  cases h <;> simp [children]

/-- A closing parenthesis tells that there is an operator, and its symbol and last operand. -/
theorem Closes.told {e e' last : Expr} {symbol : String} {front before before' : List Char}
    (hcloses : Closes e last symbol front) (hlast : last.Tells) (h : e.Direct) (h' : e'.Direct)
    (he' : e'.isPrefixed = false) (heq : e.backward ++ before = e'.backward ++ before') :
    ∃ last' symbol' front', Closes e' last' symbol' front' ∧ last.eraseTypes = last'.eraseTypes ∧
      symbol = symbol' ∧ front ++ before = front' ++ before' := by
  have hkind := endsInName_eq h.ordinary (by cases hcloses <;> rfl) h'.ordinary he' heq
  have hcloses' : ∃ last' symbol' front', Closes e' last' symbol' front' := by
    cases h'.ordinary with
    | param | member => cases hcloses <;> cases hkind
    | unary => cases he'
    | index =>
      rw [hcloses.backward_eq] at heq
      simp [backward] at heq
    | binary => exact ⟨_, _, _, .binary⟩
    | coalesce => exact ⟨_, _, _, .coalesce⟩
    | cond => exact ⟨_, _, _, .cond⟩
  obtain ⟨last', symbol', front', hcloses'⟩ := hcloses'
  rw [hcloses.backward_eq, hcloses'.backward_eq] at heq
  simp only [List.append_assoc, List.cons_append, List.cons.injEq, true_and] at heq
  exact ⟨last', symbol', front', hcloses', hlast.operand (h'.of_mem_children hcloses'.mem_children)
    hcloses.blank_not_mem hcloses'.blank_not_mem heq⟩

section Nodes

variable {ty declaring : Ty} {name : String} {op : UnaryOp} {infixOp : BinaryOp}
  {target position operand left right test ifTrue ifFalse : Expr}

theorem Direct.of_param (h : (param ty name).Direct) : PlainName name := by
  cases h.ordinary with
  | param hname => exact hname

theorem Direct.of_member (h : (member ty target name declaring).Direct) :
    target.Direct ∧ target.isPrefixed = false ∧ PlainName name := by
  cases h.ordinary with
  | member htarget hname => exact ⟨h.of_mem_children (by simp [children]), h.targets.here, hname⟩

theorem tells_unary (hoperand : operand.Tells) : (unary ty op operand).Tells := by
  intro e' before before' h' hbefore hbefore' heq
  rw [backward, symbol_reverse, List.append_assoc] at heq
  have hstops : Stops (letters [op] ++ before) := stops_letters hbefore [op]
  have htold := hoperand h' hstops hbefore' heq
  simpa [core, prefixes, letters] using htold

theorem tells_param (h : (param ty name).Direct) : (param ty name).Tells := by
  refine tells_of_core rfl fun e' before before' h' he' hbefore hbefore' heq => ?_
  have hkind := endsInName_eq h.ordinary rfl h'.ordinary he' heq
  cases e' with
  | param ty' name' =>
    obtain ⟨rfl, rfl⟩ :=
      name_eq h.of_param h'.of_param hbefore.not_isNameChar hbefore'.not_isNameChar heq
    exact ⟨rfl, rfl⟩
  | member ty' target' name' declaring' =>
    obtain ⟨-, -, hname'⟩ := h'.of_member
    simp only [backward, List.append_assoc, List.cons_append] at heq
    obtain ⟨-, rfl⟩ := name_eq h.of_param hname' hbefore.not_isNameChar (not_isNameChar_dot _) heq
    exact absurd hbefore (not_stops_dot _)
  | _ => cases hkind

theorem tells_member (h : (member ty target name declaring).Direct) (htarget : target.Tells) :
    (member ty target name declaring).Tells := by
  obtain ⟨-, hprefixed, hname⟩ := h.of_member
  refine tells_of_core rfl fun e' before before' h' he' hbefore hbefore' heq => ?_
  have hkind := endsInName_eq h.ordinary rfl h'.ordinary he' heq
  cases e' with
  | param ty' name' =>
    simp only [backward, List.append_assoc, List.cons_append] at heq
    obtain ⟨-, rfl⟩ := name_eq hname h'.of_param (not_isNameChar_dot _) hbefore'.not_isNameChar heq
    exact absurd hbefore' (not_stops_dot _)
  | member ty' target' name' declaring' =>
    obtain ⟨hdirect', hprefixed', hname'⟩ := h'.of_member
    simp only [backward, List.append_assoc, List.cons_append] at heq
    obtain ⟨rfl, hrest⟩ := name_eq hname hname' (not_isNameChar_dot _) (not_isNameChar_dot _) heq
    obtain ⟨htold, rfl⟩ := htarget.of_not_isPrefixed hprefixed hprefixed' hdirect' hbefore hbefore'
      (List.tail_eq_of_cons_eq hrest)
    exact ⟨by rw [eraseTypes, eraseTypes, htold], rfl⟩
  | _ => cases hkind

theorem tells_index (h : (index ty target position).Direct) (htarget : target.Tells)
    (hposition : position.Tells) : (index ty target position).Tells := by
  refine tells_of_core rfl fun e' before before' h' he' hbefore hbefore' heq => ?_
  have hkind := endsInName_eq h.ordinary rfl h'.ordinary he' heq
  cases h'.ordinary with
  | @index ty' target' position' =>
    simp only [backward, List.append_assoc, List.cons_append, List.cons.injEq, true_and] at heq
    obtain ⟨htold, hrest⟩ :=
      hposition.whole (h'.of_mem_children (by simp [children])) rfl heq
    obtain ⟨htold', rfl⟩ := htarget.of_not_isPrefixed h.targets.here h'.targets.here
      (h'.of_mem_children (by simp [children])) hbefore hbefore' hrest
    exact ⟨by rw [eraseTypes, eraseTypes, htold, htold'], rfl⟩
  | param | member => cases hkind
  | unary => cases he'
  | _ => simp [backward] at heq

theorem tells_binary (h : (binary ty infixOp left right).Direct) (hleft : left.Tells)
    (hright : right.Tells) : (binary ty infixOp left right).Tells := by
  refine tells_of_core rfl fun e' before before' h' he' _ _ heq => ?_
  obtain ⟨last', symbol', front', hcloses', htold, hsymbol, hrest⟩ :=
    Closes.binary.told hright h h' he' heq
  cases hcloses' with
  | binary =>
    simp only [List.append_assoc, List.cons_append, List.nil_append] at hrest
    obtain ⟨htold', hrest⟩ := hleft.whole (h'.of_mem_children (by simp [children])) rfl hrest
    exact ⟨by rw [eraseTypes, eraseTypes, htold, htold', symbol_injective hsymbol], hrest⟩
  | coalesce | cond => exact absurd hsymbol (by cases infixOp <;> decide)

theorem tells_coalesce (h : (coalesce ty left right).Direct) (hleft : left.Tells)
    (hright : right.Tells) : (coalesce ty left right).Tells := by
  refine tells_of_core rfl fun e' before before' h' he' _ _ heq => ?_
  obtain ⟨last', symbol', front', hcloses', htold, hsymbol, hrest⟩ :=
    Closes.coalesce.told hright h h' he' heq
  cases hcloses' with
  | coalesce =>
    simp only [List.append_assoc, List.cons_append, List.nil_append] at hrest
    obtain ⟨htold', hrest⟩ := hleft.whole (h'.of_mem_children (by simp [children])) rfl hrest
    exact ⟨by rw [eraseTypes, eraseTypes, htold, htold'], hrest⟩
  | @binary _ op => exact absurd hsymbol (by cases op <;> decide)
  | cond => exact absurd hsymbol (by decide)

theorem tells_cond (h : (cond ty test ifTrue ifFalse).Direct) (htest : test.Tells)
    (hifTrue : ifTrue.Tells) (hifFalse : ifFalse.Tells) : (cond ty test ifTrue ifFalse).Tells := by
  refine tells_of_core rfl fun e' before before' h' he' _ _ heq => ?_
  obtain ⟨last', symbol', front', hcloses', htold, hsymbol, hrest⟩ :=
    Closes.cond.told hifFalse h h' he' heq
  cases hcloses' with
  | cond =>
    simp only [List.append_assoc, List.cons_append, List.nil_append] at hrest
    obtain ⟨htold', -, hrest⟩ := hifTrue.operand (h'.of_mem_children (by simp [children]))
      (by decide) (by decide) hrest
    obtain ⟨htold'', hrest⟩ := htest.whole (h'.of_mem_children (by simp [children])) rfl hrest
    exact ⟨by rw [eraseTypes, eraseTypes, htold, htold', htold''], hrest⟩
  | @binary _ op => exact absurd hsymbol (by cases op <;> decide)
  | coalesce => exact absurd hsymbol (by decide)

end Nodes

/-- The text of a direct tree tells the tree. -/
theorem Direct.tells (h : e.Direct) : e.Tells := by
  induction e using Expr.induction_children with
  | step e ih =>
    replace ih (part : Expr) (hpart : part ∈ e.children) : part.Tells :=
      ih part hpart (h.of_mem_children hpart)
    cases h.ordinary with
    | param => exact tells_param h
    | member => exact tells_member h (ih _ (by simp [children]))
    | index => exact tells_index h (ih _ (by simp [children])) (ih _ (by simp [children]))
    | unary => exact tells_unary (ih _ (by simp [children]))
    | binary => exact tells_binary h (ih _ (by simp [children])) (ih _ (by simp [children]))
    | coalesce => exact tells_coalesce h (ih _ (by simp [children])) (ih _ (by simp [children]))
    | cond =>
      exact tells_cond h (ih _ (by simp [children])) (ih _ (by simp [children]))
        (ih _ (by simp [children]))

theorem Direct.eraseTypes_eq {e' : Expr} (h : e.Direct) (h' : e'.Direct)
    (heq : e.backward = e'.backward) : e.eraseTypes = e'.eraseTypes := by
  have heq : e.backward ++ ['('] = e'.backward ++ ['('] := congrArg (· ++ ['(']) heq
  exact (h.tells.whole h' rfl heq).1

/-! ## Hoisting -/

theorem backward_eraseTypes (e : Expr) : e.eraseTypes.backward = e.backward := by
  induction e using Expr.eraseTypes.induct with
  | case1 => rfl
  | case8 e => simp_all [eraseTypes]
  | _ => simp_all [eraseTypes, backward]

theorem backward_underPrefixes {f : Expr → Expr} (front : List Char)
    (hf : ∀ e, (f e).backward = front ++ e.backward) (e : Expr) :
    (e.underPrefixes f).backward = front ++ e.backward := by
  induction e using Expr.core.induct with
  | case1 ty op operand ih =>
    rw [underPrefixes, backward, ih, backward, List.append_assoc]
  | case2 e he => rw [underPrefixes.eq_2 f e he, hf]

theorem Direct.underPrefixes {f : Expr → Expr} (h : e.Direct)
    (hf : ∀ e : Expr, e.isPrefixed = false → e.Direct → (f e).Direct) :
    (e.underPrefixes f).Direct := by
  induction e using Expr.core.induct with
  | case1 ty op operand ih =>
    have hoperand := ih (h.of_mem_children (by simp [children]))
    rw [Expr.underPrefixes]
    exact ⟨.unary hoperand.ordinary, .node trivial (by simpa [children] using hoperand.targets)⟩
  | case2 e he =>
    rw [Expr.underPrefixes.eq_2 f e he]
    refine hf e ?_ h
    cases e with
    | unary ty op operand => exact absurd rfl (he ty op operand)
    | _ => rfl

/-- Hoisting does not change the text. -/
theorem backward_hoisted (e : Expr) : e.hoisted.backward = e.backward := by
  induction e using Expr.hoisted.induct with
  | case1 ty target name declaring ih =>
    rw [hoisted, backward_underPrefixes (name.toList.reverse ++ ['.']) (by simp [backward]), ih]
    simp [backward]
  | case2 ty target position ih ih' =>
    rw [hoisted, backward_underPrefixes (']' :: (position.backward ++ ['[']))
      (by simp [backward, ih]), ih']
    simp [backward]
  | case7 e => simp_all [hoisted]
  | _ => simp_all [hoisted, backward]

theorem Ordinary.direct_hoisted (h : e.Ordinary) : e.hoisted.Direct := by
  induction h with
  | param hname => exact ⟨.param hname, .node trivial nofun⟩
  | member _ hname ih =>
    refine ih.underPrefixes fun e he h => ?_
    exact ⟨.member h.ordinary hname, .node he (by simpa [children] using h.targets)⟩
  | index _ _ ih ih' =>
    refine ih.underPrefixes fun e he h => ?_
    exact ⟨.index h.ordinary ih'.ordinary,
      .node he (by simpa [children] using ⟨h.targets, ih'.targets⟩)⟩
  | unary _ ih =>
    rw [hoisted]
    exact ⟨.unary ih.ordinary, .node trivial (by simpa [children] using ih.targets)⟩
  | binary _ _ ih ih' =>
    rw [hoisted]
    exact ⟨.binary ih.ordinary ih'.ordinary,
      .node trivial (by simpa [children] using ⟨ih.targets, ih'.targets⟩)⟩
  | coalesce _ _ ih ih' =>
    rw [hoisted]
    exact ⟨.coalesce ih.ordinary ih'.ordinary,
      .node trivial (by simpa [children] using ⟨ih.targets, ih'.targets⟩)⟩
  | cond _ _ _ ih ih' ih'' =>
    rw [hoisted]
    exact ⟨.cond ih.ordinary ih'.ordinary ih''.ordinary,
      .node trivial (by simpa [children] using ⟨ih.targets, ih'.targets, ih''.targets⟩)⟩

theorem hoisted_eq_self (h : e.Every TakesOfNoPrefixed) : e.hoisted = e := by
  have hunder {f : Expr → Expr} {e : Expr} (he : e.isPrefixed = false) :
      e.underPrefixes f = f e := by
    cases e with
    | unary => cases he
    | _ => rfl
  induction e using Expr.induction_children with
  | step e ih =>
    replace ih (part : Expr) (hpart : part ∈ e.children) : part.hoisted = part :=
      ih part hpart (h.of_mem_children hpart)
    cases e with
    | member ty target name declaring =>
      rw [hoisted, ih target (by simp [children]), hunder h.here]
    | index ty target position =>
      rw [hoisted, ih target (by simp [children]), hunder h.here, ih position (by simp [children])]
    | unary | binary | coalesce | cond =>
      simp only [children, List.forall_mem_cons] at ih
      simp [hoisted, ih]
    | _ => rfl

/-- Two ordinary trees have the same text exactly if they differ in nothing but types and in whether
a member or an element is taken before or after a prefix operator. If it is never taken after one,
they differ in nothing but types. -/
theorem text_eq_iff {e' : Expr} (h : e.Ordinary) (h' : e'.Ordinary) (defs defs' : Definitions) :
    (e.text defs = e'.text defs' ↔ e.hoisted.eraseTypes = e'.hoisted.eraseTypes) ∧
    (e.Every TakesOfNoPrefixed → e'.Every TakesOfNoPrefixed →
      e.text defs = e'.text defs' → e.eraseTypes = e'.eraseTypes) := by
  have hiff : e.text defs = e'.text defs' ↔ e.hoisted.eraseTypes = e'.hoisted.eraseTypes := by
    rw [text_eq_text_iff h h']
    constructor
    · intro heq
      refine h.direct_hoisted.eraseTypes_eq h'.direct_hoisted ?_
      rw [backward_hoisted, backward_hoisted, heq]
    · intro heq
      rw [← backward_hoisted, ← backward_eraseTypes, heq, backward_eraseTypes, backward_hoisted]
  refine ⟨hiff, fun hplain hplain' heq => ?_⟩
  have htold := hiff.mp heq
  rwa [hoisted_eq_self hplain, hoisted_eq_self hplain'] at htold

/-- `!a` in the first operand of `&&`, and `!` before the whole. -/
def notFirst : Expr :=
  .binary .bool .and (.unary .bool .not (.param .bool "a")) (.param .bool "b")

def notBoth : Expr :=
  .unary .bool .not (.binary .bool .and (.param .bool "a") (.param .bool "b"))

theorem text_notFirst_ne :
    notFirst.Ordinary ∧ notBoth.Ordinary ∧ notFirst.text .empty ≠ notBoth.text .empty := by
  have ha : PlainName "a" := by decide
  have hb : PlainName "b" := by decide
  have hfirst : notFirst.Ordinary := .binary (.unary (.param ha)) (.param hb)
  have hboth : notBoth.Ordinary := .unary (.binary (.param ha) (.param hb))
  refine ⟨hfirst, hboth, fun heq => ?_⟩
  cases (text_eq_iff hfirst hboth .empty .empty).2 (by decide +kernel) (by decide +kernel) heq

/-- A sign before a member, and a member of what has a sign. -/
def signedValue : Expr :=
  .unary .int .neg (.member .int (.param (.nullable .int) "a") "Value" (.nullable .int))

def valueOfSigned : Expr :=
  .member .int (.unary (.nullable .int) .neg (.param (.nullable .int) "a")) "Value"
    (.nullable .int)

/-- Both are written `-a.Value`. -/
theorem text_signedValue : signedValue.Ordinary ∧ valueOfSigned.Ordinary ∧
    signedValue.text .empty = valueOfSigned.text .empty ∧
    signedValue.eraseTypes ≠ valueOfSigned.eraseTypes := by
  have ha : PlainName "a" := by decide
  have hvalue : PlainName "Value" := by decide
  refine ⟨.unary (.member (.param ha) hvalue), .member (.unary (.param ha)) hvalue, ?_, nofun⟩
  cbv

end NullGuard.Expr
