import NullGuard.Proofs.TypeName.Token
import NullGuard.TypeName.Steps

/-! # The grammar of type names

The tokens of a text leave the grammar nowhere exactly if they are those of a written type, and
the steps that are read are then those of the written type, parts first. -/

namespace NullGuard.TypeName

/-- A type as it is written:

    type   := name ('<' type (',' type)* '>')? suffix*
    suffix := '?' | '[' ']'

`apply` is a name with its arguments, in angle brackets if there are any; the others put one more
suffix behind a type. -/
inductive TypeExpr where
  | apply (name : String) (args : List TypeExpr)
  | nullable (e : TypeExpr)
  | array (e : TypeExpr)

namespace TypeExpr

/-- Induction in which arguments are reached by membership. -/
@[induction_eliminator]
theorem ind {motive : TypeExpr → Prop}
    (apply : ∀ name args, (∀ arg ∈ args, motive arg) → motive (.apply name args))
    (nullable : ∀ e, motive e → motive (.nullable e))
    (array : ∀ e, motive e → motive (.array e)) : ∀ e, motive e := fun e =>
  TypeExpr.rec (motive_1 := motive) (motive_2 := fun args => ∀ arg ∈ args, motive arg)
    apply nullable array
    (fun _ h => nomatch h)
    (fun _ _ ihHead ihTail _ h => by
      cases h with
      | head => exact ihHead
      | tail _ h => exact ihTail _ h)
    e

mutual

def tokens : TypeExpr → List TokenKind
  | apply name [] => [.name name.toList]
  | apply name (arg :: args) =>
    .name name.toList :: .mark '<' :: (arg.tokens ++ furtherTokens args ++ [.mark '>'])
  | nullable e => e.tokens ++ [.mark '?']
  | array e => e.tokens ++ [.mark '[', .mark ']']

/-- The tokens of further arguments, each after a comma. -/
def furtherTokens : List TypeExpr → List TokenKind
  | [] => []
  | arg :: args => .mark ',' :: (arg.tokens ++ furtherTokens args)

end

mutual

/-- The steps that build the type, those of its parts first. -/
def steps : TypeExpr → List Step
  | apply name args => stepsAll args ++ [.apply name args.length]
  | nullable e => e.steps ++ [.nullable]
  | array e => e.steps ++ [.array]

def stepsAll : List TypeExpr → List Step
  | [] => []
  | arg :: args => arg.steps ++ stepsAll args

end

theorem stepsAll_append (args args' : List TypeExpr) :
    stepsAll (args ++ args') = stepsAll args ++ stepsAll args' := by
  induction args with
  | nil => rfl
  | cons arg args ih => simp [stepsAll, ih]

end TypeExpr

/-! ## The tokens of a written type are read -/

theorem kinds_eq_cons {found : List Token} {kind : TokenKind} {ks : List TokenKind}
    (h : kinds found = kind :: ks) :
    ∃ offset rest, found = ⟨offset, kind⟩ :: rest ∧ kinds rest = ks := by
  obtain ⟨⟨offset, _⟩, rest, rfl, rfl, hrest⟩ := List.map_eq_cons_iff.mp h
  exact ⟨offset, rest, rfl, hrest⟩

theorem kinds_eq_append {found : List Token} {ks ks' : List TokenKind}
    (h : kinds found = ks ++ ks') :
    ∃ first rest, found = first ++ rest ∧ kinds first = ks ∧ kinds rest = ks' := by
  obtain ⟨first, rest, rfl, hfirst, hrest⟩ := List.map_eq_append_iff.mp h
  exact ⟨first, rest, rfl, hfirst, hrest⟩

/-- What is read, with some steps before it. -/
def after (first : List Step) (read : List Step × Option Fault) : List Step × Option Fault :=
  (first ++ read.1, read.2)

theorem after_after (first second : List Step) (read : List Step × Option Fault) :
    after first (after second read) = after (first ++ second) read := by
  simp [after]

/-- No bracket follows that would open the arguments of a name. -/
def OpensNothing (rest : List Token) : Prop :=
  ∀ token ∈ rest.head?, token.kind ≠ .mark '<'

theorem opensNothing_cons {token : Token} {rest : List Token} :
    OpensNothing (token :: rest) ↔ token.kind ≠ .mark '<' := by
  simp [OpensNothing]

section Reading

variable {opened : List OpenName} {rest : List Token} {offset : Nat}

theorem readType_open (chars : List Char) (next : Nat) :
    readType opened (⟨offset, .name chars⟩ :: ⟨next, .mark '<'⟩ :: rest) =
      readType (⟨String.ofList chars, 0⟩ :: opened) rest := by
  rw [readType, if_pos rfl]

theorem readType_name (chars : List Char) (h : OpensNothing rest) :
    readType opened (⟨offset, .name chars⟩ :: rest) =
      after [.apply (String.ofList chars) 0] (readSuffixes opened rest) := by
  unfold readType
  split
  · rename_i next c tail heq
    obtain ⟨⟨rfl, rfl⟩, rfl⟩ : (_ ∧ _) ∧ _ := by simpa using heq
    have hc : c ≠ '<' := by simpa using opensNothing_cons.mp h
    rw [if_neg hc]
    rfl
  · rename_i heq
    obtain ⟨⟨rfl, rfl⟩, rfl⟩ : (_ ∧ _) ∧ _ := by simpa using heq
    rfl
  · rename_i hname
    exact absurd rfl (hname _ _ _)

theorem readSuffixes_nullable :
    readSuffixes opened (⟨offset, .mark '?'⟩ :: rest) =
      after [.nullable] (readSuffixes opened rest) := by
  rw [readSuffixes.eq_def]
  rfl

theorem readSuffixes_array (next : Nat) :
    readSuffixes opened (⟨offset, .mark '['⟩ :: ⟨next, .mark ']'⟩ :: rest) =
      after [.array] (readSuffixes opened rest) := by
  rw [readSuffixes.eq_def]
  rfl

theorem readSuffixes_comma (name : String) (complete : Nat) :
    readSuffixes (⟨name, complete⟩ :: opened) (⟨offset, .mark ','⟩ :: rest) =
      readType (⟨name, complete + 1⟩ :: opened) rest := by
  rw [readSuffixes.eq_def]
  rfl

theorem readSuffixes_close (name : String) (complete : Nat) :
    readSuffixes (⟨name, complete⟩ :: opened) (⟨offset, .mark '>'⟩ :: rest) =
      after [.apply name (complete + 1)] (readSuffixes opened rest) := by
  rw [readSuffixes.eq_def]
  rfl

/-- Without a name there is no type. -/
theorem readType_stuck (h : ∀ offset chars tail, rest = ⟨offset, .name chars⟩ :: tail → False) :
    readType opened rest = ([], some (faultAt rest)) := by
  rw [readType.eq_def]
  split
  · exact (h _ _ _ rfl).elim
  · exact (h _ _ _ rfl).elim
  · rfl

variable {token : Token}

theorem readSuffixes_unclosed (hkind : token.kind = .mark '[')
    (h : ∀ offset tail, rest = ⟨offset, .mark ']'⟩ :: tail → False) :
    readSuffixes opened (token :: rest) = ([], some (faultAt rest)) := by
  rw [readSuffixes.eq_def]
  simp only [hkind]

/-- Inside a name, more may follow a type than elsewhere. -/
theorem readSuffixes_stuck (hnullable : token.kind = .mark '?' → False)
    (harray : token.kind = .mark '[' → False)
    (hcomma : ∀ outer inner, token.kind = .mark ',' → opened = outer :: inner → False)
    (hclose : ∀ outer inner, token.kind = .mark '>' → opened = outer :: inner → False) :
    readSuffixes opened (token :: rest) = ([], some (faultAt (token :: rest))) := by
  rw [readSuffixes.eq_def]
  dsimp only
  split
  · exact (hnullable ‹_›).elim
  · exact (harray ‹_›).elim
  · exact (hcomma _ _ ‹_› rfl).elim
  · exact (hclose _ _ ‹_› rfl).elim
  · rfl

/-- A type whose tokens come next is read, and the reading goes on behind it. -/
def Reads (e : TypeExpr) : Prop :=
  ∀ (opened : List OpenName) (found rest : List Token), kinds found = e.tokens →
    OpensNothing rest → readType opened (found ++ rest) = after e.steps (readSuffixes opened rest)

theorem opensNothing_of_furtherTokens {args : List TypeExpr} {found : List Token}
    (h : kinds found = TypeExpr.furtherTokens args) :
    OpensNothing (found ++ ⟨offset, .mark '>'⟩ :: rest) := by
  cases args with
  | nil =>
    obtain rfl := List.map_eq_nil_iff.mp h
    exact opensNothing_cons.mpr (by simp)
  | cons =>
    obtain ⟨_, tail, rfl, _⟩ := kinds_eq_cons h
    exact opensNothing_cons.mpr (by simp)

/-- The further arguments of a name and the bracket behind them. -/
theorem readSuffixes_furtherTokens {args : List TypeExpr} (hargs : ∀ arg ∈ args, Reads arg)
    (name : String) {found : List Token} (complete : Nat)
    (h : kinds found = TypeExpr.furtherTokens args) :
    readSuffixes (⟨name, complete⟩ :: opened) (found ++ ⟨offset, .mark '>'⟩ :: rest) =
      after (TypeExpr.stepsAll args ++ [.apply name (complete + 1 + args.length)])
        (readSuffixes opened rest) := by
  induction args generalizing found complete with
  | nil =>
    obtain rfl := List.map_eq_nil_iff.mp h
    exact readSuffixes_close name complete
  | cons arg args ih =>
    rw [List.forall_mem_cons] at hargs
    obtain ⟨_, tail, rfl, htail⟩ := kinds_eq_cons h
    obtain ⟨first, further, rfl, hfirst, hfurther⟩ := kinds_eq_append htail
    rw [List.cons_append, List.append_assoc, readSuffixes_comma,
      hargs.1 _ _ _ hfirst (opensNothing_of_furtherTokens hfurther), ih hargs.2 _ hfurther,
      after_after]
    simp [TypeExpr.stepsAll, Nat.add_comm, Nat.add_left_comm]

theorem reads (e : TypeExpr) : Reads e := by
  intro opened found rest h hrest
  induction e generalizing opened found rest with
  | apply name args ih =>
    cases args with
    | nil =>
      obtain ⟨_, tail, rfl, htail⟩ := kinds_eq_cons h
      obtain rfl := List.map_eq_nil_iff.mp htail
      rw [List.cons_append, List.nil_append, readType_name _ hrest, String.ofList_toList]
      rfl
    | cons arg args =>
      rw [List.forall_mem_cons] at ih
      obtain ⟨_, brackets, rfl, hbrackets⟩ := kinds_eq_cons h
      obtain ⟨_, inside, rfl, hinside⟩ := kinds_eq_cons hbrackets
      obtain ⟨parts, close, rfl, hparts, hclose⟩ := kinds_eq_append hinside
      obtain ⟨first, further, rfl, hfirst, hfurther⟩ := kinds_eq_append hparts
      obtain ⟨_, tail, rfl, htail⟩ := kinds_eq_cons hclose
      obtain rfl := List.map_eq_nil_iff.mp htail
      have hargs : ∀ arg ∈ args, Reads arg := fun arg harg opened found rest =>
        ih.2 arg harg opened found rest
      simp only [List.cons_append, List.append_assoc, List.nil_append, readType_open,
        String.ofList_toList]
      rw [ih.1 _ _ _ hfirst (opensNothing_of_furtherTokens hfurther),
        readSuffixes_furtherTokens hargs name 0 hfurther, after_after]
      simp [TypeExpr.steps, TypeExpr.stepsAll, Nat.add_comm 1]
  | nullable e ih =>
    obtain ⟨first, suffix, rfl, hfirst, hsuffix⟩ := kinds_eq_append h
    obtain ⟨_, tail, rfl, htail⟩ := kinds_eq_cons hsuffix
    obtain rfl := List.map_eq_nil_iff.mp htail
    simp only [List.append_assoc, List.cons_append, List.nil_append]
    rw [ih _ _ _ hfirst (opensNothing_cons.mpr (by simp)), readSuffixes_nullable, after_after]
    rfl
  | array e ih =>
    obtain ⟨first, suffix, rfl, hfirst, hsuffix⟩ := kinds_eq_append h
    obtain ⟨_, close, rfl, hclose⟩ := kinds_eq_cons hsuffix
    obtain ⟨_, tail, rfl, htail⟩ := kinds_eq_cons hclose
    obtain rfl := List.map_eq_nil_iff.mp htail
    simp only [List.append_assoc, List.cons_append, List.nil_append]
    rw [ih _ _ _ hfirst (opensNothing_cons.mpr (by simp)), readSuffixes_array, after_after]
    rfl

end Reading

/-! ## Only the tokens of a written type are read -/

/-- A name whose arguments are being read, with those already complete. -/
structure Frame where
  name : String
  args : List TypeExpr

namespace Frame

def openName (frame : Frame) : OpenName :=
  ⟨frame.name, frame.args.length⟩

/-- The tokens up to the argument that comes next. -/
def tokens (frame : Frame) : List TokenKind :=
  .name frame.name.toList :: .mark '<' ::
    frame.args.flatMap fun arg => arg.tokens ++ [.mark ',']

end Frame

/-- The tokens before the present place, the innermost name being first among the frames. -/
def tokensBefore (frames : List Frame) : List TokenKind :=
  frames.reverse.flatMap Frame.tokens

def stepsBefore (frames : List Frame) : List Step :=
  frames.reverse.flatMap fun frame => TypeExpr.stepsAll frame.args

theorem tokensBefore_cons (frame : Frame) (frames : List Frame) :
    tokensBefore (frame :: frames) = tokensBefore frames ++ frame.tokens := by
  simp [tokensBefore]

theorem stepsBefore_cons (frame : Frame) (frames : List Frame) :
    stepsBefore (frame :: frames) = stepsBefore frames ++ TypeExpr.stepsAll frame.args := by
  simp [stepsBefore]

/-- Commas behind complete arguments are those before further ones. -/
theorem TypeExpr.tokens_flatMap_comma (arg : TypeExpr) (args : List TypeExpr) (last : TypeExpr) :
    (arg :: args).flatMap (fun arg => arg.tokens ++ [.mark ',']) ++ last.tokens =
      arg.tokens ++ furtherTokens (args ++ [last]) := by
  induction args generalizing arg with
  | nil => simp [furtherTokens]
  | cons next args ih => rw [List.flatMap_cons, List.append_assoc, ih]; simp [furtherTokens]

theorem Frame.tokens_append (frame : Frame) (last : TypeExpr) :
    frame.tokens ++ last.tokens ++ [.mark '>'] =
      (TypeExpr.apply frame.name (frame.args ++ [last])).tokens := by
  obtain ⟨name, args⟩ := frame
  cases args with
  | nil => simp [tokens, TypeExpr.tokens, TypeExpr.furtherTokens]
  | cons arg args =>
    simp only [tokens, List.cons_append, TypeExpr.tokens_flatMap_comma, TypeExpr.tokens]

/-- The tokens and the steps together are those of a written type. -/
def Written (tokens : List TokenKind) (steps : List Step) : Prop :=
  ∃ e : TypeExpr, tokens = e.tokens ∧ steps = e.steps

/-- What stands before and what is read without a fault make a written type. -/
def TypeIsWritten (opened : List OpenName) (found : List Token) : Prop :=
  ∀ frames steps, opened = frames.map Frame.openName → readType opened found = (steps, none) →
    Written (tokensBefore frames ++ kinds found) (stepsBefore frames ++ steps)

/-- So they do with a complete type between them where its suffixes are read. -/
def SuffixesAreWritten (opened : List OpenName) (found : List Token) : Prop :=
  ∀ frames steps, opened = frames.map Frame.openName →
    readSuffixes opened found = (steps, none) → ∀ e : TypeExpr,
      Written (tokensBefore frames ++ e.tokens ++ kinds found)
        (stepsBefore frames ++ e.steps ++ steps)

theorem opensNothing_of_forall_ne {rest : List Token}
    (h : ∀ offset c tail, rest = ⟨offset, .mark c⟩ :: tail → False) : OpensNothing rest := by
  cases rest with
  | nil => nofun
  | cons token tail =>
    obtain ⟨offset, kind⟩ := token
    refine opensNothing_cons.mpr fun hkind => h offset '<' tail ?_
    rw [show kind = .mark '<' from hkind]

theorem written_name {opened : List OpenName} {frames : List Frame} {steps : List Step}
    {chars : List Char} {offset : Nat} {rest : List Token} (hrest : OpensNothing rest)
    (ih : SuffixesAreWritten opened rest) (hopened : opened = frames.map Frame.openName)
    (h : readType opened (⟨offset, .name chars⟩ :: rest) = (steps, none)) :
    Written (tokensBefore frames ++ kinds (⟨offset, .name chars⟩ :: rest))
      (stepsBefore frames ++ steps) := by
  rw [readType_name chars hrest] at h
  obtain ⟨rfl, hfault⟩ := Prod.mk.inj h
  have hwritten := ih frames _ hopened (Prod.ext rfl hfault) (.apply (String.ofList chars) [])
  simpa [TypeExpr.tokens, TypeExpr.steps, TypeExpr.stepsAll] using hwritten

theorem typeIsWritten (opened : List OpenName) (found : List Token) :
    TypeIsWritten opened found := by
  refine readType.induct TypeIsWritten SuffixesAreWritten ?arguments ?suffixes ?name ?noName ?done
    ?nullable ?array ?brackets ?comma ?close ?other opened found
  case arguments =>
    intro opened offset chars next rest ih frames steps hopened h
    rw [readType_open] at h
    have hwritten := ih (⟨String.ofList chars, []⟩ :: frames) steps
      (by simp [hopened, Frame.openName]) h
    simpa [tokensBefore_cons, stepsBefore_cons, Frame.tokens, TypeExpr.stepsAll] using hwritten
  case suffixes =>
    intro opened offset chars next c rest hc _ _ _ ih frames steps hopened h
    exact written_name (opensNothing_cons.mpr (by simpa using hc)) ih hopened h
  case name =>
    intro opened offset chars rest hrest _ _ _ ih frames steps hopened h
    exact written_name (opensNothing_of_forall_ne hrest) ih hopened h
  case noName =>
    intro opened rest _ hname frames steps _ h
    rw [readType_stuck hname] at h
    cases h
  case done =>
    intro opened frames steps hopened h e
    rw [readSuffixes] at h
    obtain ⟨rfl, hfault⟩ := Prod.mk.inj h
    cases frames with
    | nil => exact ⟨e, by simp [tokensBefore], by simp [stepsBefore]⟩
    | cons frame frames => simp [hopened] at hfault
  case nullable =>
    intro opened token tail hkind _ _ _ ih frames steps hopened h e
    obtain ⟨offset, _⟩ := token
    obtain rfl : _ = _ := hkind
    rw [readSuffixes_nullable] at h
    obtain ⟨rfl, hfault⟩ := Prod.mk.inj h
    have hwritten := ih frames _ hopened (Prod.ext rfl hfault) (.nullable e)
    simpa [TypeExpr.tokens, TypeExpr.steps] using hwritten
  case array =>
    intro opened token hkind next rest _ _ _ ih frames steps hopened h e
    obtain ⟨offset, _⟩ := token
    obtain rfl : _ = _ := hkind
    rw [readSuffixes_array] at h
    obtain ⟨rfl, hfault⟩ := Prod.mk.inj h
    have hwritten := ih frames _ hopened (Prod.ext rfl hfault) (.array e)
    simpa [TypeExpr.tokens, TypeExpr.steps] using hwritten
  case brackets =>
    intro opened token hkind rest hrest frames steps _ h e
    rw [readSuffixes_unclosed hkind hrest] at h
    cases h
  case comma =>
    intro token tail outer opened hkind ih frames steps hopened h e
    obtain ⟨offset, _⟩ := token
    obtain rfl : _ = _ := hkind
    obtain ⟨frame, frames, rfl, rfl, hframes⟩ := List.map_eq_cons_iff.mp hopened.symm
    rw [Frame.openName, readSuffixes_comma] at h
    have hwritten := ih (⟨frame.name, frame.args ++ [e]⟩ :: frames) steps
      (by simp [hframes, Frame.openName, wfParam]) h
    simpa [tokensBefore_cons, stepsBefore_cons, Frame.tokens, TypeExpr.stepsAll_append,
      TypeExpr.stepsAll] using hwritten
  case close =>
    intro token tail outer opened hkind _ _ _ ih frames steps hopened h e
    obtain ⟨offset, _⟩ := token
    obtain rfl : _ = _ := hkind
    obtain ⟨frame, frames, rfl, rfl, hframes⟩ := List.map_eq_cons_iff.mp hopened.symm
    rw [Frame.openName, readSuffixes_close] at h
    obtain ⟨rfl, hfault⟩ := Prod.mk.inj h
    simp only [wfParam] at ih
    have hwritten := ih frames _ hframes.symm (Prod.ext rfl hfault)
      (.apply frame.name (frame.args ++ [e]))
    rw [← Frame.tokens_append] at hwritten
    simpa [tokensBefore_cons, stepsBefore_cons, TypeExpr.steps, TypeExpr.stepsAll_append,
      TypeExpr.stepsAll] using hwritten
  case other =>
    intro opened token tail hnullable harray hcomma hclose frames steps _ h e
    rw [readSuffixes_stuck hnullable harray hcomma hclose] at h
    cases h

/-- What is read is a written type, unless it leaves the grammar. -/
theorem readType_eq_iff {found : List Token} {read : List Step} :
    readType [] found = (read, none) ↔ Written (kinds found) read := by
  constructor
  · intro h
    simpa [tokensBefore, stepsBefore] using typeIsWritten [] found [] read rfl h
  · rintro ⟨e, hkinds, rfl⟩
    have hread := reads e [] found [] hkinds nofun
    rw [List.append_nil, readSuffixes] at hread
    simpa [after] using hread

end NullGuard.TypeName
