import NullGuard.Proofs.TypeName.RoundTrip

/-! # Where a text leaves the grammar

What may come next in a type name depends on the tokens before it only through the place that they
lead to: what is awaited there, and how many names are open. From every place the rest of a type
name can be written, and where no place comes behind a token, no type name has that token there. So
a fault is reported at the first character that no type name could have in its place. -/

namespace NullGuard.TypeName

/-! ## Places -/

/-- What a text may go on with: a type, what may follow a name or a complete type, or the second
bracket of an array. -/
inductive Awaits where
  | type | behindName | behindType | bracket
  deriving DecidableEq

/-- Where the tokens of a text lead to: what is awaited there, and how many names are open. -/
structure Place where
  awaits : Awaits
  opened : Nat
  deriving DecidableEq

namespace Place

def start : Place := ⟨.type, 0⟩

/-- The place that a mark behind a complete type leads to. -/
def behindType? : Nat → Char → Option Place
  | opened, '?' => some ⟨.behindType, opened⟩
  | opened, '[' => some ⟨.bracket, opened⟩
  | opened + 1, ',' => some ⟨.type, opened + 1⟩
  | opened + 1, '>' => some ⟨.behindType, opened⟩
  | _, _ => none

/-- The place that a token leads to, if it may stand here. -/
def next? : Place → TokenKind → Option Place
  | ⟨.type, opened⟩, .name _ => some ⟨.behindName, opened⟩
  | ⟨.behindName, opened⟩, .mark '<' => some ⟨.type, opened + 1⟩
  | ⟨.behindName, opened⟩, .mark c | ⟨.behindType, opened⟩, .mark c => behindType? opened c
  | ⟨.bracket, opened⟩, .mark ']' => some ⟨.behindType, opened⟩
  | _, _ => none

/-- The place that tokens lead to. -/
def after? (place : Place) (ks : List TokenKind) : Option Place :=
  ks.foldlM next? place

/-- A type name may end here. -/
def isEnd (place : Place) : Bool :=
  (place.awaits = .behindName || place.awaits = .behindType) && place.opened = 0

/-- The fault of a text that goes on with these tokens. -/
def fault? (place : Place) : List Token → Option Fault
  | [] => if place.isEnd then none else some .unexpectedEnd
  | token :: rest =>
    match place.next? token.kind with
    | some next => next.fault? rest
    | none => some (.unexpectedChar token.kind.first token.offset)

/-- Where nothing that comes next may stand, the fault is there. -/
theorem fault?_of_stuck {place : Place} {rest : List Token} (hend : place.isEnd = false)
    (hnext : ∀ token tail, rest = token :: tail → place.next? token.kind = none) :
    place.fault? rest = some (faultAt rest) := by
  cases rest with
  | nil => simp [fault?, hend, faultAt]
  | cons token tail => rw [fault?, hnext token tail rfl, faultAt]

theorem after?_cons (place : Place) (kind : TokenKind) (ks : List TokenKind) :
    place.after? (kind :: ks) = (place.next? kind).bind fun next => next.after? ks :=
  rfl

theorem after?_append (place : Place) (ks ks' : List TokenKind) :
    place.after? (ks ++ ks') = (place.after? ks).bind fun next => next.after? ks' :=
  List.foldlM_append

end Place

/-! ## Faults of the reader -/

section Reading

variable {opened : List OpenName} {rest : List Token}

/-- Without arguments, a name is a complete type. -/
theorem Place.fault?_behindName (h : OpensNothing rest) (count : Nat) :
    Place.fault? ⟨.behindName, count⟩ rest = Place.fault? ⟨.behindType, count⟩ rest := by
  cases rest with
  | nil => rfl
  | cons token rest =>
    have hkind := opensNothing_cons.mp h
    have hnext : Place.next? ⟨.behindName, count⟩ token.kind =
        Place.next? ⟨.behindType, count⟩ token.kind := by
      unfold Place.next?
      grind
    rw [Place.fault?, hnext, Place.fault?]

theorem Place.next?_behindType_eq_none {count : Nat} {kind : TokenKind}
    (hnullable : kind ≠ .mark '?') (harray : kind ≠ .mark '[')
    (hinside : 0 < count → kind ≠ .mark ',' ∧ kind ≠ .mark '>') :
    Place.next? ⟨.behindType, count⟩ kind = none := by
  cases kind with
  | name => rfl
  | mark c =>
    change behindType? count c = none
    unfold behindType?
    cases count <;> grind

/-- The reader reports the fault of the place that it has come to. -/
theorem fault_readType (opened : List OpenName) (found : List Token) :
    (readType opened found).2 = Place.fault? ⟨.type, opened.length⟩ found := by
  refine readType.induct
    (fun opened found => (readType opened found).2 = Place.fault? ⟨.type, opened.length⟩ found)
    (fun opened found =>
      (readSuffixes opened found).2 = Place.fault? ⟨.behindType, opened.length⟩ found)
    ?arguments ?suffixes ?name ?noName ?done ?nullable ?array ?brackets ?comma ?close ?other
    opened found
  case arguments =>
    intro opened offset chars next rest ih
    rw [readType_open, ih]
    rfl
  case suffixes =>
    intro opened offset chars next c rest hc _ _ _ ih
    have hopens : OpensNothing (⟨next, .mark c⟩ :: rest) :=
      opensNothing_cons.mpr (by simpa using hc)
    rw [readType_name chars hopens]
    exact ih.trans (Place.fault?_behindName hopens opened.length).symm
  case name =>
    intro opened offset chars rest hrest _ _ _ ih
    have hopens := opensNothing_of_forall_ne hrest
    rw [readType_name chars hopens]
    exact ih.trans (Place.fault?_behindName hopens opened.length).symm
  case noName =>
    intro opened rest _ hname
    rw [readType_stuck hname]
    refine (Place.fault?_of_stuck rfl fun token tail htail => ?_).symm
    obtain ⟨offset, chars | c⟩ := token
    · exact (hname _ _ _ htail).elim
    · rfl
  case done =>
    intro opened
    cases opened <;> simp [readSuffixes, Place.fault?, Place.isEnd]
  case nullable =>
    intro opened token tail hkind _ _ _ ih
    obtain ⟨offset, _⟩ := token
    obtain rfl : _ = _ := hkind
    rw [readSuffixes_nullable]
    exact ih
  case array =>
    intro opened token hkind next rest _ _ _ ih
    obtain ⟨offset, _⟩ := token
    obtain rfl : _ = _ := hkind
    rw [readSuffixes_array]
    exact ih
  case brackets =>
    intro opened token hkind rest hrest
    have hplace : Place.fault? ⟨.behindType, opened.length⟩ (token :: rest) =
        Place.fault? ⟨.bracket, opened.length⟩ rest := by
      rw [Place.fault?, hkind]
      rfl
    rw [readSuffixes_unclosed hkind hrest, hplace]
    refine (Place.fault?_of_stuck rfl fun token tail htail => ?_).symm
    obtain ⟨next, chars | c⟩ := token
    · rfl
    · have hc : c ≠ ']' := by
        rintro rfl
        exact hrest _ _ htail
      unfold Place.next?
      grind
  case comma =>
    intro token tail outer opened hkind ih
    obtain ⟨offset, _⟩ := token
    obtain rfl : _ = _ := hkind
    rw [readSuffixes_comma]
    exact ih
  case close =>
    intro token tail outer opened hkind _ _ _ ih
    obtain ⟨offset, _⟩ := token
    obtain rfl : _ = _ := hkind
    rw [readSuffixes_close]
    exact ih
  case other =>
    intro opened token tail hnullable harray hcomma hclose
    have hstuck : Place.next? ⟨.behindType, opened.length⟩ token.kind = none := by
      refine Place.next?_behindType_eq_none hnullable harray fun hopened => ?_
      obtain ⟨outer, opened, rfl⟩ := List.exists_cons_of_length_pos hopened
      exact ⟨fun hkind => hcomma _ _ hkind rfl, fun hkind => hclose _ _ hkind rfl⟩
    rw [readSuffixes_stuck hnullable harray hcomma hclose, Place.fault?, hstuck]
    rfl

end Reading

/-! ## Faults and places -/

variable {place : Place} {found : List Token}

namespace Place

theorem fault?_eq_none_iff :
    place.fault? found = none ↔ ∃ last, place.after? (kinds found) = some last ∧ last.isEnd := by
  induction found generalizing place with
  | nil => simp [fault?, after?]
  | cons token found ih =>
    rw [fault?, kinds_cons, after?_cons]
    cases place.next? token.kind with
    | none => simp
    | some next => exact ih

theorem fault?_eq_unexpectedEnd_iff :
    place.fault? found = some .unexpectedEnd ↔
      ∃ last, place.after? (kinds found) = some last ∧ last.isEnd = false := by
  induction found generalizing place with
  | nil => simp [fault?, after?]
  | cons token found ih =>
    rw [fault?, kinds_cons, after?_cons]
    cases place.next? token.kind with
    | none => simp
    | some next => exact ih

/-- A fault at a character is at the first token that cannot stand in its place. -/
theorem exists_stuck_of_fault? {c : Char} {offset : Nat}
    (h : place.fault? found = some (.unexpectedChar c offset)) :
    ∃ first token rest stuck, found = first ++ token :: rest ∧
      place.after? (kinds first) = some stuck ∧ stuck.next? token.kind = none ∧
      token.kind.first = c ∧ token.offset = offset := by
  induction found generalizing place with
  | nil =>
    rw [fault?] at h
    split at h <;> cases h
  | cons token found ih =>
    rw [fault?] at h
    cases hnext : place.next? token.kind with
    | none =>
      simp only [hnext] at h
      cases h
      exact ⟨[], token, found, place, rfl, rfl, hnext, rfl, rfl⟩
    | some next =>
      simp only [hnext] at h
      obtain ⟨first, stuckAt, rest, stuck, rfl, hfirst, hstuck, hc, hoffset⟩ := ih h
      refine ⟨token :: first, stuckAt, rest, stuck, rfl, ?_, hstuck, hc, hoffset⟩
      rw [kinds_cons, after?_cons, hnext]
      exact hfirst

end Place

/-- The written types are the sequences of tokens that lead from the start to an end. -/
theorem exists_tokens_eq_iff {ks : List TokenKind} :
    (∃ e : TypeExpr, ks = e.tokens) ↔ ∃ last, Place.start.after? ks = some last ∧ last.isEnd := by
  let found : List Token := ks.map (⟨0, ·⟩)
  have hkinds : kinds found = ks := by simp [found, kinds, Function.comp_def]
  have hfault : (readType [] found).2 = Place.start.fault? found := fault_readType [] found
  rw [← hkinds, ← Place.fault?_eq_none_iff, ← hfault]
  constructor
  · rintro ⟨e, he⟩
    rw [readType_eq_iff.mpr ⟨e, he, rfl⟩]
  · intro h
    obtain ⟨e, he, _⟩ := readType_eq_iff.mp (Prod.ext rfl h)
    exact ⟨e, he⟩

/-! ## The grammar and the beginnings of its texts -/

/-- The text is a written type with any blanks, whatever its names mean. -/
def InGrammar (text : String) : Prop :=
  ∃ e : TypeExpr, Spells text.toList e.tokens

/-- The text can be completed to one of the grammar. -/
def BeginsInGrammar (text : String) : Prop :=
  ∃ rest, InGrammar (text ++ rest)

theorem inGrammar_iff {text : String} {ks : List TokenKind} (h : Spells text.toList ks) :
    InGrammar text ↔ ∃ last, Place.start.after? ks = some last ∧ last.isEnd := by
  rw [← exists_tokens_eq_iff]
  refine exists_congr fun e => ⟨fun he => ?_, fun he => he ▸ h⟩
  rw [← h.kinds_tokens 0, he.kinds_tokens 0]

/-- From the place some text leads to an end, and it may stand behind a name. -/
def Place.CanEnd (place : Place) : Prop :=
  ∃ text ks last, Spells text ks ∧ (∀ c ∈ text.head?, Text.isNameChar c = false) ∧
    place.after? ks = some last ∧ last.isEnd

namespace Place

theorem CanEnd.mark {next : Place} {c : Char} (h : next.CanEnd) (hmark : IsMark c)
    (hnext : place.next? (.mark c) = some next) : place.CanEnd := by
  obtain ⟨text, ks, last, hspells, _, hafter, hend⟩ := h
  refine ⟨c :: text, .mark c :: ks, last, .mark hmark hspells, by simpa using hmark.2, ?_, hend⟩
  rw [after?_cons, hnext]
  exact hafter

theorem canEnd_behindType (opened : Nat) : CanEnd ⟨.behindType, opened⟩ := by
  induction opened with
  | zero => exact ⟨[], [], _, .nil, nofun, rfl, rfl⟩
  | succ opened ih => exact ih.mark (isMark_of_mem (c := '>') (by simp)) rfl

theorem canEnd_behindName (opened : Nat) : CanEnd ⟨.behindName, opened⟩ := by
  cases opened with
  | zero => exact ⟨[], [], _, .nil, nofun, rfl, rfl⟩
  | succ opened => exact (canEnd_behindType opened).mark (isMark_of_mem (c := '>') (by simp)) rfl

/-- A blank keeps the name that is written apart from one before it. -/
theorem canEnd_type (opened : Nat) : CanEnd ⟨.type, opened⟩ := by
  obtain ⟨text, ks, last, hspells, hhead, hafter, hend⟩ := canEnd_behindName opened
  have hname : Spells (['T'] ++ text) (.name ['T'] :: ks) :=
    .name (by simp) (List.all_eq_true.mp (by decide +kernel)) hhead hspells
  exact ⟨' ' :: 'T' :: text, .name ['T'] :: ks, last, .blank (by decide) hname,
    by simpa using Text.isNameChar_of_isBlank (c := ' ') (by decide), hafter, hend⟩

theorem canEnd (place : Place) : place.CanEnd := by
  obtain ⟨awaits, opened⟩ := place
  cases awaits with
  | type => exact canEnd_type opened
  | behindName => exact canEnd_behindName opened
  | behindType => exact canEnd_behindType opened
  | bracket => exact (canEnd_behindType opened).mark (isMark_of_mem (c := ']') (by simp)) rfl

end Place

variable {before : String} {ks : List TokenKind}

/-- What leads to a place begins a text of the grammar. -/
theorem beginsInGrammar_of_after? (h : Spells before.toList ks)
    (hplace : Place.start.after? ks = some place) : BeginsInGrammar before := by
  obtain ⟨rest, ks', last, hrest, hhead, hafter, hend⟩ := place.canEnd
  have hspells : Spells (before ++ String.ofList rest).toList (ks ++ ks') := by
    rw [String.toList_append, String.toList_ofList]
    exact h.append hrest hhead
  refine ⟨String.ofList rest, (inGrammar_iff hspells).mpr ⟨last, ?_, hend⟩⟩
  rw [Place.after?_append, hplace]
  exact hafter

theorem Place.next?_name (place : Place) (chars chars' : List Char) :
    place.next? (.name chars) = place.next? (.name chars') := by
  obtain ⟨awaits, opened⟩ := place
  cases awaits <;> rfl

/-- Where a token cannot stand, nothing can that begins with the same character: whether a token
is a name is seen from that character, and one name is as good as another. -/
theorem exists_stuck_of_first {kind : TokenKind} (hkind : kind.Proper)
    (hstuck : place.next? kind = none) (rest : List Char) :
    ∃ other ks, Spells (kind.first :: rest) (other :: ks) ∧ place.next? other = none := by
  cases hkind with
  | mark hmark => exact ⟨_, _, .mark hmark (spells_kinds_tokens rest 0), hstuck⟩
  | name hname =>
    obtain ⟨longest, behind, hsplit, hne, hchars, hend⟩ := exists_name_of_isNameChar hname rest
    refine ⟨.name longest, kinds (tokens 0 behind), ?_, ?_⟩
    · rw [TokenKind.first, hsplit]
      exact .name hne hchars hend (spells_kinds_tokens behind 0)
    · rw [← hstuck, Place.next?_name]

/-- What leads to a place where the token cannot stand begins no text of the grammar together with
the first character of the token. -/
theorem not_beginsInGrammar_of_stuck {kind : TokenKind} (h : Spells before.toList ks)
    (hplace : Place.start.after? ks = some place) (hkind : kind.Proper)
    (hstuck : place.next? kind = none) (hapart : Apart before.toList [kind.first]) :
    ¬ BeginsInGrammar (before ++ String.singleton kind.first) := by
  rintro ⟨rest, hrest⟩
  obtain ⟨other, ks', hother, hnext⟩ := exists_stuck_of_first hkind hstuck rest.toList
  have hspells : Spells (before ++ String.singleton kind.first ++ rest).toList
      (ks ++ other :: ks') := by
    have happend := h.append_of_apart hother hapart
    simpa [String.toList_append] using happend
  obtain ⟨last, hafter, _⟩ := (inGrammar_iff hspells).mp hrest
  rw [Place.after?_append, hplace, Option.bind_some, Place.after?_cons, hnext] at hafter
  cases hafter

/-! ## Reading a text that is not in the grammar -/

theorem size_eq_utf8ByteSize (text : List Char) :
    size text = (String.ofList text).utf8ByteSize := by
  induction text with
  | nil => rfl
  | cons c text ih =>
    rw [size, ih, String.ofList_cons, String.utf8ByteSize_append, String.utf8ByteSize_singleton]

variable {defs : Definitions} {input text : String} {fault : Fault}

theorem toError_inj {other : Fault} (h : fault.toError input = other.toError text) :
    input = text ∧ fault = other := by
  cases fault <;> cases other <;> simp_all [Fault.toError]

/-- What fails for a name is no fault of the grammar. -/
theorem resolveName_ne_error (name : String) (args : List Ty) :
    resolveName defs name args ≠ .error (fault.toError text) := by
  have hunknown : TypeNameError.unknownType name ≠ fault.toError text := by
    cases fault <;> nofun
  have harity (expected found : Nat) :
      TypeNameError.arityMismatch name expected found ≠ fault.toError text := by
    cases fault <;> nofun
  unfold resolveName
  split
  · split <;> simp [harity]
  · split
    · simp [hunknown]
    · dsimp only
      split <;> simp [harity]

theorem runSteps_ne_error (steps : List Step) (built : List Ty) :
    (runSteps defs steps built).1 ≠ some (fault.toError text) := by
  induction steps generalizing built with
  | nil => nofun
  | cons step steps ih =>
    rw [runSteps]
    cases hrun : step.run defs built with
    | ok next => exact ih next
    | error error =>
      rintro ⟨rfl⟩
      cases step with
      | apply name arity =>
        cases hname : resolveName defs name (built.take arity).reverse with
        | ok ty => simp [Step.run, hname, bind, Except.bind, pure, Except.pure] at hrun
        | error error =>
          simp only [Step.run, hname, bind, Except.bind, Except.error.injEq] at hrun
          exact resolveName_ne_error name _ (hname.trans (congrArg _ hrun))
      | nullable => cases built <;> cases hrun
      | array => cases built <;> cases hrun

/-- A fault is reported only where the reader has come upon it. -/
theorem fault?_of_read (h : (read defs input).result = .error (fault.toError text)) :
    input = text ∧ Place.start.fault? (tokens 0 input.toList) = some fault := by
  have hfault : (steps input).2 = Place.start.fault? (tokens 0 input.toList) := fault_readType [] _
  unfold read at h
  dsimp only at h
  split at h
  · rename_i error built hrun
    have herror : (runSteps defs (steps input).1 []).1 ≠ some (fault.toError text) :=
      runSteps_ne_error _ _
    rw [hrun] at herror
    exact absurd (congrArg some (Except.error.inj h)) herror
  · rename_i found built hrun hfound
    obtain ⟨htext, rfl⟩ := toError_inj (Except.error.inj h)
    exact ⟨htext, hfault.symm.trans hfound⟩
  · cases h
  · -- the steps of a text without a fault build a type
    rename_i hrun hnone
    have hread : readType [] (tokens 0 input.toList) = ((TypeName.steps input).1, none) :=
      Prod.ext rfl hnone
    obtain ⟨e, _, hsteps⟩ := readType_eq_iff.mp hread
    rw [hsteps, builds] at hrun
    obtain ⟨_, _, hbuilt⟩ := hrun
    cases hbuilt

/-- The text before the first character that cannot stand in its place begins a text of the
grammar, and none with that character added. -/
theorem exists_split_of_unexpectedChar {c : Char} {offset : Nat}
    (h : Place.start.fault? (tokens 0 input.toList) = some (.unexpectedChar c offset)) :
    ∃ before after, input = before ++ String.singleton c ++ after ∧
      before.utf8ByteSize = offset ∧ BeginsInGrammar before ∧
      ¬ BeginsInGrammar (before ++ String.singleton c) := by
  obtain ⟨first, token, rest, place, hfound, hplace, hstuck, rfl, rfl⟩ :=
    Place.exists_stuck_of_fault? h
  obtain ⟨before, after, hinput, hbefore, hoffset, hapart⟩ := exists_split_of_tokens hfound
  have hkind : token.kind ∈ kinds (tokens 0 input.toList) := by simp [hfound, kinds]
  have hproper := (spells_kinds_tokens input.toList 0).proper hkind
  have hspells : Spells (String.ofList before).toList (kinds first) := by
    rwa [String.toList_ofList]
  refine ⟨String.ofList before, String.ofList after, ?_, ?_,
    beginsInGrammar_of_after? hspells hplace,
    not_beginsInGrammar_of_stuck hspells hplace hproper hstuck (by rwa [String.toList_ofList])⟩
  · rw [← String.toList_inj, hinput]
    simp [String.toList_append]
  · rw [hoffset, Nat.zero_add, size_eq_utf8ByteSize]

/-- A text that ends too early begins a text of the grammar and is none. -/
theorem beginsInGrammar_of_unexpectedEnd
    (h : Place.start.fault? (tokens 0 input.toList) = some .unexpectedEnd) :
    BeginsInGrammar input ∧ ¬ InGrammar input := by
  have hspells := spells_kinds_tokens input.toList 0
  obtain ⟨last, hafter, hend⟩ := Place.fault?_eq_unexpectedEnd_iff.mp h
  refine ⟨beginsInGrammar_of_after? hspells hafter, fun hinput => ?_⟩
  obtain ⟨other, hother, hotherEnd⟩ := (inGrammar_iff hspells).mp hinput
  obtain rfl : last = other := Option.some.inj (hafter.symm.trans hother)
  simp [hend] at hotherEnd

end NullGuard.TypeName

namespace NullGuard.Ty

open NullGuard.TypeName

/-- A fault is reported at the first character that cannot stand in its place, and at the end only
where the text can be completed but is not complete. -/
theorem parse_unexpected (defs : Definitions) (input : String) :
    (∀ found offset text, Ty.parse defs input = .error (.unexpectedChar found offset text) →
      text = input ∧ ∃ before after, input = before ++ String.singleton found ++ after ∧
        before.utf8ByteSize = offset ∧ BeginsInGrammar before ∧
        ¬ BeginsInGrammar (before ++ String.singleton found)) ∧
    ∀ text, Ty.parse defs input = .error (.unexpectedEnd text) →
      text = input ∧ BeginsInGrammar input ∧ ¬ InGrammar input := by
  constructor
  · intro found offset text h
    have hread : (TypeName.read defs input).result =
        .error ((Fault.unexpectedChar found offset).toError text) := h
    obtain ⟨rfl, hfault⟩ := fault?_of_read hread
    exact ⟨rfl, exists_split_of_unexpectedChar hfault⟩
  · intro text h
    have hread : (TypeName.read defs input).result = .error (Fault.unexpectedEnd.toError text) := h
    obtain ⟨rfl, hfault⟩ := fault?_of_read hread
    exact ⟨rfl, beginsInGrammar_of_unexpectedEnd hfault⟩

/-- A blank of three bytes stands before the comma. -/
theorem parse_unexpected_listOf :
    (Ty.parse Collection.definitions "List<\u3000,int>" =
        .error (.unexpectedChar ',' 8 "List<\u3000,int>") ∧
      ∃ before after, "List<\u3000,int>" = before ++ String.singleton ',' ++ after ∧
        before.utf8ByteSize = 8 ∧ BeginsInGrammar before ∧
        ¬ BeginsInGrammar (before ++ String.singleton ',')) ∧
    Ty.parse Collection.definitions "List<int" = .error (.unexpectedEnd "List<int") ∧
      BeginsInGrammar "List<int" ∧ ¬ InGrammar "List<int" := by
  have hcomma : Ty.parse Collection.definitions "List<\u3000,int>" =
      .error (.unexpectedChar ',' 8 "List<\u3000,int>") := by
    have htokens : tokens 0 "List<\u3000,int>".toList =
        [⟨0, .name "List".toList⟩, ⟨4, .mark '<'⟩, ⟨8, .mark ','⟩, ⟨9, .name "int".toList⟩,
          ⟨12, .mark '>'⟩] := by decide +kernel
    have hsteps : steps "List<\u3000,int>" = ([], some (.unexpectedChar ',' 8)) := by
      rw [steps, htokens]
      cbv
    rw [Ty.parse, TypeName.read, hsteps]
    rfl
  have hopen : Ty.parse Collection.definitions "List<int" =
      .error (.unexpectedEnd "List<int") := by
    have htokens : tokens 0 "List<int".toList =
        [⟨0, .name "List".toList⟩, ⟨4, .mark '<'⟩, ⟨5, .name "int".toList⟩] := by decide +kernel
    have hsteps : steps "List<int" = ([.apply "int" 0], some .unexpectedEnd) := by
      rw [steps, htokens]
      cbv
    rw [Ty.parse, TypeName.read, hsteps]
    rfl
  exact ⟨⟨hcomma, ((parse_unexpected _ _).1 _ _ _ hcomma).2⟩, hopen,
    ((parse_unexpected _ _).2 _ hopen).2⟩

end NullGuard.Ty
