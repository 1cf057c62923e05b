import NullGuard.TypeName.Token

/-! # Texts as tokens

A text spells a sequence of tokens if it is these tokens in order with blanks between them. Every
text spells exactly the tokens that are read from it. -/

namespace NullGuard

/-! ## Classes of characters -/

namespace Text

/-- No range of one list meets a range of the other. -/
theorem inRanges_eq_false_of_apart {ranges others : List (Nat × Nat)}
    (h : ∀ range ∈ ranges, ∀ other ∈ others, range.2 < other.1 ∨ other.2 < range.1) {code : Nat}
    (hcode : inRanges ranges code = true) : inRanges others code = false := by
  obtain ⟨range, hrange, hlow, hhigh⟩ := inRanges_eq_true_iff.mp hcode
  rw [← Bool.not_eq_true, inRanges_eq_true_iff]
  rintro ⟨other, hother, hlow', hhigh'⟩
  have := h range hrange other hother
  omega

theorem blankRanges_apart : ∀ range ∈ blankRanges, ∀ other ∈ alphanumericRanges,
    range.2 < other.1 ∨ other.2 < range.1 := by
  decide +kernel

/-- No blank belongs to a name. -/
theorem isNameChar_of_isBlank {c : Char} (h : isBlank c = true) : isNameChar c = false := by
  have halphanumeric : isAlphanumeric c = false := inRanges_eq_false_of_apart blankRanges_apart h
  have hunderscore : c ≠ '_' := by
    rintro rfl
    revert h
    decide
  simp [isNameChar, halphanumeric, hunderscore]

end Text

namespace TypeName

/-- A character that is a token by itself. -/
def IsMark (c : Char) : Prop :=
  Text.isBlank c = false ∧ Text.isNameChar c = false

instance (c : Char) : Decidable (IsMark c) :=
  inferInstanceAs (Decidable (_ ∧ _))

theorem isBlank_or_isNameChar_or_isMark (c : Char) :
    Text.isBlank c = true ∨ Text.isNameChar c = true ∨ IsMark c := by
  cases hblank : Text.isBlank c <;> cases hname : Text.isNameChar c <;> simp [IsMark, *]

/-! ## Spelling -/

/-- The text is these tokens in order, with any blanks between them and at both ends. A name is as
long as possible, so no character that could go on with it follows. -/
inductive Spells : List Char → List TokenKind → Prop where
  | nil : Spells [] []
  | blank {c text kinds} (hblank : Text.isBlank c = true) (hrest : Spells text kinds) :
      Spells (c :: text) kinds
  | mark {c text kinds} (hmark : IsMark c) (hrest : Spells text kinds) :
      Spells (c :: text) (.mark c :: kinds)
  | name {chars text kinds} (hne : chars ≠ []) (hchars : ∀ c ∈ chars, Text.isNameChar c = true)
      (hend : ∀ c ∈ text.head?, Text.isNameChar c = false) (hrest : Spells text kinds) :
      Spells (chars ++ text) (.name chars :: kinds)

/-! ## Tokens as they are read -/

/-- The tokens without their places. -/
def kinds (found : List Token) : List TokenKind :=
  found.map (·.kind)

@[simp]
theorem kinds_nil : kinds [] = [] := rfl

@[simp]
theorem kinds_cons (token : Token) (found : List Token) :
    kinds (token :: found) = token.kind :: kinds found := rfl

variable {offset : Nat} {c : Char} {text : List Char}

theorem tokens_cons_of_isBlank (h : Text.isBlank c = true) :
    tokens offset (c :: text) = tokens (offset + c.utf8Size) text := by
  simp [tokens, h]

theorem tokens_cons_of_isMark (h : IsMark c) :
    tokens offset (c :: text) = ⟨offset, .mark c⟩ :: tokens (offset + c.utf8Size) text := by
  simp [tokens, h.1, h.2]

theorem tokens_cons_of_isNameChar (h : Text.isNameChar c = true) :
    tokens offset (c :: text) = prepend offset c (tokens (offset + c.utf8Size) text) := by
  have hblank : Text.isBlank c = false := by
    rw [← Bool.not_eq_true]
    exact fun hblank => by simp [Text.isNameChar_of_isBlank hblank] at h
  simp [tokens, h, hblank]

theorem offset_eq_or_mem_of_mem_prepend {found : List Token} {token : Token}
    (h : token ∈ prepend offset c found) : token.offset = offset ∨ token ∈ found := by
  unfold prepend at h
  split at h
  · split at h
    · rcases List.mem_cons.mp h with rfl | h
      · exact .inl rfl
      · exact .inr (List.mem_cons_of_mem _ h)
    · rcases List.mem_cons.mp h with rfl | h
      · exact .inl rfl
      · exact .inr h
  · rcases List.mem_cons.mp h with rfl | h
    · exact .inl rfl
    · exact .inr h

theorem offset_le_of_mem {token : Token} (h : token ∈ tokens offset text) :
    offset ≤ token.offset := by
  induction text generalizing offset with
  | nil => cases h
  | cons c text ih =>
    have hrest (hmem : token ∈ tokens (offset + c.utf8Size) text) : offset ≤ token.offset := by
      have := ih hmem
      omega
    rcases isBlank_or_isNameChar_or_isMark c with hblank | hname | hmark
    · rw [tokens_cons_of_isBlank hblank] at h
      exact hrest h
    · rw [tokens_cons_of_isNameChar hname] at h
      rcases offset_eq_or_mem_of_mem_prepend h with heq | hmem
      · exact Nat.le_of_eq heq.symm
      · exact hrest hmem
    · rw [tokens_cons_of_isMark hmark] at h
      rcases List.mem_cons.mp h with rfl | hmem
      · exact Nat.le_refl _
      · exact hrest hmem

/-- The number of bytes of a text. -/
def size : List Char → Nat
  | [] => 0
  | c :: text => c.utf8Size + size text

theorem size_append (first text : List Char) : size (first ++ text) = size first + size text := by
  induction first with
  | nil => simp [size]
  | cons c first ih => rw [List.cons_append, size, ih, size, Nat.add_assoc]

/-- Before a character of no name, a name character is a name by itself. -/
theorem prepend_of_head (h : ∀ c ∈ text.head?, Text.isNameChar c = false) (before : Nat)
    (first : Char) (hoffset : offset = before + first.utf8Size) :
    prepend before first (tokens offset text) =
      ⟨before, .name [first]⟩ :: tokens offset text := by
  cases htokens : tokens offset text with
  | nil => rfl
  | cons token found =>
    obtain ⟨next, kind⟩ := token
    cases kind with
    | mark c => rfl
    | name chars =>
      have hnext : next ≠ before + first.utf8Size := by
        rw [← hoffset]
        cases text with
        | nil => simp [tokens] at htokens
        | cons c text =>
          have hc := h c rfl
          by_cases hblank : Text.isBlank c = true
          · rw [tokens_cons_of_isBlank hblank] at htokens
            have hle : offset + c.utf8Size ≤ next :=
              offset_le_of_mem (htokens ▸ List.mem_cons_self)
            have := c.utf8Size_pos
            omega
          · rw [tokens_cons_of_isMark ⟨by simpa using hblank, hc⟩] at htokens
            cases htokens
      simp [prepend, hnext]

theorem tokens_append_of_name {chars : List Char} (hne : chars ≠ [])
    (hchars : ∀ c ∈ chars, Text.isNameChar c = true)
    (hend : ∀ c ∈ text.head?, Text.isNameChar c = false) (offset : Nat) :
    tokens offset (chars ++ text) = ⟨offset, .name chars⟩ :: tokens (offset + size chars) text := by
  induction chars generalizing offset with
  | nil => exact absurd rfl hne
  | cons c chars ih =>
    rw [List.forall_mem_cons] at hchars
    rw [List.cons_append, tokens_cons_of_isNameChar hchars.1]
    cases chars with
    | nil =>
      rw [List.nil_append, prepend_of_head hend offset c rfl]
      simp [size]
    | cons next chars =>
      rw [ih (List.cons_ne_nil _ _) hchars.2]
      simp [prepend, size, Nat.add_assoc]

/-! ## Every text spells its tokens and no others -/

theorem Spells.kinds_tokens {ks : List TokenKind} (h : Spells text ks) (offset : Nat) :
    kinds (tokens offset text) = ks := by
  induction h generalizing offset with
  | nil => rfl
  | blank hblank _ ih => rw [tokens_cons_of_isBlank hblank, ih]
  | mark hmark _ ih => rw [tokens_cons_of_isMark hmark, kinds_cons, ih]
  | name hne hchars hend _ ih => rw [tokens_append_of_name hne hchars hend, kinds_cons, ih]

/-- A name character starts a name that is as long as possible. -/
theorem exists_name_of_isNameChar (h : Text.isNameChar c = true) (text : List Char) :
    ∃ chars rest, c :: text = chars ++ rest ∧ chars ≠ [] ∧
      (∀ c ∈ chars, Text.isNameChar c = true) ∧ ∀ c ∈ rest.head?, Text.isNameChar c = false := by
  refine ⟨(c :: text).takeWhile Text.isNameChar, (c :: text).dropWhile Text.isNameChar,
    List.takeWhile_append_dropWhile.symm, by simp [h], ?_, ?_⟩
  · exact fun c hc => (List.all_eq_true.mp List.all_takeWhile) c hc
  · intro next hnext
    have hnot := List.head?_dropWhile_not Text.isNameChar (c :: text)
    rw [Option.mem_def.mp hnext] at hnot
    simpa using hnot

theorem spells_kinds_tokens (text : List Char) (offset : Nat) :
    Spells text (kinds (tokens offset text)) := by
  match text with
  | [] => exact .nil
  | c :: text =>
    rcases isBlank_or_isNameChar_or_isMark c with hblank | hname | hmark
    · rw [tokens_cons_of_isBlank hblank]
      exact .blank hblank (spells_kinds_tokens text _)
    · obtain ⟨chars, rest, hsplit, hne, hchars, hend⟩ := exists_name_of_isNameChar hname text
      have hlength : rest.length < (c :: text).length := by
        have := List.length_pos_iff.mpr hne
        rw [hsplit, List.length_append]
        omega
      rw [hsplit, tokens_append_of_name hne hchars hend]
      exact .name hne hchars hend (spells_kinds_tokens rest _)
    · rw [tokens_cons_of_isMark hmark]
      exact .mark hmark (spells_kinds_tokens text _)
termination_by text.length
decreasing_by all_goals simp only [List.length_cons] at *; omega

theorem spells_iff {ks : List TokenKind} : Spells text ks ↔ kinds (tokens offset text) = ks :=
  ⟨fun h => h.kinds_tokens offset, fun h => h ▸ spells_kinds_tokens text offset⟩

/-- A token that stands in some text: a mark, or a name that is not empty. -/
inductive TokenKind.Proper : TokenKind → Prop where
  | mark {char : Char} (h : IsMark char) : Proper (.mark char)
  | name {first : Char} {chars} (h : Text.isNameChar first = true) : Proper (.name (first :: chars))

theorem Spells.proper {ks : List TokenKind} (h : Spells text ks) {kind : TokenKind}
    (hkind : kind ∈ ks) : kind.Proper := by
  induction h with
  | nil => cases hkind
  | blank _ _ ih => exact ih hkind
  | mark hmark _ ih =>
    rcases List.mem_cons.mp hkind with rfl | hkind
    · exact .mark hmark
    · exact ih hkind
  | name hne hchars _ _ ih =>
    rcases List.mem_cons.mp hkind with rfl | hkind
    · obtain ⟨c, chars, rfl⟩ := List.exists_cons_of_ne_nil hne
      exact .name (hchars c List.mem_cons_self)
    · exact ih hkind

/-! ## Texts one after the other -/

/-- No name goes on from the end of the first text to the beginning of the second. -/
def Apart (text rest : List Char) : Prop :=
  ∀ c ∈ text.getLast?, ∀ next ∈ rest.head?, Text.isNameChar c = true → Text.isNameChar next = false

theorem Apart.of_append {first text rest : List Char} (h : Apart (first ++ text) rest) :
    Apart text rest := by
  intro c hc
  refine h c ?_
  rw [List.getLast?_append, Option.mem_def.mp hc]
  rfl

theorem Apart.append {first text rest : List Char} (h : Apart text rest)
    (hfirst : text = [] → Apart first rest) : Apart (first ++ text) rest := by
  cases text with
  | nil =>
    rw [List.append_nil]
    exact hfirst rfl
  | cons c text =>
    intro last hlast
    refine h last ?_
    simpa [List.getLast?_append, List.getLast?_cons] using hlast

theorem Apart.of_cons {c : Char} {text rest : List Char} (h : Apart (c :: text) rest) :
    Apart text rest :=
  @Apart.of_append [c] text rest h

theorem Apart.cons {c : Char} {text rest : List Char} (h : Apart text rest)
    (hfirst : text = [] → Apart [c] rest) : Apart (c :: text) rest :=
  @Apart.append [c] text rest h hfirst

theorem apart_of_not_isNameChar {c : Char} (h : Text.isNameChar c = false) (rest : List Char) :
    Apart [c] rest := by
  intro last hlast next _ hname
  obtain rfl : c = last := by simpa using hlast
  simp [h] at hname

/-- The tokens of two texts that stand apart are those of the one and then those of the other. -/
theorem Spells.append_of_apart {text rest : List Char} {ks ks' : List TokenKind}
    (h : Spells text ks) (hrest : Spells rest ks') (hapart : Apart text rest) :
    Spells (text ++ rest) (ks ++ ks') := by
  induction h with
  | nil => exact hrest
  | blank hblank _ ih => exact .blank hblank (ih hapart.of_cons)
  | mark hmark _ ih => exact .mark hmark (ih hapart.of_cons)
  | @name chars text kinds hne hchars hnext _ ih =>
    rw [List.append_assoc]
    refine .name hne hchars (fun next hhead => ?_) (ih hapart.of_append)
    cases text with
    | cons => exact hnext next hhead
    | nil =>
      rw [List.append_nil] at hapart
      exact hapart (chars.getLast hne) (List.getLast?_eq_some_getLast hne) next hhead
        (hchars _ (List.getLast_mem hne))

/-- Each token stands somewhere in the text. What is before it spells the tokens before it, and
what begins there begins with the first character of the token. -/
theorem exists_split_of_tokens {text : List Char} {offset : Nat} {first rest : List Token}
    {token : Token} (h : tokens offset text = first ++ token :: rest) :
    ∃ before after, text = before ++ token.kind.first :: after ∧ Spells before (kinds first) ∧
      token.offset = offset + size before ∧ Apart before [token.kind.first] := by
  have hspells := spells_kinds_tokens text offset
  generalize kinds (tokens offset text) = ks at hspells
  induction hspells generalizing offset first with
  | nil => simp [tokens] at h
  | @blank c text _ hblank _ ih =>
    rw [tokens_cons_of_isBlank hblank] at h
    obtain ⟨before, after, rfl, hbefore, hoffset, hapart⟩ := ih h
    refine ⟨c :: before, after, rfl, .blank hblank hbefore, ?_, ?_⟩
    · rw [hoffset, size, Nat.add_assoc]
    · exact hapart.cons fun _ =>
        apart_of_not_isNameChar (Text.isNameChar_of_isBlank hblank) _
  | @mark c text _ hmark _ ih =>
    rw [tokens_cons_of_isMark hmark] at h
    cases first with
    | nil =>
      obtain ⟨rfl, -⟩ := List.cons.inj h
      exact ⟨[], text, rfl, .nil, rfl, nofun⟩
    | cons head first =>
      obtain ⟨rfl, hrest⟩ := List.cons.inj h
      obtain ⟨before, after, rfl, hbefore, hoffset, hapart⟩ := ih hrest
      refine ⟨c :: before, after, rfl, .mark hmark hbefore, ?_, ?_⟩
      · rw [hoffset, size, Nat.add_assoc]
      · exact hapart.cons fun _ => apart_of_not_isNameChar hmark.2 _
  | @name chars text _ hne hchars hend _ ih =>
    rw [tokens_append_of_name hne hchars hend] at h
    cases first with
    | nil =>
      obtain ⟨rfl, -⟩ := List.cons.inj h
      obtain ⟨c, chars, rfl⟩ := List.exists_cons_of_ne_nil hne
      exact ⟨[], chars ++ text, rfl, .nil, rfl, nofun⟩
    | cons head first =>
      obtain ⟨rfl, hrest⟩ := List.cons.inj h
      obtain ⟨before, after, rfl, hbefore, hoffset, hapart⟩ := ih hrest
      refine ⟨chars ++ before, after, (List.append_assoc ..).symm, ?_, ?_, ?_⟩
      · refine .name hne hchars (fun c hc => hend c ?_) hbefore
        rw [List.head?_append, Option.mem_def.mp hc]
        rfl
      · rw [hoffset, size_append, Nat.add_assoc]
      · refine hapart.append fun hnil _ _ next hnext _ => hend next ?_
        simpa [hnil] using hnext

end TypeName

end NullGuard
