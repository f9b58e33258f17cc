import Undecorate.Emit.Header
import Undecorate.Proofs.Text.Characters

/-! # What the edits of a header change

A header is edited at one place, the first one at the beginning of a word at which the edit applies.
To take the name of a class away is such an edit. It applies where blanks, and nothing but blanks,
stand between the keyword and the name.

* `Header.edited_editFirst`: the place of an edit is the first one;
* `Header.dropped_dropName`: the first mention of the name is taken away;
* `Header.Parts.dropAbstract_dropName`: what is left of a header of which the parts are known.
-/

namespace Undecorate.Header

open Text

variable {edit : List Char → Option (List Char)} {inWord : Bool} {c : Char}
  {name cs before rest rest' tail : List Char}

/-! ## The first place -/

/-- Whether a word may start behind this text; `inWord` says whether the character before the text
belongs to a word. -/
def WordStart (inWord : Bool) (before : List Char) : Prop :=
  (inWord :: before.map isWord).getLast? = some false

theorem wordStart_nil : WordStart inWord [] ↔ inWord = false := by
  simp [WordStart]

theorem wordStart_cons : WordStart inWord (c :: before) ↔ WordStart (isWord c) before := by
  simp [WordStart, List.getLast?_cons_cons]

/-- A place at the start of a word where an edit applies, and what the edit makes of the text from
there on. -/
structure Applies (edit : List Char → Option (List Char)) (inWord : Bool)
    (cs before rest tail : List Char) : Prop where
  split : cs = before ++ rest
  some_left : rest ≠ []
  starts : WordStart inWord before
  edits : edit rest = some tail

/-- An edit applies at the beginning of a text or behind its first character. -/
theorem applies_cons : Applies edit inWord (c :: cs) before rest tail ↔
    (before = [] ∧ rest = c :: cs ∧ inWord = false ∧ edit (c :: cs) = some tail) ∨
      ∃ behind, before = c :: behind ∧ Applies edit (isWord c) cs behind rest tail := by
  constructor
  · rintro ⟨hsplit, hleft, hstarts, hedits⟩
    cases before with
    | nil =>
      rw [List.nil_append] at hsplit
      subst hsplit
      exact .inl ⟨rfl, rfl, wordStart_nil.1 hstarts, hedits⟩
    | cons b behind =>
      rw [List.cons_append, List.cons_eq_cons] at hsplit
      obtain ⟨rfl, hsplit⟩ := hsplit
      exact .inr ⟨behind, rfl, hsplit, hleft, wordStart_cons.1 hstarts, hedits⟩
  · rintro (⟨rfl, rfl, hword, hedits⟩ | ⟨behind, rfl, hsplit, hleft, hstarts, hedits⟩)
    · exact ⟨rfl, List.cons_ne_nil c cs, wordStart_nil.2 hword, hedits⟩
    · exact ⟨by rw [hsplit, List.cons_append], hleft, wordStart_cons.2 hstarts, hedits⟩

/-- The texts that an edit at the first place may lead to. -/
inductive Edited (edit : List Char → Option (List Char)) (inWord : Bool) (cs : List Char) :
    List Char → Prop
  | nowhere (h : ∀ before rest tail, ¬Applies edit inWord cs before rest tail) :
      Edited edit inWord cs cs
  | first {before rest tail : List Char} (h : Applies edit inWord cs before rest tail)
      (hfirst : ∀ before' rest' tail', Applies edit inWord cs before' rest' tail' →
        before.length ≤ before'.length) : Edited edit inWord cs (before ++ tail)

/-- The edit is made at the first place where it applies, and nowhere else. -/
theorem edited_editFirst (edit : List Char → Option (List Char)) (inWord : Bool)
    (cs : List Char) : Edited edit inWord cs (editFirst edit inWord cs) := by
  induction cs generalizing inWord with
  | nil =>
    apply Edited.nowhere
    intro before rest tail h
    exact h.some_left (List.append_eq_nil_iff.1 h.split.symm).2
  | cons c cs ih =>
    cases hhere : (if inWord then none else edit (c :: cs)) with
    | some tail =>
      obtain ⟨hword, hedits⟩ : inWord = false ∧ edit (c :: cs) = some tail := by
        cases inWord with
        | false => exact ⟨rfl, hhere⟩
        | true => cases hhere
      have heq : editFirst edit inWord (c :: cs) = [] ++ tail := by simp [editFirst, hhere]
      rw [heq]
      exact .first (applies_cons.2 (.inl ⟨rfl, rfl, hword, hedits⟩)) fun _ _ _ _ => Nat.zero_le _
    | none =>
      have heq : editFirst edit inWord (c :: cs) = c :: editFirst edit (isWord c) cs := by
        simp [editFirst, hhere]
      -- nothing applies at the beginning, so all places are behind the first character
      have hbehind : ∀ {before rest tail}, Applies edit inWord (c :: cs) before rest tail →
          ∃ behind, before = c :: behind ∧ Applies edit (isWord c) cs behind rest tail := by
        intro before rest tail h
        rcases applies_cons.1 h with ⟨-, -, hword, hedits⟩ | hbehind
        · rw [hword] at hhere
          exact absurd (hhere.symm.trans hedits) (by simp)
        · exact hbehind
      have hrest := ih (isWord c)
      rw [heq]
      generalize editFirst edit (isWord c) cs = out at hrest
      cases hrest with
      | nowhere hnone =>
        apply Edited.nowhere
        intro before rest tail h
        obtain ⟨behind, -, happlies⟩ := hbehind h
        exact hnone behind rest tail happlies
      | first happlies hfirst =>
        rw [← List.cons_append]
        apply Edited.first (applies_cons.2 (.inr ⟨_, rfl, happlies⟩))
        intro before' rest' tail' h
        obtain ⟨behind, rfl, happlies'⟩ := hbehind h
        exact Nat.succ_le_succ (hfirst behind rest' tail' happlies')

/-! ## Mentions of the name -/

theorem afterKeyword?_eq_some : afterKeyword? cs = some rest ↔ cs = keyword ++ rest := by
  unfold afterKeyword?
  constructor
  · intro h
    split at h
    · rename_i hprefix
      obtain ⟨tail, rfl⟩ := List.isPrefixOf_iff_prefix.1 hprefix
      rw [List.drop_left] at h
      rw [Option.some.inj h]
    · cases h
  · rintro rfl
    rw [if_pos (List.isPrefixOf_iff_prefix.2 (List.prefix_append _ _)), List.drop_left]

/-- A text that begins with the keyword, blanks and the name; `rest` is what follows. -/
def Begins (name cs rest : List Char) : Prop :=
  ∃ blanks, cs = keyword ++ blanks ++ name ++ rest ∧ blanks ≠ [] ∧ blanks.all isBlank = true ∧
    endsName rest = true

/-- As a name does not begin with a blank, all the blanks stand in front of it. -/
theorem takeWhile_isBlank_append {blanks : List Char} (hname : Tight name)
    (hblanks : blanks.all isBlank = true) (rest : List Char) :
    (blanks ++ name ++ rest).takeWhile isBlank = blanks := by
  obtain ⟨c, behind, rfl⟩ := List.exists_cons_of_ne_nil hname.ne_nil
  have hc : isBlank c = false := hname.first c rfl
  rw [List.append_assoc, List.takeWhile_append_of_pos (List.all_eq_true.1 hblanks),
    List.cons_append, List.takeWhile_cons_of_neg (by simp [hc]), List.append_nil]

/-- There is one way to read a text as the keyword, blanks and a name. -/
theorem Begins.unique (hname : Tight name) (h : Begins name cs rest) (h' : Begins name cs rest') :
    rest = rest' := by
  obtain ⟨blanks, rfl, -, hblank, -⟩ := h
  obtain ⟨blanks', heq, -, hblank', -⟩ := h'
  simp only [List.append_assoc, List.append_cancel_left_eq] at heq
  have htake := congrArg (List.takeWhile isBlank) heq
  rw [← List.append_assoc, ← List.append_assoc, takeWhile_isBlank_append hname hblank,
    takeWhile_isBlank_append hname hblank'] at htake
  rw [htake] at heq
  exact List.append_cancel_left (List.append_cancel_left heq)

/-- Where a name is found, the text begins with the keyword, blanks and the name. -/
theorem begins_of_afterName? (h : afterName? name cs = some rest) : Begins name cs rest := by
  unfold afterName? at h
  obtain ⟨behind, hkeyword, hfind⟩ := Option.bind_eq_some_iff.1 h
  obtain ⟨n, hn, hhere⟩ := List.exists_of_findSome?_eq_some hfind
  rw [List.mem_reverse, List.mem_range] at hn
  dsimp only at hhere
  split at hhere
  · rename_i hcond
    rw [Bool.and_eq_true, List.isPrefixOf_iff_prefix] at hcond
    obtain ⟨⟨tail, htail⟩, hends⟩ := hcond
    obtain rfl : tail = rest := by
      rw [← htail, List.drop_left] at hhere
      exact Option.some.inj hhere
    rw [← htail, List.drop_left] at hends
    have hlength := (List.takeWhile_prefix isBlank (l := behind)).length_le
    have htaken : behind.take (n + 1) <+: behind.takeWhile isBlank :=
      List.prefix_of_prefix_length_le (List.take_prefix _ _) (List.takeWhile_prefix isBlank)
        (by rw [List.length_take]; omega)
    refine ⟨behind.take (n + 1), ?_, ?_, ?_, hends⟩
    · rw [afterKeyword?_eq_some.1 hkeyword, List.append_assoc, List.append_assoc, htail,
        List.take_append_drop]
    · apply List.ne_nil_of_length_pos
      rw [List.length_take]
      omega
    · rw [List.all_eq_true]
      intro c hc
      exact List.all_eq_true.1 List.all_takeWhile c (htaken.subset hc)
  · cases hhere

/-- The longest run of blanks is tried first, and it is the one in front of the name. -/
theorem Begins.afterName?_eq (hname : Tight name) (h : Begins name cs rest) :
    afterName? name cs = some rest := by
  obtain ⟨blanks, rfl, hne, hblank, hends⟩ := h
  have hkeyword : afterKeyword? (keyword ++ blanks ++ name ++ rest) =
      some (blanks ++ name ++ rest) := afterKeyword?_eq_some.2 (by simp only [List.append_assoc])
  unfold afterName?
  rw [hkeyword, Option.bind_some]
  dsimp only
  rw [takeWhile_isBlank_append hname hblank]
  obtain ⟨n, hn⟩ : ∃ n, blanks.length = n + 1 :=
    ⟨_, (Nat.sub_add_cancel (List.length_pos_iff.2 hne)).symm⟩
  have htail : (blanks ++ name ++ rest).drop (n + 1) = name ++ rest := by
    rw [← hn, List.append_assoc, List.drop_left]
  have hcond : (name.isPrefixOf (name ++ rest) && endsName rest) = true := by
    rw [Bool.and_eq_true, List.isPrefixOf_iff_prefix]
    exact ⟨List.prefix_append _ _, hends⟩
  rw [hn, List.range_succ, List.reverse_append, List.reverse_singleton, List.singleton_append,
    List.findSome?_cons, htail, List.drop_left, if_pos hcond]

/-- A mention of the class: its name with nothing but blanks between it and the keyword. -/
def Mention (name cs before rest : List Char) : Prop :=
  ∃ here, cs = before ++ here ∧ WordStart false before ∧ Begins name here rest

/-- The header with the name taken away from its first mention. -/
inductive Dropped (name cs : List Char) : List Char → Prop
  | nowhere (h : ∀ before rest, ¬Mention name cs before rest) : Dropped name cs cs
  | first {before rest : List Char} (h : Mention name cs before rest)
      (hfirst : ∀ before' rest', Mention name cs before' rest' →
        before.length ≤ before'.length) : Dropped name cs (before ++ keyword ++ rest)

theorem Begins.ne_nil (h : Begins name cs rest) : cs ≠ [] := by
  obtain ⟨blanks, rfl, hne, -⟩ := h
  simp [hne]

/-- The edit that takes a name away. -/
def dropping (name cs : List Char) : Option (List Char) :=
  (afterName? name cs).map (keyword ++ ·)

/-- The places of this edit are the mentions of the name. -/
theorem mention_iff (hname : Tight name) : Mention name cs before rest ↔
    ∃ here, Applies (dropping name) false cs before here (keyword ++ rest) := by
  constructor
  · rintro ⟨here, hsplit, hstarts, hbegins⟩
    refine ⟨here, hsplit, hbegins.ne_nil, hstarts, ?_⟩
    rw [dropping, hbegins.afterName?_eq hname, Option.map_some]
  · rintro ⟨here, hsplit, -, hstarts, hedits⟩
    obtain ⟨rest', hafter, heq⟩ := Option.map_eq_some_iff.1 hedits
    rw [List.append_cancel_left heq] at hafter
    exact ⟨here, hsplit, hstarts, begins_of_afterName? hafter⟩

/-- The name is taken away from the first mention, and a header without one is left as it is. -/
theorem dropped_dropName (hname : Tight name) (cs : List Char) :
    Dropped name cs (dropName name cs) := by
  have hedited := edited_editFirst (dropping name) false cs
  show Dropped name cs (editFirst (dropping name) false cs)
  generalize editFirst (dropping name) false cs = out at hedited
  cases hedited with
  | nowhere hnone =>
    apply Dropped.nowhere
    intro before rest hmention
    obtain ⟨here, h⟩ := (mention_iff hname).1 hmention
    exact hnone before here _ h
  | @first before here tail h hfirst =>
    obtain ⟨rest, hafter, rfl⟩ := Option.map_eq_some_iff.1 h.edits
    rw [← List.append_assoc]
    apply Dropped.first ((mention_iff hname).2 ⟨here, h⟩)
    intro before' rest' hmention
    obtain ⟨here', h'⟩ := (mention_iff hname).1 hmention
    exact hfirst before' here' _ h'

/-! ## The parts of a header -/

/-- The header of a named class: an `abstract` with what stands behind it, the keyword, what stands
between the keyword and the name, the name, and the type parameters and the heritage. -/
structure Parts where
  modifier : Option (List Char)
  gap : List Char
  name : List Char
  tail : List Char

namespace Parts

variable {p : Parts} {kept : List Char}

/-- What stands in front of the keyword. -/
def front (p : Parts) : List Char :=
  match p.modifier with
  | none => []
  | some behind => "abstract".toList ++ behind

/-- The header. -/
def text (p : Parts) : List Char := p.front ++ (keyword ++ p.gap ++ p.name ++ p.tail)

/-- The header without its `abstract` and without the name of the class. Blanks that led to what
has been taken away go with it. -/
def bare (p : Parts) : List Char :=
  (p.modifier.getD []).dropWhile isBlank ++ keyword ++
    ((if p.gap.all isBlank then [] else p.gap) ++ p.tail)

/-- What is left in front of the keyword: an `abstract` goes away if a blank stands behind it. -/
def lead (p : Parts) : List Char :=
  match p.modifier with
  | none => []
  | some behind =>
    if behind.head?.any isBlank then behind.dropWhile isBlank else "abstract".toList ++ behind

/-- What is left of the header: a name goes away if nothing but blanks stand in front of it. -/
def written (p : Parts) : List Char :=
  p.lead ++ keyword ++ ((if p.gap.all isBlank then [] else p.gap ++ p.name) ++ p.tail)

/-- The tokens of the header are told apart: the keyword and the name are words of their own. -/
structure Lexed (p : Parts) : Prop where
  starts : WordStart false p.front
  gap_ne_nil : p.gap ≠ []
  name : Tight p.name
  ends : endsName p.tail = true

/-- Blanks, and no comments, stand behind the `abstract` and in front of the name. -/
def Plain (p : Parts) : Prop :=
  p.gap.all isBlank = true ∧ ∀ behind ∈ p.modifier, behind.head?.any isBlank = true

/-- No mention of the class stands in a comment before its name, and if something else than blanks
stands before the name, there is none behind it either. -/
def Quiet (p : Parts) : Prop :=
  ∀ before rest, Mention p.name p.text before rest →
    p.gap.all isBlank = true ∧ p.front.length ≤ before.length

/-- A name behind blanks is a mention. -/
theorem Lexed.mention (h : p.Lexed) (hgap : p.gap.all isBlank = true) :
    Mention p.name p.text p.front p.tail :=
  ⟨_, rfl, h.starts, p.gap, rfl, h.gap_ne_nil, hgap, h.ends⟩

/-- With no other mention of the class, the name is taken away if nothing but blanks stand before
it. -/
theorem Lexed.eq_of_dropped (h : p.Lexed) (hquiet : p.Quiet) (hkept : Dropped p.name p.text kept) :
    kept = p.front ++ keyword ++
      ((if p.gap.all isBlank then [] else p.gap ++ p.name) ++ p.tail) := by
  cases hkept with
  | nowhere hnone =>
    have hgap : ¬p.gap.all isBlank = true := fun hgap => hnone _ _ (h.mention hgap)
    rw [if_neg hgap, text]
    simp only [List.append_assoc]
  | @first before rest hmention hfirst =>
    obtain ⟨hgap, hfront⟩ := hquiet before rest hmention
    have hbefore := hfirst _ _ (h.mention hgap)
    obtain ⟨here, hsplit, -, hbegins⟩ := hmention
    obtain ⟨rfl, rfl⟩ := List.append_inj hsplit (Nat.le_antisymm hfront hbefore)
    have hrest : p.tail = rest :=
      Begins.unique h.name ⟨p.gap, rfl, h.gap_ne_nil, hgap, h.ends⟩ hbegins
    rw [if_pos hgap, List.nil_append, hrest]

theorem dropAbstract_front (p : Parts) (rest : List Char) :
    dropAbstract (p.front ++ keyword ++ rest) = p.lead ++ keyword ++ rest := by
  unfold front lead
  cases p.modifier with
  | none => rfl
  | some behind =>
    have hprefix : "abstract".toList.isPrefixOf
        ("abstract".toList ++ behind ++ keyword ++ rest) = true := by
      rw [List.isPrefixOf_iff_prefix]
      exact ⟨behind ++ keyword ++ rest, by simp only [List.append_assoc]⟩
    have hdrop : ("abstract".toList ++ behind ++ keyword ++ rest).drop "abstract".toList.length =
        behind ++ (keyword ++ rest) := by
      simp only [List.append_assoc, List.drop_left]
    have hhead : (behind ++ (keyword ++ rest)).head?.any isBlank = behind.head?.any isBlank := by
      cases behind with
      | nil => rfl
      | cons c cs => rfl
    have hblanks : (behind ++ (keyword ++ rest)).dropWhile isBlank =
        behind.dropWhile isBlank ++ (keyword ++ rest) := by
      rw [List.dropWhile_append]
      split
      · rename_i hempty
        rw [List.isEmpty_iff.1 hempty]
        rfl
      · rfl
    unfold dropAbstract
    dsimp only
    rw [if_pos hprefix, hdrop, hhead, hblanks]
    split
    · rw [List.append_assoc]
    · rfl

/-- What is left of a header in which the class is not mentioned elsewhere. -/
theorem Lexed.dropAbstract_eq (h : p.Lexed) (hquiet : p.Quiet)
    (hkept : Dropped p.name p.text kept) : dropAbstract kept = p.written := by
  rw [h.eq_of_dropped hquiet hkept, dropAbstract_front]
  rfl

/-- Nothing but blanks is ever missing from what is left in front of the keyword, unless an
`abstract` has been left there. -/
theorem length_lead (p : Parts) : p.lead.length =
    ((p.modifier.getD []).dropWhile isBlank).length +
      (if ∀ behind ∈ p.modifier, behind.head?.any isBlank = true then 0 else 8) := by
  unfold lead
  cases p.modifier with
  | none => simp
  | some behind =>
    dsimp only [Option.getD_some]
    by_cases hhead : behind.head?.any isBlank = true
    · rw [if_pos hhead, if_pos (by simpa using hhead)]
      rfl
    · have hkept : behind.dropWhile isBlank = behind :=
        dropWhile_isBlank (by simpa [Option.any_eq_true] using hhead)
      rw [if_neg hhead, if_neg (by simpa using hhead), hkept, List.length_append, Nat.add_comm]
      rfl

/-- The `abstract` and the name are both away if there are blanks at the right places, and else one
of them has been left. -/
theorem Lexed.written_eq_bare_iff (h : p.Lexed) : p.written = p.bare ↔ p.Plain := by
  have hname := List.length_pos_iff.2 h.name.ne_nil
  constructor
  · intro heq
    have hlength := congrArg List.length heq
    unfold written bare at hlength
    simp only [List.length_append, length_lead] at hlength
    constructor
    · apply Decidable.byContradiction
      intro hgap
      rw [if_neg hgap, if_neg hgap, List.length_append] at hlength
      omega
    · apply Decidable.byContradiction
      intro hmodifier
      rw [if_neg hmodifier] at hlength
      by_cases hgap : p.gap.all isBlank = true
      · rw [if_pos hgap, if_pos hgap] at hlength
        omega
      · rw [if_neg hgap, if_neg hgap, List.length_append] at hlength
        omega
  · rintro ⟨hgap, hmodifier⟩
    unfold written bare lead
    rw [if_pos hgap, if_pos hgap]
    cases hm : p.modifier with
    | none => rfl
    | some behind =>
      dsimp only
      rw [if_pos (hmodifier behind hm)]
      rfl

/-- Nothing but blanks stand between the tokens in front of the name. -/
def Spaced (p : Parts) : Prop :=
  p.gap.all isBlank = true ∧ ∀ behind ∈ p.modifier, behind.all isBlank = true

/-- Behind an `abstract` that is followed by blanks there is no place for another mention. -/
theorem Spaced.quiet (hspaced : p.Spaced) : p.Quiet := by
  rintro before rest ⟨here, hsplit, -, blanks, rfl, -⟩
  refine ⟨hspaced.1, ?_⟩
  apply Nat.le_of_not_lt
  intro hlt
  -- the first two letters of the keyword are not found in front of it
  have hfirst : p.text[before.length]? = some 'c' := by
    rw [hsplit, List.getElem?_append_right (Nat.le_refl _), Nat.sub_self]
    rfl
  have hsecond : p.text[before.length + 1]? = some 'l' := by
    rw [hsplit, List.getElem?_append_right (Nat.le_add_right _ _), Nat.add_sub_cancel_left]
    rfl
  unfold text front at *
  cases hm : p.modifier with
  | none => rw [hm] at hlt; exact absurd hlt (Nat.not_lt_zero _)
  | some behind =>
    rw [hm] at hlt hfirst hsecond
    dsimp only at hlt hfirst hsecond
    rw [List.append_assoc] at hfirst hsecond
    by_cases hword : before.length < "abstract".toList.length
    · rw [List.getElem?_append_left hword] at hfirst
      have hplace : ∀ n < 8, "abstract".toList[n]? = some 'c' → n = 6 := by decide
      rw [hplace before.length hword hfirst, List.getElem?_append_left (by decide)] at hsecond
      cases hsecond
    · rw [List.length_append] at hlt
      rw [List.getElem?_append_right (by omega), List.getElem?_append_left (by omega)] at hfirst
      have hblank := List.all_eq_true.1 (hspaced.2 behind hm) 'c' (List.mem_of_getElem? hfirst)
      exact absurd hblank (by decide)

theorem Lexed.plain (h : p.Lexed) (hspaced : p.Spaced) : p.Plain := by
  refine ⟨hspaced.1, ?_⟩
  intro behind hm
  have hblank := hspaced.2 behind hm
  cases behind with
  | nil =>
    -- the keyword would be the end of a longer word
    have hstarts := h.starts
    rw [front, hm] at hstarts
    exact absurd hstarts (by unfold WordStart; decide)
  | cons c cs =>
    rw [List.all_cons, Bool.and_eq_true] at hblank
    exact hblank.1

/-- A header from which no name is taken away has no mention of the class. -/
theorem quiet_of_dropName_eq (hname : Tight p.name) (heq : dropName p.name p.text = p.text) :
    p.Quiet := by
  intro before rest hmention
  exfalso
  have hdropped := dropped_dropName hname p.text
  generalize hout : dropName p.name p.text = out at hdropped
  cases hdropped with
  | nowhere hnone => exact hnone before rest hmention
  | first hfirst _ =>
    obtain ⟨here, hsplit, -, blanks, rfl, hne, -⟩ := hfirst
    have hlength := congrArg List.length (hout.symm.trans (heq.trans hsplit))
    have hblanks := List.length_pos_iff.2 hne
    simp only [List.length_append] at hlength
    omega

end Parts

end Undecorate.Header
