import Mathlib.Data.List.Basic
import Undecorate.Layout
import Undecorate.Proofs.Text.Pieces
import Undecorate.Proofs.Text.Reflow

/-! # Layout keeps contents

Whatever the layout does to a fragment, its content stays: lines are moved to the right or to the
left, blank ones become empty, and line ends become line feeds. A template literal is laid out with
the code around it, so on several lines it only keeps its content.

* `content_rebase`, `content_applyIndentation`, `content_continueAt`: fragments are moved;
* `Unbraced.content_blockBody`: the statements inside braces are taken out of them;
* `content_block`: what is set in braces is found there;
* `erase_indentLines`, `erase_block`: nothing else is there, and all of it in its order.
-/

namespace Undecorate.Layout

open Text

variable {l l' m m' indent code : List Char} {ls : List (List Char)}

/-! ## Lines -/

/-- Behind a line end, one line can stand for the other: they differ in what they start with. -/
structure Reindented (l l' : List Char) : Prop where
  reflow : reflowFrom true l = reflowFrom true l'
  behind : behindAfter true l = behindAfter true l'

namespace Reindented

theorem refl (l : List Char) : Reindented l l := ⟨rfl, rfl⟩

theorem trans {l'' : List Char} (h : Reindented l l') (h' : Reindented l' l'') :
    Reindented l l'' := ⟨h.reflow.trans h'.reflow, h.behind.trans h'.behind⟩

theorem symm (h : Reindented l l') : Reindented l' l := ⟨h.reflow.symm, h.behind.symm⟩

theorem of_blank {w : List Char} (hw : w.all isBlank = true) (l : List Char) :
    Reindented (w ++ l) l where
  reflow := reflow_append_of_blank hw
  behind := by rw [behindAfter_append, behindAfter_of_blank hw]

/-- A blank line can be an empty one. -/
theorem nil_of_blank (hl : l.all isBlank = true) : Reindented [] l where
  reflow := (reflowFrom_of_blank hl).symm
  behind := (behindAfter_of_blank hl).symm

theorem append_line (h : Reindented l l') (hm : Reindented m m') :
    Reindented (l ++ ['\n'] ++ m) (l' ++ ['\n'] ++ m') := by
  have hend : ∀ b (cs : List Char), reflowFrom b ('\n' :: cs) =
      (if b then [] else ['\n']) ++ reflowFrom true cs := fun _ _ => reflowFrom_lineEnd rfl
  have hbehind : ∀ b (cs : List Char), behindAfter b ('\n' :: cs) = behindAfter true cs :=
    fun _ _ => rfl
  constructor
  · rw [List.append_assoc, List.append_assoc, List.singleton_append, List.singleton_append,
      reflowFrom_append, reflowFrom_append, hend, hend, h.reflow, h.behind, hm.reflow]
  · rw [List.append_assoc, List.append_assoc, List.singleton_append, List.singleton_append,
      behindAfter_append, behindAfter_append, hbehind, hbehind, hm.behind]

theorem joinLines {f : List Char → List Char} (h : ∀ l ∈ ls, Reindented (f l) l) :
    Reindented (Text.joinLines (ls.map f)) (Text.joinLines ls) := by
  induction ls with
  | nil => exact refl _
  | cons l ls ih =>
    obtain ⟨hl, hls⟩ := List.forall_mem_cons.1 h
    cases ls with
    | nil => exact hl
    | cons m ls => exact hl.append_line (ih hls)

theorem content (h : Reindented l l') : Text.content l = Text.content l' := by
  rw [Text.content, Text.content, Text.reflow, Text.reflow, h.reflow]

end Reindented

/-! ## Moving lines -/

/-- The lines behind the first may be moved. -/
theorem reindented_mapTail {f : List Char → List Char} (h : ∀ l, Reindented (f l) l)
    (code : List Char) : Reindented (mapTail f code) code := by
  have hcode := joinWith_pieces '\n' code
  unfold mapTail
  cases hp : pieces '\n' code with
  | nil => exact absurd hp (pieces_ne_nil _ _)
  | cons first rest =>
    rw [hp] at hcode
    dsimp only
    cases rest with
    | nil =>
      rw [← hcode]
      exact .refl _
    | cons m rest =>
      have hrest : Reindented (joinLines ((m :: rest).map f)) (joinLines (m :: rest)) :=
        .joinLines fun l _ => h l
      have hwhole := (Reindented.refl first).append_line hrest
      have hjoin : first ++ ['\n'] ++ joinLines (m :: rest) = code := hcode
      rw [hjoin] at hwhole
      exact hwhole

theorem reindented_unindent (n : Nat) (l : List Char) : Reindented (unindent n l) l := by
  have hblank : (l.take (min (indentation l).length n)).all isBlank = true := by
    have hopens : l.take (min (indentation l).length n) =
        (indentation l).take (min (indentation l).length n) := by
      have hl : indentation l ++ l.dropWhile isBlank = l := List.takeWhile_append_dropWhile
      rw [← List.take_append_of_le_length (Nat.min_le_left _ n), hl]
    rw [hopens]
    exact List.all_eq_true.2 fun c hc => List.mem_takeWhile_imp (List.mem_of_mem_take hc)
  have hsplit := Reindented.of_blank hblank (unindent n l)
  have hl : l.take (min (indentation l).length n) ++ unindent n l = l := List.take_append_drop _ _
  rw [hl] at hsplit
  exact hsplit.symm

theorem content_rebase (code : List Char) : content (rebase code) = content code := by
  unfold rebase
  split
  · split
    · rfl
    · exact (reindented_mapTail (reindented_unindent _) code).content
  · rfl

theorem content_continueAt (h : indent.all isBlank = true) (code : List Char) :
    content (continueAt indent code) = content code := by
  refine (reindented_mapTail (fun l => ?_) code).content
  split
  · exact .refl l
  · exact .of_blank h l

/-! ## Indentation -/

/-- A line with its end comes to the line and a line feed, which goes if nothing follows. -/
theorem reflow_line_append {line cs : List Char} {ls : List (List Char)} (ends : List Char)
    (hends : ∀ b, reflowFrom b (ends ++ cs) = (if b then [] else ['\n']) ++ reflow cs)
    (ih : ∃ e : List Char, e.all isBlank = true ∧ reflow cs = reflow (joinLines ls) ++ e) :
    ∃ e : List Char, e.all isBlank = true ∧
      reflow (line ++ (ends ++ cs)) = reflow (joinLines (line :: ls)) ++ e := by
  obtain ⟨e, he, hcs⟩ := ih
  have hreflow : reflow (line ++ (ends ++ cs)) = reflow line ++
      ((if behindAfter true line then [] else ['\n']) ++ (reflow (joinLines ls) ++ e)) := by
    rw [reflow_append, hends, hcs]
  cases ls with
  | nil =>
    refine ⟨(if behindAfter true line then [] else ['\n']) ++ e, ?_, hreflow⟩
    rw [List.all_append, he]
    cases behindAfter true line <;> rfl
  | cons m ls =>
    refine ⟨e, he, ?_⟩
    have hjoin : joinLines (line :: m :: ls) = line ++ ('\n' :: joinLines (m :: ls)) := by
      rw [joinLines, joinWith, List.append_assoc]
      rfl
    rw [hreflow, hjoin, reflow_append, reflowFrom_lineEnd rfl]
    simp only [List.append_assoc]
    rfl

theorem reflow_splitLinesFrom (line cs : List Char) : ∃ e : List Char, e.all isBlank = true ∧
    reflow (line.reverse ++ cs) = reflow (joinLines (splitLinesFrom line cs)) ++ e := by
  fun_induction splitLinesFrom line cs with
  | case1 line hline =>
    obtain rfl := List.isEmpty_iff.1 hline
    exact ⟨[], rfl, rfl⟩
  | case2 line hline =>
    refine ⟨[], rfl, ?_⟩
    rw [List.append_nil, List.append_nil]
    rfl
  | case3 line cs ih =>
    refine reflow_line_append ['\r', '\n'] (fun b => ?_) ih
    cases b <;> rfl
  | case4 line c cs _ hc ih =>
    refine reflow_line_append [c] (fun b => ?_) ih
    rw [List.singleton_append, reflowFrom_lineEnd hc, reflow]
  | case5 line c cs _ hc ih =>
    rwa [List.reverse_cons, List.append_assoc, List.singleton_append] at ih

/-- Lines of every kind are joined by line feeds; a line end at the end goes. -/
theorem content_joinLines_splitLines (cs : List Char) :
    content (joinLines (splitLines cs)) = content cs := by
  obtain ⟨e, he, hcs⟩ := reflow_splitLinesFrom [] cs
  rw [List.reverse_nil, List.nil_append] at hcs
  rw [content, content, hcs, trimEnd_append_of_blank he, splitLines]

theorem reindented_indentLine (h : indent.all isBlank = true) (l : List Char) :
    Reindented (indentLine indent l) l := by
  unfold indentLine
  split
  · exact .nil_of_blank ‹_›
  · exact .of_blank h l

theorem content_applyIndentation (h : indent.all isBlank = true) (code : List Char) :
    content (applyIndentation indent code) = content code := by
  unfold applyIndentation
  rw [(Reindented.joinLines fun l _ => reindented_indentLine h l).content,
    content_joinLines_splitLines]

/-! ## Margins -/

theorem commonStart_isPrefix (as bs : List Char) : commonStart as bs <+: as := by
  fun_induction commonStart as bs with
  | case1 a as bs ih => exact List.cons_prefix_cons.2 ⟨rfl, ih⟩
  | case2 => exact List.nil_prefix
  | case3 => exact List.nil_prefix

theorem foldl_commonStart_isPrefix (ms : List (List Char)) (m : List Char) :
    ms.foldl commonStart m <+: m := by
  induction ms generalizing m with
  | nil => exact List.prefix_rfl
  | cons n ms ih => exact (ih _).trans (commonStart_isPrefix m n)

theorem isBlank_of_isMargin {c : Char} (h : isMargin c = true) : isBlank c = true := by
  unfold isMargin at h
  simp only [Bool.or_eq_true, beq_iff_eq] at h
  rcases h with rfl | rfl <;> rfl

theorem all_isBlank_margin (ls : List (List Char)) : (margin ls).all isBlank = true := by
  unfold margin
  split
  · rfl
  · rename_i m ms hm
    have hmem : m ∈ (ls.filter (·.any (!isMargin ·))).map (·.takeWhile isMargin) :=
      hm ▸ List.mem_cons_self
    obtain ⟨l, -, rfl⟩ := List.mem_map.1 hmem
    refine List.all_eq_true.2 fun c hc => isBlank_of_isMargin ?_
    exact List.mem_takeWhile_imp ((foldl_commonStart_isPrefix ms _).subset hc)

theorem content_dedent (code : List Char) : content (dedent code) = content code := by
  have hline : ∀ m l : List Char, m.all isBlank = true → Reindented
      (if m.isPrefixOf l then l.drop m.length else l) l := by
    intro m l hm
    split
    · rename_i hopens
      obtain ⟨rest, rfl⟩ := List.isPrefixOf_iff_prefix.1 hopens
      rw [List.drop_left]
      exact (Reindented.of_blank hm rest).symm
    · exact .refl l
  have hblank : ∀ l : List Char, Reindented (if l.all isMargin then [] else l) l := by
    intro l
    split
    · rename_i hl
      refine .nil_of_blank (List.all_eq_true.2 fun c hc => ?_)
      exact isBlank_of_isMargin (List.all_eq_true.1 hl c hc)
    · exact .refl l
  have hlines : Reindented (dedent code) (joinLines (pieces '\n' code)) := by
    unfold dedent
    refine (Reindented.joinLines fun l _ => hline _ l (all_isBlank_margin _)).trans ?_
    exact .joinLines fun l _ => hblank l
  rw [hlines.content, joinLines, joinWith_pieces]

/-! ## Braces -/

/-- A text that is not cut by braces or white space around it. -/
structure Unbraced (t : List Char) : Prop extends Solid t where
  opening : t.head? ≠ some '\x7b'
  closing : t.getLast? ≠ some '\x7d'

variable {t : List Char}

/-- What is found in braces is found inside them. -/
theorem Unbraced.content_inner (h : Unbraced t) {inner : List Char}
    (hshown : content t <:+: content ('\x7b' :: (inner ++ ['\x7d']))) :
    content t <:+: content inner := by
  have hblock : content ('\x7b' :: (inner ++ ['\x7d'])) =
      '\x7b' :: (reflowFrom false inner ++ ['\x7d']) := by
    rw [content, reflow, reflowFrom_solid (by decide), reflowFrom_append,
      reflowFrom_solid (by decide), reflowFrom]
    exact trimEnd_concat (u := '\x7b' :: reflowFrom false inner) (by decide)
  rw [hblock] at hshown
  have hfirst := h.toSolid.head?_content
  have hlast := h.toSolid.getLast?_content
  have hne : content t ≠ [] := by
    obtain ⟨c, hc, -⟩ := h.first
    rw [hc] at hfirst
    rintro hnil
    rw [hnil] at hfirst
    cases hfirst
  -- the opening brace is not its first character, nor the closing one its last
  have hopened : content t <:+: reflowFrom false inner ++ ['\x7d'] := by
    rcases List.infix_cons_iff.1 hshown with hopens | hfound
    · rcases List.prefix_cons_iff.1 hopens with hnil | ⟨s, hs, -⟩
      · exact absurd hnil hne
      · rw [hs] at hfirst
        exact absurd hfirst.symm h.opening
    · exact hfound
  have hclosed : content t <:+: reflowFrom false inner := by
    rcases List.infix_concat_iff.1 hopened with hcloses | hfound
    · rcases List.suffix_concat_iff.1 hcloses with hnil | ⟨s, hs, -⟩
      · exact absurd hnil hne
      · rw [hs, List.getLast?_concat] at hlast
        exact absurd hlast.symm h.closing
    · exact hfound
  obtain ⟨w, hw, hinner⟩ := exists_blank_append false inner
  rw [hinner] at hclosed
  refine isInfix_trimEnd (getLast?_trimEnd _) (isInfix_of_blank_append ?_ hw hclosed)
  intro c hc
  obtain ⟨d, hd, hblank⟩ := h.first
  rw [hfirst, hd, Option.mem_some_iff] at hc
  exact hc ▸ hblank

/-- The statements inside braces keep their content. -/
theorem Unbraced.content_blockBody (h : Unbraced t) {block : List Char}
    (hshown : content t <:+: content block) : content t <:+: content (blockBody block) := by
  have hinner : content t <:+: content (trim (rebase block)) := by
    rwa [content_trim, content_rebase]
  have hnewline : ∀ c, (c == '\n') = true → isBlank c = true := by
    intro c hc
    rw [beq_iff_eq] at hc
    subst hc
    rfl
  unfold blockBody
  dsimp only
  rw [content_trim, content_dedent, content_trimBoth hnewline]
  split
  · rename_i hbraces
    rw [Bool.and_eq_true, decide_eq_true_eq, decide_eq_true_eq] at hbraces
    obtain ⟨rest, hrest⟩ := List.head?_eq_some_iff.1 hbraces.1
    rw [hrest] at hbraces hinner ⊢
    cases hlast : rest.getLast? with
    | none =>
      rw [List.getLast?_eq_none_iff] at hlast
      subst hlast
      cases hbraces.2
    | some c =>
      obtain ⟨inner, rfl⟩ := List.getLast?_eq_some_iff.1 hlast
      obtain rfl : c = '\x7d' := by
        rw [← List.cons_append, List.getLast?_concat] at hbraces
        exact Option.some.inj hbraces.2
      rw [List.drop_one, List.tail_cons, List.dropLast_concat]
      exact h.content_inner hinner
  · exact hinner

/-! ## Blocks -/

theorem infix_joinLines (h : l ∈ ls) : l <:+: joinLines ls := by
  induction ls with
  | nil => cases h
  | cons m ls ih =>
    cases ls with
    | nil =>
      obtain rfl := List.mem_singleton.1 h
      exact List.infix_rfl
    | cons n ls =>
      rcases List.mem_cons.1 h with rfl | h
      · exact ⟨[], ['\n'] ++ joinLines (n :: ls), by simp [joinLines, joinWith]⟩
      · exact (ih h).trans (List.suffix_append (m ++ ['\n']) _).isInfix

theorem all_isBlank_levelIndent (n : Nat) : (levelIndent n).all isBlank = true := by
  refine List.all_eq_true.2 fun c hc => ?_
  obtain rfl := List.eq_of_mem_replicate hc
  rfl

/-- A statement keeps its content on lines of its own. -/
theorem content_indentLines (size levels : Nat) {statements : List (List Char)}
    (h : l ∈ statements) : content l <:+: content (indentLines size levels statements) := by
  rw [← content_applyIndentation (all_isBlank_levelIndent (size * levels)) l]
  exact content_isInfix_of_isInfix (infix_joinLines (List.mem_map_of_mem h))

/-- An entry keeps its content in braces. -/
theorem content_block (size : Nat) (header : List Char) {entries : List (List Char)}
    (h : l ∈ entries) : content l <:+: content (block size header entries) := by
  have hne : entries.isEmpty = false := by
    cases entries with
    | nil => cases h
    | cons => rfl
  unfold block
  rw [hne, if_neg Bool.false_ne_true]
  exact (content_indentLines size 1 h).trans (content_isInfix _ _ _)

/-! ## White space only -/

theorem erase_rebase (code : List Char) : erase (rebase code) = erase code :=
  erase_eq_of_content (content_rebase code)

theorem erase_continueAt (h : indent.all isBlank = true) (code : List Char) :
    erase (continueAt indent code) = erase code :=
  erase_eq_of_content (content_continueAt h code)

theorem erase_applyIndentation (h : indent.all isBlank = true) (code : List Char) :
    erase (applyIndentation indent code) = erase code :=
  erase_eq_of_content (content_applyIndentation h code)

theorem erase_joinLines (ls : List (List Char)) : erase (joinLines ls) = ls.flatMap erase := by
  induction ls with
  | nil => rfl
  | cons l ls ih =>
    cases ls with
    | nil => exact (List.append_nil _).symm
    | cons m ls =>
      have hjoin : joinLines (l :: m :: ls) = l ++ ['\n'] ++ joinLines (m :: ls) := rfl
      rw [hjoin, erase_append, erase_append, ih, erase_of_blank (w := ['\n']) rfl, List.append_nil,
        ← List.flatMap_cons]

/-- Statements on lines of their own are the statements one after the other. -/
theorem erase_indentLines (size levels : Nat) (statements : List (List Char)) :
    erase (indentLines size levels statements) = statements.flatMap erase := by
  have hindent := all_isBlank_levelIndent (size * levels)
  unfold indentLines
  rw [erase_joinLines, List.flatMap_map]
  exact List.flatMap_congr fun l _ => erase_applyIndentation hindent l

/-- A block is its header and then its entries in braces. -/
theorem erase_block (size : Nat) (header : List Char) (entries : List (List Char)) :
    erase (block size header entries) =
      erase header ++ '\x7b' :: (entries.flatMap erase ++ ['\x7d']) := by
  unfold block
  cases entries with
  | nil =>
    rw [List.isEmpty_nil, if_pos rfl, erase_append]
    rfl
  | cons l ls =>
    rw [List.isEmpty_cons, if_neg Bool.false_ne_true]
    simp only [erase_append, erase_indentLines, List.append_assoc]
    rfl

end Undecorate.Layout
