import Mathlib.Data.List.TakeWhile
import Undecorate.Text.Lines

/-! # Texts up to the layout of their lines

Laying out a text changes its line ends and the white space that its lines start with, and nothing
else. The content of a text is what is left when all that is forgotten: every line end with the
white space behind it becomes one line feed, and white space at both ends goes.

* `reflowFrom_append`: a text is read from left to right, with one bit of memory;
* `content_isInfix`: the content of a text is found in that of every text around it;
* `Solid.exists_isInfix`: what is found in the content of a text is found in the text, but for its
  layout;
* `Solid.infix_of_no_lineEnd`: without line ends it is found as it is;
* `erase_eq_of_content`: texts with one content have the same characters besides white space.
-/

namespace Undecorate.Text

/-- A text with every line end and the white space behind it as one line feed; `behind` says whether
the text stands behind a line end. -/
def reflowFrom (behind : Bool) : List Char → List Char
  | [] => []
  | c :: cs =>
    if isLineEnd c then
      if behind then reflowFrom true cs else '\n' :: reflowFrom true cs
    else if behind && isBlank c then reflowFrom true cs
    else c :: reflowFrom false cs

/-- A text with every line end and the white space behind it as one line feed, and without white
space in front. -/
def reflow (cs : List Char) : List Char := reflowFrom true cs

/-- Whether what comes after the text stands behind a line end. -/
def behindAfter (behind : Bool) : List Char → Bool
  | [] => behind
  | c :: cs => behindAfter (isLineEnd c || (behind && isBlank c)) cs

/-- A text without the layout of its lines. -/
def content (cs : List Char) : List Char := trimEnd (reflow cs)

variable {b : Bool} {c : Char} {cs t u v w : List Char}

theorem isBlank_of_isLineEnd (h : isLineEnd c = true) : isBlank c = true := by
  unfold isLineEnd at h
  unfold isBlank CharSet.contains
  generalize c.toNat = n at h ⊢
  have hn : n = 10 ∨ n = 11 ∨ n = 12 ∨ n = 13 ∨ n = 28 ∨ n = 29 ∨ n = 30 ∨ n = 133 ∨ n = 8232 ∨
      n = 8233 := by
    simp only [Bool.or_eq_true, Bool.and_eq_true, decide_eq_true_eq, beq_iff_eq] at h
    omega
  rcases hn with rfl | rfl | rfl | rfl | rfl | rfl | rfl | rfl | rfl | rfl <;> rfl

theorem isLineEnd_of_not_blank (h : isBlank c = false) : isLineEnd c = false := by
  cases hend : isLineEnd c with
  | false => rfl
  | true => rw [isBlank_of_isLineEnd hend] at h; cases h

/-! ## One character after the other -/

theorem reflowFrom_lineEnd (h : isLineEnd c = true) :
    reflowFrom b (c :: cs) = (if b then [] else ['\n']) ++ reflowFrom true cs := by
  rw [reflowFrom, if_pos h]
  cases b <;> rfl

theorem reflowFrom_solid (h : isBlank c = false) :
    reflowFrom b (c :: cs) = c :: reflowFrom false cs := by
  simp [reflowFrom, isLineEnd_of_not_blank h, h]

theorem reflowFrom_append (b : Bool) (cs ds : List Char) :
    reflowFrom b (cs ++ ds) = reflowFrom b cs ++ reflowFrom (behindAfter b cs) ds := by
  induction cs generalizing b with
  | nil => rfl
  | cons c cs ih =>
    rw [List.cons_append, reflowFrom, reflowFrom, behindAfter]
    cases hend : isLineEnd c with
    | true => cases b <;> simp [ih]
    | false =>
      cases hskip : b && isBlank c with
      | true => simp [ih]
      | false => simp [ih]

theorem reflow_append (u v : List Char) :
    reflow (u ++ v) = reflow u ++ reflowFrom (behindAfter true u) v :=
  reflowFrom_append true u v

theorem reflowFrom_cons (b : Bool) (c : Char) (cs : List Char) :
    reflowFrom b (c :: cs) = reflowFrom b [c] ++ reflowFrom (behindAfter b [c]) cs :=
  reflowFrom_append b [c] cs

/-- A character is skipped or comes to one character. -/
theorem length_reflowFrom_singleton (b : Bool) (c : Char) : (reflowFrom b [c]).length ≤ 1 := by
  rw [reflowFrom]
  split
  · cases b <;> exact Nat.le_of_ble_eq_true rfl
  · split
    · exact Nat.zero_le 1
    · exact Nat.le_refl 1

theorem behindAfter_append (b : Bool) (cs ds : List Char) :
    behindAfter b (cs ++ ds) = behindAfter (behindAfter b cs) ds := by
  induction cs generalizing b with
  | nil => rfl
  | cons c cs ih => exact ih _

/-- White space behind a line end is skipped. -/
theorem reflowFrom_of_blank (h : w.all isBlank = true) : reflowFrom true w = [] := by
  induction w with
  | nil => rfl
  | cons c w ih =>
    rw [List.all_cons, Bool.and_eq_true] at h
    rw [reflowFrom]
    split
    · exact ih h.2
    · simp [h.1, ih h.2]

theorem behindAfter_of_blank (h : w.all isBlank = true) : behindAfter true w = true := by
  induction w with
  | nil => rfl
  | cons c w ih =>
    rw [List.all_cons, Bool.and_eq_true] at h
    rw [behindAfter, h.1, Bool.true_and, Bool.or_true]
    exact ih h.2

theorem reflow_append_of_blank (h : w.all isBlank = true) : reflow (w ++ u) = reflow u := by
  rw [reflow_append, reflow, reflowFrom_of_blank h, behindAfter_of_blank h, List.nil_append, reflow]

/-- White space comes to white space. -/
theorem all_isBlank_reflowFrom (h : w.all isBlank = true) :
    (reflowFrom b w).all isBlank = true := by
  induction w generalizing b with
  | nil => rfl
  | cons c w ih =>
    rw [List.all_cons, Bool.and_eq_true] at h
    rw [reflowFrom]
    split
    · cases b with
      | true => exact ih h.2
      | false =>
        rw [if_neg Bool.false_ne_true, List.all_cons, ih h.2]
        decide
    · split
      · exact ih h.2
      · rw [List.all_cons, h.1, ih h.2]
        rfl

/-- What stands in front of a text decides about the white space that it starts with only. -/
theorem exists_blank_append (b : Bool) (u : List Char) :
    ∃ w : List Char, w.all isBlank = true ∧ reflowFrom b u = w ++ reflow u := by
  cases b with
  | true => exact ⟨[], rfl, rfl⟩
  | false =>
    induction u with
    | nil => exact ⟨[], rfl, rfl⟩
    | cons c cs ih =>
      rw [reflow, reflowFrom, reflowFrom]
      cases isLineEnd c with
      | true => exact ⟨['\n'], by decide, rfl⟩
      | false =>
        cases hc : isBlank c with
        | false => exact ⟨[], rfl, rfl⟩
        | true =>
          obtain ⟨w, hw, hcs⟩ := ih
          refine ⟨c :: w, ?_, congrArg (c :: ·) hcs⟩
          rw [List.all_cons, hc, hw]
          rfl

theorem reflow_isInfix (a u v : List Char) : reflow u <:+: reflow (a ++ u ++ v) := by
  rw [List.append_assoc, reflow_append, reflowFrom_append]
  obtain ⟨w, -, hu⟩ := exists_blank_append (behindAfter true a) u
  rw [hu]
  exact ⟨reflow a ++ w, reflowFrom (behindAfter (behindAfter true a) u) v, by simp⟩

/-! ## White space at the end -/

theorem trimEnd_append_of_blank (h : w.all isBlank = true) : trimEnd (u ++ w) = trimEnd u := by
  unfold trimEnd
  rw [List.reverse_append, List.dropWhile_append_of_pos]
  intro c hc
  exact List.all_eq_true.1 h c (List.mem_reverse.1 hc)

/-- A text is its trimmed text with white space behind it. -/
theorem exists_trimEnd (u : List Char) : ∃ w, u = trimEnd u ++ w ∧ w.all isBlank = true := by
  refine ⟨(u.reverse.takeWhile isBlank).reverse, ?_, ?_⟩
  · rw [trimEnd, ← List.reverse_append, List.takeWhile_append_dropWhile, List.reverse_reverse]
  · rw [List.all_reverse, List.all_eq_true]
    exact fun c hc => List.mem_takeWhile_imp hc

theorem getLast?_trimEnd (u : List Char) : ∀ c ∈ (trimEnd u).getLast?, isBlank c = false := by
  intro c hc
  rw [trimEnd, List.getLast?_reverse] at hc
  have hnot := List.head?_dropWhile_not isBlank u.reverse
  rw [Option.mem_def.1 hc] at hnot
  exact hnot

theorem trimEnd_concat (hc : isBlank c = false) : trimEnd (u ++ [c]) = u ++ [c] := by
  rw [trimEnd, List.reverse_append, List.reverse_singleton, List.singleton_append,
    List.dropWhile_cons_of_neg (Bool.eq_false_iff.1 hc), List.reverse_cons, List.reverse_reverse]

/-- A text that does not end in white space is found before the white space at the end. -/
theorem isInfix_of_append_blank (hlast : ∀ c ∈ t.getLast?, isBlank c = false)
    (hw : w.all isBlank = true) (h : t <:+: u ++ w) : t <:+: u := by
  induction w generalizing u with
  | nil => rwa [List.append_nil] at h
  | cons c w ih =>
    rw [List.all_cons, Bool.and_eq_true] at hw
    rw [List.append_cons] at h
    rcases List.infix_concat_iff.1 (ih hw.2 h) with hcloses | hfound
    · rcases List.suffix_concat_iff.1 hcloses with rfl | ⟨s, rfl, -⟩
      · exact List.nil_infix
      · have hc := hlast c (by simp)
        rw [hw.1] at hc
        cases hc
    · exact hfound

/-- A text that does not start with white space is found behind the white space in front. -/
theorem isInfix_of_blank_append (hfirst : ∀ c ∈ t.head?, isBlank c = false)
    (hw : w.all isBlank = true) (h : t <:+: w ++ u) : t <:+: u := by
  induction w with
  | nil => exact h
  | cons c w ih =>
    rw [List.all_cons, Bool.and_eq_true] at hw
    rw [List.cons_append] at h
    rcases List.infix_cons_iff.1 h with hopens | hfound
    · rcases List.prefix_cons_iff.1 hopens with rfl | ⟨s, rfl, -⟩
      · exact List.nil_infix
      · have hc := hfirst c (by simp)
        rw [hw.1] at hc
        cases hc
    · exact ih hw.2 hfound

theorem isInfix_trimEnd (hlast : ∀ c ∈ t.getLast?, isBlank c = false) (h : t <:+: u) :
    t <:+: trimEnd u := by
  obtain ⟨w, hu, hw⟩ := exists_trimEnd u
  rw [hu] at h
  exact isInfix_of_append_blank hlast hw h

theorem trimEnd_isPrefix (u : List Char) : trimEnd u <+: u := by
  obtain ⟨w, hu, -⟩ := exists_trimEnd u
  exact ⟨w, hu.symm⟩

/-! ## Contents -/

theorem content_append_of_blank (h : w.all isBlank = true) : content (u ++ w) = content u := by
  rw [content, reflow_append, trimEnd_append_of_blank (all_isBlank_reflowFrom h), content]

theorem content_of_blank_append (h : w.all isBlank = true) : content (w ++ u) = content u := by
  rw [content, reflow_append_of_blank h, content]

/-- Trimming changes no content. -/
theorem content_trimBoth {p : Char → Bool} (hp : ∀ c, p c = true → isBlank c = true)
    (u : List Char) : content (trimBoth p u) = content u := by
  have hblank : ∀ w : List Char, (w.takeWhile p).all isBlank = true := fun w =>
    List.all_eq_true.2 fun c hc => hp c (List.mem_takeWhile_imp hc)
  have hlast : ((u.dropWhile p).reverse.takeWhile p).reverse.all isBlank = true := by
    rw [List.all_reverse]
    exact hblank _
  have hend : trimBoth p u ++ ((u.dropWhile p).reverse.takeWhile p).reverse = u.dropWhile p := by
    rw [trimBoth, ← List.reverse_append, List.takeWhile_append_dropWhile, List.reverse_reverse]
  calc content (trimBoth p u)
      = content (trimBoth p u ++ ((u.dropWhile p).reverse.takeWhile p).reverse) :=
        (content_append_of_blank hlast).symm
    _ = content (u.dropWhile p) := by rw [hend]
    _ = content (u.takeWhile p ++ u.dropWhile p) := (content_of_blank_append (hblank u)).symm
    _ = content u := by rw [List.takeWhile_append_dropWhile]

theorem content_trim (u : List Char) : content (trim u) = content u :=
  content_trimBoth (fun _ h => h) u

/-- The content of a text is found in that of every text around it. -/
theorem content_isInfix (a u v : List Char) : content u <:+: content (a ++ u ++ v) := by
  refine isInfix_trimEnd (getLast?_trimEnd _) ?_
  exact (trimEnd_isPrefix _).isInfix.trans (reflow_isInfix a u v)

theorem content_isInfix_of_isInfix (h : t <:+: u) : content t <:+: content u := by
  obtain ⟨a, v, rfl⟩ := h
  exact content_isInfix a t v

/-! ## Back to the text -/

/-- A text that starts and ends with a character that is no white space. -/
structure Solid (t : List Char) : Prop where
  first : ∃ c, t.head? = some c ∧ isBlank c = false
  last : ∃ c, t.getLast? = some c ∧ isBlank c = false

theorem Solid.content_eq (h : Solid t) : content t = reflow t := by
  obtain ⟨c, hlast, hc⟩ := h.last
  obtain ⟨s, rfl⟩ := List.getLast?_eq_some_iff.1 hlast
  rw [content, reflow_append, reflowFrom_solid hc, reflowFrom]
  exact trimEnd_concat hc

theorem Solid.head?_content (h : Solid t) : (content t).head? = t.head? := by
  obtain ⟨c, hfirst, hc⟩ := h.first
  obtain ⟨cs, rfl⟩ := List.head?_eq_some_iff.1 hfirst
  rw [h.content_eq, reflow, reflowFrom_solid hc]
  rfl

theorem Solid.getLast?_content (h : Solid t) : (content t).getLast? = t.getLast? := by
  obtain ⟨c, hlast, hc⟩ := h.last
  obtain ⟨s, rfl⟩ := List.getLast?_eq_some_iff.1 hlast
  rw [h.content_eq, reflow_append, reflowFrom_solid hc, reflowFrom, List.getLast?_concat,
    List.getLast?_concat]

/-- A prefix of what a text comes to is what a prefix of the text comes to. -/
theorem exists_append_of_reflowFrom (b : Bool) (v x y : List Char)
    (h : reflowFrom b v = x ++ y) :
    ∃ v₁ v₂, v = v₁ ++ v₂ ∧ reflowFrom b v₁ = x ∧ reflowFrom (behindAfter b v₁) v₂ = y := by
  induction v generalizing b x with
  | nil =>
    obtain ⟨rfl, rfl⟩ := List.append_eq_nil_iff.1 h.symm
    exact ⟨[], [], rfl, rfl, rfl⟩
  | cons c v ih =>
    cases x with
    | nil => exact ⟨[], c :: v, rfl, rfl, h⟩
    | cons d x =>
      -- a character that is skipped goes to the prefix, and any other one pays for one of `x`
      rw [reflowFrom_cons] at h
      have hlength := length_reflowFrom_singleton b c
      cases hc : reflowFrom b [c] with
      | nil =>
        rw [hc, List.nil_append] at h
        obtain ⟨v₁, v₂, rfl, hv₁, hv₂⟩ := ih (behindAfter b [c]) (d :: x) h
        refine ⟨c :: v₁, v₂, rfl, ?_, hv₂⟩
        rw [reflowFrom_cons, hc, hv₁, List.nil_append]
      | cons e es =>
        rw [hc, List.length_cons] at hlength
        obtain rfl := List.eq_nil_of_length_eq_zero (Nat.le_zero.1 (Nat.le_of_succ_le_succ hlength))
        rw [hc, List.singleton_append, List.cons_append, List.cons.injEq] at h
        obtain ⟨v₁, v₂, rfl, hv₁, hv₂⟩ := ih (behindAfter b [c]) x h.2
        refine ⟨c :: v₁, v₂, rfl, ?_, hv₂⟩
        rw [reflowFrom_cons, hc, hv₁, h.1, List.singleton_append]

/-- A text that comes to something that does not start with white space starts so itself. -/
theorem reflow_eq_of_solid {s : List Char} (h : reflowFrom false s = reflow (c :: cs))
    (hc : isBlank c = false) : reflow s = reflowFrom false s := by
  rw [reflow, reflowFrom_solid hc] at h
  cases s with
  | nil => cases h
  | cons d s =>
    cases hd : isBlank d with
    | false => rw [reflow, reflowFrom_solid hd, reflowFrom_solid hd]
    | true =>
      rw [reflowFrom, hd, Bool.false_and, if_neg Bool.false_ne_true] at h
      split at h
      · obtain ⟨rfl, -⟩ := List.cons.inj h
        cases hc
      · obtain ⟨rfl, -⟩ := List.cons.inj h
        rw [hd] at hc
        cases hc

/-- What is found in the content of a text is found in the text itself, up to the layout of its
lines. -/
theorem Solid.exists_isInfix (h : Solid t) (hshown : content t <:+: content v) :
    ∃ t', t' <:+: v ∧ reflow t' = reflow t ∧ ∃ c, t'.head? = some c ∧ isBlank c = false := by
  rw [h.content_eq] at hshown
  obtain ⟨a, z, hv⟩ := hshown.trans (trimEnd_isPrefix (reflow v)).isInfix
  rw [List.append_assoc] at hv
  obtain ⟨v₁, v₂, rfl, -, hv₂⟩ := exists_append_of_reflowFrom true v a _ hv.symm
  obtain ⟨s, v₃, rfl, hs, -⟩ := exists_append_of_reflowFrom _ v₂ _ _ hv₂
  obtain ⟨c, hc, hblank⟩ := h.first
  obtain ⟨cs, rfl⟩ := List.head?_eq_some_iff.1 hc
  have hreflow : reflow s = reflow (c :: cs) := by
    cases hbehind : behindAfter true v₁ with
    | true => rwa [hbehind] at hs
    | false => exact (reflow_eq_of_solid (hbehind ▸ hs) hblank).trans (hbehind ▸ hs)
  have hdrop : reflow (s.dropWhile isBlank) = reflow (c :: cs) := by
    rw [← hreflow, ← reflow_append_of_blank (w := s.takeWhile isBlank),
      List.takeWhile_append_dropWhile]
    exact List.all_eq_true.2 fun c hc => List.mem_takeWhile_imp hc
  refine ⟨s.dropWhile isBlank, ?_, hdrop, ?_⟩
  · refine (List.dropWhile_suffix _).isInfix.trans ?_
    exact ⟨v₁, v₃, List.append_assoc _ _ _⟩
  · have hnot := List.head?_dropWhile_not isBlank s
    cases hhead : s.dropWhile isBlank with
    | nil =>
      rw [hhead, reflow, reflow, reflowFrom_solid hblank] at hdrop
      cases hdrop
    | cons d ds =>
      rw [hhead] at hnot
      exact ⟨d, rfl, hnot⟩

/-! ## Without line ends -/

theorem reflowFrom_eq_self (h : cs.any isLineEnd = false) : reflowFrom false cs = cs := by
  induction cs with
  | nil => rfl
  | cons c cs ih =>
    rw [List.any_cons, Bool.or_eq_false_iff] at h
    simp [reflowFrom, h.1, ih h.2]

/-- A line end shows. -/
theorem mem_reflowFrom_of_lineEnd (h : cs.any isLineEnd = true) : '\n' ∈ reflowFrom false cs := by
  induction cs with
  | nil => cases h
  | cons c cs ih =>
    rw [reflowFrom]
    cases hc : isLineEnd c with
    | true => exact List.mem_cons_self
    | false =>
      rw [List.any_cons, hc, Bool.false_or] at h
      exact List.mem_cons_of_mem c (ih h)

/-- A text on one line is found as it is. -/
theorem Solid.infix_of_no_lineEnd (h : Solid t) (hline : t.any isLineEnd = false)
    (hshown : content t <:+: content v) : t <:+: v := by
  obtain ⟨t', hfound, hreflow, d, hd, hsolid⟩ := h.exists_isInfix hshown
  obtain ⟨c, hc, hblank⟩ := h.first
  obtain ⟨cs, rfl⟩ := List.head?_eq_some_iff.1 hc
  obtain ⟨ds, rfl⟩ := List.head?_eq_some_iff.1 hd
  rw [List.any_cons, Bool.or_eq_false_iff] at hline
  rw [reflow, reflow, reflowFrom_solid hsolid, reflowFrom_solid hblank,
    reflowFrom_eq_self hline.2, List.cons.injEq] at hreflow
  obtain ⟨rfl, hrest⟩ := hreflow
  have hds : ds.any isLineEnd = false := by
    refine Bool.eq_false_iff.2 fun hends => ?_
    have hmem := mem_reflowFrom_of_lineEnd hends
    rw [hrest] at hmem
    exact absurd (List.any_eq_false.1 hline.2 _ hmem) (by decide)
  rw [reflowFrom_eq_self hds] at hrest
  exact hrest ▸ hfound

/-! ## Without white space -/

theorem erase_append (u v : List Char) : erase (u ++ v) = erase u ++ erase v :=
  List.filter_append u v

theorem erase_of_blank (h : w.all isBlank = true) : erase w = [] := by
  refine List.filter_eq_nil_iff.2 fun c hc => ?_
  rw [List.all_eq_true.1 h c hc]
  decide

theorem erase_cons_blank (h : isBlank c = true) : erase (c :: cs) = erase cs := by
  rw [erase, List.filter_cons_of_neg (by simp [h]), erase]

theorem erase_cons_solid (h : isBlank c = false) : erase (c :: cs) = c :: erase cs := by
  rw [erase, List.filter_cons_of_pos (by simp [h]), erase]

theorem erase_reflowFrom (b : Bool) (cs : List Char) : erase (reflowFrom b cs) = erase cs := by
  have hfeed : isBlank '\n' = true := by decide
  induction cs generalizing b with
  | nil => rfl
  | cons c cs ih =>
    cases hc : isBlank c with
    | false => rw [reflowFrom_solid hc, erase_cons_solid hc, erase_cons_solid hc, ih]
    | true =>
      rw [erase_cons_blank hc, reflowFrom]
      split
      · split
        · exact ih true
        · rw [erase_cons_blank hfeed, ih]
      · split
        · exact ih true
        · rw [erase_cons_blank hc, ih]

/-- The content of a text has all of its characters besides white space. -/
theorem erase_content (cs : List Char) : erase (content cs) = erase cs := by
  obtain ⟨w, hreflow, hw⟩ := exists_trimEnd (reflow cs)
  calc erase (content cs)
      = erase (trimEnd (reflow cs) ++ w) := by
        rw [erase_append, erase_of_blank hw, List.append_nil, content]
    _ = erase (reflow cs) := by rw [← hreflow]
    _ = erase cs := erase_reflowFrom true cs

theorem erase_eq_of_content (h : content u = content v) : erase u = erase v := by
  rw [← erase_content u, h, erase_content]

end Undecorate.Text
