import Mathlib.Data.List.Infix
import Undecorate.Expression.Brackets

/-! # Brackets and quoted sections

What the two scanners of expression text see, told without their states. A text whose quotes are
all closed falls into stretches: characters outside quotes, and quoted sections in which a backslash
takes the character behind it along. Both scanners compare numbers of brackets of any kind. The
first one counts all of them, and the second one those outside quotes.

* `Nested`: nothing is closed that was not opened, and nothing stays open;
* `balanced_iff_nested`: what the first scanner accepts;
* `Stretch`, `exists_stretches_iff`: the second scanner ends outside quotes iff all are closed;
* `tracks_iff_nested`: what the depth of the second scanner tells.
-/

namespace Undecorate.Brackets

variable {c q : Char} {cs ds body rest front : List Char} {d : Int} {n : Nat} {s : Scan}

/-! ## Levels -/

/-- How many more brackets a text opens than it closes. -/
def level (cs : List Char) : Int := (cs.countP isOpening : Int) - cs.countP isClosing

theorem isClosing_of_isOpening (h : isOpening c = true) : isClosing c = false := by
  simp only [isOpening, Bool.or_eq_true, beq_iff_eq] at h
  rcases h with (rfl | rfl) | rfl <;> decide

@[simp] theorem level_nil : level [] = 0 := rfl

@[simp] theorem level_append (cs ds : List Char) : level (cs ++ ds) = level cs + level ds := by
  simp only [level, List.countP_append]
  omega

theorem level_cons (c : Char) (cs : List Char) : level (c :: cs) = level [c] + level cs :=
  level_append [c] cs

theorem level_opening (h : isOpening c = true) : level [c] = 1 := by
  simp [level, h, isClosing_of_isOpening h]

theorem level_closing (hopen : isOpening c = false) (h : isClosing c = true) : level [c] = -1 := by
  simp [level, h, hopen]

theorem level_other (hopen : isOpening c = false) (h : isClosing c = false) : level [c] = 0 := by
  simp [level, h, hopen]

/-- A property of all beginnings of a text, piece by piece. -/
theorem forall_prefix_append {P : List Char → Prop} : (∀ front, front <+: cs ++ ds → P front) ↔
    (∀ front, front <+: cs → P front) ∧ ∀ front, front <+: ds → P (cs ++ front) := by
  constructor
  · intro h
    exact ⟨fun front hfront => h front (hfront.trans (List.prefix_append cs ds)),
      fun front hfront => h _ ((List.prefix_append_right_inj cs).2 hfront)⟩
  · rintro ⟨hcs, hds⟩ front hfront
    rcases List.prefix_or_prefix_of_prefix hfront (List.prefix_append cs ds) with hin | ⟨tail, rfl⟩
    · exact hcs front hin
    · exact hds tail ((List.prefix_append_right_inj cs).1 hfront)

/-- Inside `d` brackets, the text closes at no point more than was opened. -/
def NeverBelow (d : Int) (cs : List Char) : Prop := ∀ front, front <+: cs → 0 ≤ d + level front

theorem NeverBelow.nonneg (h : NeverBelow d cs) : 0 ≤ d := by
  simpa using h [] List.nil_prefix

theorem neverBelow_nil : NeverBelow d [] ↔ 0 ≤ d := by
  simp [NeverBelow]

theorem neverBelow_append :
    NeverBelow d (cs ++ ds) ↔ NeverBelow d cs ∧ NeverBelow (d + level cs) ds := by
  unfold NeverBelow
  rw [forall_prefix_append]
  simp only [level_append, Int.add_assoc]

theorem neverBelow_singleton : NeverBelow d [c] ↔ 0 ≤ d ∧ 0 ≤ d + level [c] := by
  simp [NeverBelow, List.prefix_cons_iff]

theorem neverBelow_cons : NeverBelow d (c :: cs) ↔ 0 ≤ d ∧ NeverBelow (d + level [c]) cs := by
  rw [← List.singleton_append, neverBelow_append, neverBelow_singleton, and_assoc]
  exact and_congr_right fun _ => and_iff_right_of_imp NeverBelow.nonneg

/-- A text closes nothing that it has not opened, and leaves nothing open. The kinds of brackets do
not matter. -/
structure Nested (cs : List Char) : Prop where
  opened : ∀ front, front <+: cs → 0 ≤ level front
  closed : level cs = 0

theorem nested_iff : Nested cs ↔ NeverBelow 0 cs ∧ level cs = 0 := by
  simp only [NeverBelow, Int.zero_add]
  exact ⟨fun h => ⟨h.opened, h.closed⟩, fun h => ⟨h.1, h.2⟩⟩

theorem Nested.neverBelow (h : Nested cs) (hd : 0 ≤ d) : NeverBelow d cs := by
  intro front hfront
  have := h.opened front hfront
  omega

/-- A nested text in front makes no difference. -/
theorem Nested.neverBelow_append_iff (h : Nested cs) :
    NeverBelow d (cs ++ ds) ↔ NeverBelow d ds := by
  rw [neverBelow_append, h.closed, Int.add_zero]
  exact and_iff_right_of_imp fun hds => h.neverBelow hds.nonneg

theorem Nested.append (hcs : Nested cs) (hds : Nested ds) : Nested (cs ++ ds) := by
  refine nested_iff.2 ⟨hcs.neverBelow_append_iff.2 (hds.neverBelow (Int.le_refl 0)), ?_⟩
  rw [level_append, hcs.closed, hds.closed]
  rfl

theorem nested_of_no_brackets (h : ∀ c ∈ cs, isOpening c = false ∧ isClosing c = false) :
    Nested cs := by
  have hlevel : ∀ front ⊆ cs, level front = 0 := by
    intro front hfront
    have hopen : front.countP isOpening = 0 :=
      List.countP_eq_zero.2 fun c hc => by simp [(h c (hfront hc)).1]
    have hclose : front.countP isClosing = 0 :=
      List.countP_eq_zero.2 fun c hc => by simp [(h c (hfront hc)).2]
    rw [level, hopen, hclose]
    rfl
  exact ⟨fun front hfront => Int.le_of_eq (hlevel front hfront.subset).symm,
    hlevel cs (List.Subset.refl cs)⟩

/-- A pair of parentheses around a nested text. -/
theorem Nested.enclose (h : Nested cs) : Nested ('(' :: cs ++ [')']) := by
  have hopen : level ['('] = 1 := by decide
  have hclose : level [')'] = -1 := by decide
  refine nested_iff.2 ⟨?_, ?_⟩
  · rw [List.cons_append, neverBelow_cons, neverBelow_append, neverBelow_singleton, hopen, hclose,
      h.closed]
    exact ⟨Int.le_refl 0, h.neverBelow (by decide), by decide⟩
  · rw [List.cons_append, level_cons, level_append, hopen, hclose, h.closed]
    rfl

/-- A text with matching brackets goes unnoticed wherever it stands. -/
theorem Nested.insert_iff (h : Nested body) (cs ds : List Char) :
    Nested (cs ++ (body ++ ds)) ↔ Nested (cs ++ ds) := by
  rw [nested_iff, nested_iff, neverBelow_append, h.neverBelow_append_iff, neverBelow_append,
    level_append, level_append, level_append, h.closed, Int.zero_add (level ds)]

/-! ## The first scanner -/

theorem balancedFrom_opening (h : isOpening c = true) :
    balancedFrom n (c :: cs) = balancedFrom (n + 1) cs := by
  simp [balancedFrom, h]

theorem balancedFrom_other (hopen : isOpening c = false) (h : isClosing c = false) :
    balancedFrom n (c :: cs) = balancedFrom n cs := by
  simp [balancedFrom, hopen, h]

theorem balancedFrom_iff : balancedFrom n cs = true ↔ NeverBelow n cs ∧ n + level cs = 0 := by
  induction cs generalizing n with
  | nil => simp [balancedFrom, neverBelow_nil]
  | cons c cs ih =>
    rw [neverBelow_cons, level_cons c cs, ← Int.add_assoc, and_iff_right (Int.natCast_nonneg n)]
    by_cases hopen : isOpening c = true
    · rw [balancedFrom_opening hopen, ih, level_opening hopen, Int.natCast_succ]
    rw [Bool.not_eq_true] at hopen
    by_cases hclose : isClosing c = true
    · rw [level_closing hopen hclose]
      cases n with
      | zero =>
        have hfalse : balancedFrom 0 (c :: cs) = false := by simp [balancedFrom, hopen, hclose]
        rw [hfalse]
        refine iff_of_false Bool.false_ne_true fun h => ?_
        exact absurd h.1.nonneg (by decide)
      | succ n =>
        have hrest : balancedFrom (n + 1) (c :: cs) = balancedFrom n cs := by
          simp [balancedFrom, hopen, hclose]
        have hlevel : ((n + 1 : Nat) : Int) + -1 = n := by omega
        rw [hrest, hlevel, ih]
    · rw [Bool.not_eq_true] at hclose
      rw [balancedFrom_other hopen hclose, ih, level_other hopen hclose, Int.add_zero]

/-- The first scanner counts the brackets of the whole text. -/
theorem balanced_iff_nested : balanced cs = true ↔ Nested cs := by
  rw [balanced, balancedFrom_iff, nested_iff, Int.natCast_zero, Int.zero_add]

instance (cs : List Char) : Decidable (Nested cs) := decidable_of_iff _ balanced_iff_nested

/-! ## Quoted sections -/

/-- What may stand between two quotes `q`: a quote `q` only behind a backslash, and behind each
backslash a character that goes with it. -/
inductive Quotable (q : Char) : List Char → Prop
  | nil : Quotable q []
  | plain {c : Char} {cs : List Char} (hquote : c ≠ q) (hback : c ≠ '\\') (rest : Quotable q cs) :
      Quotable q (c :: cs)
  | escaped (c : Char) {cs : List Char} (rest : Quotable q cs) : Quotable q ('\\' :: c :: cs)

theorem Quotable.of_all (h : ∀ c ∈ cs, c ≠ q ∧ c ≠ '\\') : Quotable q cs := by
  induction cs with
  | nil => exact .nil
  | cons c cs ih =>
    obtain ⟨hquote, hback⟩ := h c List.mem_cons_self
    exact .plain hquote hback (ih fun d hd => h d (List.mem_cons_of_mem c hd))

/-- A stretch of a text with closed quotes: a character outside quotes, or a quoted section. -/
inductive Stretch where
  | plain (c : Char) (h : isQuote c = false)
  | quoted (q : Char) (body : List Char) (hquote : isQuote q = true) (hbody : Quotable q body)

namespace Stretch

/-- The text of a stretch. -/
def chars : Stretch → List Char
  | .plain c _ => [c]
  | .quoted q body _ _ => q :: body ++ [q]

/-- What stands outside quotes. -/
def outside : Stretch → List Char
  | .plain c _ => [c]
  | .quoted _ _ _ _ => []

/-- What stands between quotes. -/
def body? : Stretch → Option (List Char)
  | .plain _ _ => none
  | .quoted _ body _ _ => some body

/-- The text of several stretches. -/
def textOf (ss : List Stretch) : List Char := ss.flatMap chars

/-- What stands outside quotes in several stretches. -/
def outsideOf (ss : List Stretch) : List Char := ss.flatMap outside

/-- What stands in the quoted sections of several stretches. -/
def bodies (ss : List Stretch) : List (List Char) := ss.filterMap body?

end Stretch

theorem isQuote_spec (h : isQuote q = true) :
    q ≠ '\\' ∧ q ≠ ',' ∧ isOpening q = false ∧ isClosing q = false := by
  simp only [isQuote, Bool.or_eq_true, beq_iff_eq] at h
  rcases h with (rfl | rfl) | rfl <;> decide

/-! ## The second scanner -/

namespace Scan

/-- Goes past a text. -/
def past (s : Scan) (cs : List Char) : Scan := cs.foldl next s

theorem past_cons (s : Scan) (c : Char) (cs : List Char) : s.past (c :: cs) = (s.next c).past cs :=
  rfl

theorem past_append (s : Scan) (cs ds : List Char) : s.past (cs ++ ds) = (s.past cs).past ds :=
  List.foldl_append

/-- A comma that ends an argument changes nothing else. -/
theorem next_of_endsAt (h : s.endsAt c = true) : s.next c = s := by
  simp only [endsAt, Bool.and_eq_true, Option.isNone_iff_eq_none, beq_iff_eq] at h
  obtain ⟨⟨hquote, rfl⟩, -⟩ := h
  simp [next, hquote, isQuote, isOpening, isClosing]

theorem next_plain (h : isQuote c = false) :
    next { depth := d } c = { depth := d + level [c] } := by
  by_cases hopen : isOpening c = true
  · simp [next, h, hopen, level_opening hopen]
  rw [Bool.not_eq_true] at hopen
  by_cases hclose : isClosing c = true
  · simp [next, h, hopen, hclose, level_closing hopen hclose, Int.sub_eq_add_neg]
  · rw [Bool.not_eq_true] at hclose
    simp [next, h, hopen, hclose, level_other hopen hclose]

theorem next_quote (h : isQuote q = true) :
    next { depth := d } q = { depth := d, quote := some q } := by
  simp [next, h]

theorem next_inside (hquote : c ≠ q) (hback : c ≠ '\\') :
    next { depth := d, quote := some q } c = { depth := d, quote := some q } := by
  simp [next, hquote, hback]

theorem next_back : next { depth := d, quote := some q } '\\' =
    { depth := d, quote := some q, escaped := true } := rfl

theorem next_escaped (c : Char) : next { depth := d, quote := some q, escaped := true } c =
    { depth := d, quote := some q } := rfl

theorem next_closing (h : q ≠ '\\') :
    next { depth := d, quote := some q } q = { depth := d } := by
  simp [next, h]

end Scan

/-- From `s` on, the depth that the second scanner tracks is at no point of the text below zero. -/
def TracksFrom (s : Scan) (cs : List Char) : Prop :=
  ∀ front, front <+: cs → 0 ≤ (s.past front).depth

/-- The depth that the second scanner tracks is at no point of the text below zero, and zero at the
end. -/
structure Tracks (cs : List Char) : Prop where
  opened : TracksFrom {} cs
  closed : (Scan.past {} cs).depth = 0

theorem TracksFrom.nonneg (h : TracksFrom s cs) : 0 ≤ s.depth := h [] List.nil_prefix

theorem tracksFrom_append :
    TracksFrom s (cs ++ ds) ↔ TracksFrom s cs ∧ TracksFrom (s.past cs) ds := by
  unfold TracksFrom
  rw [forall_prefix_append]
  simp only [Scan.past_append]

theorem tracksFrom_cons : TracksFrom s (c :: cs) ↔ 0 ≤ s.depth ∧ TracksFrom (s.next c) cs := by
  have hsingle : TracksFrom s [c] ↔ 0 ≤ s.depth ∧ 0 ≤ (s.next c).depth := by
    simp [TracksFrom, List.prefix_cons_iff, Scan.past]
  rw [← List.singleton_append, tracksFrom_append, hsingle, and_assoc]
  exact and_congr_right fun _ => and_iff_right_of_imp TracksFrom.nonneg

/-- Behind a quoted section the scanner is where it was in front of it. -/
theorem past_quotable (hq : q ≠ '\\') (h : Quotable q body) :
    Scan.past { depth := d, quote := some q } (body ++ [q]) = { depth := d } := by
  induction h with
  | nil => exact Scan.next_closing hq
  | plain hquote hback _ ih =>
    rw [List.cons_append, Scan.past_cons, Scan.next_inside hquote hback, ih]
  | escaped c _ ih =>
    rw [List.cons_append, List.cons_append, Scan.past_cons, Scan.next_back, Scan.past_cons,
      Scan.next_escaped, ih]

/-- Inside quotes the depth stays as it is. -/
theorem tracksFrom_quotable (hq : q ≠ '\\') (h : Quotable q body) :
    TracksFrom { depth := d, quote := some q } (body ++ [q]) ↔ 0 ≤ d := by
  induction h with
  | nil =>
    rw [List.nil_append, tracksFrom_cons, Scan.next_closing hq]
    simp [TracksFrom, Scan.past]
  | plain hquote hback _ ih =>
    rw [List.cons_append, tracksFrom_cons, Scan.next_inside hquote hback, ih, and_self_iff]
  | escaped c _ ih =>
    rw [List.cons_append, List.cons_append, tracksFrom_cons, Scan.next_back, tracksFrom_cons,
      Scan.next_escaped, ih, and_self_iff, and_self_iff]

namespace Stretch

variable {ss : List Stretch} {st : Stretch}

theorem textOf_cons (st : Stretch) (ss : List Stretch) :
    textOf (st :: ss) = st.chars ++ textOf ss := List.flatMap_cons

theorem outsideOf_cons (st : Stretch) (ss : List Stretch) :
    outsideOf (st :: ss) = st.outside ++ outsideOf ss := List.flatMap_cons

theorem past_chars (d : Int) (st : Stretch) :
    Scan.past { depth := d } st.chars = { depth := d + level st.outside } := by
  cases st with
  | plain c hc => exact Scan.next_plain hc
  | quoted q body hq hbody =>
    rw [chars, outside, level_nil, Int.add_zero, List.cons_append, Scan.past_cons,
      Scan.next_quote hq, past_quotable (isQuote_spec hq).1 hbody]

theorem tracksFrom_chars (d : Int) (st : Stretch) :
    TracksFrom { depth := d } st.chars ↔ NeverBelow d st.outside := by
  cases st with
  | plain c hc =>
    rw [chars, outside, tracksFrom_cons, neverBelow_singleton, Scan.next_plain hc]
    simp [TracksFrom, Scan.past]
  | quoted q body hq hbody =>
    rw [chars, outside, neverBelow_nil, List.cons_append, tracksFrom_cons, Scan.next_quote hq,
      tracksFrom_quotable (isQuote_spec hq).1 hbody, and_self_iff]

/-- The second scanner ends outside quotes, at the level of what stands there. -/
theorem past_textOf (d : Int) (ss : List Stretch) :
    Scan.past { depth := d } (textOf ss) = { depth := d + level (outsideOf ss) } := by
  induction ss generalizing d with
  | nil => simp [textOf, outsideOf, Scan.past]
  | cons st ss ih =>
    rw [textOf_cons, outsideOf_cons, level_append, ← Int.add_assoc, Scan.past_append, past_chars,
      ih]

theorem tracksFrom_textOf (d : Int) (ss : List Stretch) :
    TracksFrom { depth := d } (textOf ss) ↔ NeverBelow d (outsideOf ss) := by
  induction ss generalizing d with
  | nil => simp [textOf, outsideOf, TracksFrom, neverBelow_nil, Scan.past]
  | cons st ss ih =>
    rw [textOf_cons, outsideOf_cons, tracksFrom_append, neverBelow_append, tracksFrom_chars,
      past_chars, ih]

/-- The second scanner counts the brackets outside quotes. -/
theorem tracks_iff_nested (ss : List Stretch) : Tracks (textOf ss) ↔ Nested (outsideOf ss) := by
  have hend : (Scan.past {} (textOf ss)).depth = level (outsideOf ss) := by
    rw [past_textOf]
    exact Int.zero_add _
  rw [nested_iff, ← tracksFrom_textOf, ← hend]
  exact ⟨fun h => ⟨h.opened, h.closed⟩, fun h => ⟨h.1, h.2⟩⟩

/-! ## Sections with matching brackets -/

theorem nested_quoted_iff (hq : isQuote q = true) : Nested (q :: body ++ [q]) ↔ Nested body := by
  obtain ⟨-, -, hopen, hclose⟩ := isQuote_spec hq
  have hlevel : level [q] = 0 := level_other hopen hclose
  have hquote : Nested [q] := nested_of_no_brackets fun c hc => by
    obtain rfl := List.mem_singleton.1 hc
    exact ⟨hopen, hclose⟩
  refine ⟨fun h => ?_, fun h => (hquote.append h).append hquote⟩
  obtain ⟨hbelow, hend⟩ := nested_iff.1 h
  rw [List.cons_append, neverBelow_cons, neverBelow_append, hlevel] at hbelow
  rw [List.cons_append, level_cons, level_append, hlevel] at hend
  exact nested_iff.2 ⟨hbelow.2.1, by omega⟩

theorem nested_chars_iff (h : st.body? = some body) : Nested st.chars ↔ Nested body := by
  cases st with
  | plain _ _ => cases h
  | quoted q b hq _ =>
    obtain rfl : b = body := Option.some.inj h
    exact nested_quoted_iff hq

/-- Where brackets match in every quoted section, the sections make no difference to the brackets of
the whole. -/
theorem nested_textOf_iff (h : ∀ body ∈ bodies ss, Nested body) :
    Nested (textOf ss) ↔ Nested (outsideOf ss) := by
  have hall : level (textOf ss) = level (outsideOf ss) ∧
      ∀ d, NeverBelow d (textOf ss) ↔ NeverBelow d (outsideOf ss) := by
    induction ss with
    | nil => exact ⟨rfl, fun _ => Iff.rfl⟩
    | cons st ss ih =>
      rw [textOf_cons, outsideOf_cons, level_append, level_append]
      cases st with
      | plain c hc =>
        obtain ⟨hlevel, hbelow⟩ := ih h
        refine ⟨congrArg (level [c] + ·) hlevel, fun d => ?_⟩
        rw [neverBelow_append, neverBelow_append, hbelow]
        rfl
      | quoted q body hq hbody =>
        obtain ⟨hhead, htail⟩ := List.forall_mem_cons.1 h
        obtain ⟨hlevel, hbelow⟩ := ih htail
        have hsection := (nested_quoted_iff hq).2 hhead
        rw [chars, outside, hsection.closed, hlevel]
        refine ⟨rfl, fun d => ?_⟩
        rw [hsection.neverBelow_append_iff, hbelow, List.nil_append]
  rw [nested_iff, nested_iff, hall.1, hall.2]

/-! ## Texts with closed quotes -/

/-- What stands between the scanner and the end of a text at which it is outside quotes. -/
theorem exists_of_past (cs : List Char) :
    (∀ d, (Scan.past { depth := d } cs).quote = none → ∃ ss, textOf ss = cs) ∧
    (∀ d q, isQuote q = true → (Scan.past { depth := d, quote := some q } cs).quote = none →
      ∃ body ss, Quotable q body ∧ cs = body ++ q :: textOf ss) ∧
    (∀ d q, isQuote q = true →
      (Scan.past { depth := d, quote := some q, escaped := true } cs).quote = none →
      ∃ c body ss, Quotable q body ∧ cs = c :: body ++ q :: textOf ss) := by
  induction cs with
  | nil =>
    refine ⟨fun _ _ => ⟨[], rfl⟩, fun _ _ _ h => ?_, fun _ _ _ h => ?_⟩
    · cases h
    · cases h
  | cons c cs ih =>
    obtain ⟨ihoutside, ihinside, ihescaped⟩ := ih
    refine ⟨fun d h => ?_, fun d q hq h => ?_, fun d q hq h => ?_⟩
    · rw [Scan.past_cons] at h
      cases hc : isQuote c with
      | false =>
        rw [Scan.next_plain hc] at h
        obtain ⟨ss, rfl⟩ := ihoutside _ h
        exact ⟨.plain c hc :: ss, rfl⟩
      | true =>
        rw [Scan.next_quote hc] at h
        obtain ⟨body, ss, hbody, rfl⟩ := ihinside d c hc h
        exact ⟨.quoted c body hc hbody :: ss, by simp [textOf, chars]⟩
    · rw [Scan.past_cons] at h
      by_cases hback : c = '\\'
      · rw [hback, Scan.next_back] at h
        obtain ⟨e, body, ss, hbody, rfl⟩ := ihescaped d q hq h
        exact ⟨'\\' :: e :: body, ss, .escaped e hbody, by rw [hback]; rfl⟩
      by_cases hc : c = q
      · rw [hc, Scan.next_closing (isQuote_spec hq).1] at h
        obtain ⟨ss, rfl⟩ := ihoutside _ h
        exact ⟨[], ss, .nil, by rw [hc]; rfl⟩
      · rw [Scan.next_inside hc hback] at h
        obtain ⟨body, ss, hbody, rfl⟩ := ihinside d q hq h
        exact ⟨c :: body, ss, .plain hc hback hbody, rfl⟩
    · rw [Scan.past_cons, Scan.next_escaped] at h
      obtain ⟨body, ss, hbody, rfl⟩ := ihinside d q hq h
      exact ⟨c, body, ss, hbody, rfl⟩

/-- The second scanner ends outside quotes iff the text falls into stretches. -/
theorem exists_stretches_iff :
    (∃ ss, textOf ss = cs) ↔ (Scan.past {} cs).quote = none := by
  constructor
  · rintro ⟨ss, rfl⟩
    rw [past_textOf]
  · exact (exists_of_past cs).1 0

end Stretch

end Undecorate.Brackets
