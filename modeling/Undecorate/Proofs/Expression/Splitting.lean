import Undecorate.Proofs.Expression.Sections
import Undecorate.Proofs.Text.Characters

/-! # Splitting argument lists

An argument list is cut at the commas that stand outside quotes and brackets. A text in which every
such comma is inside a bracket, and which closes as many brackets as it opens, is never cut, and
behind it the scanner is where it was in front of it. Cutting an argument list therefore gives back
the arguments, with whatever blanks around the commas.

* `cutFrom_append`: behind a text the scanner goes on from where the text has led it;
* `Whole`: the scanner goes past a text without a cut;
* `Argument`: the texts that can be arguments;
* `Listing`: the ways to write arguments with commas between them;
* `splitting_undoes_joining`: cutting gives back what was joined.
-/

namespace Undecorate

namespace Brackets

variable {c q : Char} {cs ds body rest blanks before after : List Char} {d : Int} {s : Scan}
variable {args : List (List Char)} {ss : List Stretch}

/-! ## Where the scanner stands -/

/-- The pieces of two texts, the second one written behind the first: the last piece of the first
text goes on with the first piece of the second. -/
def glue : List Char → List (List Char) → List Char × List (List Char) →
    List Char × List (List Char)
  | piece, [], cut => (piece ++ cut.1, cut.2)
  | piece, next :: pieces, cut => (piece, (glue next pieces cut).1 :: (glue next pieces cut).2)

/-- Puts characters in front of the first piece. -/
def inFront (cs : List Char) (cut : List Char × List (List Char)) : List Char × List (List Char) :=
  (cs ++ cut.1, cut.2)

theorem glue_append (cs piece : List Char) (pieces : List (List Char))
    (cut : List Char × List (List Char)) :
    glue (cs ++ piece) pieces cut = inFront cs (glue piece pieces cut) := by
  cases pieces with
  | nil => simp only [glue, inFront, List.append_assoc]
  | cons => rfl

theorem cutFrom_cons (h : s.endsAt c = false) (cs : List Char) :
    cutFrom s (c :: cs) = inFront [c] (cutFrom (s.next c) cs) := by
  rw [cutFrom, h, if_neg Bool.false_ne_true]
  rfl

theorem cutFrom_comma (h : s.endsAt c = true) (cs : List Char) :
    cutFrom s (c :: cs) = ([], (cutFrom s cs).1 :: (cutFrom s cs).2) := by
  rw [cutFrom, h, if_pos rfl]

/-- Behind a text the scanner cuts as from the state that the text has led to. -/
theorem cutFrom_append (s : Scan) (cs rest : List Char) :
    cutFrom s (cs ++ rest) =
      glue (cutFrom s cs).1 (cutFrom s cs).2 (cutFrom (s.past cs) rest) := by
  induction cs generalizing s with
  | nil => rfl
  | cons c cs ih =>
    rw [List.cons_append, Scan.past_cons]
    cases hc : s.endsAt c with
    | true =>
      rw [cutFrom_comma hc, cutFrom_comma hc, ih, Scan.next_of_endsAt hc]
      rfl
    | false =>
      rw [cutFrom_cons hc, cutFrom_cons hc, ih]
      exact (glue_append [c] _ _ _).symm

theorem endsAt_outside (h : c = ',' → d ≠ 0) : Scan.endsAt { depth := d } c = false := by
  by_cases hc : c = ','
  · simp [Scan.endsAt, h hc]
  · simp [Scan.endsAt, hc]

theorem endsAt_inside (q : Char) (e : Bool) (c : Char) :
    Scan.endsAt { depth := d, quote := some q, escaped := e } c = false := rfl

/-! ## Texts that are not cut -/

/-- Inside `d` brackets the scanner goes past the text without a cut, and is inside as many behind
it. -/
structure Whole (d : Int) (cs : List Char) : Prop where
  uncut : cutFrom { depth := d } cs = (cs, [])
  past : Scan.past { depth := d } cs = { depth := d }

namespace Whole

theorem cutFrom_append (h : Whole d cs) (rest : List Char) :
    cutFrom { depth := d } (cs ++ rest) = inFront cs (cutFrom { depth := d } rest) := by
  rw [Brackets.cutFrom_append, h.uncut, h.past]
  rfl

theorem nil : Whole d [] := ⟨rfl, rfl⟩

theorem append (hcs : Whole d cs) (hds : Whole d ds) : Whole d (cs ++ ds) where
  uncut := by
    rw [hcs.cutFrom_append, hds.uncut]
    rfl
  past := by rw [Scan.past_append, hcs.past, hds.past]

theorem singleton (hquote : isQuote c = false) (hlevel : level [c] = 0) (hcomma : c = ',' → d ≠ 0) :
    Whole d [c] where
  uncut := cutFrom_cons (endsAt_outside hcomma) []
  past := by
    rw [Scan.past_cons, Scan.next_plain hquote, hlevel, Int.add_zero]
    rfl

theorem of_all (h : ∀ c ∈ cs, Whole d [c]) : Whole d cs := by
  induction cs with
  | nil => exact nil
  | cons c cs ih =>
    exact (h c List.mem_cons_self).append (ih fun e he => h e (List.mem_cons_of_mem c he))

/-- Blanks are neither commas nor quotes nor brackets. -/
theorem blank (h : ∀ c ∈ blanks, Text.isBlank c = true) : Whole d blanks := by
  have hnone : Text.signs.all (!Text.isBlank ·) = true := by decide
  refine of_all fun c hc => ?_
  have hne : ∀ sign ∈ Text.signs, c ≠ sign := by
    rintro sign hsign rfl
    have hfalse := List.all_eq_true.1 hnone c hsign
    rw [h c hc] at hfalse
    cases hfalse
  simp only [Text.signs, List.forall_mem_cons, List.not_mem_nil, false_implies, implies_true] at hne
  refine singleton (by simp [isQuote, hne]) (level_other ?_ ?_) fun hcomma => ?_
  · simp [isOpening, hne]
  · simp [isClosing, hne]
  · exact absurd hcomma (by simp [hne])

end Whole

/-- Inside quotes nothing is cut. -/
theorem uncut_quotable (h : Quotable q body) :
    cutFrom { depth := d, quote := some q } (body ++ [q]) = (body ++ [q], []) := by
  induction h with
  | nil => exact cutFrom_cons (endsAt_inside q false q) []
  | @plain c cs hquote hback _ ih =>
    rw [List.cons_append, cutFrom_cons (endsAt_inside q false c), Scan.next_inside hquote hback, ih]
    rfl
  | @escaped c cs _ ih =>
    rw [List.cons_append, List.cons_append, cutFrom_cons (endsAt_inside q false _), Scan.next_back,
      cutFrom_cons (endsAt_inside q true c), Scan.next_escaped, ih]
    rfl

/-- A quoted section is not cut. -/
theorem Whole.quoted (hq : isQuote q = true) (hbody : Quotable q body) :
    Whole d (q :: body ++ [q]) where
  uncut := by
    rw [List.cons_append, cutFrom_cons (endsAt_outside fun hc => absurd hc (isQuote_spec hq).2.1),
      Scan.next_quote hq, uncut_quotable hbody]
    rfl
  past := by
    have hpast := Stretch.past_chars d (.quoted q body hq hbody)
    rwa [Stretch.outside, level_nil, Int.add_zero] at hpast

/-! ## Arguments -/

/-- Inside `d` brackets, no comma of the text stands outside all of them. -/
def Unsplit (d : Int) (cs : List Char) : Prop :=
  ∀ before after, cs = before ++ ',' :: after → d + level before ≠ 0

theorem unsplit_nil : Unsplit d [] := fun before _ h => by
  cases before with
  | nil => cases h
  | cons => cases h

theorem unsplit_cons : Unsplit d (c :: cs) ↔ (c = ',' → d ≠ 0) ∧ Unsplit (d + level [c]) cs := by
  constructor
  · intro h
    refine ⟨fun hc => ?_, fun before after hcs => ?_⟩
    · have hd := h [] cs (by rw [hc]; rfl)
      rwa [level_nil, Int.add_zero] at hd
    · have hd := h (c :: before) after (by rw [hcs]; rfl)
      rwa [level_cons c before, ← Int.add_assoc] at hd
  · rintro ⟨hhead, htail⟩ before after hcs
    cases before with
    | nil =>
      rw [level_nil, Int.add_zero]
      exact hhead (List.cons.inj hcs).1
    | cons e before =>
      obtain ⟨rfl, heq⟩ := List.cons.inj hcs
      rw [level_cons c before, ← Int.add_assoc]
      exact htail before after heq

instance decidableUnsplit : ∀ d cs, Decidable (Unsplit d cs)
  | _, [] => isTrue unsplit_nil
  | d, c :: cs =>
    have := decidableUnsplit (d + level [c]) cs
    decidable_of_iff _ unsplit_cons.symm

/-- A text with closed quotes is not cut if outside of them every comma is inside a bracket. -/
theorem uncut_textOf (h : Unsplit d (Stretch.outsideOf ss)) :
    cutFrom { depth := d } (Stretch.textOf ss) = (Stretch.textOf ss, []) := by
  induction ss generalizing d with
  | nil => rfl
  | cons st ss ih =>
    rw [Stretch.outsideOf_cons] at h
    rw [Stretch.textOf_cons]
    cases st with
    | plain c hc =>
      obtain ⟨hcomma, h⟩ := unsplit_cons.1 h
      rw [Stretch.chars, List.singleton_append, cutFrom_cons (endsAt_outside hcomma),
        Scan.next_plain hc, ih h]
      rfl
    | quoted q body hq hbody =>
      rw [Stretch.chars, (Whole.quoted hq hbody).cutFrom_append, ih h]
      rfl

/-- What can be an argument: no blank stands at either end of it, its quotes are closed, and outside
of them it opens as many brackets as it closes, with every comma inside one. The order in which
brackets are closed does not matter, and the kinds of brackets do not either. -/
structure Argument (cs : List Char) : Prop where
  tight : Text.Tight cs
  sections : ∃ ss, Stretch.textOf ss = cs ∧ level (Stretch.outsideOf ss) = 0 ∧
    Unsplit 0 (Stretch.outsideOf ss)

theorem Argument.whole (h : Argument cs) : Whole 0 cs := by
  obtain ⟨ss, rfl, hlevel, hunsplit⟩ := h.sections
  exact ⟨uncut_textOf hunsplit, by rw [Stretch.past_textOf, hlevel, Int.add_zero]⟩

/-! ## Argument lists -/

/-- The ways to write arguments as a list: blanks may stand around every argument, and with nothing
but blanks behind it the last comma is a trailing one. -/
inductive Listing : List (List Char) → List Char → Prop
  | none {blanks : List Char} (h : ∀ c ∈ blanks, Text.isBlank c = true) : Listing [] blanks
  | last {before cs after : List Char} (hbefore : ∀ c ∈ before, Text.isBlank c = true)
      (hafter : ∀ c ∈ after, Text.isBlank c = true) : Listing [cs] (before ++ cs ++ after)
  | cons {before cs after rest : List Char} {args : List (List Char)}
      (hbefore : ∀ c ∈ before, Text.isBlank c = true)
      (hafter : ∀ c ∈ after, Text.isBlank c = true) (hrest : Listing args rest) :
      Listing (cs :: args) (before ++ cs ++ after ++ ',' :: rest)

theorem Listing.blank_cons {text : List Char} (h : Listing args text) (hc : Text.isBlank c = true) :
    Listing args (c :: text) := by
  cases h with
  | none hblanks => exact .none (List.forall_mem_cons.2 ⟨hc, hblanks⟩)
  | last hbefore hafter => exact .last (List.forall_mem_cons.2 ⟨hc, hbefore⟩) hafter
  | cons hbefore hafter hrest => exact .cons (List.forall_mem_cons.2 ⟨hc, hbefore⟩) hafter hrest

/-- Arguments with a comma and a blank between them. -/
theorem listing_joinWith (args : List (List Char)) :
    Listing args (Text.joinWith [',', ' '] args) := by
  have hnone : ∀ c ∈ ([] : List Char), Text.isBlank c = true := fun c hc => by cases hc
  induction args with
  | nil => exact .none hnone
  | cons cs args ih =>
    cases args with
    | nil =>
      have hlast : Listing [cs] (([] : List Char) ++ cs ++ []) := .last hnone hnone
      rwa [List.append_nil] at hlast
    | cons ds args =>
      have hrest : Listing (ds :: args) (' ' :: Text.joinWith [',', ' '] (ds :: args)) :=
        ih.blank_cons (by decide)
      have hcons : Listing (cs :: ds :: args) ([] ++ cs ++ [] ++ ',' :: _) :=
        .cons hnone hnone hrest
      rw [List.append_nil] at hcons
      rw [Text.joinWith, List.append_assoc]
      exact hcons

/-- A piece that is not cut is one argument, or none if it is blank. -/
theorem splitArguments_whole (h : Whole 0 cs) :
    splitArguments cs = if (Text.trim cs).isEmpty then [] else [Text.trim cs] := by
  rw [splitArguments, h.uncut]
  rfl

/-- A comma behind a piece that is not cut ends an argument. -/
theorem splitArguments_comma (h : Whole 0 cs) (rest : List Char) :
    splitArguments (cs ++ ',' :: rest) = Text.trim cs :: splitArguments rest := by
  have hcut :
      cutFrom {} (cs ++ ',' :: rest) = (cs, (cutFrom {} rest).1 :: (cutFrom {} rest).2) := by
    rw [h.cutFrom_append, cutFrom_comma rfl, inFront, List.append_nil]
  rw [splitArguments, hcut]
  rfl

/-- Cutting a list of texts that are not cut themselves gives back the texts. -/
theorem splitArguments_listing {text : List Char} (h : Listing args text)
    (hargs : ∀ cs ∈ args, Whole 0 cs ∧ Text.Tight cs) : splitArguments text = args := by
  induction h with
  | @none blanks hblanks =>
    rw [splitArguments_whole (.blank hblanks), Text.trim_eq_nil hblanks]
    rfl
  | @last before cs after hbefore hafter =>
    obtain ⟨hwhole, htight⟩ := hargs cs List.mem_cons_self
    have hpiece := ((Whole.blank hbefore).append hwhole).append (Whole.blank hafter)
    rw [splitArguments_whole hpiece, htight.trim_around hbefore hafter, if_neg]
    simp [htight.ne_nil]
  | @cons before cs after rest args hbefore hafter _ ih =>
    obtain ⟨hwhole, htight⟩ := hargs cs List.mem_cons_self
    have hpiece := ((Whole.blank hbefore).append hwhole).append (Whole.blank hafter)
    rw [splitArguments_comma hpiece, htight.trim_around hbefore hafter,
      ih fun ds hds => hargs ds (List.mem_cons_of_mem cs hds)]

/-- Cutting an argument list gives back the arguments, whether they are joined with commas and
blanks or written as a list in any other way. -/
theorem splitting_undoes_joining (h : ∀ cs ∈ args, Argument cs) :
    splitArguments (Text.joinWith [',', ' '] args) = args ∧
    ∀ text, Listing args text → splitArguments text = args := by
  have hargs : ∀ cs ∈ args, Whole 0 cs ∧ Text.Tight cs := fun cs hcs =>
    ⟨(h cs hcs).whole, (h cs hcs).tight⟩
  exact ⟨splitArguments_listing (listing_joinWith args) hargs,
    fun _ htext => splitArguments_listing htext hargs⟩

namespace Sample

/-- The stretches of a text without quotes. -/
def plains (text : String) : List Stretch :=
  text.toList.filterMap fun c => if h : isQuote c = false then some (.plain c h) else none

/-- A call with a closing bracket, a comma and an escaped quote in a string. -/
def callStretches : List Stretch :=
  plains "f(" ++
    .quoted '\x22' [')', ',', '\\', '\x22'] rfl
      (.plain (by decide) (by decide) (.plain (by decide) (by decide) (.escaped _ .nil))) ::
    plains ", [b, c])"

/-- An opening bracket in single quotes. -/
def bracketStretches : List Stretch :=
  [.quoted '\x27' ['['] rfl (.plain (by decide) (by decide) .nil)]

/-- Two arguments. -/
def arguments : List (List Char) := [Stretch.textOf callStretches, Stretch.textOf bracketStretches]

/-- The arguments with blanks of several kinds around them and a trailing comma. -/
def written : List Char :=
  ['\t'] ++ Stretch.textOf callStretches ++ [' '] ++ ',' ::
    (['\n'] ++ Stretch.textOf bracketStretches ++ [] ++ ',' :: [' '])

end Sample

/-- A list of two arguments with brackets, commas and escaped quotes in strings. -/
theorem splitting_undoes_joining_of_sample :
    (∀ cs ∈ Sample.arguments, Argument cs) ∧ Listing Sample.arguments Sample.written ∧
      splitArguments "f(\"),\\\"\", [b, c]), '['".toList = Sample.arguments ∧
      splitArguments "\tf(\"),\\\"\", [b, c]) ,\n'[', ".toList = Sample.arguments := by
  have hcall : Argument (Stretch.textOf Sample.callStretches) :=
    ⟨by decide, _, rfl, by decide, by decide⟩
  have hbracket : Argument (Stretch.textOf Sample.bracketStretches) :=
    ⟨by decide, _, rfl, by decide, by decide⟩
  have hall : ∀ cs ∈ Sample.arguments, Argument cs :=
    List.forall_mem_cons.2 ⟨hcall, List.forall_mem_cons.2 ⟨hbracket, fun _ h => by cases h⟩⟩
  have hwritten : Listing Sample.arguments Sample.written :=
    .cons (List.forall_mem_singleton.2 rfl) (List.forall_mem_singleton.2 rfl)
      (.cons (List.forall_mem_singleton.2 rfl) (fun _ h => by cases h)
        (.none (List.forall_mem_singleton.2 rfl)))
  obtain ⟨hjoined, hlisting⟩ := splitting_undoes_joining hall
  exact ⟨hall, hwritten, hjoined, hlisting Sample.written hwritten⟩

end Brackets

end Undecorate
