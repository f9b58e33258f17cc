import Undecorate.Proofs.Declaration.Contents
import Undecorate.Proofs.Engine.Nesting
import Undecorate.Proofs.Source.Stretches

/-! # Literals in lowered sites

A template literal is laid out with the code around it, once for every site that it lies in. What
lowering keeps of it is its content: its lines, without the white space that they start with. A
literal on one line is kept as it is.

* `shown_of_splice`: a splice shows a node that it leaves alone, or that a site in it shows;
* `Lowering.reading_gives`: so does all that a site is built from;
* `Lowering.shown_of_run`: every site around a node shows it;
* `template_literals_keep_their_lines`: what the output has of a literal.
-/

namespace Undecorate

open Source Text Layout

/-- The text of a node is taken over when a site is lowered: the node lies in the body or value of a
member that the form has a place for, or in the expression of a decorator. -/
def Located.TakesOver (doc : Document) (o : EmitOptions) (l : Located) (n : Tree) : Prop :=
  (∃ c ∈ l.memberNodes, ∃ p, c.part? = some p ∧ p.kind ∉ ["decorator", "comment"] ∧
    n ∈ p.preorder ∧ (o.form = .constructorFunction → l.Places (.plain doc.source) c)) ∨
  ∃ d ∈ l.claimed, ∃ e, d.firstNamed? = some e ∧ n ∈ e.preorder

/-! ## What is read -/

section Reads

variable {doc : Document} {o : EmitOptions} {taken : List String} {b : Buffer} {n c : Tree}
  {t : List Char} {xs ys earlier later : List Lowering} {x : Lowering}

/-- A splice shows a node of the source, as long as every site around it does. -/
theorem shown_of_splice (hw : doc.WellFormed) (hn : n ∈ doc.tree.preorder)
    (ht : slice? doc.source n.start n.stop = some t)
    (hsites : ∀ y ∈ ys, y.located ∈ doc.tree.walk ∧ y.located.site ∉ n.preorder)
    (hshown : ∀ y ∈ ys, n ∈ y.located.site.preorder → Shown t y.text) {s e : Nat}
    (hs : s ≤ n.start) (he : n.stop ≤ e) {rs : List Replacement}
    (hrs : ∀ r ∈ rs, r ∈ ys.map (·.replacement)) {out : String}
    (h : splice doc.source e s rs = some out.toList) : Shown t out := by
  by_cases haround : ∃ y ∈ ys, y.replacement ∈ rs ∧ n ∈ y.located.site.preorder
  · obtain ⟨y, hy, hr, hny⟩ := haround
    have hput : y.replacement.text.toList <:+: out.toList := text_isInfix_of_splice h hr
    exact (hshown y hy hny).trans hput
  · refine .of_isInfix (isInfix_of_splice h ht (by omega) (by omega) fun r hr => ?_)
    obtain ⟨y, hy, rfl⟩ := List.mem_map.1 (hrs r hr)
    obtain ⟨hwalk, hbelow⟩ := hsites y hy
    unfold Lowering.replacement
    dsimp only
    -- neither is the site around the node nor below it, so they are apart
    rcases hw.laid.related_or_apart hn (Located.site_mem hwalk) with hin | hin | hbefore | hafter
    · exact absurd ⟨y, hy, hr, hin⟩ haround
    · exact absurd hin hbelow
    · omega
    · omega

/-- The replacements that a stretch of a site is read with. -/
theorem Lowering.textOf_eq_ok (hw : doc.WellFormed)
    (hxs : xs.map (·.located) = doc.tree.walkUp.filter (·.isSite))
    (hrun : Lowering.Run doc o taken ⟨doc.source, []⟩ xs b)
    (hsplit : xs = earlier ++ x :: later) {s e : Nat} {text : String}
    (h : x.reading.textOf s e = .ok text) :
    splice doc.source e s (outermost (inside s e (earlier.map (·.replacement)))) =
      some text.toList := by
  have hbefore := (hw.run_replacements hxs hrun).2 earlier x later hsplit
  obtain ⟨hord, hpos⟩ := hw.ordered hxs
  rw [hsplit, List.map_append] at hord hpos
  have hread := Buffer.read?_eq_splice ⟨doc.source, earlier.map (·.replacement)⟩ s e
    (fun r hr => hpos r (List.mem_append_left _ hr)) (List.pairwise_append.1 hord).1
  rw [Lowering.reading, bufferReading_textOf, hbefore, hread] at h
  exact readable_eq_ok.1 h

/-- Whatever a site is built from shows a node, as long as the earlier sites around it do. -/
theorem Lowering.reading_gives (hw : doc.WellFormed)
    (hxs : xs.map (·.located) = doc.tree.walkUp.filter (·.isSite))
    (hrun : Lowering.Run doc o taken ⟨doc.source, []⟩ xs b)
    (hsplit : xs = earlier ++ x :: later) (hn : n ∈ doc.tree.preorder)
    (ht : slice? doc.source n.start n.stop = some t)
    (hbelow : ∀ l ∈ doc.tree.walk, l.isSite = true → l.site ∉ n.preorder)
    (hshown : ∀ y ∈ earlier, n ∈ y.located.site.preorder → Shown t y.text) :
    x.reading.Gives n t := by
  intro s e text hs he h
  refine shown_of_splice hw hn ht ?_ hshown hs he ?_ (textOf_eq_ok hw hxs hrun hsplit h)
  · intro y hy
    have hsite : y.located ∈ doc.tree.walkUp.filter (·.isSite) := by
      rw [← hxs, hsplit]
      exact List.mem_map_of_mem (List.mem_append_left _ hy)
    obtain ⟨hwalk, hsite⟩ := mem_sites.1 hsite
    exact ⟨hwalk, hbelow _ hwalk hsite⟩
  · exact fun r hr => (mem_inside.1 (mem_outermost.1 hr).1).1

/-- A stretch has a lowered site in it, or is read as it is. -/
theorem Lowering.lowered_or_plain (hw : doc.WellFormed)
    (hxs : xs.map (·.located) = doc.tree.walkUp.filter (·.isSite))
    (hrun : Lowering.Run doc o taken ⟨doc.source, []⟩ xs b)
    (hsplit : xs = earlier ++ x :: later) {s e : Nat} {text : String}
    (h : x.reading.textOf s e = .ok text) :
    (∃ y ∈ earlier, y.text.toList <:+: text.toList) ∨
      (Reading.plain doc.source).textOf s e = .ok text := by
  have hsplice := textOf_eq_ok hw hxs hrun hsplit h
  cases hrs : outermost (inside s e (earlier.map (·.replacement))) with
  | nil =>
    rw [hrs, splice, between?_natCast] at hsplice
    refine .inr ?_
    simp only [Reading.plain, hsplice, String.ofList_toList]
  | cons r rs =>
    have hr : r ∈ outermost (inside s e (earlier.map (·.replacement))) := hrs ▸ List.mem_cons_self
    obtain ⟨y, hy, rfl⟩ := List.mem_map.1 (mem_inside.1 (mem_outermost.1 hr).1).1
    have hput : y.replacement.text.toList <:+: text.toList := text_isInfix_of_splice hsplice hr
    exact .inl ⟨y, hy, hput⟩

end Reads

/-! ## What is made -/

section Made

variable {doc : Document} {o : EmitOptions} {taken : List String} {b : Buffer} {n c : Tree}
  {t : List Char} {xs earlier later : List Lowering} {x : Lowering}

theorem lineIndentation_blank {offset : Nat} {indent : List Char}
    (h : doc.lineIndentation offset = .ok indent) : indent.all isBlank = true := by
  unfold Document.lineIndentation at h
  simp only [bind_eq_ok, pure_eq_ok] at h
  obtain ⟨line, -, rfl⟩ := h
  exact List.all_eq_true.2 fun c hc => List.mem_takeWhile_imp hc

/-- The text of a lowered site has a call in it. -/
theorem Lowering.Made.call_isInfix (h : x.Made doc o taken) : ['(', ')'] <:+: x.text.toList := by
  obtain ⟨p, p', emitted, indent, -, hemit, hindent, htext⟩ := h.emitted
  have hsolid : Solid ['(', ')'] := ⟨⟨'(', rfl, by decide⟩, ⟨')', rfl, by decide⟩⟩
  refine hsolid.infix_of_no_lineEnd (by decide) ?_
  rw [htext]
  exact (Declaration.shown_call hemit).continueAt (lineIndentation_blank hindent)

/-- The name of a constructor has no call in it, with quotes or without. -/
theorem call_not_isInfix {cs : List Char}
    (h : cs = "constructor".toList ∨ Key.inner cs = "constructor".toList) :
    ¬['(', ')'] <:+: cs := by
  have hopening : '(' ∉ "constructor".toList := by decide
  have hhead : "constructor".toList.head? = some 'c' := rfl
  rintro ⟨a, b, rfl⟩
  rcases h with h | h
  · rw [← h] at hopening
    exact hopening (by simp)
  unfold Key.inner at h
  cases a with
  | nil =>
    -- the second character is the first one of the name
    rw [← h] at hhead
    cases b with
    | nil => cases hhead
    | cons => cases hhead
  | cons q a =>
    rw [List.cons_append, List.cons_append, List.drop_one, List.tail_cons, List.append_assoc,
      List.dropLast_append_of_ne_nil (by simp)] at h
    rw [← h] at hopening
    exact hopening (List.mem_append_right _ (by simp))

/-- A constructor is written as one in the source. -/
theorem Lowering.constructs_plain (hw : doc.WellFormed)
    (hxs : xs.map (·.located) = doc.tree.walkUp.filter (·.isSite))
    (hrun : Lowering.Run doc o taken ⟨doc.source, []⟩ xs b)
    (hsplit : xs = earlier ++ x :: later) (h : x.reading.Constructs c) :
    (Reading.plain doc.source).Constructs c := by
  obtain ⟨hkind, name, hname, hmodifiers, hkey⟩ := h
  refine ⟨hkind, name, hname, hmodifiers, ?_⟩
  -- a site inside the name would have left a call in it
  have hplain : ∀ text, x.reading.text name = .ok text →
      text.toList = "constructor".toList ∨ Key.inner text.toList = "constructor".toList →
      (Reading.plain doc.source).text name = .ok text := by
    intro text htext hconstructor
    rcases lowered_or_plain hw hxs hrun hsplit htext with ⟨y, hy, hfound⟩ | hplain
    · have hmade := hrun.made (x := y) (by simp [hsplit, hy])
      exact absurd (hmade.call_isInfix.trans hfound) (call_not_isInfix hconstructor)
    · exact hplain
  unfold Reading.isConstructKey at hkey ⊢
  split at hkey
  · rename_i hidentifier
    obtain ⟨text, htext, heq⟩ := bind_eq_ok.1 hkey
    have heq : text = "constructor" := eq_of_beq (pure_eq_ok.1 heq)
    rw [if_pos hidentifier, hplain text htext (.inl (by rw [heq])), heq]
    rfl
  split at hkey
  · rename_i hidentifier hstring
    obtain ⟨text, htext, heq⟩ := bind_eq_ok.1 hkey
    have heq : String.ofList (Key.inner text.toList) = "constructor" :=
      eq_of_beq (pure_eq_ok.1 heq)
    have hinner : Key.inner text.toList = "constructor".toList := by
      rw [← heq, String.toList_ofList]
    rw [if_neg hidentifier, if_pos hstring, hplain text htext (.inr hinner)]
    exact congrArg (fun s => Except.ok (s == "constructor")) heq
  · cases pure_eq_ok.1 hkey

/-- A site that takes the text of a node over shows it, if what it is built from does. -/
theorem Lowering.Made.shown (hw : doc.WellFormed) (hmade : x.Made doc o taken)
    (hl : x.located ∈ doc.tree.walk) (ht : Unbraced t) (hgives : x.reading.Gives n t)
    (hconstructs : ∀ c, x.reading.Constructs c → (Reading.plain doc.source).Constructs c)
    (htakes : x.located.TakesOver doc o n) : Shown t x.text := by
  obtain ⟨p, p', emitted, indent, hdecorations, hemit, hindent, htext⟩ := hmade.emitted
  rw [htext]
  refine Shown.continueAt ?_ (lineIndentation_blank hindent)
  rcases htakes with ⟨c, hc, part, hpart, hkind, hn, hplaces⟩ | ⟨d, hd, e, he, hn⟩
  · obtain ⟨home, hhome, hchild⟩ := Located.home?_of_mem_memberNodes hc
    have hlaid : c.Laid := hw.laid.of_mem
      (Tree.mem_preorder_trans (Tree.child_mem_preorder hchild) (Located.home?_mem hl hhome))
    have hwithin : n.Within part := by
      have hmem : part ∈ c.children := by
        unfold Tree.part? at hpart
        split_ifs at hpart
        · exact Tree.mem_children_of_child? hpart
        · exact Tree.mem_children_of_child? hpart
      exact (hlaid.of_mem (Tree.child_mem_preorder hmem)).within_of_mem hn
    have hplaces' : o.form = .constructorFunction → x.located.Places x.reading c := by
      intro hform
      have hplace := hplaces hform
      unfold Located.Places at hplace ⊢
      split at hplace
      · rename_i hclass
        rw [if_pos hclass]
        exact ⟨hplace.1, fun h c' hc' h' => hplace.2 (hconstructs c h) c' hc' (hconstructs c' h')⟩
      · rename_i hclass
        rwa [if_neg hclass]
    obtain ⟨m, hm, hshows, hplaced⟩ :=
      exists_member_shows hmade.built hgives hc hlaid hpart hkind hwithin hplaces'
    exact Declaration.shown_emit ht hemit hm hplaced hshows
  · have hclassified := decorations_classified hmade.built hdecorations
    obtain ⟨-, q, hq, hdq, -⟩ := holder_of_mem_claimed hl hclassified.methods hd
    have hlaid : e.Laid := by
      refine hw.laid.of_mem (Tree.mem_preorder_trans (Tree.child_mem_preorder ?_)
        (Tree.mem_preorder_trans (Tree.child_mem_preorder hdq) hq))
      exact d.namedChildren_sublist.subset (List.mem_of_find?_eq_some he)
    obtain ⟨u, hu, hdu⟩ := List.mem_flatMap.1 (hclassified.all.mem_iff.2 hd)
    obtain ⟨y, hy, hread⟩ := exists_of_forall₂ (mapM_eq_ok.1 (hclassified.made u hu)) hdu
    exact Declaration.shown_emit_of_decorator hemit hu hy
      (decorator_shows hgives he (hlaid.within_of_mem hn) hread)

/-- Every site around a node shows its text, if all of them take it over. -/
theorem Lowering.shown_of_run (hw : doc.WellFormed)
    (hxs : xs.map (·.located) = doc.tree.walkUp.filter (·.isSite))
    (hrun : Lowering.Run doc o taken ⟨doc.source, []⟩ xs b) (hn : n ∈ doc.tree.preorder)
    (htext : slice? doc.source n.start n.stop = some t) (ht : Unbraced t)
    (hbelow : ∀ l ∈ doc.tree.walk, l.isSite = true → l.site ∉ n.preorder)
    (htakes : ∀ l ∈ doc.tree.walk, l.isSite = true → n ∈ l.site.preorder → l.TakesOver doc o n)
    (hsplit : xs = earlier ++ x :: later) (hx : n ∈ x.located.site.preorder) : Shown t x.text := by
  -- induction on the sites that are lowered before: those around the node show it already
  induction hlength : earlier.length using Nat.strong_induction_on generalizing earlier x later with
  | _ k ih =>
    have hshown : ∀ y ∈ earlier, n ∈ y.located.site.preorder → Shown t y.text := by
      intro y hy hny
      obtain ⟨before, after, rfl⟩ := List.append_of_mem hy
      have hy : xs = before ++ y :: (after ++ x :: later) := by
        rw [hsplit, List.append_assoc, List.cons_append]
      refine ih before.length ?_ hy hny rfl
      rw [← hlength, List.length_append, List.length_cons]
      omega
    have hmem : x ∈ xs := by simp [hsplit]
    obtain ⟨hl, hsite⟩ := mem_sites.1 (hxs ▸ List.mem_map_of_mem hmem)
    exact (hrun.made hmem).shown hw hl ht
      (reading_gives hw hxs hrun hsplit hn htext hbelow hshown)
      (fun c => constructs_plain hw hxs hrun hsplit) (htakes _ hl hsite hx)

end Made

/-! ## The output -/

/-- A template literal of a document and its text, with the backticks. -/
structure Document.Template (doc : Document) (n : Tree) (text : String) : Prop where
  node : n ∈ doc.tree.preorder
  kind : n.kind = "template_string"
  written : (Reading.plain doc.source).text n = .ok text
  opened : text.toList.head? = some '\x60'
  closed : text.toList.getLast? = some '\x60'

theorem Document.Template.unbraced {doc : Document} {n : Tree} {text : String}
    (h : doc.Template n text) : Unbraced text.toList where
  first := ⟨_, h.opened, by decide⟩
  last := ⟨_, h.closed, by decide⟩
  opening := by
    rw [h.opened]
    decide
  closing := by
    rw [h.closed]
    decide

/-- Lowering keeps template literals up to the layout of their lines. A literal that has no site in
it is found in the output, for as long as every site around it has it in a body, a value or a
decorator: with other white space at the start of its lines behind the first, other line ends and
no blank lines at worst, and byte for byte where it stands on one line. -/
theorem template_literals_keep_their_lines (doc : Document) (o : EmitOptions) (hw : doc.WellFormed)
    (out : String) (h : doc.lower o = .ok out) (n : Tree) (text : String)
    (ht : doc.Template n text)
    (hbelow : ∀ l ∈ doc.tree.walk, l.isSite = true → l.site ∉ n.preorder)
    (htakes : ∀ l ∈ doc.tree.walk, l.isSite = true → n ∈ l.site.preorder →
      l.TakesOver doc o n) :
    (∃ kept, kept <:+: out.toList ∧ reflow kept = reflow text.toList) ∧
      (text.toList.any isLineEnd = false → text.toList <:+: out.toList) := by
  obtain ⟨-, taken, xs, b, -, hxs, hrun, -, hout⟩ := lower_eq_ok.1 h
  have htext : slice? doc.source n.start n.stop = some text.toList := by
    have hwritten := ht.written
    unfold Reading.text Reading.plain at hwritten
    dsimp only at hwritten
    split at hwritten
    · rename_i cs hcs
      rw [hcs, ← Except.ok.inj hwritten, String.toList_ofList]
    · cases hwritten
  have hsplice := readable_eq_ok.1 ((finished_eq_splice hw hxs hrun).symm.trans hout)
  rw [(hw.run_replacements hxs hrun).1] at hsplice
  have hstop : n.stop ≤ byteLength doc.source :=
    Nat.le_trans (hw.laid.within_of_mem ht.node).2 hw.fits
  have hsites : ∀ y ∈ xs, y.located ∈ doc.tree.walk ∧ y.located.site ∉ n.preorder := by
    intro y hy
    obtain ⟨hl, hsite⟩ := mem_sites.1 (hxs ▸ List.mem_map_of_mem hy)
    exact ⟨hl, hbelow _ hl hsite⟩
  have haround : ∀ y ∈ xs, n ∈ y.located.site.preorder → Shown text.toList y.text := by
    intro y hy hny
    obtain ⟨earlier, later, hsplit⟩ := List.append_of_mem hy
    exact Lowering.shown_of_run hw hxs hrun ht.node htext ht.unbraced hbelow htakes hsplit hny
  have hshown : Shown text.toList out := by
    refine shown_of_splice hw ht.node htext hsites haround (Nat.zero_le _) hstop ?_ hsplice
    exact fun r hr => (mem_outermost.1 hr).1
  obtain ⟨kept, hkept, hreflow, -⟩ := ht.unbraced.toSolid.exists_isInfix hshown
  exact ⟨⟨kept, hkept, hreflow⟩,
    fun hline => ht.unbraced.toSolid.infix_of_no_lineEnd hline hshown⟩

namespace Sample

/-- A literal on two lines. -/
def literal : Tree := leaf 11 "template_string" 32 43 ""

/-- The body of a method that returns the literal. -/
def literalBody : Tree :=
  .node { id := 9, kind := "statement_block", start := 19, stop := 48, field := "body" }
    [.node { id := 10, kind := "return_statement", start := 25, stop := 44 } [literal]]

/-- A method with a decorator and this body. -/
def literalMethod : Tree :=
  .node { id := 5, kind := "method_definition", start := 12, stop := 48 }
    [.node { id := 6, kind := "decorator", start := 12, stop := 14 }
      [leaf 7 "identifier" 13 14 ""],
      leaf 8 "property_identifier" 15 16 "name",
      leaf 12 "formal_parameters" 16 18 "parameters", literalBody]

/-- A class with this method. -/
def literalClass : Tree :=
  .node { id := 1, kind := "class_declaration", start := 0, stop := 50 }
    [token 2 "class" 0 5, leaf 3 "identifier" 6 7 "name",
      .node { id := 4, kind := "class_body", start := 8, stop := 50, field := "body" }
        [literalMethod]]

/-- A document with this class. -/
def withLiteral : Document :=
  ofStatement "class A \x7b\n  @d m() \x7b\n    return `x\n      y`;\n  \x7d\n\x7d\n" literalClass

end Sample

/-- The theorem at a literal in the body of a method. -/
theorem template_literals_keep_their_lines_of_sample :
    Sample.withLiteral.WellFormed ∧ Sample.withLiteral.Template Sample.literal "`x\n      y`" ∧
    ∃ out, Sample.withLiteral.lower { form := .constructorFunction } = .ok out ∧
      ∃ kept, kept <:+: out.toList ∧ reflow kept = reflow "`x\n      y`".toList := by
  have hw : Sample.withLiteral.WellFormed := by decide +kernel
  have hliteral : Sample.literal ∈ Sample.literalBody.preorder := List.mem_of_getElem? (i := 2) rfl
  have ht : Sample.withLiteral.Template Sample.literal "`x\n      y`" := by
    refine ⟨List.mem_of_getElem? (i := 12) rfl, rfl, ?_, ?_, ?_⟩
    all_goals decide +kernel
  have hsites : ∀ l ∈ Sample.withLiteral.tree.walk, l.isSite = true →
      l = ⟨some Sample.withLiteral.tree, Sample.literalClass⟩ := by
    intro l hl hsite
    have hall : Sample.withLiteral.tree.walk.filter (·.isSite) =
        [⟨some Sample.withLiteral.tree, Sample.literalClass⟩] := by
      rw [Tree.walk_eq_located]
      rfl
    exact List.mem_singleton.1 (hall ▸ List.mem_filter.2 ⟨hl, hsite⟩)
  have hok : (Sample.withLiteral.lower { form := .constructorFunction }).isOk = true := by
    rw [lower_eq_spliced hw]
    decide +kernel
  refine ⟨hw, ht, ?_⟩
  cases hout : Sample.withLiteral.lower { form := .constructorFunction } with
  | error f =>
    rw [hout] at hok
    cases hok
  | ok out =>
    refine ⟨out, rfl, ?_⟩
    refine (template_literals_keep_their_lines _ _ hw out hout _ _ ht ?_ ?_).1
    · intro l hl hsite hmem
      obtain rfl := hsites l hl hsite
      have hid : ∀ m ∈ Sample.literal.preorder, m.id ≠ Sample.literalClass.id := by decide
      exact hid _ hmem rfl
    · intro l hl hsite _
      obtain rfl := hsites l hl hsite
      refine .inl ⟨Sample.literalMethod, List.mem_cons_self, Sample.literalBody, rfl, by decide,
        hliteral, fun _ => ⟨by decide, fun _ c hc _ => ?_⟩⟩
      exact List.mem_singleton.1 hc

end Undecorate
