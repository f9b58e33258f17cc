import Undecorate.Proofs.Declaration.Reads
import Undecorate.Proofs.Engine.Locality
import Undecorate.Proofs.Engine.Sites

/-! # Nested sites

A site is built from a text that has the sites inside it lowered. A reading that refuses to give any
of the source text of these sites builds the same declaration:

* `Reaches.edge`: a site is read between places that are not inside a site inside it;
* `nested_mem_earlier`: the sites inside a site are lowered before it;
* `composed_of_run`: a declaration is built without the source text of a site inside it;
* `lowering_is_local`: what lowering does to the text of a document.
-/

namespace Undecorate

open Source

/-- Whether a node is what a site of the tree replaces. -/
def Tree.Replaced (t n : Tree) : Prop := ∃ l ∈ t.walk, l.isSite = true ∧ l.site = n

/-- No site is read from inside the text of another one: the nodes that a site is read through are
not sites themselves, and the sites inside an export statement come before its class or in it. -/
structure Tree.Stratified (t : Tree) : Prop where
  /-- Nothing behind the class of an export statement has a site. -/
  exports : ∀ e ∈ t.preorder, e.kind = "export_statement" → e.children.Pairwise fun c d =>
    c.isClass = true → ∀ l ∈ Tree.located (some e) d, l.isSite = false
  /-- The body of a class is no site. -/
  bodies : ∀ c ∈ t.preorder, c.isClass = true → ∀ b ∈ c.child? "body", ¬t.Replaced b
  /-- No member of a site is a site. -/
  members : ∀ l ∈ t.walk, l.isSite = true → ∀ m ∈ l.memberNodes, ¬t.Replaced m
  /-- The arguments of a call are no site. -/
  arguments : ∀ p ∈ t.preorder, p.kind = "call_expression" → ∀ args ∈ p.child? "arguments",
    ¬t.Replaced args

/-- Trees in which bodies, members and arguments are not even of the kinds of sites. -/
theorem Tree.Stratified.of_kinds {t : Tree}
    (hexports : ∀ e ∈ t.preorder, e.kind = "export_statement" → e.children.Pairwise fun c d =>
      c.isClass = true → ∀ l ∈ Tree.located (some e) d, l.isSite = false)
    (hbodies : ∀ c ∈ t.preorder, c.isClass = true → ∀ b ∈ c.child? "body", b.mayBeSite = false)
    (hmembers : ∀ l ∈ t.walk, l.isSite = true → ∀ m ∈ l.memberNodes, m.mayBeSite = false)
    (harguments : ∀ p ∈ t.preorder, p.kind = "call_expression" →
      ∀ args ∈ p.child? "arguments", args.mayBeSite = false) : t.Stratified := by
  have hfree : ∀ n : Tree, n.mayBeSite = false → ¬t.Replaced n := by
    rintro n hn ⟨l, -, hl, rfl⟩
    rw [Tree.mayBeSite_site hl] at hn
    cases hn
  exact ⟨hexports, fun c hc hclass b hb => hfree b (hbodies c hc hclass b hb),
    fun l hl hs m hm => hfree m (hmembers l hl hs m hm),
    fun p hp hk args ha => hfree args (harguments p hp hk args ha)⟩

/-- A node that is reached from a site through nodes that are no sites of their own. -/
inductive Located.Reaches (t : Tree) (l : Located) : Tree → Prop
  | site : Reaches t l l.site
  | node : Reaches t l l.node
  | inner {p c : Tree} (hp : Reaches t l p) (ho : p = l.site ∨ p = l.node ∨ ¬t.Replaced p)
      (hc : c ∈ p.children) : Reaches t l c

section Reached

variable {doc : Document} {l u : Located} {n : Tree}

theorem Located.node_mem_site (hl : l ∈ doc.tree.walk) : l.node ∈ l.site.preorder := by
  unfold Located.site
  cases he : l.export? with
  | none => exact Tree.self_mem_preorder _
  | some e => exact Tree.child_mem_preorder (Located.export?_eq_some hl he).2.2.1

theorem Located.Reaches.mem (hl : l ∈ doc.tree.walk) (h : l.Reaches doc.tree n) :
    n ∈ l.site.preorder := by
  induction h with
  | site => exact Tree.self_mem_preorder _
  | node => exact Located.node_mem_site hl
  | inner _ _ hc ih => exact Tree.mem_preorder_trans (Tree.child_mem_preorder hc) ih

/-- A site that replaces the node of another one is that one. -/
theorem Located.site_eq_of_site_eq_node (hw : doc.WellFormed) (hl : l ∈ doc.tree.walk)
    (hu : u ∈ doc.tree.walk) (h : u.site = l.node) : u.site = l.site := by
  rcases Tree.site_eq l with heq | ⟨hclass, -, -⟩
  · exact h.trans heq.symm
  · rcases Tree.site_eq u with hnode | ⟨-, -, hkind⟩
    · rw [hw.distinct.located_unique hu hl (hnode.symm.trans h)]
    · rw [h] at hkind
      exact absurd hkind (Tree.kind_ne_of_isClass hclass (by decide))

/-- A node that is reached from a site is not properly below a site inside it. -/
theorem Located.Reaches.eq_of_mem (hw : doc.WellFormed) (hl : l ∈ doc.tree.walk)
    (hu : u ∈ doc.tree.walk) (hs : u.isSite = true) (hnest : u.Nested l)
    (h : l.Reaches doc.tree n) (hn : n ∈ u.site.preorder) : n = u.site := by
  have husite := Located.site_mem hu
  have hlsite := Located.site_mem hl
  -- the outer site is not below the inner one
  have hout : l.site ∉ u.site.preorder := fun hmem =>
    hnest.2 ((hw.laid.of_mem husite).within_of_mem hmem)
  have hne : u.site ≠ l.site := fun heq => hnest.2 (heq ▸ Tree.Within.refl _)
  -- induction on the way from the outer site: it would have to pass through the inner one
  induction h with
  | site => exact absurd hn hout
  | node =>
    rcases Tree.site_eq l with heq | ⟨hclass, hparent, -⟩
    · exact absurd (heq ▸ hn) hout
    · by_contra hproper
      rcases Tree.mem_walk_iff.1 hl with rfl | ⟨p, hp, hpp, hchild⟩
      · cases hparent
      · rw [hpp, Option.some.injEq] at hparent
        subst hparent
        exact hout (hw.distinct.parent_mem_preorder hp husite hchild hn hproper)
  | @inner p c hp ho hc ih =>
    by_contra hproper
    have hpt := Tree.mem_preorder_trans (hp.mem hl) hlsite
    -- the node around is below the inner site too, so it is the inner site
    have heq := ih (hw.distinct.parent_mem_preorder hpt husite hc hn hproper)
    rcases ho with ho | ho | ho
    · exact hne (heq.symm.trans ho)
    · exact hne (Located.site_eq_of_site_eq_node hw hl hu (heq.symm.trans ho))
    · exact ho ⟨u, hu, hs, heq.symm⟩

theorem Located.Reaches.edge_within (hw : doc.WellFormed) (hl : l ∈ doc.tree.walk) {i : Nat}
    (hi : Tree.Edge (l.Reaches doc.tree) i) : l.site.start ≤ i ∧ i ≤ l.site.stop := by
  rcases hi with ⟨n, hn, hi⟩
  have hsite := Located.site_mem hl
  have hwithin := (hw.laid.of_mem hsite).within_of_mem (hn.mem hl)
  have hforward := hw.laid.forward n (Tree.mem_preorder_trans (hn.mem hl) hsite)
  unfold Tree.Within at hwithin
  omega

/-- The edges of what is reached from a site are not inside a site inside it. -/
theorem Located.Reaches.edge (hw : doc.WellFormed) (hl : l ∈ doc.tree.walk)
    (hu : u ∈ doc.tree.walk) (hs : u.isSite = true) (hnest : u.Nested l) {i : Nat}
    (hi : Tree.Edge (l.Reaches doc.tree) i) : i ≤ u.site.start ∨ u.site.stop ≤ i := by
  rcases hi with ⟨n, hn, hi⟩
  have husite := Located.site_mem hu
  have hnt := Tree.mem_preorder_trans (hn.mem hl) (Located.site_mem hl)
  have hforward := hw.laid.forward n hnt
  rcases hw.laid.related_or_apart hnt husite with hin | haround | hbefore | hafter
  · rw [hn.eq_of_mem hw hl hu hs hnest hin] at hi
    omega
  · have hwithin := (hw.laid.of_mem hnt).within_of_mem haround
    unfold Tree.Within at hwithin
    omega
  · omega
  · omega

end Reached

/-! ## The text that a declaration is built from -/

/-- Reads stretches of a site from a buffer: the source, with the outermost replacements inside the
stretch in their places. It refuses a stretch that leaves the site, and one that cuts what has been
replaced inside the site. -/
def shelteredReading (b : Buffer) (l : Located) : Reading where
  source := b.source
  textOf s e :=
    let nested := b.replacements.filter (·.Nested ⟨l.site.start, l.site.stop, ""⟩)
    if l.site.start ≤ s ∧ e ≤ l.site.stop ∧ ∀ r ∈ nested, ¬r.Cut s e then
      readable (splice b.source e s (outermost (inside s e nested)))
    else .error .cutText

/-- The sites inside a site were lowered before it, and it was built from their lowered text and
never from their source text. -/
structure Lowering.Composed (doc : Document) (x : Lowering) : Prop where
  lowered : ∀ u ∈ doc.tree.walk, u.isSite = true → u.Nested x.located →
    ∃ r ∈ x.before.replacements, r.start = u.site.start ∧ r.stop = u.site.stop
  built : (shelteredReading x.before x.located).declaration x.located = .ok x.declaration

section Sheltered

variable {doc : Document} {o : EmitOptions} {taken : List String} {b : Buffer} {l : Located}
  {xs earlier later : List Lowering} {x : Lowering}

/-- Between offsets inside a site, only what is inside the site has been replaced. -/
theorem inside_filter_nested {q : Replacement} {rs : List Replacement} {s e : Int}
    (hs : q.start ≤ s) (he : e ≤ q.stop) (hord : ∀ r ∈ rs, r.Ordered q)
    (hn : ∀ r ∈ rs, r.start < r.stop) : inside s e (rs.filter (·.Nested q)) = inside s e rs := by
  rw [inside, inside, List.filter_filter]
  refine List.filter_congr fun r hr => ?_
  have hord := hord r hr
  have hpos := hn r hr
  rw [Bool.eq_iff_iff]
  simp only [decide_eq_true_eq, Bool.and_eq_true]
  refine ⟨fun hin => hin.1, fun hin => ⟨hin, ?_⟩⟩
  unfold Replacement.Ordered Replacement.Before Replacement.Nested Replacement.Inside at *
  omega

/-- A buffer reads a stretch of a site that cuts nothing as the sheltered reading does. -/
theorem shelteredReading_textOf {s e : Nat} (hord : b.replacements.Pairwise Replacement.Ordered)
    (hlast : ∀ r ∈ b.replacements, r.Ordered ⟨l.site.start, l.site.stop, ""⟩)
    (hn : ∀ r ∈ b.replacements, r.start < r.stop)
    (hs : l.site.start ≤ s) (he : e ≤ l.site.stop)
    (hcuts : ∀ r ∈ b.replacements, r.Nested ⟨l.site.start, l.site.stop, ""⟩ → ¬r.Cut s e) :
    (shelteredReading b l).textOf s e = (Document.bufferReading b).textOf s e := by
  have hread := Buffer.read?_eq_splice b s e hn hord
  rw [← inside_filter_nested (Int.ofNat_le.2 hs) (Int.ofNat_le.2 he) hlast hn] at hread
  have hfree : ∀ r ∈ b.replacements.filter (·.Nested ⟨l.site.start, l.site.stop, ""⟩),
      ¬r.Cut s e := by
    intro r hr
    rcases List.mem_filter.1 hr with ⟨hr, hnest⟩
    exact hcuts r hr (of_decide_eq_true hnest)
  unfold shelteredReading
  dsimp only
  rw [if_pos ⟨hs, he, hfree⟩, bufferReading_textOf, hread]

/-- The sites inside a site are lowered before it. -/
theorem nested_mem_earlier (hw : doc.WellFormed) (hs : doc.tree.Stratified)
    (hxs : xs.map (·.located) = doc.tree.walkUp.filter (·.isSite))
    (hsplit : xs = earlier ++ x :: later) {y : Lowering} (hy : y ∈ xs)
    (hnest : y.located.Nested x.located) : y ∈ earlier := by
  have hsite : y.located ∈ doc.tree.walkUp.filter (·.isSite) := hxs ▸ List.mem_map_of_mem hy
  rcases mem_sites.1 hsite with ⟨hwalk, hsite⟩
  have hpair := hw.pairwise_sites
  rw [← hxs, hsplit, List.pairwise_map, List.pairwise_append, List.pairwise_cons] at hpair
  rw [hsplit, List.mem_append, List.mem_cons] at hy
  rcases hy with hy | rfl | hy
  · exact hy
  · exact absurd hnest.1 hnest.2
  · -- a later site lies behind or around, or behind the class of an export statement
    rcases hpair.2.1.1 y hy with hbefore | hin | ⟨-, e, he, hkind, hclass, d, hsub, htrail⟩
    · have hpos := hw.nonempty y.located hwalk hsite
      have hstop := hnest.1.2
      omega
    · exact absurd hin.1 hnest.2
    · have hfree := List.pairwise_iff_forall_sublist.1 (hs.exports e he hkind) hsub hclass
      rw [hfree y.located htrail] at hsite
      cases hsite

/-- A site reads alike from its buffer and from a reading that refuses to cut the sites inside. -/
theorem shelteredReading_agrees (hw : doc.WellFormed) (hs : doc.tree.Stratified)
    (hxs : xs.map (·.located) = doc.tree.walkUp.filter (·.isSite))
    (hrun : Lowering.Run doc o taken ⟨doc.source, []⟩ xs b)
    (hsplit : xs = earlier ++ x :: later) :
    Reading.Agrees (shelteredReading x.before x.located) x.reading
      (x.located.Reaches doc.tree) doc.tree.Replaced := by
  have hbefore := (hw.run_replacements hxs hrun).2 earlier x later hsplit
  have hmem : ∀ y ∈ xs, y.located ∈ doc.tree.walk ∧ y.located.isSite = true := fun y hy =>
    mem_sites.1 (hxs ▸ List.mem_map_of_mem hy)
  have hearlier : ∀ y ∈ earlier, y ∈ xs := fun y hy => hsplit ▸ List.mem_append_left _ hy
  have hl := (hmem x (by simp [hsplit])).1
  have hsite := Located.site_mem hl
  refine ⟨rfl, ?_, ?_, ?_, ?_⟩
  · intro s e hedge hedge'
    rcases hw.ordered hxs with ⟨hord, hn⟩
    rw [hsplit, List.map_append, List.map_cons, List.pairwise_append] at hord
    refine shelteredReading_textOf ?_ ?_ ?_ (Located.Reaches.edge_within hw hl hedge).1
      (Located.Reaches.edge_within hw hl hedge').2 ?_ <;> rw [hbefore]
    · exact hord.1
    · exact fun r hr => hord.2.2 r hr x.replacement List.mem_cons_self
    · intro r hr
      rcases List.mem_map.1 hr with ⟨y, hy, rfl⟩
      exact hn _ (List.mem_map_of_mem (hearlier y hy))
    · intro r hr hnest
      rcases List.mem_map.1 hr with ⟨y, hy, rfl⟩
      rcases hmem y (hearlier y hy) with ⟨hwalk, hys⟩
      -- neither end of the stretch is inside the site, so it is in the stretch or apart from it
      have hnest : y.located.Nested x.located := Lowering.nested_iff.1 hnest
      have hstart := Located.Reaches.edge hw hl hwalk hys hnest hedge
      have hstop := Located.Reaches.edge hw hl hwalk hys hnest hedge'
      unfold Replacement.Cut Replacement.Inside Lowering.replacement
      dsimp only
      omega
  · rintro p ⟨u, -, hu, rfl⟩
    exact Tree.mayBeSite_site hu
  · intro p hp hfree c hc
    exact .inner hp (.inr (.inr hfree)) hc
  · intro p hp hkind args hargs
    exact hs.arguments p (Tree.mem_preorder_trans (hp.mem hl) hsite) hkind args hargs

/-- Every site of a run is built from the lowered text of the sites inside it. -/
theorem composed_of_run (hw : doc.WellFormed) (hs : doc.tree.Stratified)
    (hxs : xs.map (·.located) = doc.tree.walkUp.filter (·.isSite))
    (hrun : Lowering.Run doc o taken ⟨doc.source, []⟩ xs b)
    (hsplit : xs = earlier ++ x :: later) : x.Composed doc := by
  have hx : x ∈ xs := by simp [hsplit]
  rcases mem_sites.1 (hxs ▸ List.mem_map_of_mem hx) with ⟨hl, hsite⟩
  have hnode := Tree.node_mem_preorder_of_mem_walk hl
  constructor
  · intro u hu hus hnest
    have hmem : u ∈ xs.map (·.located) := hxs ▸ mem_sites.2 ⟨hu, hus⟩
    rcases List.mem_map.1 hmem with ⟨y, hy, rfl⟩
    have hy := nested_mem_earlier hw hs hxs hsplit hy hnest
    rw [(hw.run_replacements hxs hrun).2 earlier x later hsplit]
    exact ⟨y.replacement, List.mem_map_of_mem hy, rfl, rfl⟩
  · rw [← (hrun.made hx).built]
    have hagrees := shelteredReading_agrees hw hs hxs hrun hsplit
    refine Reading.declaration_congr hagrees .node ?_ ?_ ?_ ?_
    · exact fun c hc => .inner .node (.inr (.inl rfl)) hc
    · intro e he c hc
      refine .inner .site (.inl rfl) ?_
      rw [Located.site, he]
      exact hc
    · exact fun hclass => hs.bodies _ hnode hclass
    · exact hs.members _ hl hsite

end Sheltered

/-- Lowering leaves the source outside of sites as it is, and nesting composes. The output is the
source with the outermost sites, in the order of the text, replaced by what was made of them. Each
site is read with those before it lowered; and where no site is read from inside the text of another
one, the sites inside a site are among those, and it is built from their lowered text and never from
their source text. -/
theorem lowering_is_local (doc : Document) (o : EmitOptions) (hw : doc.WellFormed) (out : String)
    (h : doc.lower o = .ok out) :
    ∃ taken xs b, doc.identifiers = .ok taken ∧
      xs.map (·.located) = doc.tree.walkUp.filter (·.isSite) ∧
      Lowering.Run doc o taken ⟨doc.source, []⟩ xs b ∧
      (outermost (xs.map (·.replacement))).Pairwise Replacement.Before ∧
      splice doc.source (byteLength doc.source) 0 (outermost (xs.map (·.replacement))) =
        some out.toList ∧
      (xs = [] → out.toList = doc.source) ∧
      ∀ earlier x later, xs = earlier ++ x :: later →
        x.before = ⟨doc.source, earlier.map (·.replacement)⟩ ∧
          (doc.tree.Stratified → x.Composed doc) := by
  rcases lower_eq_ok.1 h with ⟨-, taken, xs, b, htaken, hxs, hrun, -, hout⟩
  rcases hw.run_replacements hxs hrun with ⟨rfl, hreads⟩
  have hsplice := readable_eq_ok.1 ((finished_eq_splice hw hxs hrun).symm.trans hout)
  refine ⟨taken, xs, _, htaken, hxs, hrun, pairwise_outermost (hw.ordered hxs).1, hsplice, ?_, ?_⟩
  · rintro rfl
    exact Option.some.inj (hsplice.symm.trans (between?_whole doc.source))
  · intro earlier x later hsplit
    exact ⟨hreads earlier x later hsplit, fun hs => composed_of_run hw hs hxs hrun hsplit⟩

namespace Sample

/-- A token that the grammar does not name. -/
def token (id : Nat) (kind : String) (start stop : Nat) : Tree :=
  .node { id, kind, start, stop, isNamed := false } []

/-- A method `@d m() {}` with a decorator, with the identities from `id` on. -/
def methodAt (id start : Nat) : Tree :=
  .node { id, kind := "method_definition", start, stop := start + 9 }
    [.node { id := id + 1, kind := "decorator", start, stop := start + 2 }
      [leaf (id + 2) "identifier" (start + 1) (start + 2) ""],
      leaf (id + 3) "property_identifier" (start + 3) (start + 4) "name",
      leaf (id + 4) "formal_parameters" (start + 4) (start + 6) "parameters",
      leaf (id + 5) "statement_block" (start + 7) (start + 9) "body"]

/-- A document over a whole source with one statement. -/
def ofStatement (source : String) (statement : Tree) : Document where
  language := .javascript
  source := source.toList
  tree := .node { id := 0, kind := "program", start := 0, stop := source.length } [statement]
  isDamaged := false

/-- A class with a decorated method that returns such a class. -/
def nesting : Document :=
  ofStatement "class A \x7b @d n() \x7b return class \x7b @x m() \x7b\x7d \x7d; \x7d \x7d"
    (.node { id := 1, kind := "class_declaration", start := 0, stop := 50 }
      [token 2 "class" 0 5, leaf 3 "identifier" 6 7 "name",
        .node { id := 4, kind := "class_body", start := 8, stop := 50, field := "body" }
          [.node { id := 5, kind := "method_definition", start := 10, stop := 48 }
            [.node { id := 6, kind := "decorator", start := 10, stop := 12 }
              [leaf 7 "identifier" 11 12 ""],
              leaf 8 "property_identifier" 13 14 "name",
              leaf 9 "formal_parameters" 14 16 "parameters",
              .node { id := 10, kind := "statement_block", start := 17, stop := 48,
                      field := "body" }
                [.node { id := 11, kind := "return_statement", start := 19, stop := 46 }
                  [.node { id := 12, kind := "class", start := 26, stop := 45 }
                    [token 13 "class" 26 31,
                      .node { id := 14, kind := "class_body", start := 32, stop := 45,
                              field := "body" } [methodAt 15 34]]]]]]])

end Sample

/-- The theorem at a document with one site inside another. -/
theorem lowering_is_local_of_sample :
    Sample.nesting.WellFormed ∧ Sample.nesting.tree.Stratified ∧
    ∃ (out : String) (xs : List Lowering), Sample.nesting.lower {} = .ok out ∧ xs.length = 2 ∧
      splice Sample.nesting.source (byteLength Sample.nesting.source) 0
        (outermost (xs.map (·.replacement))) = some out.toList ∧
      ∀ x ∈ xs, x.Composed Sample.nesting := by
  have hw : Sample.nesting.WellFormed := by decide +kernel
  have hs : Sample.nesting.tree.Stratified :=
    .of_kinds (by decide) (by decide) (by decide +kernel) (by decide)
  have hok : (Sample.nesting.lower {}).isOk = true := by
    rw [lower_eq_spliced hw]
    decide +kernel
  have hcount : (Sample.nesting.tree.walkUp.filter (·.isSite)).length = 2 := by decide +kernel
  refine ⟨hw, hs, ?_⟩
  cases hres : Sample.nesting.lower {} with
  | error f =>
    rw [hres] at hok
    cases hok
  | ok out =>
    obtain ⟨taken, xs, b, -, hxs, -, -, hout, -, hsites⟩ :=
      lowering_is_local Sample.nesting {} hw out hres
    rw [← hxs, List.length_map] at hcount
    refine ⟨out, xs, rfl, hcount, hout, ?_⟩
    intro x hx
    rcases List.append_of_mem hx with ⟨earlier, later, hsplit⟩
    exact (hsites earlier x later hsplit).2 hs

/-! ## Sites that are read from inside other sites -/

/-- The buffer that a site is read from, and the site. -/
def Document.stage (doc : Document) (o : EmitOptions) (k : Nat) : Option (Buffer × Located) := do
  let taken ← doc.identifiers.toOption
  let sites := doc.tree.walkUp.filter (·.isSite)
  let b ← ((sites.take k).foldlM (doc.lowerSite o taken) ⟨doc.source, []⟩).toOption
  let l ← sites[k]?
  return (b, l)

/-- Whether the sites inside a site have been lowered into a buffer, and the site can be built
without their source text. -/
def Document.composes (doc : Document) (b : Buffer) (l : Located) : Bool :=
  ((doc.tree.walk.filter (·.isSite)).all fun u => !decide (u.Nested l) ||
    b.replacements.any fun r => r.start == u.site.start && r.stop == u.site.stop) &&
  ((shelteredReading b l).declaration l).isOk

/-- A well-formed document is lowered, and a site of it is not built from the lowered text of the
sites inside it. -/
def Document.Misread (doc : Document) : Prop :=
  doc.WellFormed ∧ ∃ out taken xs b, doc.lower {} = .ok out ∧ doc.identifiers = .ok taken ∧
    xs.map (·.located) = doc.tree.walkUp.filter (·.isSite) ∧
    Lowering.Run doc {} taken ⟨doc.source, []⟩ xs b ∧ ∃ x ∈ xs, ¬x.Composed doc

section Misread

variable {doc : Document}

theorem Lowering.Composed.composes {x : Lowering} (h : x.Composed doc) :
    doc.composes x.before x.located = true := by
  unfold Document.composes
  rw [Bool.and_eq_true, List.all_eq_true, h.built]
  refine ⟨?_, rfl⟩
  intro u hu
  rcases List.mem_filter.1 hu with ⟨hu, hs⟩
  by_cases hnest : u.Nested x.located
  · rcases h.lowered u hu hs hnest with ⟨r, hr, hstart, hstop⟩
    simp only [Bool.or_eq_true, List.any_eq_true, Bool.and_eq_true, beq_iff_eq]
    exact .inr ⟨r, hr, hstart, hstop⟩
  · simp [hnest]

/-- A stage is that of a site of the run. -/
theorem exists_of_stage {o : EmitOptions} {taken : List String} {xs : List Lowering} {b b' : Buffer}
    {l : Located} {k : Nat} (htaken : doc.identifiers = .ok taken)
    (hxs : xs.map (·.located) = doc.tree.walkUp.filter (·.isSite))
    (hrun : Lowering.Run doc o taken ⟨doc.source, []⟩ xs b')
    (h : doc.stage o k = some (b, l)) : ∃ x ∈ xs, x.before = b ∧ x.located = l := by
  unfold Document.stage at h
  rw [htaken, ← hxs] at h
  simp only [Except.toOption, Option.bind_eq_bind, Option.bind_some, Option.bind_eq_some_iff,
    List.getElem?_map, Option.map_eq_some_iff, Option.pure_def, Option.some.injEq,
    Prod.mk.injEq] at h
  rcases h with ⟨b, hb, _, ⟨x, hx, rfl⟩, rfl, rfl⟩
  rcases List.getElem?_eq_some_iff.1 hx with ⟨hlt, hget⟩
  -- the run up to this site is the fold over the sites before it
  have hsplit : xs = xs.take k ++ x :: xs.drop (k + 1) := by
    rw [← hget, ← List.drop_eq_getElem_cons hlt, List.take_append_drop]
  rw [hsplit] at hrun
  have hfold := foldlM_lowerSite_eq_ok.2 ⟨xs.take k, rfl, hrun.earlier⟩
  rw [← List.map_take, hfold] at hb
  exact ⟨x, List.mem_of_getElem? hx, Option.some.inj hb, rfl⟩

theorem misread_of_stage {k : Nat} (hw : doc.WellFormed) (hok : (doc.spliced {}).isOk = true)
    (hk : (doc.stage {} k).any (fun s => !doc.composes s.1 s.2) = true) : doc.Misread := by
  rw [← lower_eq_spliced hw] at hok
  refine ⟨hw, ?_⟩
  cases hres : doc.lower {} with
  | error f =>
    rw [hres] at hok
    cases hok
  | ok out =>
    rcases lower_eq_ok.1 hres with ⟨-, taken, xs, b, htaken, hxs, hrun, -, -⟩
    refine ⟨out, taken, xs, b, rfl, htaken, hxs, hrun, ?_⟩
    rcases (Option.any_eq_true _ _).1 hk with ⟨⟨b, l⟩, hstage, hfails⟩
    rcases exists_of_stage htaken hxs hrun hstage with ⟨x, hx, rfl, rfl⟩
    refine ⟨x, hx, fun hcomposed => ?_⟩
    rw [hcomposed.composes] at hfails
    cases hfails

end Misread

namespace Sample

/-- A class behind the class of an export statement, in a decorator. -/
def trailing : Document :=
  ofStatement "export class A \x7b\x7d @d(class \x7b @x m() \x7b\x7d \x7d)"
    (.node { id := 1, kind := "export_statement", start := 0, stop := 41 }
      [token 2 "export" 0 6,
        .node { id := 3, kind := "class_declaration", start := 7, stop := 17 }
          [token 4 "class" 7 12, leaf 5 "identifier" 13 14 "name",
            leaf 6 "class_body" 15 17 "body"],
        .node { id := 7, kind := "decorator", start := 18, stop := 41 }
          [.node { id := 8, kind := "call_expression", start := 19, stop := 41 }
            [leaf 9 "identifier" 19 20 "function",
              .node { id := 10, kind := "arguments", start := 20, stop := 41, field := "arguments" }
                [.node { id := 11, kind := "class", start := 21, stop := 40 }
                  [.node { id := 12, kind := "class_body", start := 27, stop := 40,
                           field := "body" } [methodAt 13 29]]]]]])

/-- A class whose body is an object literal. -/
def objectBody : Document :=
  ofStatement "class A \x7b @x m() \x7b\x7d \x7d"
    (.node { id := 1, kind := "class_declaration", start := 0, stop := 21 }
      [token 2 "class" 0 5, leaf 3 "identifier" 6 7 "name",
        .node { id := 4, kind := "object", start := 8, stop := 21, field := "body" }
          [methodAt 5 10]])

/-- A class with a member that is a class. -/
def classMember : Document :=
  ofStatement "class A \x7b @d n() \x7b\x7d /**/class \x7b @x m() \x7b\x7d \x7d \x7d"
    (.node { id := 1, kind := "class_declaration", start := 0, stop := 45 }
      [token 2 "class" 0 5, leaf 3 "identifier" 6 7 "name",
        .node { id := 4, kind := "class_body", start := 8, stop := 45, field := "body" }
          [methodAt 5 10,
            .node { id := 11, kind := "class", start := 20, stop := 43 }
              [leaf 12 "comment" 20 24 "", token 13 "class" 24 29,
                .node { id := 14, kind := "class_body", start := 30, stop := 43, field := "body" }
                  [methodAt 15 32]]]])

/-- A class with a decorator that is called with an object literal in place of arguments. -/
def objectArguments : Document :=
  ofStatement "@d\x7b @x m() \x7b\x7d \x7d class A \x7b\x7d"
    (.node { id := 1, kind := "class_declaration", start := 0, stop := 26 }
      [.node { id := 2, kind := "decorator", start := 0, stop := 15 }
        [.node { id := 3, kind := "call_expression", start := 1, stop := 15 }
          [leaf 4 "identifier" 1 2 "function",
            .node { id := 5, kind := "object", start := 2, stop := 15, field := "arguments" }
              [methodAt 6 4]]],
        token 12 "class" 16 21, leaf 13 "identifier" 22 23 "name",
        leaf 14 "class_body" 24 26 "body"])

end Sample

/-- In documents that are well-formed but not stratified, sites are read from inside other ones:
behind the class of an export statement, as the body of a class, as a member, and as the arguments
of a call. -/
theorem unstratified_sites_are_misread :
    Sample.trailing.Misread ∧ Sample.objectBody.Misread ∧ Sample.classMember.Misread ∧
      Sample.objectArguments.Misread := by
  refine ⟨misread_of_stage (k := 0) ?_ ?_ ?_, misread_of_stage (k := 1) ?_ ?_ ?_,
    misread_of_stage (k := 1) ?_ ?_ ?_, misread_of_stage (k := 1) ?_ ?_ ?_⟩
  all_goals decide +kernel

end Undecorate
