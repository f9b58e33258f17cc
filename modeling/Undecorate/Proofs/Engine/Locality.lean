import Undecorate.Proofs.Engine.Run
import Undecorate.Proofs.Source.Splice
import Undecorate.Proofs.Tree.Ranges

/-! # Lowering is local

Every site is lowered into the place where it stands, and the text outside of sites stays as it is.

* `WellFormed.pairwise_sites`: sites are lowered in the order of the text, those inside a site
  before it;
* `Run.replacements`: the buffer of a run has one replacement for every site that was lowered;
* `finished_eq_splice`, `lower_eq_spliced`: the output is the source with the outermost sites
  replaced.
-/

namespace Undecorate

open Source

/-- One site lies inside another one. -/
def Located.Nested (u v : Located) : Prop := u.site.Within v.site ∧ ¬v.site.Within u.site

instance (u v : Located) : Decidable (u.Nested v) := inferInstanceAs (Decidable (_ ∧ _))

/-- The nodes of a document lie where a parser puts them, and no two sites are in one place. -/
structure Document.WellFormed (doc : Document) : Prop where
  /-- Nodes are told apart. -/
  distinct : doc.tree.Distinct
  /-- Children lie inside their parents, in order. -/
  laid : doc.tree.Laid
  /-- The tree lies inside the source. -/
  fits : doc.tree.stop ≤ byteLength doc.source
  /-- No site is empty. -/
  nonempty : ∀ l ∈ doc.tree.walk, l.isSite = true → l.site.start < l.site.stop
  /-- No two sites have the same bytes. -/
  apart : (doc.tree.walk.filter (·.isSite)).Pairwise fun l l' =>
    ¬(l.site.start = l'.site.start ∧ l.site.stop = l'.site.stop)

instance (doc : Document) : Decidable doc.WellFormed :=
  decidable_of_iff (doc.tree.Distinct ∧ doc.tree.Laid ∧ doc.tree.stop ≤ byteLength doc.source ∧
      (∀ l ∈ doc.tree.walk, l.isSite = true → l.site.start < l.site.stop) ∧
      (doc.tree.walk.filter (·.isSite)).Pairwise fun l l' =>
        ¬(l.site.start = l'.site.start ∧ l.site.stop = l'.site.stop))
    ⟨fun h => ⟨h.1, h.2.1, h.2.2.1, h.2.2.2.1, h.2.2.2.2⟩,
      fun h => ⟨h.distinct, h.laid, h.fits, h.nonempty, h.apart⟩⟩

section Order

variable {doc : Document} {l u v : Located} {xs : List Lowering}

theorem mem_sites : l ∈ doc.tree.walkUp.filter (·.isSite) ↔
    l ∈ doc.tree.walk ∧ l.isSite = true := by
  rw [List.mem_filter, doc.tree.walkUp_perm_walk.mem_iff]

theorem Located.site_mem (hl : l ∈ doc.tree.walk) : l.site ∈ doc.tree.preorder := by
  rcases Tree.site_eq l with heq | ⟨-, hparent, -⟩
  · rw [heq]
    exact Tree.node_mem_preorder_of_mem_walk hl
  · rcases Tree.mem_walk_iff.1 hl with rfl | ⟨p, hp, hpp, -⟩
    · cases hparent
    · rw [hpp, Option.some.injEq] at hparent
      exact hparent ▸ hp

/-- Of two sites the one that is lowered first lies before the other one or inside it, unless the
other one trails its class in an export statement. -/
theorem Document.WellFormed.pairwise_sites (hw : doc.WellFormed) :
    (doc.tree.walkUp.filter (·.isSite)).Pairwise fun u v =>
      u.site.stop ≤ v.site.start ∨ u.Nested v ∨ (v.Nested u ∧ doc.tree.Trails u v) := by
  have hall := hw.laid.pairwise_site (Tree.self_mem_preorder _) fun p (hp : p ∈ none) => by cases hp
  rw [← Tree.walkUp_eq_locatedUp] at hall
  have hapart := hw.apart.perm (doc.tree.walkUp_perm_walk.filter _).symm
    (fun h hswap => h ⟨hswap.1.symm, hswap.2.symm⟩)
  refine ((hall.sublist List.filter_sublist).and hapart).imp ?_
  rintro u v ⟨hbefore | hin | ⟨hin, htrails⟩, hne⟩
  · exact .inl hbefore
  · refine .inr (.inl ⟨hin, fun hback => hne ?_⟩)
    exact ⟨Nat.le_antisymm hback.1 hin.1, Nat.le_antisymm hin.2 hback.2⟩
  · refine .inr (.inr ⟨⟨hin, fun hback => hne ?_⟩, htrails⟩)
    exact ⟨Nat.le_antisymm hin.1 hback.1, Nat.le_antisymm hback.2 hin.2⟩

theorem Lowering.nested_iff {x y : Lowering} :
    x.replacement.Nested y.replacement ↔ x.located.Nested y.located := by
  simp [Replacement.Nested, Lowering.replacement, Located.Nested, Tree.Within]

/-- The replacements of lowered sites are nonempty and in order. -/
theorem Document.WellFormed.ordered (hw : doc.WellFormed)
    (hxs : xs.map (·.located) = doc.tree.walkUp.filter (·.isSite)) :
    (xs.map (·.replacement)).Pairwise Replacement.Ordered ∧
      ∀ r ∈ xs.map (·.replacement), r.start < r.stop := by
  have hpair := hw.pairwise_sites
  rw [← hxs, List.pairwise_map] at hpair
  constructor
  · rw [List.pairwise_map]
    refine hpair.imp ?_
    -- the order of the text or nesting in either direction will do here
    rintro x y (hbefore | hin | ⟨hin, -⟩)
    · exact .inl (Int.ofNat_le.2 hbefore)
    · exact .inr (.inl (Lowering.nested_iff.2 hin))
    · exact .inr (.inr (Lowering.nested_iff.2 hin))
  · intro r hr
    rcases List.mem_map.1 hr with ⟨x, hx, rfl⟩
    have hsite : x.located ∈ doc.tree.walkUp.filter (·.isSite) := hxs ▸ List.mem_map_of_mem hx
    rcases mem_sites.1 hsite with ⟨hwalk, hsite⟩
    exact Int.ofNat_lt.2 (hw.nonempty x.located hwalk hsite)

end Order

/-! ## The buffers of a run -/

section Buffers

variable {doc : Document} {o : EmitOptions} {taken : List String} {b b' : Buffer}
  {xs : List Lowering}

theorem replace_of_new {r : Replacement}
    (h : ∀ q ∈ b.replacements, ¬(q.start = r.start ∧ q.stop = r.stop)) :
    b.replace r = ⟨b.source, b.replacements ++ [r]⟩ := by
  rw [Buffer.replace, List.filter_eq_self.2]
  intro q hq
  simpa [imp_iff_not_or] using h q hq

/-- A run adds one replacement after the other, and each site is read with those before it. -/
theorem Lowering.Run.replacements (h : Lowering.Run doc o taken b xs b')
    (hnew : (b.replacements ++ xs.map (·.replacement)).Pairwise fun q r =>
      ¬(q.start = r.start ∧ q.stop = r.stop)) :
    b' = ⟨b.source, b.replacements ++ xs.map (·.replacement)⟩ ∧
      ∀ earlier x later, xs = earlier ++ x :: later →
        x.before = ⟨b.source, b.replacements ++ earlier.map (·.replacement)⟩ := by
  induction xs generalizing b with
  | nil =>
    refine ⟨?_, ?_⟩
    · rw [show b' = b from h, List.map_nil, List.append_nil]
    · intro earlier x later heq
      simp at heq
  | cons x xs ih =>
    rcases h with ⟨hbefore, -, hrun⟩
    have hafter : x.after = ⟨b.source, b.replacements ++ [x.replacement]⟩ := by
      rw [Lowering.after, hbefore]
      refine replace_of_new fun q hq => ?_
      exact (List.pairwise_append.1 hnew).2.2 q hq x.replacement (by simp)
    -- what the rest of the run finds is what the whole run has found so far
    have hshift : ∀ ys : List Lowering, x.after.replacements ++ ys.map (·.replacement) =
        b.replacements ++ (x :: ys).map (·.replacement) := by
      intro ys
      rw [hafter, List.append_assoc]
      rfl
    have hsource : x.after.source = b.source := by rw [hafter]
    rcases ih hrun (by rwa [hshift]) with ⟨hfinal, hreads⟩
    rw [hshift, hsource] at hfinal
    refine ⟨hfinal, ?_⟩
    intro earlier y later heq
    cases earlier with
    | nil =>
      rcases List.cons.inj heq with ⟨rfl, -⟩
      rw [hbefore, List.map_nil, List.append_nil]
    | cons z earlier =>
      rcases List.cons.inj heq with ⟨rfl, hrest⟩
      have hy := hreads earlier y later hrest
      rwa [hshift, hsource] at hy

end Buffers

/-! ## The output -/

/-- A text that was cut between characters. -/
def readable : Option (List Char) → Except Fault String
  | some cs => .ok (String.ofList cs)
  | none => .error .cutText

theorem readable_eq_ok {cs : Option (List Char)} {out : String} :
    readable cs = .ok out ↔ cs = some out.toList := by
  cases cs with
  | none => simp [readable]
  | some cs =>
    rw [readable, Except.ok.injEq, Option.some.injEq]
    constructor
    · rintro rfl
      exact String.toList_ofList.symm
    · rintro rfl
      exact String.ofList_toList

theorem bufferReading_textOf (b : Buffer) (s e : Nat) :
    (Document.bufferReading b).textOf s e = readable (b.read? s e) := by
  cases h : b.read? s e with
  | none => simp [Document.bufferReading, readable, h]
  | some cs => simp [Document.bufferReading, readable, h]

/-- Lowers every site of a document and puts the outermost ones in place, without a scan over all
of them. -/
def Document.spliced (doc : Document) (o : EmitOptions) : Except Fault String := do
  doc.check
  let taken ← doc.identifiers
  let sites := doc.tree.walkUp.filter (·.isSite)
  let b ← sites.foldlM (doc.lowerSite o taken) ⟨doc.source, []⟩
  doc.checkClaimed sites
  readable (splice doc.source (byteLength doc.source) 0 (outermost b.replacements))

section Output

variable {doc : Document} {o : EmitOptions} {taken : List String} {b : Buffer}
  {xs : List Lowering} {out : String}

/-- The sites of a run are in different places. -/
theorem Document.WellFormed.run_replacements (hw : doc.WellFormed)
    (hxs : xs.map (·.located) = doc.tree.walkUp.filter (·.isSite))
    (hrun : Lowering.Run doc o taken ⟨doc.source, []⟩ xs b) :
    b = ⟨doc.source, xs.map (·.replacement)⟩ ∧
      ∀ earlier x later, xs = earlier ++ x :: later →
        x.before = ⟨doc.source, earlier.map (·.replacement)⟩ := by
  rcases hw.ordered hxs with ⟨hord, hn⟩
  refine hrun.replacements (List.Pairwise.imp_of_mem ?_ hord)
  intro p q hp hq hpq
  have := hn p hp
  have := hn q hq
  unfold Replacement.Ordered Replacement.Before Replacement.Nested at hpq
  omega

/-- The output is the source with the outermost sites replaced, and nothing else. -/
theorem finished_eq_splice (hw : doc.WellFormed)
    (hxs : xs.map (·.located) = doc.tree.walkUp.filter (·.isSite))
    (hrun : Lowering.Run doc o taken ⟨doc.source, []⟩ xs b) :
    doc.finished b (doc.tree.walkUp.filter (·.isSite)) =
      readable (splice doc.source (byteLength doc.source) 0 (outermost b.replacements)) := by
  rcases hw.ordered hxs with ⟨hord, hn⟩
  rcases hw.run_replacements hxs hrun with ⟨rfl, -⟩
  rw [← hxs]
  unfold Document.finished
  split
  · -- without a site the source is read as it is
    rename_i hempty
    have hnil : xs = [] := by simpa using hempty
    subst hnil
    exact congrArg readable (between?_whole doc.source).symm
  · have hin : inside 0 (byteLength doc.source) (xs.map (·.replacement)) =
        xs.map (·.replacement) := by
      refine inside_eq_self fun r hr => ?_
      rcases List.mem_map.1 hr with ⟨x, hx, rfl⟩
      have hsite : x.located ∈ doc.tree.walkUp.filter (·.isSite) := hxs ▸ List.mem_map_of_mem hx
      have hwithin := hw.laid.within_of_mem (Located.site_mem (mem_sites.1 hsite).1)
      exact ⟨Int.natCast_nonneg _, Int.ofNat_le.2 (Nat.le_trans hwithin.2 hw.fits)⟩
    have hread := Buffer.read?_eq_splice ⟨doc.source, xs.map (·.replacement)⟩ 0
      (byteLength doc.source) hn hord
    rw [hin] at hread
    rw [bufferReading_textOf]
    exact congrArg readable hread

/-- Lowering a document puts its outermost sites in place. -/
theorem lower_eq_spliced (hw : doc.WellFormed) : doc.lower o = doc.spliced o := by
  unfold Document.lower Document.spliced
  refine bind_congr fun _ => bind_congr fun taken => ?_
  refine bind_congr_ok fun b hb => bind_congr fun _ => ?_
  rcases foldlM_lowerSite_eq_ok.1 hb with ⟨xs, hxs, hrun⟩
  exact finished_eq_splice hw hxs hrun

end Output

end Undecorate
