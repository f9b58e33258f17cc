import Mathlib.Data.List.Pairwise
import Undecorate.Proofs.Declaration.Claims

/-! # Where nodes and sites lie

The bytes of a node hold those of its children, one child after the other. From this follows where
the sites of a tree lie, in the order in which the walk that visits children first meets them:

* `Laid.related_or_apart`: of two nodes one is below the other, or they are apart;
* `Laid.pairwise_site`: of two sites the earlier one lies before the later one or inside it, unless
  the later one follows the class of an export statement that the earlier one stands for.
-/

namespace Undecorate

namespace Tree

/-- The bytes of one node lie inside those of another. -/
def Within (c p : Tree) : Prop := p.start ≤ c.start ∧ c.stop ≤ p.stop

instance (c p : Tree) : Decidable (c.Within p) := inferInstanceAs (Decidable (_ ∧ _))

/-- The children of every node lie inside it, one after the other. -/
structure Laid (t : Tree) : Prop where
  forward : ∀ n ∈ t.preorder, n.start ≤ n.stop
  within : ∀ p ∈ t.preorder, ∀ c ∈ p.children, c.Within p
  siblings : ∀ p ∈ t.preorder, p.children.Pairwise (·.stop ≤ ·.start)

instance (t : Tree) : Decidable t.Laid :=
  decidable_of_iff ((∀ n ∈ t.preorder, n.start ≤ n.stop) ∧
      (∀ p ∈ t.preorder, ∀ c ∈ p.children, c.Within p) ∧
      ∀ p ∈ t.preorder, p.children.Pairwise (·.stop ≤ ·.start))
    ⟨fun h => ⟨h.1, h.2.1, h.2.2⟩, fun h => ⟨h.forward, h.within, h.siblings⟩⟩

section Nodes

variable {t s p q n a b : Tree}

theorem Within.refl (t : Tree) : t.Within t := ⟨Nat.le_refl _, Nat.le_refl _⟩

theorem Within.trans (h₁ : s.Within p) (h₂ : p.Within t) : s.Within t :=
  ⟨Nat.le_trans h₂.1 h₁.1, Nat.le_trans h₁.2 h₂.2⟩

theorem Laid.of_mem (h : t.Laid) (hs : s ∈ t.preorder) : s.Laid where
  forward n hn := h.forward n (mem_preorder_trans hn hs)
  within p hp := h.within p (mem_preorder_trans hp hs)
  siblings p hp := h.siblings p (mem_preorder_trans hp hs)

/-- What is below a node lies inside it. -/
theorem Laid.within_of_mem (h : t.Laid) (hs : s ∈ t.preorder) : s.Within t := by
  induction t using induct with
  | h l cs ih =>
    rcases mem_preorder_iff.1 hs with rfl | ⟨c, hc, hsc⟩
    · exact Within.refl _
    · have hchild := h.of_mem (child_mem_preorder hc)
      exact (ih c hc hchild hsc).trans (h.within _ (self_mem_preorder _) c hc)

/-- Of two nodes one is below the other, or one ends before the other begins. -/
theorem Laid.related_or_apart (h : t.Laid) (ha : a ∈ t.preorder) (hb : b ∈ t.preorder) :
    a ∈ b.preorder ∨ b ∈ a.preorder ∨ a.stop ≤ b.start ∨ b.stop ≤ a.start := by
  induction t using induct with
  | h l cs ih =>
    -- the lowest node that has both decides: the nodes are it, or below one or two of its children
    rcases mem_preorder_iff.1 ha with rfl | ⟨c, hc, hac⟩
    · exact .inr (.inl hb)
    rcases mem_preorder_iff.1 hb with rfl | ⟨d, hd, hbd⟩
    · exact .inl ha
    have hcl := h.of_mem (child_mem_preorder hc)
    by_cases hcd : c = d
    · subst hcd
      exact ih c hc hcl hac hbd
    · -- below different children
      have hac := hcl.within_of_mem hac
      have hbd := (h.of_mem (child_mem_preorder hd)).within_of_mem hbd
      have hsib := h.siblings _ (self_mem_preorder _)
      have happart : c.stop ≤ d.start ∨ d.stop ≤ c.start := by
        have : Std.Symm fun c d : Tree => c.stop ≤ d.start ∨ d.stop ≤ c.start := ⟨fun _ _ => .symm⟩
        have heither : cs.Pairwise fun c d => c.stop ≤ d.start ∨ d.stop ≤ c.start := hsib.imp .inl
        exact heither.forall hc hd hcd
      rcases happart with happart | happart
      · exact .inr (.inr (.inl (Nat.le_trans hac.2 (Nat.le_trans happart hbd.1))))
      · exact .inr (.inr (.inr (Nat.le_trans hbd.2 (Nat.le_trans happart hac.1))))

theorem exists_parent (h : n ∈ q.preorder) : n = q ∨ ∃ p ∈ q.preorder, n ∈ p.children := by
  rw [← map_node_walk] at h
  rcases List.mem_map.1 h with ⟨l, hl, rfl⟩
  rcases mem_walk_iff.1 hl with rfl | ⟨p, hp, -, hchild⟩
  · exact .inl rfl
  · exact .inr ⟨p, hp, hchild⟩

/-- The node around a node that is properly below another one is below that one too. -/
theorem Distinct.parent_mem_preorder (h : t.Distinct) (hp : p ∈ t.preorder)
    (hq : q ∈ t.preorder) (hn : n ∈ p.children) (hnq : n ∈ q.preorder) (hne : n ≠ q) :
    p ∈ q.preorder := by
  rcases exists_parent hnq with heq | ⟨p', hp', hn'⟩
  · exact absurd heq hne
  · rw [h.parent_unique hp (mem_preorder_trans hp' hq) hn hn']
    exact hp'

end Nodes

/-! ## Sites -/

section Sites

variable {t s e d : Tree} {parent : Option Tree} {u v l : Located}

/-- Whether a node of this kind may be the node that a site replaces. -/
def mayBeSite (t : Tree) : Bool := t.isClass || t.isObject || t.kind == "export_statement"

theorem site_eq (l : Located) :
    l.site = l.node ∨ (l.node.isClass = true ∧ l.parent = some l.site ∧
      l.site.kind = "export_statement") := by
  unfold Located.site Located.export?
  split
  · rename_i hclass
    cases hfilter : l.parent.filter (·.kind == "export_statement") with
    | none => exact .inl rfl
    | some e =>
      rcases Option.filter_eq_some_iff.1 hfilter with ⟨hparent, hkind⟩
      exact .inr ⟨hclass, hparent, by simpa using hkind⟩
  · exact .inl rfl

theorem mayBeSite_site (h : l.isSite = true) : l.site.mayBeSite = true := by
  rcases site_eq l with heq | ⟨-, -, hkind⟩
  · rw [heq]
    unfold Located.isSite at h
    split at h
    · rename_i hclass
      simp [mayBeSite, hclass]
    · simp only [Bool.and_eq_true] at h
      simp [mayBeSite, h.1]
  · simp [mayBeSite, hkind]

/-- A site below a node lies inside it, or is the export statement around it. -/
theorem Laid.site_within (h : s.Laid) (hl : l ∈ located parent s) :
    l.site.Within s ∨ (l.node = s ∧ s.isClass = true ∧ parent = some l.site ∧
      l.site.kind = "export_statement") := by
  rcases mem_located_iff.1 hl with rfl | ⟨p, hp, hparent, hnode⟩
  · rcases site_eq ⟨parent, s⟩ with heq | hexport
    · rw [heq]
      exact .inl (Within.refl s)
    · exact .inr ⟨rfl, hexport⟩
  · refine .inl ?_
    rcases site_eq l with heq | ⟨-, heq, -⟩
    · rw [heq]
      exact h.within_of_mem (mem_preorder_trans (child_mem_preorder hnode) hp)
    · rw [hparent, Option.some.injEq] at heq
      rw [← heq]
      exact h.within_of_mem hp

/-- A site below a child of a node lies inside the child, or is the node, which exports the child.
-/
theorem Laid.site_below (h : s.Laid) {p : Tree} (hl : l ∈ locatedUp (some p) s) :
    l.site.Within s ∨ (l.node = s ∧ s.isClass = true ∧ l.site = p ∧
      p.kind = "export_statement") := by
  rcases h.site_within ((locatedUp_perm_located _ s).subset hl) with
    hin | ⟨hnode, hclass, heq, hkind⟩
  · exact .inl hin
  · obtain rfl := Option.some.inj heq
    exact .inr ⟨hnode, hclass, rfl, hkind⟩

/-- So it lies inside the node in any case. -/
theorem Laid.site_within_parent (h : s.Laid) {p : Tree} (hs : s.Within p)
    (hl : l ∈ locatedUp (some p) s) : l.site.Within p := by
  rcases h.site_below hl with hin | ⟨-, -, heq, -⟩
  · exact hin.trans hs
  · rw [heq]
    exact Within.refl p

/-- One node is the class of an export statement and the other one is below a later child of it. -/
def Trails (t : Tree) (u v : Located) : Prop :=
  ∃ e ∈ t.preorder, e.kind = "export_statement" ∧ u.node.isClass = true ∧
    ∃ d, [u.node, d].Sublist e.children ∧ v ∈ located (some e) d

/-- Sites in the order in which they are lowered: the earlier one lies before the later one or
inside it, or the later one trails the class of the earlier one. -/
theorem Laid.pairwise_site (h : t.Laid) (hs : s ∈ t.preorder)
    (hparent : ∀ p ∈ parent, s.Within p) :
    (locatedUp parent s).Pairwise fun u v =>
      u.site.stop ≤ v.site.start ∨ u.site.Within v.site ∨
        (v.site.Within u.site ∧ t.Trails u v) := by
  induction s using induct generalizing parent with
  | h lab cs ih =>
    have hlaid := h.of_mem hs
    have hchild : ∀ c ∈ cs, c ∈ t.preorder := fun c hc =>
      mem_preorder_trans (child_mem_preorder (t := .node lab cs) hc) hs
    have hwithin : ∀ c ∈ cs, c.Within (.node lab cs) := hlaid.within _ (self_mem_preorder _)
    have hself : ∀ c ∈ cs, ∀ u ∈ locatedUp (some (.node lab cs)) c,
        u.site.Within (.node lab cs) :=
      fun c hc _ hu => (h.of_mem (hchild c hc)).site_within_parent (hwithin c hc) hu
    -- a pair is below one child, below two children, or ends with the node itself
    rw [locatedUp_eq, children]
    refine List.pairwise_append.2
      ⟨List.pairwise_flatMap.2 ⟨?_, ?_⟩, List.pairwise_singleton _ _, ?_⟩
    · intro c hc
      refine ih c hc (hchild c hc) ?_
      rintro p hp
      cases hp
      exact hwithin c hc
    · -- below different children
      refine List.pairwise_iff_forall_sublist.2 ?_
      intro c d hcd u hu v hv
      have hc : c ∈ cs := hcd.subset (by simp)
      have hd : d ∈ cs := hcd.subset (by simp)
      have hsib : c.stop ≤ d.start :=
        List.pairwise_iff_forall_sublist.1 (hlaid.siblings _ (self_mem_preorder _)) hcd
      rcases (h.of_mem (hchild c hc)).site_below hu with hin | ⟨hnode, hclass, heq, hkind⟩
      · rcases (h.of_mem (hchild d hd)).site_below hv with hin' | ⟨-, -, heq', -⟩
        · exact .inl (Nat.le_trans hin.2 (Nat.le_trans hsib hin'.1))
        · rw [heq']
          exact .inr (.inl (hself c hc u hu))
      · -- the earlier site is the whole node
        rw [heq]
        refine .inr (.inr ⟨hself d hd v hv, _, hs, hkind, hnode ▸ hclass, d, ?_, ?_⟩)
        · rw [hnode]
          exact hcd
        · exact (locatedUp_perm_located _ d).subset hv
    · intro u hu v hv
      rcases List.mem_flatMap.1 hu with ⟨c, hc, hu⟩
      rw [List.mem_singleton.1 hv]
      refine .inr (.inl ((hself c hc u hu).trans ?_))
      rcases site_eq ⟨parent, .node lab cs⟩ with heq | ⟨-, heq, -⟩
      · rw [heq]
        exact Within.refl _
      · exact hparent _ heq

end Sites

end Tree

end Undecorate
