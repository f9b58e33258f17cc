import Mathlib.Data.List.Flatten
import Undecorate.Proofs.Declaration.Attachment
import Undecorate.Proofs.Tree.Walk

/-! # What a site takes up

A site takes up decorators that are children of four kinds of nodes: the class, the export statement
around it, its body and its methods. Each of these nodes belongs to one site only, so that what
different sites take up is disjoint.

* `holder_of_mem_claimed`: the node that a decorator is taken up from;
* `Holds.unique`: such a node belongs to one site;
* `nodup_flatMap_claimed`: no decorator is taken up twice;
* `classDecorators_sublist`, `rowDecorators_sublist`: the decorators of a class and of a member are
  in document order.
-/

namespace Undecorate

/-- The shape that a grammar gives a tree, as far as decorators depend on it. -/
structure Tree.Grammatical (t : Tree) : Prop where
  /-- Nodes are told apart. -/
  distinct : t.Distinct
  /-- An export statement has at most one class. -/
  exports : ∀ e ∈ t.preorder, e.kind = "export_statement" →
    (e.children.filter (·.isClass)).length ≤ 1
  /-- The decorators of an export statement stand before its class. -/
  ahead : ∀ e ∈ t.preorder, e.kind = "export_statement" →
    e.children.Pairwise fun c d => c.isClass = true → d.kind ≠ "decorator"
  /-- The body of a class is a class body. -/
  bodies : ∀ c ∈ t.preorder, c.isClass = true → ∀ b ∈ c.child? "body", b.kind = "class_body"

/-- The node whose children are the members of a site. -/
def Located.home? (l : Located) : Option Tree :=
  if l.node.isClass then l.node.child? "body" else some l.node

/-- A node that a site takes decorators up from. -/
inductive Located.Holds (l : Located) (p : Tree) : Prop
  | own (hc : l.node.isClass = true) (hp : p = l.node)
  | exported (hp : l.export? = some p)
  | body (hc : l.node.isClass = true) (hp : l.node.child? "body" = some p)
  | method (hk : p.kind = "method_definition") (hp : p ∈ l.memberNodes)

section Shapes

variable {t : Tree} {l l' : Located} {p d : Tree}

/-- A node of a kind that no class has. -/
theorem Tree.isClass_of_kind {kind : String} (hk : p.kind = kind)
    (h : kind ∉ ["class_declaration", "class", "abstract_class_declaration"]) :
    p.isClass = false := by
  subst hk
  simp only [List.mem_cons, List.not_mem_nil, or_false, not_or] at h
  simp [Tree.isClass, h]

theorem Tree.kind_ne_of_isClass {kind : String} (hc : p.isClass = true)
    (h : kind ∉ ["class_declaration", "class", "abstract_class_declaration"]) :
    p.kind ≠ kind := by
  intro hk
  rw [Tree.isClass_of_kind hk h] at hc
  cases hc

theorem Tree.namedChildren_sublist (t : Tree) : t.namedChildren.Sublist t.children :=
  List.filter_sublist

theorem Tree.decorators_sublist (t : Tree) : t.decorators.Sublist t.children :=
  List.filter_sublist

theorem Tree.kind_of_mem_decorators (h : d ∈ t.decorators) : d.kind = "decorator" := by
  simpa using (List.mem_filter.1 h).2

/-- The export statement around a class has the class among its children. -/
theorem Located.export?_eq_some (hl : l ∈ t.walk) (h : l.export? = some p) :
    p ∈ t.preorder ∧ p.kind = "export_statement" ∧ l.node ∈ p.children ∧
      l.node.isClass = true := by
  unfold Located.export? at h
  split at h
  · rename_i hclass
    rcases Option.filter_eq_some_iff.1 h with ⟨hparent, hkind⟩
    rcases Tree.mem_walk_iff.1 hl with rfl | ⟨q, hq, hqp, hmem⟩
    · cases hparent
    · rw [hparent, Option.some.injEq] at hqp
      subst hqp
      exact ⟨hq, by simpa using hkind, hmem, hclass⟩
  · cases h

theorem Located.home?_mem_preorder (h : l.home? = some p) : p ∈ l.node.preorder := by
  unfold Located.home? at h
  split at h
  · exact Tree.child_mem_preorder (Tree.mem_children_of_child? h)
  · cases h
    exact l.node.self_mem_preorder

theorem Located.home?_mem (hl : l ∈ t.walk) (h : l.home? = some p) : p ∈ t.preorder :=
  Tree.mem_preorder_trans (Located.home?_mem_preorder h) (Tree.node_mem_preorder_of_mem_walk hl)

/-- The members of a site are children of its home. -/
theorem Located.memberNodes_sublist (l : Located) :
    (l.memberNodes = [] ∧ l.home? = none) ∨
      ∃ h, l.home? = some h ∧ l.memberNodes.Sublist h.children := by
  unfold Located.memberNodes Located.home?
  split
  · split
    · rename_i body hbody
      exact .inr ⟨body, hbody, body.namedChildren_sublist⟩
    · rename_i hbody
      exact .inl ⟨rfl, hbody⟩
  · exact .inr ⟨l.node, rfl, l.node.namedChildren_sublist⟩

theorem Located.home?_of_mem_memberNodes (h : p ∈ l.memberNodes) :
    ∃ q, l.home? = some q ∧ p ∈ q.children := by
  rcases l.memberNodes_sublist with ⟨hnil, -⟩ | ⟨q, hq, hsub⟩
  · rw [hnil] at h
    cases h
  · exact ⟨q, hq, hsub.subset h⟩

end Shapes

/-! ## The nodes that decorators are taken up from -/

section Holders

variable {t : Tree} {l l' : Located} {p d : Tree}

/-- Every part of a class body that is no decorator has its row. -/
theorem exists_row_of_mem {pending ts : List Tree} {c : Tree} (hc : c ∈ ts)
    (hk : c.kind ≠ "decorator") : ∃ row ∈ bodyRows pending ts, row.node = c := by
  -- decorators only change what is pending for the rows that follow
  induction ts generalizing pending with
  | nil => cases hc
  | cons x ts ih =>
    unfold bodyRows
    rcases List.mem_cons.1 hc with rfl | hc
    · rw [if_neg (by simpa using hk)]
      split
      · exact ⟨_, List.mem_cons_self, rfl⟩
      · exact ⟨_, List.mem_cons_self, rfl⟩
    · split
      · exact ih hc
      · split
        · obtain ⟨row, hrow, hnode⟩ : ∃ row ∈ bodyRows pending ts, row.node = c := ih hc
          exact ⟨row, List.mem_cons_of_mem _ hrow, hnode⟩
        · obtain ⟨row, hrow, hnode⟩ : ∃ row ∈ bodyRows [] ts, row.node = c := ih hc
          exact ⟨row, List.mem_cons_of_mem _ hrow, hnode⟩

theorem Located.exists_row_of_mem_memberNodes {c : Tree} (hc : c ∈ l.memberNodes)
    (hk : l.node.isClass = true → c.kind ≠ "decorator") : ∃ row ∈ l.rows, row.node = c := by
  unfold Located.rows
  split
  · rename_i hclass
    exact exists_row_of_mem hc (hk hclass)
  · exact ⟨⟨[], c⟩, List.mem_map_of_mem hc, rfl⟩

/-- Only the methods of a site have decorators. -/
def Located.MethodsOnly (l : Located) : Prop :=
  ∀ row ∈ l.rows, row.decorators ≠ [] → row.node.kind = "method_definition"

/-- A decorator of a member is a part of the class body itself, or a child of a method. -/
theorem Located.mem_memberNodes_part (hm : l.MethodsOnly) {c : Tree} (hc : c ∈ l.memberNodes)
    (hd : d ∈ if l.node.isClass && c.kind == "decorator" then [c] else c.decorators) :
    (l.node.isClass = true ∧ d = c ∧ c.kind = "decorator") ∨
      (c.kind = "method_definition" ∧ d ∈ c.decorators) := by
  split at hd
  · rename_i hsib
    simp only [Bool.and_eq_true, beq_iff_eq] at hsib
    exact .inl ⟨hsib.1, List.mem_singleton.1 hd, hsib.2⟩
  · rename_i hsib
    simp only [Bool.and_eq_true, beq_iff_eq, not_and] at hsib
    rcases Located.exists_row_of_mem_memberNodes hc hsib with ⟨row, hrow, rfl⟩
    refine .inr ⟨hm row hrow ?_, hd⟩
    exact List.ne_nil_of_mem (List.mem_append_right _ hd)

/-- The decorators that a site takes up for its members. -/
def Located.memberDecorators (l : Located) : List Tree :=
  l.memberNodes.flatMap fun c =>
    if l.node.isClass && c.kind == "decorator" then [c] else c.decorators

theorem holder_of_mem_classDecorators (hl : l ∈ t.walk) (hd : d ∈ l.classDecorators) :
    d.kind = "decorator" ∧
      ∃ p ∈ t.preorder, d ∈ p.children ∧ (l.export? = some p ∨ p = l.node) := by
  have hnode := Tree.node_mem_preorder_of_mem_walk hl
  unfold Located.classDecorators at hd
  rcases List.mem_append.1 hd with hd | hd
  · split at hd
    · rename_i e he
      exact ⟨Tree.kind_of_mem_decorators hd, e, (Located.export?_eq_some hl he).1,
        e.decorators_sublist.subset hd, .inl he⟩
    · cases hd
  · exact ⟨Tree.kind_of_mem_decorators hd, l.node, hnode, l.node.decorators_sublist.subset hd,
      .inr rfl⟩

theorem holder_of_mem_memberDecorators (hl : l ∈ t.walk) (hm : l.MethodsOnly)
    (hd : d ∈ l.memberDecorators) :
    d.kind = "decorator" ∧ ∃ p ∈ t.preorder, d ∈ p.children ∧
      ((l.node.isClass = true ∧ l.node.child? "body" = some p) ∨
        (p.kind = "method_definition" ∧ p ∈ l.memberNodes)) := by
  rcases List.mem_flatMap.1 hd with ⟨c, hc, hd⟩
  rcases Located.home?_of_mem_memberNodes hc with ⟨q, hq, hcq⟩
  have hqt := Located.home?_mem hl hq
  rcases Located.mem_memberNodes_part hm hc hd with ⟨hclass, rfl, hk⟩ | ⟨hk, hd⟩
  · rw [Located.home?, if_pos hclass] at hq
    exact ⟨hk, q, hqt, hcq, .inl ⟨hclass, hq⟩⟩
  · have hct := Tree.mem_preorder_trans (Tree.child_mem_preorder hcq) hqt
    exact ⟨Tree.kind_of_mem_decorators hd, c, hct, c.decorators_sublist.subset hd, .inr ⟨hk, hc⟩⟩

/-- Every decorator that a site takes up is the child of a node that the site takes decorators up
from. -/
theorem holder_of_mem_claimed (hl : l ∈ t.walk) (hm : l.MethodsOnly) (hd : d ∈ l.claimed) :
    d.kind = "decorator" ∧ ∃ p ∈ t.preorder, d ∈ p.children ∧ l.Holds p := by
  rcases List.mem_append.1 hd with hd | hd
  · split at hd
    · rename_i hclass
      rcases holder_of_mem_classDecorators hl hd with ⟨hk, p, hp, hdp, he | he⟩
      · exact ⟨hk, p, hp, hdp, .exported he⟩
      · exact ⟨hk, p, hp, hdp, .own hclass he⟩
    · cases hd
  · obtain ⟨hk, p, hp, hdp, ⟨hclass, hbody⟩ | ⟨hkp, hmem⟩⟩ :=
      holder_of_mem_memberDecorators hl hm hd
    · exact ⟨hk, p, hp, hdp, .body hclass hbody⟩
    · exact ⟨hk, p, hp, hdp, .method hkp hmem⟩

/-- The ways to belong to a site. -/
inductive Role where
  | own
  | exported
  | body
  | method

/-- The way in which a node of this kind belongs to a site. -/
def Tree.role? (p : Tree) : Option Role :=
  if p.isClass then some .own
  else if p.kind = "export_statement" then some .exported
  else if p.kind = "class_body" then some .body
  else if p.kind = "method_definition" then some .method
  else none

/-- What it means for a node to belong to a site in some way. -/
def Located.Plays (l : Located) (p : Tree) : Role → Prop
  | .own => p = l.node
  | .exported => l.export? = some p
  | .body => l.node.isClass = true ∧ p ∈ l.node.children
  | .method => p ∈ l.memberNodes

/-- What kind of node a holder is tells how it belongs to its site. -/
theorem Located.Holds.plays (hg : t.Grammatical) (hl : l ∈ t.walk) (h : l.Holds p) :
    ∃ role, p.role? = some role ∧ l.Plays p role := by
  have hnode := Tree.node_mem_preorder_of_mem_walk hl
  unfold Tree.role?
  cases h with
  | own hc hp => exact ⟨.own, by simp [hp, hc], hp⟩
  | exported hp =>
    have hk := (Located.export?_eq_some hl hp).2.1
    have hc := Tree.isClass_of_kind hk (by decide)
    exact ⟨.exported, by simp [hc, hk], hp⟩
  | body hc hp =>
    have hk := hg.bodies _ hnode hc p hp
    have hpc := Tree.isClass_of_kind hk (by decide)
    exact ⟨.body, by simp [hpc, hk], hc, Tree.mem_children_of_child? hp⟩
  | method hk hp =>
    have hc := Tree.isClass_of_kind hk (by decide)
    exact ⟨.method, by simp [hc, hk], hp⟩

theorem eq_of_mem_of_length_le_one {xs : List Tree} (h : xs.length ≤ 1) {a b : Tree} (ha : a ∈ xs)
    (hb : b ∈ xs) : a = b := by
  rcases xs with _ | ⟨x, _ | ⟨y, xs⟩⟩
  · cases ha
  · exact (List.mem_singleton.1 ha).trans (List.mem_singleton.1 hb).symm
  · simp at h

/-- Sites with one home are one site. -/
theorem node_eq_of_home?_eq (hg : t.Grammatical) (hl : l ∈ t.walk) (hl' : l' ∈ t.walk)
    (hs : l.isSite = true) (hs' : l'.isSite = true) {q : Tree} (h : l.home? = some q)
    (h' : l'.home? = some q) : l.node = l'.node := by
  have hnode := Tree.node_mem_preorder_of_mem_walk hl
  have hnode' := Tree.node_mem_preorder_of_mem_walk hl'
  have hobject : ∀ x : Located, x.isSite = true → x.node.isClass = false →
      x.node.kind = "object" := by
    intro x hx hclass
    simp only [Located.isSite, hclass, Bool.false_eq_true, if_false, Bool.and_eq_true] at hx
    simpa [Tree.isObject] using hx.1
  unfold Located.home? at h h'
  cases hc : l.node.isClass <;> cases hc' : l'.node.isClass <;> rw [hc] at h <;> rw [hc'] at h'
  · exact (Option.some.inj h).trans (Option.some.inj h').symm
  · -- an object literal is not the body of a class
    obtain rfl := Option.some.inj h
    have hbody := hg.bodies _ hnode' hc' _ h'
    rw [hobject l hs hc] at hbody
    exact absurd hbody (by decide)
  · obtain rfl := Option.some.inj h'
    have hbody := hg.bodies _ hnode hc _ h
    rw [hobject l' hs' hc'] at hbody
    exact absurd hbody (by decide)
  · exact hg.distinct.parent_unique hnode hnode' (Tree.mem_children_of_child? h)
      (Tree.mem_children_of_child? h')

/-- A node that sites take decorators up from belongs to one site only. -/
theorem Located.Holds.unique (hg : t.Grammatical) (hl : l ∈ t.walk) (hl' : l' ∈ t.walk)
    (hs : l.isSite = true) (hs' : l'.isSite = true) (h : l.Holds p) (h' : l'.Holds p) :
    l = l' := by
  refine hg.distinct.located_unique hl hl' ?_
  have hnode := Tree.node_mem_preorder_of_mem_walk hl
  have hnode' := Tree.node_mem_preorder_of_mem_walk hl'
  -- the kind of the node leaves one way to belong to a site
  rcases h.plays hg hl with ⟨role, hrole, hp⟩
  rcases h'.plays hg hl' with ⟨role', hrole', hp'⟩
  obtain rfl : role = role' := Option.some.inj (hrole.symm.trans hrole')
  cases role with
  | own => exact hp.symm.trans hp'
  | exported =>
    -- the only class of an export statement
    rcases Located.export?_eq_some hl hp with ⟨hmem, hk, hchild, hclass⟩
    rcases Located.export?_eq_some hl' hp' with ⟨-, -, hchild', hclass'⟩
    exact eq_of_mem_of_length_le_one (hg.exports p hmem hk)
      (List.mem_filter.2 ⟨hchild, hclass⟩) (List.mem_filter.2 ⟨hchild', hclass'⟩)
  | body => exact hg.distinct.parent_unique hnode hnode' hp.2 hp'.2
  | method =>
    rcases Located.home?_of_mem_memberNodes hp with ⟨q, hq, hpq⟩
    rcases Located.home?_of_mem_memberNodes hp' with ⟨q', hq', hpq'⟩
    obtain rfl := hg.distinct.parent_unique (Located.home?_mem hl hq) (Located.home?_mem hl' hq')
      hpq hpq'
    exact node_eq_of_home?_eq hg hl hl' hs hs' hq hq'

/-! ## No decorator is taken up twice -/

theorem nodup_classDecorators (hg : t.Grammatical) (hl : l ∈ t.walk) (hc : l.node.isClass = true) :
    l.classDecorators.Nodup := by
  have hnode := Tree.node_mem_preorder_of_mem_walk hl
  have hown : l.node.decorators.Nodup :=
    l.node.decorators_sublist.nodup (hg.distinct.nodup_children hnode)
  unfold Located.classDecorators
  cases he : l.export? with
  | none => exact hown
  | some e =>
    rcases Located.export?_eq_some hl he with ⟨hmem, hk, -, -⟩
    refine List.nodup_append.2
      ⟨e.decorators_sublist.nodup (hg.distinct.nodup_children hmem), hown, ?_⟩
    rintro d hd _ hd' rfl
    have heq := hg.distinct.parent_unique hmem hnode (e.decorators_sublist.subset hd)
      (l.node.decorators_sublist.subset hd')
    exact Tree.kind_ne_of_isClass hc (by decide) (heq ▸ hk)

theorem nodup_memberDecorators (hg : t.Grammatical) (hl : l ∈ t.walk) (hm : l.MethodsOnly) :
    l.memberDecorators.Nodup := by
  unfold Located.memberDecorators
  rcases l.memberNodes_sublist with ⟨hnil, -⟩ | ⟨q, hq, hsub⟩
  · rw [hnil]
    exact List.nodup_nil
  have hqt := Located.home?_mem hl hq
  have hct : ∀ c ∈ l.memberNodes, c ∈ t.preorder := fun c hc =>
    Tree.mem_preorder_trans (Tree.child_mem_preorder (hsub.subset hc)) hqt
  refine List.nodup_flatMap.2 ⟨?_, ?_⟩
  · intro c hc
    split
    · exact List.nodup_singleton c
    · exact c.decorators_sublist.nodup (hg.distinct.nodup_children (hct c hc))
  · refine (hsub.nodup (hg.distinct.nodup_children hqt)).imp_of_mem ?_
    intro a b ha hb hne d hda hdb
    rcases Located.mem_memberNodes_part hm ha hda with ⟨-, rfl, hka⟩ | ⟨hka, hda⟩ <;>
      rcases Located.mem_memberNodes_part hm hb hdb with ⟨-, rfl, hkb⟩ | ⟨hkb, hdb⟩
    · exact hne rfl
    · -- a part of the body is no child of another part of it
      have hsame := hg.distinct.parent_unique hqt (hct b hb) (hsub.subset ha)
        (b.decorators_sublist.subset hdb)
      have hlt := Tree.size_lt_of_mem_children (hsub.subset hb)
      rw [hsame] at hlt
      exact Nat.lt_irrefl _ hlt
    · have hsame := hg.distinct.parent_unique hqt (hct a ha) (hsub.subset hb)
        (a.decorators_sublist.subset hda)
      have hlt := Tree.size_lt_of_mem_children (hsub.subset ha)
      rw [hsame] at hlt
      exact Nat.lt_irrefl _ hlt
    · exact hne (hg.distinct.parent_unique (hct a ha) (hct b hb)
        (a.decorators_sublist.subset hda) (b.decorators_sublist.subset hdb))

/-- A site takes no decorator up twice. -/
theorem nodup_claimed (hg : t.Grammatical) (hl : l ∈ t.walk) (hm : l.MethodsOnly) :
    l.claimed.Nodup := by
  have hnode := Tree.node_mem_preorder_of_mem_walk hl
  unfold Located.claimed
  split
  · rename_i hclass
    refine List.nodup_append.2
      ⟨nodup_classDecorators hg hl hclass, nodup_memberDecorators hg hl hm, ?_⟩
    rintro d hd _ hd' rfl
    -- the decorator would be a child of the class or export, and of the body or a method
    rcases holder_of_mem_classDecorators hl hd with ⟨-, p, hp, hdp, hrole⟩
    rcases holder_of_mem_memberDecorators hl hm hd' with ⟨-, q, hq, hdq, hrole'⟩
    obtain rfl := hg.distinct.parent_unique hp hq hdp hdq
    have hkind : p.kind = "class_body" ∨ p.kind = "method_definition" := by
      rcases hrole' with ⟨-, hbody⟩ | ⟨hk, -⟩
      · exact .inl (hg.bodies _ hnode hclass p hbody)
      · exact .inr hk
    rcases hrole with he | rfl
    · rcases Located.export?_eq_some hl he with ⟨-, hk, -, -⟩
      rw [hk] at hkind
      exact absurd hkind (by decide)
    · rcases hkind with hk | hk
      · exact Tree.kind_ne_of_isClass hclass (by decide) hk
      · exact Tree.kind_ne_of_isClass hclass (by decide) hk
  · rw [List.nil_append]
    exact nodup_memberDecorators hg hl hm

/-- Different sites take up different decorators. -/
theorem claimed_apart (hg : t.Grammatical) (hl : l ∈ t.walk) (hl' : l' ∈ t.walk)
    (hs : l.isSite = true) (hs' : l'.isSite = true) (hm : l.MethodsOnly) (hm' : l'.MethodsOnly)
    (hne : l ≠ l') : l.claimed.Disjoint l'.claimed := by
  intro d hd hd'
  rcases holder_of_mem_claimed hl hm hd with ⟨-, p, hp, hdp, hholds⟩
  rcases holder_of_mem_claimed hl' hm' hd' with ⟨-, q, hq, hdq, hholds'⟩
  obtain rfl := hg.distinct.parent_unique hp hq hdp hdq
  exact hne (hholds.unique hg hl hl' hs hs' hholds')

/-- No decorator is taken up twice. -/
theorem nodup_flatMap_claimed (hg : t.Grammatical)
    (hm : ∀ l ∈ t.walk.filter (·.isSite), l.MethodsOnly) :
    ((t.walk.filter (·.isSite)).flatMap (·.claimed)).Nodup := by
  refine List.nodup_flatMap.2 ⟨?_, ?_⟩
  · intro l hl
    exact nodup_claimed hg (List.mem_filter.1 hl).1 (hm l hl)
  · refine (hg.distinct.nodup_walk.filter _).imp_of_mem ?_
    intro a b ha hb hne
    rcases List.mem_filter.1 ha with ⟨hwa, hsa⟩
    rcases List.mem_filter.1 hb with ⟨hwb, hsb⟩
    exact claimed_apart hg hwa hwb hsa hsb (hm a ha) (hm b hb) hne

end Holders

/-! ## Document order -/

section Order

variable {t : Tree} {l : Located}

theorem decorators_sublist_preorder (t : Tree) : t.decorators.Sublist t.preorder := by
  rw [Tree.preorder_eq]
  exact (t.decorators_sublist.trans (Tree.sublist_flatMap_preorder _)).cons t

/-- Nodes that stand before a node, and then decorators of the node, are in document order. -/
theorem sublist_preorder_of_children {p c : Tree} {before : List Tree}
    (h : (before ++ [c]).Sublist p.children) :
    (before ++ c.decorators).Sublist p.preorder := by
  have hall : (before ++ c.decorators).Sublist ((before ++ [c]).flatMap Tree.preorder) := by
    rw [List.flatMap_append, List.flatMap_singleton]
    exact (Tree.sublist_flatMap_preorder before).append (decorators_sublist_preorder c)
  rw [Tree.preorder_eq p]
  exact (hall.trans (h.flatMap _)).cons p

/-- The decorators of a class are in document order. -/
theorem classDecorators_sublist (hg : t.Grammatical) (hl : l ∈ t.walk) :
    l.classDecorators.Sublist t.preorder := by
  have hnode := Tree.node_mem_preorder_of_mem_walk hl
  unfold Located.classDecorators
  cases he : l.export? with
  | none => exact (decorators_sublist_preorder l.node).trans (Tree.preorder_sublist_of_mem hnode)
  | some e =>
    rcases Located.export?_eq_some hl he with ⟨hmem, hk, hchild, hclass⟩
    rcases List.append_of_mem hchild with ⟨before, after, hsplit⟩
    -- the decorators of the statement are all before the class
    have hafter : after.filter (·.kind == "decorator") = [] := by
      rw [List.filter_eq_nil_iff]
      intro d hd
      have hpairs := hg.ahead e hmem hk
      rw [hsplit, List.pairwise_append] at hpairs
      simpa using (List.pairwise_cons.1 hpairs.2.1).1 d hd hclass
    have hself : (l.node.kind == "decorator") = false := by
      simpa using Tree.kind_ne_of_isClass hclass (by decide)
    have hdecs : e.decorators = before.filter (·.kind == "decorator") := by
      rw [Tree.decorators, Tree.childrenOf, hsplit, List.filter_append, List.filter_cons, hself,
        hafter]
      simp
    change (e.decorators ++ l.node.decorators).Sublist t.preorder
    rw [hdecs]
    refine (sublist_preorder_of_children ?_).trans (Tree.preorder_sublist_of_mem hmem)
    rw [hsplit]
    exact List.filter_sublist.append (List.singleton_sublist.2 List.mem_cons_self)

/-- The decorators before a member stand before it in the class body. -/
theorem bodyRows_sublist {pending ts : List Tree} {row : Row} (h : row ∈ bodyRows pending ts) :
    (row.preceding ++ [row.node]).Sublist (pending ++ ts) := by
  -- pending decorators are a beginning of what the row may have before it
  induction ts generalizing pending with
  | nil => cases h
  | cons x ts ih =>
    unfold bodyRows at h
    split at h
    · have hsub := ih h
      rw [List.append_assoc] at hsub
      exact hsub
    · split at h
      · rcases List.mem_cons.1 h with rfl | h
        · exact (List.singleton_sublist.2 (by simp))
        · exact (ih h).trans ((List.Sublist.refl _).append (List.sublist_cons_self x ts))
      · rcases List.mem_cons.1 h with rfl | h
        · exact (List.Sublist.refl _).append (List.singleton_sublist.2 List.mem_cons_self)
        · exact (ih h).trans
            ((List.sublist_cons_self x ts).trans (List.sublist_append_right pending _))

/-- A member and the decorators before it are children of the home of their site. -/
theorem Located.exists_home_of_row {row : Row} (hrow : row ∈ l.rows) :
    ∃ q, l.home? = some q ∧ (row.preceding ++ [row.node]).Sublist q.children := by
  have hsub : (row.preceding ++ [row.node]).Sublist l.memberNodes := by
    unfold Located.rows at hrow
    split at hrow
    · exact bodyRows_sublist hrow
    · rcases List.mem_map.1 hrow with ⟨c, hc, rfl⟩
      exact List.singleton_sublist.2 hc
  rcases l.memberNodes_sublist with ⟨hnil, -⟩ | ⟨q, hq, hchildren⟩
  · rw [hnil] at hsub
    simp at hsub
  · exact ⟨q, hq, hsub.trans hchildren⟩

/-- A member and the decorators before it are below the node of their site. -/
theorem Located.row_mem_preorder {row : Row} (hrow : row ∈ l.rows) :
    row.node ∈ l.node.preorder ∧ ∀ d ∈ row.preceding, d ∈ l.node.preorder := by
  obtain ⟨q, hq, hsub⟩ := Located.exists_home_of_row hrow
  have hchild : ∀ c ∈ row.preceding ++ [row.node], c ∈ l.node.preorder := by
    intro c hc
    exact Tree.mem_preorder_trans (Tree.child_mem_preorder (hsub.subset hc))
      (Located.home?_mem_preorder hq)
  constructor
  · exact hchild row.node (List.mem_append_right _ (List.mem_singleton_self _))
  · exact fun d hd => hchild d (List.mem_append_left _ hd)

/-- The decorators of a member are in document order. -/
theorem rowDecorators_sublist (hl : l ∈ t.walk) {row : Row} (hrow : row ∈ l.rows) :
    row.decorators.Sublist t.preorder := by
  obtain ⟨q, hq, hchildren⟩ := Located.exists_home_of_row hrow
  exact (sublist_preorder_of_children hchildren).trans
    (Tree.preorder_sublist_of_mem (Located.home?_mem hl hq))

end Order

end Undecorate
