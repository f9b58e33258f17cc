import Mathlib.Data.List.Perm.Basic
import Mathlib.Data.List.Nodup
import Undecorate.Tree.Walk

/-! # What walks visit

The walks keep their pending work on a stack. Here they are compared with recursive orders that
also tell the node around each node:

* `walk_eq_located`, `walkUp_eq_locatedUp`: a walk visits what the recursive order lists;
* `walkUp_perm_walk`: both walks visit the same nodes;
* `mem_located_iff`: a node is visited below each node that it is a child of, and nowhere else;
* `parent_unique`: in a tree whose nodes are told apart, a node is the child of one node only.
-/

namespace Undecorate.Tree

variable {P : Tree → Prop} {t s p c : Tree} {ts : List Tree} {parent : Option Tree} {l : Located}

/-- What holds for a node whenever it holds for its children holds for every tree. -/
theorem induct (h : ∀ l cs, (∀ c ∈ cs, P c) → P (.node l cs)) : ∀ t, P t
  | .node l cs => h l cs fun c _ => induct h c
termination_by t => t
decreasing_by
  have := List.sizeOf_lt_of_mem ‹c ∈ cs›
  simp only [node.sizeOf_spec]
  omega

/-! ## The orders as lists over the children -/

theorem preorderAll_eq_flatMap (ts : List Tree) : preorderAll ts = ts.flatMap preorder := by
  induction ts with
  | nil => rfl
  | cons t ts ih => rw [preorderAll, List.flatMap_cons, ih]

theorem postorderAll_eq_flatMap (ts : List Tree) : postorderAll ts = ts.flatMap postorder := by
  induction ts with
  | nil => rfl
  | cons t ts ih => rw [postorderAll, List.flatMap_cons, ih]

/-- A node, and then what its children list. -/
theorem preorder_eq (t : Tree) : t.preorder = t :: t.children.flatMap preorder := by
  cases t with
  | node l cs => rw [preorder, preorderAll_eq_flatMap, children]

theorem postorder_eq (t : Tree) : t.postorder = t.children.flatMap postorder ++ [t] := by
  cases t with
  | node l cs => rw [postorder, postorderAll_eq_flatMap, children]

theorem self_mem_preorder (t : Tree) : t ∈ t.preorder := by
  rw [preorder_eq]
  exact List.mem_cons_self

theorem size_le_sizeAll (h : c ∈ ts) : c.size ≤ sizeAll ts := by
  induction ts with
  | nil => simp at h
  | cons t ts ih =>
    rw [sizeAll]
    rcases List.mem_cons.1 h with rfl | h
    · omega
    · have := ih h
      omega

/-- A child is smaller than the node. -/
theorem size_lt_of_mem_children (h : c ∈ t.children) : c.size < t.size := by
  cases t with
  | node l cs =>
    have hle : c.size ≤ sizeAll cs := size_le_sizeAll h
    rw [size]
    omega

/-! ## Nodes with the nodes around them -/

mutual

/-- Every node before its children, with the node around it. -/
def located (parent : Option Tree) : Tree → List Located
  | .node l cs => ⟨parent, .node l cs⟩ :: locatedAll (some (.node l cs)) cs

/-- Every node of several trees before its children, with the node around it. -/
def locatedAll (parent : Option Tree) : List Tree → List Located
  | [] => []
  | t :: ts => located parent t ++ locatedAll parent ts

end

mutual

/-- Every node after its children, with the node around it. -/
def locatedUp (parent : Option Tree) : Tree → List Located
  | .node l cs => locatedAllUp (some (.node l cs)) cs ++ [⟨parent, .node l cs⟩]

/-- Every node of several trees after its children, with the node around it. -/
def locatedAllUp (parent : Option Tree) : List Tree → List Located
  | [] => []
  | t :: ts => locatedUp parent t ++ locatedAllUp parent ts

end

theorem locatedAll_eq_flatMap (parent : Option Tree) (ts : List Tree) :
    locatedAll parent ts = ts.flatMap (located parent) := by
  induction ts with
  | nil => rfl
  | cons t ts ih => rw [locatedAll, List.flatMap_cons, ih]

theorem locatedAllUp_eq_flatMap (parent : Option Tree) (ts : List Tree) :
    locatedAllUp parent ts = ts.flatMap (locatedUp parent) := by
  induction ts with
  | nil => rfl
  | cons t ts ih => rw [locatedAllUp, List.flatMap_cons, ih]

theorem located_eq (parent : Option Tree) (t : Tree) :
    located parent t = ⟨parent, t⟩ :: t.children.flatMap (located (some t)) := by
  cases t with
  | node l cs => rw [located, locatedAll_eq_flatMap, children]

theorem locatedUp_eq (parent : Option Tree) (t : Tree) :
    locatedUp parent t = t.children.flatMap (locatedUp (some t)) ++ [⟨parent, t⟩] := by
  cases t with
  | node l cs => rw [locatedUp, locatedAllUp_eq_flatMap, children]

/-- The walk empties its stack from the top: each entry is followed by all that is below it. -/
theorem walkFrom_eq_flatMap (stack : List Located) :
    walkFrom stack = stack.flatMap fun l => located l.parent l.node := by
  induction stack using walkFrom.induct with
  | case1 => rw [walkFrom]; rfl
  | case2 l stack ih =>
    rw [walkFrom, ih, List.flatMap_append, List.flatMap_cons, located_eq, Located.children,
      List.flatMap_map, List.cons_append]

theorem walk_eq_located (t : Tree) : t.walk = located none t := by
  rw [walk, walkFrom_eq_flatMap, List.flatMap_singleton]

/-- What is visited for one step of the walk that visits children first. -/
def Task.visits : Task → List Located
  | .enter l => locatedUp l.parent l.node
  | .leave l => [l]

theorem walkUpFrom_eq_flatMap (stack : List Task) :
    walkUpFrom stack = stack.flatMap Task.visits := by
  induction stack using walkUpFrom.induct with
  | case1 => rw [walkUpFrom]; rfl
  | case2 l stack ih => rw [walkUpFrom, ih, List.flatMap_cons]; rfl
  | case3 l stack ih =>
    rw [walkUpFrom, ih, List.flatMap_append, List.flatMap_cons, List.flatMap_cons, Located.children,
      List.map_map, List.flatMap_map, ← List.append_assoc]
    congr 1
    exact (locatedUp_eq l.parent l.node).symm

theorem walkUp_eq_locatedUp (t : Tree) : t.walkUp = locatedUp none t := by
  rw [walkUp, walkUpFrom_eq_flatMap, List.flatMap_singleton]
  rfl

theorem map_node_located (parent : Option Tree) (t : Tree) :
    (located parent t).map (·.node) = t.preorder := by
  induction t using induct generalizing parent with
  | h l cs ih =>
    rw [located_eq, preorder_eq, List.map_cons, List.map_flatMap, children]
    congr 1
    exact List.flatMap_congr fun c hc => ih c hc _

theorem map_node_locatedUp (parent : Option Tree) (t : Tree) :
    (locatedUp parent t).map (·.node) = t.postorder := by
  induction t using induct generalizing parent with
  | h l cs ih =>
    rw [locatedUp_eq, postorder_eq, List.map_append, List.map_flatMap, children]
    congr 1
    exact List.flatMap_congr fun c hc => ih c hc _

/-- The nodes that the walk visits, in document order. -/
theorem map_node_walk (t : Tree) : t.walk.map (·.node) = t.preorder := by
  rw [walk_eq_located, map_node_located]

theorem map_node_walkUp (t : Tree) : t.walkUp.map (·.node) = t.postorder := by
  rw [walkUp_eq_locatedUp, map_node_locatedUp]

theorem locatedUp_perm_located (parent : Option Tree) (t : Tree) :
    (locatedUp parent t).Perm (located parent t) := by
  induction t using induct generalizing parent with
  | h l cs ih =>
    rw [located_eq, locatedUp_eq, children]
    have hchildren : (cs.flatMap (locatedUp (some (.node l cs)))).Perm
        (cs.flatMap (located (some (.node l cs)))) :=
      List.Perm.flatMap_left cs fun c hc => ih c hc _
    exact (List.perm_append_singleton _ _).trans (hchildren.cons _)

/-- Both walks visit the same nodes, each below the same node. -/
theorem walkUp_perm_walk (t : Tree) : t.walkUp.Perm t.walk := by
  rw [walk_eq_located, walkUp_eq_locatedUp]
  exact locatedUp_perm_located none t

/-! ## Nodes below a node -/

theorem mem_preorder_iff : s ∈ t.preorder ↔ s = t ∨ ∃ c ∈ t.children, s ∈ c.preorder := by
  rw [preorder_eq, List.mem_cons, List.mem_flatMap]

theorem child_mem_preorder (h : c ∈ t.children) : c ∈ t.preorder :=
  mem_preorder_iff.2 (.inr ⟨c, h, self_mem_preorder c⟩)

theorem sublist_flatMap_preorder (ts : List Tree) : ts.Sublist (ts.flatMap preorder) := by
  induction ts with
  | nil => exact List.Sublist.refl _
  | cons c cs ih =>
    rw [List.flatMap_cons, preorder_eq c]
    exact (ih.trans (List.sublist_append_right _ _)).cons_cons c

/-- What is below a node comes in one piece of every order that has the node. -/
theorem preorder_sublist_of_mem (h : s ∈ t.preorder) : s.preorder.Sublist t.preorder := by
  induction t using induct with
  | h l cs ih =>
    rcases mem_preorder_iff.1 h with rfl | ⟨c, hc, hs⟩
    · exact List.Sublist.refl _
    · rw [preorder_eq (.node l cs)]
      have hpiece : c.preorder.Sublist (cs.flatMap preorder) :=
        List.sublist_flatten_of_mem (List.mem_map_of_mem hc)
      exact ((ih c hc hs).trans hpiece).cons _

theorem mem_preorder_trans (h₁ : s ∈ p.preorder) (h₂ : p ∈ t.preorder) : s ∈ t.preorder :=
  (preorder_sublist_of_mem h₂).subset h₁

/-- A node is visited below each node that it is a child of, and the root below none. -/
theorem mem_located_iff : l ∈ located parent t ↔
    l = ⟨parent, t⟩ ∨ ∃ p ∈ t.preorder, l.parent = some p ∧ l.node ∈ p.children := by
  induction t using induct generalizing parent with
  | h lab cs ih =>
    rw [located_eq, List.mem_cons, List.mem_flatMap]
    refine or_congr_right ?_
    constructor
    · rintro ⟨c, hc, hl⟩
      rcases (ih c hc).1 hl with rfl | ⟨p, hp, hparent, hnode⟩
      · exact ⟨_, self_mem_preorder _, rfl, hc⟩
      · exact ⟨p, mem_preorder_iff.2 (.inr ⟨c, hc, hp⟩), hparent, hnode⟩
    · rintro ⟨p, hp, hparent, hnode⟩
      rcases mem_preorder_iff.1 hp with rfl | ⟨c, hc, hp⟩
      · refine ⟨l.node, hnode, (ih l.node hnode).2 (.inl ?_)⟩
        rw [← hparent]
      · exact ⟨c, hc, (ih c hc).2 (.inr ⟨p, hp, hparent, hnode⟩)⟩

theorem mem_walk_iff : l ∈ t.walk ↔
    l = ⟨none, t⟩ ∨ ∃ p ∈ t.preorder, l.parent = some p ∧ l.node ∈ p.children := by
  rw [walk_eq_located, mem_located_iff]

theorem node_mem_preorder_of_mem_walk (h : l ∈ t.walk) : l.node ∈ t.preorder := by
  rw [← map_node_walk]
  exact List.mem_map_of_mem h

/-! ## Trees whose nodes are told apart -/

/-- The identities of the nodes are distinct. -/
def Distinct (t : Tree) : Prop := (t.preorder.map id).Nodup

instance (t : Tree) : Decidable t.Distinct := inferInstanceAs (Decidable (List.Nodup _))

theorem Distinct.nodup (h : t.Distinct) : t.preorder.Nodup := List.Nodup.of_map id h

/-- Nodes with one identity are one node. -/
theorem Distinct.eq_of_id (h : t.Distinct) {a b : Tree} (ha : a ∈ t.preorder)
    (hb : b ∈ t.preorder) (hid : a.id = b.id) : a = b :=
  List.inj_on_of_nodup_map h ha hb hid

theorem Distinct.nodup_nodes (h : t.Distinct) : (t.walk.map (·.node)).Nodup := by
  rw [map_node_walk]
  exact h.nodup

/-- A node is visited once. -/
theorem Distinct.nodup_walk (h : t.Distinct) : t.walk.Nodup := List.Nodup.of_map _ h.nodup_nodes

theorem Distinct.located_unique (h : t.Distinct) {a b : Located} (ha : a ∈ t.walk)
    (hb : b ∈ t.walk) (hnode : a.node = b.node) : a = b :=
  List.inj_on_of_nodup_map h.nodup_nodes ha hb hnode

/-- A node is the child of one node only. -/
theorem Distinct.parent_unique (h : t.Distinct) {a b : Tree} (ha : a ∈ t.preorder)
    (hb : b ∈ t.preorder) (hca : c ∈ a.children) (hcb : c ∈ b.children) : a = b := by
  have hwa : (⟨some a, c⟩ : Located) ∈ t.walk := mem_walk_iff.2 (.inr ⟨a, ha, rfl, hca⟩)
  have hwb : (⟨some b, c⟩ : Located) ∈ t.walk := mem_walk_iff.2 (.inr ⟨b, hb, rfl, hcb⟩)
  have heq := h.located_unique hwa hwb rfl
  rw [Located.mk.injEq, Option.some.injEq] at heq
  exact heq.1

/-- The children of a node are told apart. -/
theorem Distinct.nodup_children (h : t.Distinct) (hs : s ∈ t.preorder) : s.children.Nodup := by
  have hsub : s.children.Sublist s.preorder := by
    rw [preorder_eq]
    exact (sublist_flatMap_preorder s.children).cons s
  exact (hsub.trans (preorder_sublist_of_mem hs)).nodup h.nodup

end Undecorate.Tree
