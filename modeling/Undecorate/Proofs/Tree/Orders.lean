import Mathlib.Data.List.Nodup
import Mathlib.Data.List.Perm.Basic
import Undecorate.Proofs.Tree.Super

/-! # Walks as recursions

The walks over a tree and the search for a `super` keep on a stack what is left to do. Here they
are told without one. Nodes that look the same may stand at several places of a tree, so that "every
node once" is said of places: lists of the children that are taken on the way down from the root.

* `places`, `placesUp`: all places of a tree, in the two orders;
* `VisitsOnce`: a walk comes to every place, and to none of them twice;
* `traversals_are_recursive`: what the three traversals do.
-/

namespace Undecorate.Tree

/-- A place in a tree: the number of the child that is taken at each step down from the root. -/
abbrev Place := List Nat

/-- The node at a place. -/
def at? : Tree → Place → Option Tree
  | t, [] => some t
  | t, i :: p => t.children[i]?.bind (·.at? p)

mutual

/-- The places of a tree, each before those below it. -/
def places : Tree → List Place
  | .node _ cs => [] :: placesAll 0 cs

/-- The places of children that are counted from a number on, each before those below it. -/
def placesAll : Nat → List Tree → List Place
  | _, [] => []
  | i, t :: ts => t.places.map (i :: ·) ++ placesAll (i + 1) ts

end

mutual

/-- The places of a tree, each after those below it. -/
def placesUp : Tree → List Place
  | .node _ cs => placesAllUp 0 cs ++ [[]]

/-- The places of children that are counted from a number on, each after those below it. -/
def placesAllUp : Nat → List Tree → List Place
  | _, [] => []
  | i, t :: ts => t.placesUp.map (i :: ·) ++ placesAllUp (i + 1) ts

end

/-- A walk comes to every node once: what it visits stands at the places, these are all places of
the tree, and none is among them twice. -/
structure VisitsOnce (t : Tree) (visits : List Located) (places : List Place) : Prop where
  nodes : visits.map (fun l => some l.node) = places.map t.at?
  complete : ∀ p, p ∈ places ↔ (t.at? p).isSome
  nodup : places.Nodup

/-! ## Places below a node -/

/-- The places below a node, child by child. -/
def placesBelow (f : Tree → List Place) (cs : List Tree) : List Place :=
  cs.zipIdx.flatMap fun c => (f c.1).map (c.2 :: ·)

section Below

variable {f : Tree → List Place} {g : Tree → List Tree} {R : Place → Place → Prop}
variable {t : Tree} {cs : List Tree} {l : Label} {i : Nat} {p : Place}

theorem placesAll_eq (i : Nat) (ts : List Tree) :
    placesAll i ts = (ts.zipIdx i).flatMap fun c => c.1.places.map (c.2 :: ·) := by
  induction ts generalizing i with
  | nil => rfl
  | cons t ts ih => rw [placesAll, ih, List.zipIdx_cons, List.flatMap_cons]

theorem placesAllUp_eq (i : Nat) (ts : List Tree) :
    placesAllUp i ts = (ts.zipIdx i).flatMap fun c => c.1.placesUp.map (c.2 :: ·) := by
  induction ts generalizing i with
  | nil => rfl
  | cons t ts ih => rw [placesAllUp, ih, List.zipIdx_cons, List.flatMap_cons]

theorem places_eq (t : Tree) : t.places = [] :: placesBelow places t.children := by
  cases t with
  | node l cs => rw [places, placesAll_eq, children, placesBelow]

theorem placesUp_eq (t : Tree) : t.placesUp = placesBelow placesUp t.children ++ [[]] := by
  cases t with
  | node l cs => rw [placesUp, placesAllUp_eq, children, placesBelow]

theorem cons_mem_below : i :: p ∈ placesBelow f cs ↔ ∃ c, cs[i]? = some c ∧ p ∈ f c := by
  unfold placesBelow
  rw [List.mem_flatMap]
  constructor
  · rintro ⟨⟨c, j⟩, hc, h⟩
    obtain ⟨q, hq, heq⟩ := List.mem_map.1 h
    obtain ⟨rfl, rfl⟩ := List.cons.inj heq
    exact ⟨c, List.mem_zipIdx_iff_getElem?.1 hc, hq⟩
  · rintro ⟨c, hc, h⟩
    exact ⟨(c, i), List.mem_zipIdx_iff_getElem?.2 hc, List.mem_map_of_mem h⟩

theorem nil_not_mem_below : [] ∉ placesBelow f cs := by
  simp [placesBelow]

/-- The nodes at the places below a node are those at the places of its children. -/
theorem map_at?_below (h : ∀ c ∈ cs, (f c).map c.at? = (g c).map some) :
    (placesBelow f cs).map (node l cs).at? = (cs.flatMap g).map some := by
  unfold placesBelow
  rw [List.map_flatMap, List.map_flatMap]
  calc cs.zipIdx.flatMap (fun c => ((f c.1).map (c.2 :: ·)).map (node l cs).at?)
      = cs.zipIdx.flatMap fun c => (g c.1).map some := by
        refine List.flatMap_congr fun ⟨c, i⟩ hc => ?_
        have hi : cs[i]? = some c := List.mem_zipIdx_iff_getElem?.1 hc
        have hat : ∀ p, (node l cs).at? (i :: p) = c.at? p := by
          intro p
          rw [at?, children, hi, Option.bind_some]
        rw [← h c (List.mem_of_getElem? hi), List.map_map]
        exact List.map_congr_left fun p _ => hat p
    _ = cs.flatMap fun c => (g c).map some := by
        conv_rhs => rw [← List.zipIdx_map_fst 0 cs, List.flatMap_map]

/-- What holds between two places of a child, and between those of different children, holds between
the places below the node. -/
theorem pairwise_below (hcons : ∀ i p q, R p q → R (i :: p) (i :: q))
    (hne : ∀ i j p q, i ≠ j → R (i :: p) (j :: q)) (h : ∀ c ∈ cs, (f c).Pairwise R) :
    (placesBelow f cs).Pairwise R := by
  unfold placesBelow
  rw [List.pairwise_flatMap]
  constructor
  · rintro ⟨c, i⟩ hc
    have hmem : c ∈ cs := List.mem_of_getElem? (List.mem_zipIdx_iff_getElem?.1 hc)
    rw [List.pairwise_map]
    exact (h c hmem).imp (hcons i _ _)
  · have hnumbers : cs.zipIdx.Pairwise fun a b => a.2 < b.2 := by
      rw [← List.pairwise_map, List.zipIdx_map_snd]
      exact List.pairwise_lt_range'
    refine hnumbers.imp fun hlt p hp q hq => ?_
    obtain ⟨p, -, rfl⟩ := List.mem_map.1 hp
    obtain ⟨q, -, rfl⟩ := List.mem_map.1 hq
    exact hne _ _ p q (Nat.ne_of_lt hlt)

/-- An order that lists the root and the places below it lists all places at which there is a
node. -/
theorem mem_iff_of_below (hf : ∀ t p, p ∈ f t ↔ p = [] ∨ p ∈ placesBelow f t.children) :
    p ∈ f t ↔ (t.at? p).isSome := by
  induction p generalizing t with
  | nil => simp [hf, at?]
  | cons i p ih =>
    rw [hf, cons_mem_below, at?]
    cases t.children[i]? with
    | none => simp
    | some c => simp [ih]

end Below

/-! ## All places -/

variable {t : Tree} {p : Place}

theorem mem_places_iff : p ∈ t.places ↔ (t.at? p).isSome :=
  mem_iff_of_below fun t p => by rw [places_eq, List.mem_cons]

theorem mem_placesUp_iff : p ∈ t.placesUp ↔ (t.at? p).isSome :=
  mem_iff_of_below fun t p => by rw [placesUp_eq, List.mem_append, List.mem_singleton, or_comm]

theorem map_at?_places (t : Tree) : t.places.map t.at? = t.preorder.map some := by
  induction t using induct with
  | h l cs ih =>
    rw [places_eq, preorder_eq, children, List.map_cons, List.map_cons, map_at?_below ih]
    rfl

theorem map_at?_placesUp (t : Tree) : t.placesUp.map t.at? = t.postorder.map some := by
  induction t using induct with
  | h l cs ih =>
    rw [placesUp_eq, postorder_eq, children, List.map_append, List.map_append, map_at?_below ih]
    rfl

/-- No place comes behind one that is below it. -/
theorem pairwise_places (t : Tree) : t.places.Pairwise fun p q => ¬ q <+: p := by
  induction t using induct with
  | h l cs ih =>
    rw [places_eq, children, List.pairwise_cons]
    refine ⟨fun q hq hprefix => ?_, pairwise_below ?_ ?_ ih⟩
    · rw [List.prefix_nil.1 hprefix] at hq
      exact nil_not_mem_below hq
    · intro i p q h
      rwa [List.prefix_cons_inj]
    · intro i j p q hne h
      exact hne (List.cons_prefix_cons.1 h).1.symm

/-- No place comes in front of one that is below it. -/
theorem pairwise_placesUp (t : Tree) : t.placesUp.Pairwise fun p q => ¬ p <+: q := by
  induction t using induct with
  | h l cs ih =>
    rw [placesUp_eq, children, List.pairwise_append]
    refine ⟨pairwise_below ?_ ?_ ih, List.pairwise_singleton _ _, fun p hp q hq hprefix => ?_⟩
    · intro i p q h
      rwa [List.prefix_cons_inj]
    · intro i j p q hne h
      exact hne (List.cons_prefix_cons.1 h).1
    · obtain rfl := List.mem_singleton.1 hq
      rw [List.prefix_nil.1 hprefix] at hp
      exact nil_not_mem_below hp

theorem nodup_places (t : Tree) : t.places.Nodup := by
  refine (pairwise_places t).imp ?_
  rintro p _ h rfl
  exact h List.prefix_rfl

theorem nodup_placesUp (t : Tree) : t.placesUp.Nodup := by
  refine (pairwise_placesUp t).imp ?_
  rintro p _ h rfl
  exact h List.prefix_rfl

theorem placesUp_perm_places (t : Tree) : t.placesUp.Perm t.places :=
  (List.perm_ext_iff_of_nodup (nodup_placesUp t) (nodup_places t)).2
    fun _ => mem_placesUp_iff.trans mem_places_iff.symm

theorem visitsOnce_walk (t : Tree) : t.VisitsOnce t.walk t.places where
  nodes := by
    rw [map_at?_places, ← map_node_walk, List.map_map]
    rfl
  complete _ := mem_places_iff
  nodup := nodup_places t

theorem visitsOnce_walkUp (t : Tree) : t.VisitsOnce t.walkUp t.placesUp where
  nodes := by
    rw [map_at?_placesUp, ← map_node_walkUp, List.map_map]
    rfl
  complete _ := mem_placesUp_iff
  nodup := nodup_placesUp t

/-! ## The traversals -/

mutual

theorem length_preorder : (t : Tree) → t.preorder.length = t.size
  | .node _ cs => by rw [preorder, List.length_cons, length_preorderAll cs, size]

theorem length_preorderAll : (ts : List Tree) → (preorderAll ts).length = sizeAll ts
  | [] => rfl
  | t :: ts => by
    rw [preorderAll, List.length_append, length_preorder t, length_preorderAll ts, sizeAll]

end

/-- The walks visit the nodes of a tree in the order of the recursions, and end. Each of them comes
to every node once, so that one order is a permutation of the other, and the walk that visits
children first comes to no node before one that is below it. The search finds a `super` iff one is
reached through no class body and no method. -/
theorem traversals_are_recursive (t : Tree) :
    (t.walk.map (·.node) = t.preorder ∧ t.walkUp.map (·.node) = t.postorder) ∧
    (t.walk.length = t.size ∧ t.walkUp.length = t.size) ∧
    (t.VisitsOnce t.walk t.places ∧ t.VisitsOnce t.walkUp t.placesUp) ∧
    (t.walkUp.Perm t.walk ∧ t.placesUp.Perm t.places) ∧
    t.placesUp.Pairwise (fun earlier later => ¬ earlier <+: later) ∧
    (t.usesSuper = true ↔ t.ReachesOpenly) := by
  have hlength : t.walk.length = t.size := by
    rw [← length_preorder, ← map_node_walk, List.length_map]
  refine ⟨⟨map_node_walk t, map_node_walkUp t⟩, ⟨hlength, ?_⟩,
    ⟨visitsOnce_walk t, visitsOnce_walkUp t⟩, ⟨walkUp_perm_walk t, placesUp_perm_places t⟩,
    pairwise_placesUp t, usesSuper_iff⟩
  rw [(walkUp_perm_walk t).length_eq, hlength]

end Undecorate.Tree
