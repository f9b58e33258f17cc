import Undecorate.Declaration.OfTree
import Undecorate.Proofs.Tree.Walk

/-! # Where a super is looked for

A `super` belongs to the class or object literal that the code around it is a part of. Whether a
member has one of its own is found out by a search below the member that enters neither class bodies
nor methods. The search leaves out more than it should: a key or a decorator stands inside the
method or the class body that it belongs to, but it is evaluated outside.

* `usesSuper_iff`: what the search finds;
* `Guards`, `Owns`: the places where a `super` belongs to an inner class or object literal;
* `owns_or_unguarded`: what becomes of a `super` in a class body or method that the search passes
  over.
-/

namespace Undecorate.Tree

variable {t c s x : Tree} {path steps rest : List Tree}

/-! ## Paths -/

/-- The path leads down from the node: each node of it is a child of the one before. -/
def Leads : Tree → List Tree → Prop
  | _, [] => True
  | t, c :: path => c ∈ t.children ∧ c.Leads path

/-- The last node of a path down from the node is a `super`. -/
structure LeadsToSuper (t : Tree) (path : List Tree) : Prop where
  leads : t.Leads path
  last : ∃ s, path.getLast? = some s ∧ s.kind = "super"

theorem Leads.of_append (h : t.Leads (steps ++ c :: rest)) : c.Leads rest := by
  induction steps generalizing t with
  | nil => exact h.2
  | cons d steps ih => exact ih h.2

/-- Some path leads to a `super` without going through a class body or a method. -/
def ReachesOpenly (t : Tree) : Prop :=
  ∃ steps s, t.Leads (steps ++ [s]) ∧ s.kind = "super" ∧ ∀ n ∈ steps, n.isSuperScope = false

/-! ## The search -/

/-- The first step on the way to a `super`: a child is one itself, or is gone through. -/
theorem reachesOpenly_iff : t.ReachesOpenly ↔
    ∃ c ∈ t.children, c.kind = "super" ∨ c.isSuperScope = false ∧ c.ReachesOpenly := by
  constructor
  · rintro ⟨steps, s, hleads, hs, hopen⟩
    cases steps with
    | nil => exact ⟨s, hleads.1, .inl hs⟩
    | cons c steps =>
      obtain ⟨hscope, hopen⟩ := List.forall_mem_cons.1 hopen
      exact ⟨c, hleads.1, .inr ⟨hscope, steps, s, hleads.2, hs, hopen⟩⟩
  · rintro ⟨c, hc, hs | ⟨hscope, steps, s, hleads, hs, hopen⟩⟩
    · exact ⟨[], c, ⟨hc, trivial⟩, hs, fun _ hn => by cases hn⟩
    · exact ⟨c :: steps, s, ⟨hc, hleads⟩, hs, List.forall_mem_cons.2 ⟨hscope, hopen⟩⟩

/-- What the search finds from a stack is a `super` that lies on it, or one that is reached openly
from a node on it that is no class body and no method. -/
theorem findsSuper_iff (stack : List Tree) : findsSuper stack = true ↔
    ∃ t ∈ stack, t.kind = "super" ∨ t.isSuperScope = false ∧ t.ReachesOpenly := by
  induction stack using findsSuper.induct with
  | case1 => simp [findsSuper]
  | case2 t stack hsuper =>
    rw [findsSuper, if_pos hsuper]
    exact ⟨fun _ => ⟨t, List.mem_cons_self, .inl (beq_iff_eq.1 hsuper)⟩, fun _ => rfl⟩
  | case3 t stack hsuper hscope ih =>
    rw [findsSuper, if_neg hsuper, if_pos hscope, ih]
    rw [beq_iff_eq] at hsuper
    simp [hsuper, hscope]
  | case4 t stack hsuper hscope ih =>
    rw [findsSuper, if_neg hsuper, if_neg hscope, ih]
    rw [beq_iff_eq] at hsuper
    rw [Bool.not_eq_true] at hscope
    -- the children take the place of the node
    simp only [List.mem_append, List.mem_reverse, or_and_right, exists_or, ← reachesOpenly_iff,
      List.mem_cons, exists_eq_left, hsuper, hscope, false_or, true_and]

/-- The search finds a `super` iff a path leads to it through no class body and no method. -/
theorem usesSuper_iff : t.usesSuper = true ↔ t.ReachesOpenly := by
  rw [usesSuper, findsSuper_iff, reachesOpenly_iff]
  simp only [List.mem_reverse]

/-- Where nothing is found, every path to a `super` has a first class body or method. -/
theorem exists_scope_of_not_usesSuper (h : t.usesSuper = false) (hleads : t.Leads (steps ++ [s]))
    (hs : s.kind = "super") : ∃ before x after, steps = before ++ x :: after ∧
      (∀ n ∈ before, n.isSuperScope = false) ∧ x.isSuperScope = true := by
  cases hfirst : steps.find? (·.isSuperScope) with
  | none =>
    have hopen : ∀ n ∈ steps, n.isSuperScope = false := by
      simpa using hfirst
    rw [usesSuper_iff.2 ⟨steps, s, hleads, hs, hopen⟩] at h
    cases h
  | some x =>
    obtain ⟨hscope, before, after, heq, hbefore⟩ := List.find?_eq_some_iff_append.1 hfirst
    exact ⟨before, x, after, heq, by simpa using hbefore, hscope⟩

/-! ## Inner classes and object literals -/

/-- The path below a member is in a part of it in which a `super` belongs to the class or object
literal of the member: in the parameters or the body of a method, in the value of a field, or in a
static block. -/
inductive Guards (m : Tree) : List Tree → Prop
  | function {part : Tree} {rest : List Tree} (hkind : m.kind = "method_definition")
      (hpart : part.label.field = "parameters" ∨ part.label.field = "body") :
      Guards m (part :: rest)
  | field {part : Tree} {rest : List Tree}
      (hkind : m.kind = "field_definition" ∨ m.kind = "public_field_definition")
      (hpart : part.label.field = "value") : Guards m (part :: rest)
  | block {part : Tree} {rest : List Tree} (hkind : m.kind = "class_static_block") :
      Guards m (part :: rest)

/-- The path below a class or object literal is in such a part of one of its members. -/
inductive Owns (t : Tree) : List Tree → Prop
  | object {m : Tree} {rest : List Tree} (hobject : t.isObject = true) (hguards : m.Guards rest) :
      Owns t (m :: rest)
  | cls {body m : Tree} {rest : List Tree} (hclass : t.isClass = true)
      (hbody : body.kind = "class_body") (hguards : m.Guards rest) : Owns t (body :: m :: rest)

/-- A class or object literal on the path has the end of the path in one of these parts. -/
def Owned : List Tree → Prop
  | [] => False
  | t :: path => t.Owns path ∨ Owned path

theorem owned_append (h : t.Owns rest) (before : List Tree) : Owned (before ++ t :: rest) := by
  induction before with
  | nil => exact .inl h
  | cons _ _ ih => exact .inr ih

/-- The path below a class body or method leaves the parts that belong to the class or object
literal around it: it goes to a key, a decorator or something else outside of them. -/
def Unguarded (x : Tree) (rest : List Tree) : Prop :=
  match x.kind, rest with
  | "class_body", m :: rest => ¬ m.Guards rest
  | _, rest => ¬ x.Guards rest

/-- The class body or method is in its place: the body in a class, and the method in an object
literal. A method in a class is below the body of the class. -/
def Places (owner x : Tree) : Prop :=
  if x.kind = "class_body" then owner.isClass = true else owner.isObject = true

/-- A path through a class body or method in its place is owned by the class or object literal
around it, or is in none of the parts that this one owns. -/
theorem owns_or_unguarded (hscope : x.isSuperScope = true) (hplaces : t.Places x) :
    t.Owns (x :: rest) ∨ x.Unguarded rest := by
  unfold isSuperScope at hscope
  rw [Bool.or_eq_true, beq_iff_eq, beq_iff_eq] at hscope
  unfold Places at hplaces
  rcases hscope with hbody | hmethod
  · rw [if_pos hbody] at hplaces
    unfold Unguarded
    rw [hbody]
    cases rest with
    | nil =>
      refine .inr fun hguards => ?_
      cases hguards
    | cons m rest =>
      by_cases hguards : m.Guards rest
      · exact .inl (.cls hplaces hbody hguards)
      · exact .inr hguards
  · rw [if_neg (by rw [hmethod]; decide)] at hplaces
    unfold Unguarded
    rw [hmethod]
    by_cases hguards : x.Guards rest
    · exact .inl (.object hplaces hguards)
    · exact .inr hguards

end Undecorate.Tree
