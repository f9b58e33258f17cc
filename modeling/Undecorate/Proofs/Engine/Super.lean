import Undecorate.Proofs.Declaration.Attachment
import Undecorate.Proofs.Emit.Outline
import Undecorate.Proofs.Engine.Hygiene
import Undecorate.Proofs.Tree.Super

/-! # Supers in constructor functions

A constructor function has no `super`, so a declaration with a `super` of its own is not lowered to
one. The check searches each member on its own. What is outside the members is not searched, and in
a class body or method inside a member neither is a key, a decorator or a heritage, although these
are evaluated outside of it.

* `Located.Searches`: the members that are searched;
* `members_use_super_iff`: what the check finds;
* `Located.Shelters`, `Located.Overlooks`: a `super` of an inner class or object literal, and one
  that no search comes to;
* `supers_are_sheltered_or_overlooked`: every `super` of a site that was lowered is one of them.
-/

namespace Undecorate

/-! ## What is searched -/

namespace Reading

variable {r : Reading} {t : Tree} {inClass : Bool} {preceding : List Tree} {m parts : Member}
  {name : Option Tree}

theorem kind_eq_comment_iff (h : r.memberParts t inClass = .ok (parts, name)) :
    parts.kind = .comment ↔ t.kind = "comment" := by
  have hcases := memberParts_cases h
  cases hcases with
  | @method name _ _ _ isConstruct hkind =>
    have hfunction := MemberKind.isFunction_ofModifiers (t.modifiers name)
    rw [hkind]
    refine ⟨fun hcomment => ?_, fun heq => absurd heq (by decide)⟩
    cases isConstruct with
    | true => cases hcomment
    | false =>
      have hcomment : MemberKind.ofModifiers (t.modifiers name) = .comment := hcomment
      rw [hcomment] at hfunction
      cases hfunction
  | field hkind =>
    rcases hkind with hkind | hkind <;> simp [hkind]
  | staticBlock hkind | pair hkind | shorthand hkind | spread hkind => simp [hkind]
  | other hplain hkind hother =>
    simp only [List.mem_cons, List.not_mem_nil, or_false, not_or] at hkind
    obtain ⟨hmethod, hfield, hpublic, hblock, hpair, hshorthand, hspread⟩ := hkind
    by_cases hcomment : t.kind = "comment"
    · simp [Reading.memberParts, hcomment] at h
      simp [hcomment, ← h]
    · simp [Reading.memberParts, *] at h
      simp [hcomment, ← h]

/-- A member is told to refer to `super` if the search below its node finds one; comments are not
searched. -/
theorem usesSuper_member (h : r.member preceding inClass t = .ok m) :
    m.usesSuper = true ↔ t.kind ≠ "comment" ∧ t.usesSuper = true := by
  unfold Reading.member at h
  simp only [bind_eq_ok] at h
  obtain ⟨decorators, -, ⟨parts, name⟩, hparts, h⟩ := h
  have hflag : m.usesSuper = (decide (parts.kind ≠ .comment) && t.usesSuper) := by
    dsimp only at h
    split at h
    · simp only [bind_eq_ok, pure_eq_ok] at h
      obtain ⟨text, -, source, -, rfl⟩ := h
      rfl
    · cases name with
      | none =>
        simp only [bind_eq_ok, pure_eq_ok] at h
        obtain ⟨source, -, rfl⟩ := h
        rfl
      | some k =>
        simp only [bind_eq_ok, pure_eq_ok] at h
        obtain ⟨key, -, head, -, text, -, tail, -, rfl⟩ := h
        rfl
  rw [hflag, Bool.and_eq_true, decide_eq_true_eq, Ne, kind_eq_comment_iff hparts]

end Reading

section Searches

variable {l : Located} {r : Reading} {d : Declaration} {c x : Tree} {path : List Tree}

/-- The member is searched: it is one of the site, and no comment. -/
def Located.Searches (l : Located) (c : Tree) : Prop :=
  c.kind ≠ "comment" ∧ ∃ row ∈ l.rows, row.node = c

/-- A member of a declaration refers to `super` iff one is reached openly below a member that is
searched. -/
theorem members_use_super_iff (h : r.declaration l = .ok d) :
    (∃ m ∈ d.members, m.usesSuper = true) ↔ ∃ c, l.Searches c ∧ c.ReachesOpenly := by
  constructor
  · rintro ⟨m, hm, huses⟩
    obtain ⟨row, hrow, hmember⟩ := exists_row_of_member h hm
    obtain ⟨hkind, hfound⟩ := (Reading.usesSuper_member hmember).1 huses
    exact ⟨row.node, ⟨hkind, row, hrow, rfl⟩, Tree.usesSuper_iff.1 hfound⟩
  · rintro ⟨c, ⟨hkind, row, hrow, rfl⟩, hopen⟩
    obtain ⟨m, hm, hmember⟩ := exists_of_forall₂ (declaration_members h) hrow
    exact ⟨m, hm, (Reading.usesSuper_member hmember).2 ⟨hkind, Tree.usesSuper_iff.2 hopen⟩⟩

/-- No member of a declaration that is defined by single properties refers to `super`. -/
theorem Declaration.usesSuper_eq_false {o : EmitOptions} {ds : List Decoration} {low : Lowered}
    {s s' : Scope} (hform : o.form = .constructorFunction)
    (h : d.lower o ds s = .ok (low, s')) : ∀ m ∈ d.members, m.usesSuper = false := by
  have hnone : FunctionForm.inexpressible? d.members = none := by
    cases d with
    | cls c =>
      simp only [Declaration.lower, ClassDecl.lower, hform, bind_eq_ok] at h
      obtain ⟨p, hdefinition, -⟩ := h
      unfold FunctionForm.classDefinition at hdefinition
      cases hbad : FunctionForm.inexpressible? c.members with
      | some f => simp [hbad, bind_eq_ok, throw, throwThe, MonadExceptOf.throw] at hdefinition
      | none => exact hbad
    | object lit =>
      simp only [Declaration.lower, ObjectLiteral.lower, hform, bind_eq_ok,
        FunctionForm.during_eq_ok] at h
      obtain ⟨texts, hdefinition, -⟩ := h
      unfold FunctionForm.objectDefinition at hdefinition
      cases hbad : FunctionForm.inexpressible? lit.members with
      | some f => simp [hbad, bind_eq_ok, throw, throwThe, MonadExceptOf.throw] at hdefinition
      | none => exact hbad
  intro m hm
  have hone := List.findSome?_eq_none_iff.1 hnone m hm
  cases huses : m.usesSuper with
  | false => rfl
  | true =>
    rw [huses] at hone
    split at hone
    · cases hone
    · cases hone

end Searches

/-! ## What is not searched -/

namespace Located

variable {l : Located} {path front before after : List Tree} {c owner x : Tree}

/-- The nodes between the site and its members. -/
def lead (l : Located) : List Tree :=
  (if l.export?.isSome then [l.node] else []) ++
    if l.node.isClass then (l.node.child? "body").toList else []

/-- The path is in a part of an inner class or object literal that a `super` in it belongs to. The
path to an exported class begins with the class itself, which is no inner one. -/
def Shelters (l : Located) (path : List Tree) : Prop :=
  Tree.Owned (if l.export?.isSome then path.tail else path)

/-- The path goes below a member that is searched, down to the node `owner`, and from there into the
first class body or method, `x`. -/
structure Passes (l : Located) (path front : List Tree) (owner x : Tree) (after : List Tree) :
    Prop where
  path_eq : path = l.lead ++ (front ++ owner :: x :: after)
  member : ∃ c below, front ++ [owner] = c :: below ∧ l.Searches c ∧
    ∀ n ∈ below, n.isSuperScope = false
  scope : x.isSuperScope = true

/-- No search comes to the end of the path: the path does not go below a member, or it goes below
one into a class body or method and there into a part that does not belong to an inner class or
object literal. A class body or method that is in no such declaration does not occur in trees of the
grammars. -/
inductive Overlooks (l : Located) (path : List Tree) : Prop
  | outside (h : ∀ c x rest, l.Searches c → path ≠ l.lead ++ c :: x :: rest)
  | unguarded {front after : List Tree} {owner x : Tree} (h : l.Passes path front owner x after)
      (hpart : x.Unguarded after)
  | misplaced {front after : List Tree} {owner x : Tree} (h : l.Passes path front owner x after)
      (hplaces : ¬ owner.Places x)

/-- Below a member where the search finds nothing, a path to a `super` is sheltered or
overlooked. -/
theorem shelters_or_overlooks (hc : l.Searches c) (hnone : ¬ c.ReachesOpenly)
    {rest : List Tree} (hleads : l.site.LeadsToSuper (l.lead ++ c :: x :: rest)) :
    l.Shelters (l.lead ++ c :: x :: rest) ∨ l.Overlooks (l.lead ++ c :: x :: rest) := by
  obtain ⟨s, hlast, hs⟩ := hleads.last
  -- the steps below the member, and the `super` at their end
  obtain ⟨steps, hsteps⟩ : ∃ steps, x :: rest = steps ++ [s] := by
    rw [List.getLast?_append_of_ne_nil _ (List.cons_ne_nil c _), List.getLast?_cons_cons] at hlast
    exact List.getLast?_eq_some_iff.1 hlast
  have hbelow : c.Leads (steps ++ [s]) := by
    rw [← hsteps]
    exact hleads.leads.of_append
  have hfound : c.usesSuper = false := by
    rw [← Bool.not_eq_true, Tree.usesSuper_iff]
    exact hnone
  obtain ⟨before, y, after, rfl, hopen, hscope⟩ :=
    Tree.exists_scope_of_not_usesSuper hfound hbelow hs
  rw [hsteps]
  obtain ⟨front, owner, howner⟩ : ∃ front owner, c :: before = front ++ [owner] :=
    ⟨_, _, (List.dropLast_concat_getLast (List.cons_ne_nil c before)).symm⟩
  have hpath : l.lead ++ c :: (before ++ y :: after ++ [s]) =
      l.lead ++ (front ++ owner :: y :: (after ++ [s])) := by
    have happend := congrArg (· ++ y :: (after ++ [s])) howner
    simpa using happend
  have hpasses : l.Passes (l.lead ++ c :: (before ++ y :: after ++ [s])) front owner y
      (after ++ [s]) := ⟨hpath, ⟨c, before, howner.symm, hc, hopen⟩, hscope⟩
  by_cases hplaces : owner.Places y
  · rcases Tree.owns_or_unguarded hscope hplaces with howns | hpart
    · refine .inl ?_
      rw [hpath]
      unfold Shelters lead
      cases l.export?.isSome with
      | true =>
        rw [if_pos rfl, if_pos rfl, List.append_assoc, List.singleton_append, List.tail_cons,
          ← List.append_assoc]
        exact Tree.owned_append howns _
      | false =>
        rw [if_neg Bool.false_ne_true, if_neg Bool.false_ne_true, List.nil_append,
          ← List.append_assoc]
        exact Tree.owned_append howns _
    · exact .inr (.unguarded hpasses hpart)
  · exact .inr (.misplaced hpasses hplaces)

end Located

/-- A site that was lowered to a constructor function has no `super` that is reached openly from one
of its members, and this is all that the check finds out. Every `super` below the site is in a part
of an inner class or object literal that it belongs to, or is overlooked: it is not below a member,
or it is in a key, a decorator or another such part of an inner class or method. -/
theorem supers_are_sheltered_or_overlooked (doc : Document) (o : EmitOptions) (taken : List String)
    (b : Source.Buffer) (l : Located) :
    (o.form = .constructorFunction → ∀ b', doc.lowerSite o taken b l = .ok b' →
      (∀ c, l.Searches c → ¬ c.ReachesOpenly) ∧
      ∀ path, l.site.LeadsToSuper path → l.Shelters path ∨ l.Overlooks path) ∧
    ∀ d, (Document.bufferReading b).declaration l = .ok d →
      ((∃ m ∈ d.members, m.usesSuper = true) ↔ ∃ c, l.Searches c ∧ c.ReachesOpenly) := by
  refine ⟨?_, fun d hd => members_use_super_iff hd⟩
  intro hform b' h
  have hnone : ∀ c, l.Searches c → ¬ c.ReachesOpenly := by
    obtain ⟨x, rfl, rfl, hmade, -⟩ := lowerSite_eq_ok.1 h
    obtain ⟨s, s', emitted, -, -, hemit, -, -⟩ := hmade.emitted
    obtain ⟨low, hlower, -⟩ := Declaration.emit_eq_ok.1 hemit
    intro c hc hopen
    obtain ⟨m, hm, huses⟩ := (members_use_super_iff hmade.built).2 ⟨c, hc, hopen⟩
    have hfalse := Declaration.usesSuper_eq_false hform hlower m hm
    exact absurd (huses.symm.trans hfalse) (by decide)
  refine ⟨hnone, fun path hpath => ?_⟩
  by_cases hbelow : ∃ c x rest, l.Searches c ∧ path = l.lead ++ c :: x :: rest
  · obtain ⟨c, x, rest, hc, rfl⟩ := hbelow
    exact Located.shelters_or_overlooks hc (hnone c hc) hpath
  · refine .inr (.outside fun c x rest hc heq => ?_)
    exact hbelow ⟨c, x, rest, hc, heq⟩

namespace Sample

/-- The access `super.k`. -/
def superAccess : Tree :=
  .node { id := 14, kind := "member_expression", start := 29, stop := 36 }
    [leaf 15 "super" 29 34 "object", leaf 16 "property_identifier" 35 36 "property"]

/-- The key of a method in an object literal. -/
def superKey : Tree :=
  .node { id := 13, kind := "computed_property_name", start := 28, stop := 37, field := "name" }
    [superAccess]

/-- The method with this key. -/
def superKeyed : Tree :=
  .node { id := 12, kind := "method_definition", start := 28, stop := 42 }
    [superKey, leaf 17 "formal_parameters" 37 39 "parameters",
      leaf 18 "statement_block" 40 42 "body"]

/-- The body of a method that returns an object literal with this one. -/
def superBody : Tree :=
  .node { id := 9, kind := "statement_block", start := 17, stop := 47, field := "body" }
    [.node { id := 10, kind := "return_statement", start := 19, stop := 45 }
      [.node { id := 11, kind := "object", start := 26, stop := 44 } [superKeyed]]]

/-- The method, with a decorator. -/
def superMethod : Tree :=
  .node { id := 5, kind := "method_definition", start := 10, stop := 47 }
    [.node { id := 6, kind := "decorator", start := 10, stop := 12 }
      [leaf 7 "identifier" 11 12 ""],
      leaf 8 "property_identifier" 13 14 "name",
      leaf 19 "formal_parameters" 14 16 "parameters", superBody]

/-- The body of a class with this method. -/
def superClassBody : Tree :=
  .node { id := 4, kind := "class_body", start := 8, stop := 49, field := "body" } [superMethod]

/-- The class. -/
def superClass : Tree :=
  .node { id := 1, kind := "class_declaration", start := 0, stop := 49 }
    [token 2 "class" 0 5, leaf 3 "identifier" 6 7 "name", superClassBody]

/-- A document with a `super` in the key of a method of an inner object literal. -/
def superDocument : Document :=
  ofStatement "class A \x7b @d m() \x7b return \x7b [super.k]() \x7b\x7d \x7d; \x7d \x7d" superClass

/-- The class in its document. -/
def superSite : Located := ⟨some superDocument.tree, superClass⟩

/-- The path to the `super`. -/
def superPath : List Tree :=
  superClassBody :: superMethod :: superBody :: superBody.children ++
    [.node { id := 11, kind := "object", start := 26, stop := 44 } [superKeyed], superKeyed,
      superKey, superAccess, leaf 15 "super" 29 34 "object"]

end Sample

/-- A `super` in the key of an inner method is overlooked: the class is lowered, and no inner class
or object literal is the one that the `super` belongs to. -/
theorem super_in_inner_key_is_overlooked :
    Sample.superSite.site.LeadsToSuper Sample.superPath ∧
    ¬ Sample.superSite.Shelters Sample.superPath ∧
    ∃ b', Sample.superDocument.lowerSite { form := .constructorFunction } ["A", "d", "m", "k"]
        ⟨Sample.superDocument.source, []⟩ Sample.superSite = .ok b' ∧
      Sample.superSite.Overlooks Sample.superPath := by
  have hpath : Sample.superSite.site.LeadsToSuper Sample.superPath := by
    refine ⟨?_, _, rfl, rfl⟩
    exact ⟨List.mem_of_getElem? (i := 2) rfl, List.mem_of_getElem? (i := 0) rfl,
      List.mem_of_getElem? (i := 3) rfl, List.mem_of_getElem? (i := 0) rfl,
      List.mem_of_getElem? (i := 0) rfl, List.mem_of_getElem? (i := 0) rfl,
      List.mem_of_getElem? (i := 0) rfl, List.mem_of_getElem? (i := 0) rfl,
      List.mem_of_getElem? (i := 0) rfl, trivial⟩
  -- only the object literal can own the `super`, and the path leaves its method for the key
  have hshelters : ¬ Sample.superSite.Shelters Sample.superPath := by
    have howner : ∀ {t : Tree} {rest : List Tree}, t.Owns rest →
        t.isObject = true ∨ t.isClass = true := by
      intro t rest howns
      cases howns with
      | object hobject => exact .inl hobject
      | cls hclass => exact .inr hclass
    rintro (h | h | h | h | h | h | h | h | h | h)
    case inr.inr.inr.inr.inl =>
      cases h with
      | object _ hguards =>
        cases hguards with
        | function _ hpart => revert hpart; decide
        | field hkind _ => revert hkind; decide
        | block hkind => revert hkind; decide
      | cls hclass => revert hclass; decide
    all_goals
      first
      | exact h
      | exact absurd (howner h) (by decide)
  have hok : (Sample.superDocument.lowerSite { form := .constructorFunction } ["A", "d", "m", "k"]
      ⟨Sample.superDocument.source, []⟩ Sample.superSite).isOk = true := by decide +kernel
  refine ⟨hpath, hshelters, ?_⟩
  cases h : Sample.superDocument.lowerSite { form := .constructorFunction } ["A", "d", "m", "k"]
      ⟨Sample.superDocument.source, []⟩ Sample.superSite with
  | error f =>
    rw [h] at hok
    cases hok
  | ok b' =>
    have hall := ((supers_are_sheltered_or_overlooked _ _ _ _ _).1 rfl _ h).2 _ hpath
    exact ⟨b', rfl, hall.resolve_left hshelters⟩

end Undecorate
