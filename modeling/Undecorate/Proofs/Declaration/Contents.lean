import Undecorate.Proofs.Declaration.Claims
import Undecorate.Proofs.Declaration.Reads
import Undecorate.Proofs.Declaration.Written
import Undecorate.Proofs.Emit.Contents
import Undecorate.Proofs.Tree.Ranges

/-! # What the members of a declaration show

A member is built from the text of its body or value, and from that of the whole member. A text that
is read inside a body or value is found in all of these.

* `Tree.part?`: the node of the body or value of a member;
* `member_shows`, `decorator_shows`: what is inside this node, or in the expression of a decorator;
* `exists_member_shows`: what is inside such a node is shown by a member that is emitted.
-/

namespace Undecorate

/-- The node of what a member does or is: the body of a method or static block, or the value of a
field or pair. -/
def Tree.part? (c : Tree) : Option Tree :=
  if c.kind == "method_definition" || c.kind == "class_static_block" then c.child? "body"
  else if c.kind == "field_definition" || c.kind == "public_field_definition" ||
    c.kind == "pair" then c.child? "value"
  else none

namespace Reading

/-- Whatever is read around a node shows the text. -/
def Gives (r : Reading) (n : Tree) (t : List Char) : Prop :=
  ∀ a b s, a ≤ n.start → n.stop ≤ b → r.textOf a b = .ok s → Shown t s

/-- The node is a constructor among the members of a class. -/
def Constructs (r : Reading) (c : Tree) : Prop :=
  c.kind = "method_definition" ∧ ∃ name, c.child? "name" = some name ∧
    (∀ word ∈ ["get", "static get", "set", "static"], word ∉ c.modifiers name) ∧
    r.isConstructKey name = .ok true

end Reading

/-! ## Places -/

section Places

variable {c p k : Tree}

theorem Tree.field_of_child? {field : String} (h : c.child? field = some p) :
    p.label.field = field := by
  have hfield := List.find?_some h
  exact eq_of_beq hfield

/-- Two children are apart. -/
theorem Tree.Laid.apart (h : c.Laid) (hp : p ∈ c.children) (hk : k ∈ c.children) (hne : p ≠ k) :
    p.stop ≤ k.start ∨ k.stop ≤ p.start := by
  have : Std.Symm fun p k : Tree => p.stop ≤ k.start ∨ k.stop ≤ p.start := ⟨fun _ _ => .symm⟩
  have heither : c.children.Pairwise fun p k => p.stop ≤ k.start ∨ k.stop ≤ p.start :=
    (h.siblings c (Tree.self_mem_preorder c)).imp .inl
  exact heither.forall hp hk hne

/-- The source of a member begins before all its children but decorators and comments. -/
theorem Tree.Laid.firstPlain_le (h : c.Laid) (hp : p ∈ c.children)
    (hkind : p.kind ∉ ["decorator", "comment"]) : c.firstPlain.start ≤ p.start := by
  have hplain : (p.kind != "decorator" && p.kind != "comment") = true := by
    simpa using hkind
  unfold Tree.firstPlain
  cases hfind : c.children.find? fun c => c.kind != "decorator" && c.kind != "comment" with
  | none => exact absurd hplain (List.find?_eq_none.1 hfind p hp)
  | some first =>
    rw [Option.getD_some]
    obtain ⟨-, before, after, hsplit, hbefore⟩ := List.find?_eq_some_iff_append.1 hfind
    have hforward := h.forward first (Tree.child_mem_preorder (List.mem_of_find?_eq_some hfind))
    rw [hsplit, List.mem_append, List.mem_cons] at hp
    rcases hp with hp | rfl | hp
    · have hnot := hbefore p hp
      rw [hplain] at hnot
      cases hnot
    · exact Nat.le_refl _
    · have hsiblings := h.siblings c (Tree.self_mem_preorder c)
      rw [hsplit, List.pairwise_append, List.pairwise_cons] at hsiblings
      exact Nat.le_trans hforward (hsiblings.2.1.1 p hp)

end Places

/-! ## Members -/

section Members

variable {r : Reading} {n c p : Tree} {t : List Char} {inClass : Bool} {m : Member}
  {preceding : List Tree}

theorem Tree.part?_mem (hpart : c.part? = some p) : p ∈ c.children := by
  unfold Tree.part? at hpart
  split_ifs at hpart
  · exact Tree.mem_children_of_child? hpart
  · exact Tree.mem_children_of_child? hpart

/-- The node of a body or value is not that of a key. -/
theorem Tree.part?_ne_keyNode? {k : Tree} (hpart : c.part? = some p)
    (hkey : c.keyNode? = some k) : p ≠ k := by
  have hplace : p.label.field = "body" ∨ p.label.field = "value" := by
    unfold Tree.part? at hpart
    split_ifs at hpart
    · exact .inl (Tree.field_of_child? hpart)
    · exact .inr (Tree.field_of_child? hpart)
  have hfield : k.label.field = "name" ∨ k.label.field = "property" ∨ k.label.field = "key" := by
    unfold Tree.keyNode? at hkey
    split_ifs at hkey
    · exact .inl (Tree.field_of_child? hkey)
    · rcases Option.or_eq_some_iff.1 hkey with hkey | ⟨-, hkey⟩
      · exact .inr (.inl (Tree.field_of_child? hkey))
      · exact .inl (Tree.field_of_child? hkey)
    · exact .inr (.inr (Tree.field_of_child? hkey))
  rintro rfl
  rcases hplace with h | h <;> rw [h] at hfield <;> revert hfield <;> decide

/-- The part of a member is read from its node. -/
theorem Reading.PartsOf.shows {parts : Member} {name : Option Tree} (hgives : r.Gives n t)
    (hpart : c.part? = some p) (hn : n.Within p) (h : r.PartsOf c inClass parts name) :
    (∃ s, parts.part? = some s ∧ Shown t s) ∧ parts.keySpan = none := by
  have hshown : ∀ s, r.text p = .ok s → Shown t s := fun s hs => hgives _ _ s hn.1 hn.2 hs
  have hoptional : ∀ {field : String} {o : Option String}, c.child? field = some p →
      r.text? (c.child? field) = .ok o → ∃ s, o = some s ∧ Shown t s := by
    intro field o hchild ho
    rw [hchild] at ho
    obtain ⟨s, hs, rfl⟩ := map_eq_ok.1 ho
    exact ⟨s, rfl, hshown s hs⟩
  unfold Tree.part? at hpart
  cases h with
  | @method name body _ text isConstruct hkind _ hbody _ htext =>
    rw [hkind] at hpart
    have hpart : c.child? "body" = some p := hpart
    obtain rfl := Option.some.inj (hpart.symm.trans hbody)
    refine ⟨⟨text, ?_, hshown text htext⟩, rfl⟩
    -- functions and constructors have their body for a part
    have hfunction := MemberKind.isFunction_ofModifiers (c.modifiers name)
    unfold Member.part?
    cases isConstruct with
    | true => rfl
    | false =>
      rw [if_neg Bool.false_ne_true]
      cases hk : MemberKind.ofModifiers (c.modifiers name) <;> rw [hk] at hfunction <;>
        first | rfl | cases hfunction
  | field hkind hvalue =>
    have hpart : c.child? "value" = some p := by
      rcases hkind with hkind | hkind <;> rw [hkind] at hpart <;> exact hpart
    exact ⟨hoptional hpart hvalue, rfl⟩
  | staticBlock hkind hbody =>
    rw [hkind] at hpart
    have hpart : c.child? "body" = some p := hpart
    obtain ⟨s, rfl, hs⟩ := hoptional hpart hbody
    exact ⟨⟨s, rfl, hs⟩, rfl⟩
  | pair hkind hvalue htext =>
    rw [hkind] at hpart
    have hpart : c.child? "value" = some p := hpart
    obtain rfl := Option.some.inj (hpart.symm.trans hvalue)
    exact ⟨⟨_, rfl, hshown _ htext⟩, rfl⟩
  | shorthand hkind =>
    rw [hkind] at hpart
    cases hpart
  | spread hkind =>
    rw [hkind] at hpart
    cases hpart
  | other _ hkind =>
    simp only [List.mem_cons, List.not_mem_nil, or_false, not_or] at hkind
    simp [hkind] at hpart

/-- A member shows what is inside the node of its body or value. -/
theorem member_shows (hgives : r.Gives n t) (hlaid : c.Laid) (hpart : c.part? = some p)
    (hkind : p.kind ∉ ["decorator", "comment"]) (hn : n.Within p)
    (h : r.member preceding inClass c = .ok m) : m.Shows t := by
  obtain ⟨decorators, parts, name, -, hparts, hsourced⟩ := Reading.member_cases h
  obtain ⟨hshown, hspan⟩ := hparts.shows hgives hpart hn
  have hp := Tree.part?_mem hpart
  have hfirst := Nat.le_trans (hlaid.firstPlain_le hp hkind) hn.1
  have hlast := Nat.le_trans hn.2 (hlaid.within c (Tree.self_mem_preorder c) p hp).2
  cases hsourced with
  | shorthand hshort =>
    have hshort : parts.kind = .shorthand := hshort
    obtain ⟨s, hs, -⟩ := hshown
    rw [Member.part?, hshort] at hs
    cases hs
  | plain _ _ hsource =>
    have hall := hgives _ _ _ hfirst hlast hsource
    refine ⟨hall, fun key => ?_, hshown⟩
    unfold Member.sourceWithKey
    dsimp only [Reading.completed]
    rw [hspan]
    exact hall
  | @keyed k _ head text tail _ hname _ hhead _ htail =>
    have hkey : c.keyNode? = some k := hparts.name_eq.symm.trans hname
    -- the key stands behind or before the body or value, which leaves one of the stretches
    have heither : Shown t head ∨ Shown t tail := by
      rcases hlaid.apart hp (Tree.keyNode?_mem hkey) (Tree.part?_ne_keyNode? hpart hkey) with
        hbefore | hafter
      · exact .inl (hgives _ _ head hfirst (Nat.le_trans hn.2 hbefore) hhead)
      · exact .inr (hgives _ _ tail (Nat.le_trans hafter hn.1) hlast htail)
    have haround : ∀ middle, Shown t (head ++ middle ++ tail) := by
      intro middle
      rcases heither with hhead | htail
      · exact (hhead.append_right _).append_right _
      · exact htail.append_left _
    refine ⟨haround text, fun new => ?_, hshown⟩
    rw [Member.sourceWithKey_of_split rfl rfl]
    exact haround new

/-- Kinds of members come from kinds of nodes: pairs give properties, and methods give functions and
the constructors of classes. -/
theorem member_kind (h : r.member preceding inClass c = .ok m) :
    (m.kind = .property ↔ c.kind = "pair") ∧
      (m.kind = .construct → inClass = true ∧ r.Constructs c) ∧
      (c.kind = "method_definition" → inClass = false → m.kind.isFunction = true) := by
  obtain ⟨decorators, parts, name, -, hparts, hsourced⟩ := Reading.member_cases h
  have hkind : m.kind = parts.kind := by cases hsourced <;> rfl
  rw [hkind]
  cases hparts with
  | @method name _ _ _ isConstruct hnode hname _ _ _ hconstruct =>
    have hfunction := MemberKind.isFunction_ofModifiers (c.modifiers name)
    rw [hnode]
    cases isConstruct with
    | true =>
      obtain ⟨hclass, hkey, hwords⟩ := Reading.of_constructs hconstruct
      refine ⟨⟨fun hproperty => ?_, fun hpair => absurd hpair (by decide)⟩,
        fun _ => ⟨hclass, hnode, name, hname, hwords, hkey⟩, fun _ hnone => ?_⟩
      · cases hproperty
      · rw [hclass] at hnone
        cases hnone
    | false =>
      dsimp only
      rw [if_neg Bool.false_ne_true]
      refine ⟨⟨fun hproperty => ?_, fun hpair => absurd hpair (by decide)⟩, fun hconstruct => ?_,
        fun _ _ => hfunction⟩
      · rw [hproperty] at hfunction
        cases hfunction
      · rw [hconstruct] at hfunction
        cases hfunction
  | field hnode => rcases hnode with hnode | hnode <;> simp [hnode]
  | staticBlock hnode => simp [hnode]
  | pair hnode => simp [hnode]
  | shorthand hnode => simp [hnode]
  | spread hnode => simp [hnode]
  | other _ hnode hother =>
    simp only [List.mem_cons, List.not_mem_nil, or_false, not_or] at hnode
    rcases hother with rfl | rfl <;> simp [hnode]

/-- A decorator shows what is inside the node of its expression. -/
theorem decorator_shows {e : Tree} {x : Decorator} (hgives : r.Gives n t)
    (hfirst : c.firstNamed? = some e) (hn : n.Within e) (h : r.decorator c = .ok x) :
    Shown t x.text := by
  unfold Reading.decorator at h
  rw [hfirst] at h
  simp only [bind_eq_ok] at h
  obtain ⟨text, htext, h⟩ := h
  have hshown := hgives _ _ text hn.1 hn.2 htext
  -- however the expression looks, its text is kept whole
  split at h
  · obtain rfl := pure_eq_ok.1 h
    exact hshown
  split at h
  · split at h
    · obtain rfl := pure_eq_ok.1 h
      exact hshown
    · simp only [bind_eq_ok] at h
      obtain ⟨callee, -, h⟩ := h
      split at h
      · obtain ⟨arguments, -, h⟩ := bind_eq_ok.1 h
        obtain rfl := pure_eq_ok.1 h
        exact hshown
      · obtain ⟨arguments, -, h⟩ := bind_eq_ok.1 h
        obtain rfl := pure_eq_ok.1 h
        exact hshown
  · obtain rfl := pure_eq_ok.1 h
    exact hshown

end Members

/-! ## Declarations -/

section Declarations

variable {r : Reading} {l : Located} {d : Declaration} {n c p : Tree} {t : List Char}

theorem Located.node_mem_memberNodes {row : Row} (h : row ∈ l.rows) : row.node ∈ l.memberNodes := by
  unfold Located.rows at h
  split at h
  · exact (bodyRows_sublist h).subset (List.mem_append_right _ (List.mem_singleton_self _))
  · obtain ⟨c, hc, rfl⟩ := List.mem_map.1 h
    exact hc

/-- Whether a constructor function has a place for the body or value of a member: in a class that of
anything but a pair, where a constructor is the only one; in an object literal that of a method or
pair. -/
def Located.Places (l : Located) (r : Reading) (c : Tree) : Prop :=
  if l.node.isClass then
    c.kind ≠ "pair" ∧ (r.Constructs c → ∀ c' ∈ l.memberNodes, r.Constructs c' → c' = c)
  else c.kind = "method_definition" ∨ c.kind = "pair"

/-- What is inside the node of a body or value is shown by a member of the declaration; and by one
that a constructor function has a place for, if it has a place for this node. -/
theorem exists_member_shows (h : r.declaration l = .ok d) (hgives : r.Gives n t)
    (hc : c ∈ l.memberNodes) (hlaid : c.Laid) (hpart : c.part? = some p)
    (hkind : p.kind ∉ ["decorator", "comment"]) (hn : n.Within p) {rebuilt : Prop}
    (hplaces : rebuilt → l.Places r c) :
    ∃ m ∈ d.members, m.Shows t ∧ (rebuilt → d.places m) := by
  have hmembers := declaration_members h
  have hnode : l.node.isClass = true → c.kind ≠ "decorator" := by
    intro _ hdecorator
    unfold Tree.part? at hpart
    rw [hdecorator] at hpart
    cases hpart
  obtain ⟨row, hrow, rfl⟩ := Located.exists_row_of_mem_memberNodes hc hnode
  obtain ⟨m, hm, hbuilt⟩ := exists_of_forall₂ hmembers hrow
  have hshows : ∀ {preceding m}, r.member preceding l.node.isClass row.node = .ok m → m.Shows t :=
    fun hbuilt => member_shows hgives hlaid hpart hkind hn hbuilt
  obtain ⟨hpair, hconstructs, hmethod⟩ := member_kind hbuilt
  have hown := (declaration_built h).own
  cases d with
  | object =>
    refine ⟨m, hm, hshows hbuilt, fun hrebuilt => ?_⟩
    have hplace := hplaces hrebuilt
    rw [Located.Places, if_neg (Bool.eq_false_iff.1 hown)] at hplace
    exact hplace.imp (fun hkind => hmethod hkind hown) hpair.2
  | cls cls =>
    by_cases hconstruct : m.kind = .construct
    · -- the first constructor is built from the same node, so it shows the same
      obtain ⟨m', hfirst⟩ : ∃ m', cls.construct? = some m' := by
        refine Option.isSome_iff_exists.1 (List.find?_isSome.2 ⟨m, hm, ?_⟩)
        exact decide_eq_true hconstruct
      have hm' := List.mem_of_find?_eq_some hfirst
      have hkind' : m'.kind = .construct := of_decide_eq_true (List.find?_some hfirst :)
      obtain ⟨row', hrow', hbuilt'⟩ := exists_of_forall₂ hmembers.flip hm'
      by_cases hrebuilt : rebuilt
      · have hplace := hplaces hrebuilt
        rw [Located.Places, if_pos hown.1] at hplace
        have heq : row'.node = row.node := by
          refine hplace.2 (hconstructs hconstruct).2 _ (Located.node_mem_memberNodes hrow') ?_
          exact ((member_kind hbuilt').2.1 hkind').2
        rw [heq] at hbuilt'
        refine ⟨m', hm', hshows hbuilt', fun _ => ⟨?_, fun _ => hfirst⟩⟩
        rw [hkind']
        exact nofun
      · exact ⟨m, hm, hshows hbuilt, fun h => absurd h hrebuilt⟩
    · refine ⟨m, hm, hshows hbuilt, fun hrebuilt => ⟨fun hproperty => ?_, fun h => ?_⟩⟩
      · have hplace := hplaces hrebuilt
        rw [Located.Places, if_pos hown.1] at hplace
        exact hplace.1 (hpair.1 hproperty)
      · exact absurd h hconstruct

end Declarations

end Undecorate
