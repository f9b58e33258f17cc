import Mathlib.Data.List.Basic
import Undecorate.Declaration.OfTree
import Undecorate.Proofs.Except

/-! # How members are built

What a member is built from depends on the kind of its node. Here each kind has its own case, with
the texts that it reads and the parts that it gives.

* `memberParts_cases`: the parts of a member, one case for each kind of node;
* `PartsOf.name_eq`: the node that its key is read from;
* `member_cases`: the whole member, one case for each way to come to a key and a source.
-/

namespace Undecorate

/-- The node that the key of a member is read from. -/
def Tree.keyNode? (t : Tree) : Option Tree :=
  if t.kind == "method_definition" then t.child? "name"
  else if t.kind == "field_definition" || t.kind == "public_field_definition" then
    (t.child? "property").or (t.child? "name")
  else if t.kind == "pair" then t.child? "key"
  else none

theorem Tree.mem_children_of_child? {t c : Tree} {field : String} (h : t.child? field = some c) :
    c ∈ t.children := List.mem_of_find?_eq_some h

theorem Tree.keyNode?_mem {t k : Tree} (h : t.keyNode? = some k) : k ∈ t.children := by
  unfold Tree.keyNode? at h
  split_ifs at h
  · exact Tree.mem_children_of_child? h
  · rcases Option.or_eq_some_iff.1 h with h | ⟨-, h⟩
    · exact Tree.mem_children_of_child? h
    · exact Tree.mem_children_of_child? h
  · exact Tree.mem_children_of_child? h

/-- What a method is by its modifiers. -/
def MemberKind.ofModifiers (modifiers : List String) : MemberKind :=
  if modifiers.contains "get" || modifiers.contains "static get" then .getter
  else if modifiers.contains "set" then .setter else .method

theorem MemberKind.isFunction_ofModifiers (modifiers : List String) :
    (ofModifiers modifiers).isFunction = true := by
  unfold ofModifiers
  split_ifs <;> rfl

namespace Reading

variable {r : Reading} {t k : Tree} {inClass : Bool} {parts m : Member} {name : Option Tree}
  {preceding : List Tree}

theorem need_eq_ok {part : String} {o : Option Tree} {n : Tree} :
    need part o = .ok n ↔ o = some n := by
  cases o with
  | none => simp [need]
  | some t => simp [need]

/-- Whether a method with this key and these modifiers is the constructor of its class. -/
def constructs (r : Reading) (inClass : Bool) (name : Tree) (modifiers : List String) :
    Except Fault Bool :=
  if inClass && decide (MemberKind.ofModifiers modifiers = .method) &&
      !(modifiers.contains "static" || modifiers.contains "static get") then
    r.isConstructKey name
  else .ok false

/-- How the parts of a member come from its node. -/
inductive PartsOf (r : Reading) (t : Tree) (inClass : Bool) : Member → Option Tree → Prop
  | method {name body : Tree} {signature text : String} {isConstruct : Bool}
      (hkind : t.kind = "method_definition") (hname : t.child? "name" = some name)
      (hbody : t.child? "body" = some body)
      (hsignature : r.textOf name.stop body.start = .ok signature) (htext : r.text body = .ok text)
      (hconstruct : r.constructs inClass name (t.modifiers name) = .ok isConstruct) :
      PartsOf r t inClass {
        kind := if isConstruct then .construct else .ofModifiers (t.modifiers name)
        isStatic := (t.modifiers name).contains "static" || (t.modifiers name).contains "static get"
        isAsync := (t.modifiers name).contains "async"
        isGenerator := (t.modifiers name).contains "*"
        signature := Text.strip signature
        body := some text } (some name)
  | field {value : Option String}
      (hkind : t.kind = "field_definition" ∨ t.kind = "public_field_definition")
      (hvalue : r.text? (t.child? "value") = .ok value) :
      PartsOf r t inClass {
        kind := .field, isStatic := t.children.any (·.kind == "static"), value }
        ((t.child? "property").or (t.child? "name"))
  | staticBlock {body : Option String} (hkind : t.kind = "class_static_block")
      (hbody : r.text? (t.child? "body") = .ok body) :
      PartsOf r t inClass {
        kind := .staticBlock, isStatic := true, body := some (body.getD "\x7b\x7d") } none
  | pair {value : Tree} {text : String} (hkind : t.kind = "pair")
      (hvalue : t.child? "value" = some value) (htext : r.text value = .ok text) :
      PartsOf r t inClass { kind := .property, value := some text } (t.child? "key")
  | shorthand {text : String} (hkind : t.kind = "shorthand_property_identifier")
      (htext : r.text t = .ok text) :
      PartsOf r t inClass { kind := .shorthand, value := some text } none
  | spread {value : Option String} (hkind : t.kind = "spread_element")
      (hvalue : r.text? t.firstNamed? = .ok value) :
      PartsOf r t inClass { kind := .spread, value := some (value.getD "") } none
  | other {kind : MemberKind} (hplain : t.keyNode? = none)
      (hkind : t.kind ∉ ["method_definition", "field_definition", "public_field_definition",
        "class_static_block", "pair", "shorthand_property_identifier", "spread_element"])
      (hother : kind = .comment ∨ kind = .other) :
      PartsOf r t inClass { kind } none

/-- Only a method of a class that is no accessor and not static can be a constructor. -/
theorem of_constructs {name : Tree} {modifiers : List String}
    (h : r.constructs inClass name modifiers = .ok true) :
    inClass = true ∧ r.isConstructKey name = .ok true ∧
      ∀ word ∈ ["get", "static get", "set", "static"], word ∉ modifiers := by
  unfold constructs at h
  split at h
  · rename_i hguard
    simp only [Bool.and_eq_true, Bool.not_eq_true', decide_eq_true_eq, Bool.or_eq_false_iff]
      at hguard
    obtain ⟨⟨hclass, hmethod⟩, hstatic⟩ := hguard
    refine ⟨hclass, h, ?_⟩
    unfold MemberKind.ofModifiers at hmethod
    split_ifs at hmethod with hget hset
    rw [Bool.or_eq_true, not_or] at hget
    rw [Bool.not_eq_true] at hset
    have hget := Bool.eq_false_iff.2 hget.1
    simp only [List.contains_eq_mem, decide_eq_false_iff_not] at hget hset hstatic
    simp only [List.forall_mem_cons, List.not_mem_nil, false_implies, implies_true, and_true]
    exact ⟨hget, hstatic.2, hset, hstatic.1⟩
  · cases h

theorem memberParts_cases (h : r.memberParts t inClass = .ok (parts, name)) :
    r.PartsOf t inClass parts name := by
  unfold Reading.memberParts at h
  split at h
  · rename_i hkind
    simp only [bind_eq_ok, need_eq_ok] at h
    obtain ⟨name, hname, body, hbody, signature, hsignature, text, htext, h⟩ := h
    rcases ite_eq_iff.1 h with ⟨hguard, h⟩ | ⟨hguard, h⟩
    · obtain ⟨isConstruct, hkey, h⟩ := bind_eq_ok.1 h
      obtain ⟨rfl, rfl⟩ := Prod.mk.inj (pure_eq_ok.1 h)
      refine .method (eq_of_beq hkind) hname hbody hsignature htext ?_
      exact (if_pos hguard).trans hkey
    · obtain ⟨isConstruct, hkey, h⟩ := bind_eq_ok.1 h
      obtain rfl := pure_eq_ok.1 hkey
      obtain ⟨rfl, rfl⟩ := Prod.mk.inj (pure_eq_ok.1 h)
      exact .method (eq_of_beq hkind) hname hbody hsignature htext (if_neg hguard)
  rename_i hmethod
  split at h
  · rename_i hkind
    obtain ⟨value, hvalue, h⟩ := bind_eq_ok.1 h
    obtain ⟨rfl, rfl⟩ := Prod.mk.inj (pure_eq_ok.1 h)
    exact .field (by simpa using hkind) hvalue
  rename_i hfield
  split at h
  · rename_i hkind
    obtain ⟨body, hbody, h⟩ := bind_eq_ok.1 h
    obtain ⟨rfl, rfl⟩ := Prod.mk.inj (pure_eq_ok.1 h)
    exact .staticBlock (eq_of_beq hkind) hbody
  rename_i hstatic
  split at h
  · rename_i hkind
    simp only [bind_eq_ok, need_eq_ok] at h
    obtain ⟨value, hvalue, text, htext, h⟩ := h
    obtain ⟨rfl, rfl⟩ := Prod.mk.inj (pure_eq_ok.1 h)
    exact .pair (eq_of_beq hkind) hvalue htext
  rename_i hpair
  split at h
  · rename_i hkind
    obtain ⟨text, htext, h⟩ := bind_eq_ok.1 h
    obtain ⟨rfl, rfl⟩ := Prod.mk.inj (pure_eq_ok.1 h)
    exact .shorthand (eq_of_beq hkind) htext
  rename_i hshorthand
  split at h
  · rename_i hkind
    obtain ⟨value, hvalue, h⟩ := bind_eq_ok.1 h
    obtain ⟨rfl, rfl⟩ := Prod.mk.inj (pure_eq_ok.1 h)
    exact .spread (eq_of_beq hkind) hvalue
  rename_i hspread
  obtain ⟨rfl, rfl⟩ := Prod.mk.inj (pure_eq_ok.1 h)
  refine .other ?_ ?_ ?_
  · rw [Tree.keyNode?, if_neg hmethod, if_neg hfield, if_neg hpair]
  · simp only [Bool.or_eq_true, beq_iff_eq, not_or]
      at hmethod hfield hstatic hpair hshorthand hspread
    simp only [List.mem_cons, List.not_mem_nil, or_false, not_or]
    exact ⟨hmethod, hfield.1, hfield.2, hstatic, hpair, hshorthand, hspread⟩
  · split
    · exact .inl rfl
    · exact .inr rfl

/-- Methods, fields and pairs have a node for their key, and no other member has one. -/
theorem PartsOf.name_eq (h : r.PartsOf t inClass parts name) : name = t.keyNode? := by
  unfold Tree.keyNode?
  cases h with
  | method hkind hname => rw [if_pos (beq_iff_eq.2 hkind), hname]
  | field hkind => rcases hkind with hkind | hkind <;> rw [hkind] <;> rfl
  | staticBlock hkind => rw [hkind]; rfl
  | pair hkind => rw [hkind]; rfl
  | shorthand hkind => rw [hkind]; rfl
  | spread hkind => rw [hkind]; rfl
  | other hplain => exact hplain.symm

theorem PartsOf.of_shorthand (h : r.PartsOf t inClass parts name)
    (hkind : parts.kind = .shorthand) :
    name = none := by
  cases h with
  | @method name _ _ _ isConstruct =>
    have hfunction := MemberKind.isFunction_ofModifiers (t.modifiers name)
    cases isConstruct with
    | true => cases hkind
    | false =>
      have hkind : MemberKind.ofModifiers (t.modifiers name) = .shorthand := hkind
      rw [hkind] at hfunction
      cases hfunction
  | field => cases hkind
  | pair => cases hkind
  | _ => rfl

/-- The parts of a member with its decorators and its place. -/
def completed (r : Reading) (t : Tree) (decorators : List Decorator) (parts : Member) : Member :=
  { parts with
    decorators
    usesSuper := decide (parts.kind ≠ MemberKind.comment) && t.usesSuper
    range := some (Source.rangeBetween r.source t.firstPlain t) }

/-- How a member comes to its key and its source. -/
inductive Sourced (r : Reading) (t : Tree) (common : Member) (name : Option Tree) : Member → Prop
  | shorthand {text source : String} (hkind : common.kind = .shorthand)
      (htext : r.text t = .ok text)
      (hsource : r.textOf t.firstPlain.start t.stop = .ok source) :
      Sourced r t common name { common with key := some { text }, source }
  | plain {source : String} (hkind : common.kind ≠ .shorthand) (hname : name = none)
      (hsource : r.textOf t.firstPlain.start t.stop = .ok source) :
      Sourced r t common name { common with source }
  | keyed {k : Tree} {key : Key} {head text tail : String} (hkind : common.kind ≠ .shorthand)
      (hname : name = some k) (hkey : r.key k = .ok key)
      (hhead : r.textOf t.firstPlain.start k.start = .ok head)
      (htext : r.textOf k.start k.stop = .ok text) (htail : r.textOf k.stop t.stop = .ok tail) :
      Sourced r t common name { common with
        key := some key
        source := head ++ text ++ tail
        keySpan := some (head.length, head.length + text.length) }

theorem member_cases (h : r.member preceding inClass t = .ok m) :
    ∃ decorators parts name, (preceding ++ t.decorators).mapM r.decorator = .ok decorators ∧
      r.PartsOf t inClass parts name ∧ r.Sourced t (r.completed t decorators parts) name m := by
  unfold Reading.member at h
  simp only [bind_eq_ok] at h
  obtain ⟨decorators, hdecorators, ⟨parts, name⟩, hparts, h⟩ := h
  refine ⟨decorators, parts, name, hdecorators, memberParts_cases hparts, ?_⟩
  dsimp only at h
  split at h
  · rename_i hkind
    simp only [bind_eq_ok] at h
    obtain ⟨text, htext, source, hsource, h⟩ := h
    obtain rfl := pure_eq_ok.1 h
    exact .shorthand hkind htext hsource
  · rename_i hkind
    cases name with
    | none =>
      obtain ⟨source, hsource, h⟩ := bind_eq_ok.1 h
      obtain rfl := pure_eq_ok.1 h
      exact .plain hkind rfl hsource
    | some k =>
      simp only [bind_eq_ok] at h
      obtain ⟨key, hkey, head, hhead, text, htext, tail, htail, h⟩ := h
      obtain rfl := pure_eq_ok.1 h
      exact .keyed hkind rfl hkey hhead htext htail

end Reading

end Undecorate
