import Undecorate.Proofs.Declaration.Attachment
import Undecorate.Proofs.Declaration.Reads

/-! # Which faults building can end with

The nodes of a tree that its grammar accepts have the parts that the grammar asks for: a method has
a name and a body, a class has a body, and so on. What is built from such a node needs nothing but
the texts between the edges of some nodes, so it fails only if one of these texts cannot be read.

* `Faults.member`: the members of a declaration;
* `Faults.declaration`: the whole.
-/

namespace Undecorate

/-! ## Complete trees -/

namespace Tree

/-- The node has the parts that the grammars give a node of its kind. -/
structure HasParts (t : Tree) : Prop where
  method : t.kind = "method_definition" →
    (t.child? "name").isSome = true ∧ (t.child? "body").isSome = true
  field : t.kind = "field_definition" ∨ t.kind = "public_field_definition" →
    ((t.child? "property").or (t.child? "name")).isSome = true
  pair : t.kind = "pair" → (t.child? "key").isSome = true ∧ (t.child? "value").isSome = true
  cls : t.isClass = true → (t.child? "body").isSome = true

instance (t : Tree) : Decidable t.HasParts :=
  decidable_of_iff
    ((t.kind = "method_definition" →
        (t.child? "name").isSome = true ∧ (t.child? "body").isSome = true) ∧
      (t.kind = "field_definition" ∨ t.kind = "public_field_definition" →
        ((t.child? "property").or (t.child? "name")).isSome = true) ∧
      (t.kind = "pair" → (t.child? "key").isSome = true ∧ (t.child? "value").isSome = true) ∧
      (t.isClass = true → (t.child? "body").isSome = true))
    ⟨fun h => ⟨h.1, h.2.1, h.2.2.1, h.2.2.2⟩, fun h => ⟨h.method, h.field, h.pair, h.cls⟩⟩

/-- Every node of the tree has its parts. -/
def Complete (t : Tree) : Prop := ∀ u ∈ t.preorder, u.HasParts

instance (t : Tree) : Decidable t.Complete := inferInstanceAs (Decidable (∀ u ∈ t.preorder, _))

end Tree

/-! ## Building -/

namespace Reading

variable {r : Reading} {t : Tree} {P : Fault → Prop} {N : Tree → Prop}

/-- Reading between the edges of the nodes `N` ends with the faults `P` only. With a node, its
children are among these nodes. -/
structure Faults (r : Reading) (P : Fault → Prop) (N : Tree → Prop) : Prop where
  text : ∀ a b, Tree.Edge N a → Tree.Edge N b → FailsOnly P (r.textOf a b)
  below : ∀ p, N p → ∀ c ∈ p.children, N c

theorem failsOnly_need {part : String} {o : Option Tree} (h : o.isSome = true) :
    FailsOnly P (need part o) := by
  obtain ⟨t, rfl⟩ := Option.isSome_iff_exists.1 h
  exact failsOnly_ok t

namespace Faults

theorem node (h : r.Faults P N) (ht : N t) : FailsOnly P (r.text t) :=
  h.text _ _ (Agrees.start ht) (Agrees.stop ht)

theorem node? (h : r.Faults P N) {o : Option Tree} (ho : ∀ n ∈ o, N n) :
    FailsOnly P (r.text? o) := by
  cases o with
  | none => exact failsOnly_ok none
  | some t => exact (h.node (ho t rfl)).map

theorem child (h : r.Faults P N) (ht : N t) (field : String) : ∀ c ∈ t.child? field, N c :=
  fun c hc => h.below t ht c (Tree.mem_children_of_child? hc)

theorem named (h : r.Faults P N) (ht : N t) : ∀ c ∈ t.namedChildren, N c :=
  fun c hc => h.below t ht c (t.namedChildren_sublist.subset hc)

theorem firstNamed (h : r.Faults P N) (ht : N t) : ∀ c ∈ t.firstNamed?, N c :=
  fun c hc => h.named ht c (List.mem_of_find?_eq_some hc)

theorem decorator (h : r.Faults P N) (ht : N t) : FailsOnly P (r.decorator t) := by
  unfold Reading.decorator
  split
  · exact (h.node ht).bind fun _ _ => failsOnly_ok _
  · rename_i e he
    have he := h.firstNamed ht e he
    refine (h.node he).bind fun text _ => ?_
    split
    · exact failsOnly_ok _
    split
    · split
      · exact failsOnly_ok _
      · rename_i f hf
        have hf := h.child he "function" f (Option.filter_eq_some_iff.1 hf).1
        refine (h.node hf).bind fun callee _ => ?_
        split
        · exact failsOnly_ok _
        · rename_i args hargs
          have hargs := h.child he "arguments" args hargs
          refine (FailsOnly.mapM fun a ha => h.node ?_).bind fun _ _ => failsOnly_ok _
          exact h.named hargs a (List.mem_of_mem_filter ha)
    · exact failsOnly_ok _

theorem key (h : r.Faults P N) (ht : N t) : FailsOnly P (r.key t) := by
  unfold Reading.key
  split
  · exact (h.node? (h.firstNamed ht)).bind fun _ _ => failsOnly_ok _
  · exact (h.node ht).bind fun _ _ => failsOnly_ok _

theorem isConstructKey (h : r.Faults P N) (ht : N t) : FailsOnly P (r.isConstructKey t) := by
  unfold Reading.isConstructKey
  split
  · exact (h.node ht).bind fun _ _ => failsOnly_ok _
  split
  · exact (h.node ht).bind fun _ _ => failsOnly_ok _
  · exact failsOnly_ok _

theorem memberParts (h : r.Faults P N) (ht : N t) (hparts : t.HasParts) (inClass : Bool) :
    FailsOnly P (r.memberParts t inClass) := by
  have hchild := h.child ht
  unfold Reading.memberParts
  split
  · rename_i hkind
    obtain ⟨hname, hbody⟩ := hparts.method (eq_of_beq hkind)
    refine (failsOnly_need hname).bind fun name hname => ?_
    refine (failsOnly_need hbody).bind fun body hbody => ?_
    have hname := hchild "name" name (need_eq_ok.1 hname)
    have hbody := hchild "body" body (need_eq_ok.1 hbody)
    refine (h.text _ _ (Agrees.stop hname) (Agrees.start hbody)).bind fun signature _ => ?_
    refine (h.node hbody).bind fun text _ => ?_
    refine failsOnly_ite (fun _ => ?_) fun _ => failsOnly_ok _
    exact (h.isConstructKey hname).bind fun _ _ => failsOnly_ok _
  split
  · exact (h.node? (hchild "value")).bind fun _ _ => failsOnly_ok _
  split
  · exact (h.node? (hchild "body")).bind fun _ _ => failsOnly_ok _
  split
  · rename_i hkind
    refine (failsOnly_need (hparts.pair (eq_of_beq hkind)).2).bind fun value hvalue => ?_
    exact (h.node (hchild "value" value (need_eq_ok.1 hvalue))).bind fun _ _ => failsOnly_ok _
  split
  · exact (h.node ht).bind fun _ _ => failsOnly_ok _
  split
  · exact (h.node? (h.firstNamed ht)).bind fun _ _ => failsOnly_ok _
  · exact failsOnly_ok _

theorem member (h : r.Faults P N) (ht : N t) (hparts : t.HasParts) {preceding : List Tree}
    (hpreceding : ∀ d ∈ preceding, N d) (inClass : Bool) :
    FailsOnly P (r.member preceding inClass t) := by
  have hfirst := Agrees.firstPlain ht (h.below t ht)
  have hwhole := h.text _ _ (Agrees.start hfirst) (Agrees.stop ht)
  unfold Reading.member
  refine (FailsOnly.mapM fun d hd => h.decorator ?_).bind fun decorators _ => ?_
  · rcases List.mem_append.1 hd with hd | hd
    · exact hpreceding d hd
    · exact h.below t ht d (t.decorators_sublist.subset hd)
  refine (h.memberParts ht hparts inClass).bind fun parts hbuilt => ?_
  obtain ⟨parts, name⟩ := parts
  dsimp only
  split
  · refine (h.node ht).bind fun text _ => ?_
    exact hwhole.bind fun _ _ => failsOnly_ok _
  cases name with
  | none => exact hwhole.bind fun _ _ => failsOnly_ok _
  | some k =>
    have hk : N k := h.below t ht k (memberParts_key hbuilt)
    refine (h.key hk).bind fun key _ => ?_
    refine (h.text _ _ (Agrees.start hfirst) (Agrees.start hk)).bind fun head _ => ?_
    refine (h.text _ _ (Agrees.start hk) (Agrees.stop hk)).bind fun text _ => ?_
    exact (h.text _ _ (Agrees.stop hk) (Agrees.stop ht)).bind fun _ _ => failsOnly_ok _

theorem classMembers (h : r.Faults P N)
    (hrefused : ∀ message location, P (.refused (.classification message location)))
    {ts : List Tree}
    (hts : ∀ t ∈ ts, N t ∧ t.HasParts) {pending : List Tree} (hpending : ∀ d ∈ pending, N d) :
    FailsOnly P (r.classMembers pending ts) := by
  induction ts generalizing pending with
  | nil =>
    cases pending with
    | nil => exact failsOnly_ok _
    | cons d pending => exact failsOnly_error (hrefused _ _)
  | cons t ts ih =>
    obtain ⟨ht, hparts⟩ := hts t List.mem_cons_self
    have hrest : ∀ u ∈ ts, N u ∧ u.HasParts := fun u hu => hts u (List.mem_cons_of_mem t hu)
    have hnone : ∀ d ∈ ([] : List Tree), N d := fun d hd => by cases hd
    rw [classMembers_cons]
    split
    · refine ih hrest fun d hd => ?_
      rcases List.mem_append.1 hd with hd | hd
      · exact hpending d hd
      · rw [List.mem_singleton.1 hd]
        exact ht
    split
    · refine (h.member ht hparts hnone _).bind fun m _ => ?_
      exact (ih hrest hpending).bind fun _ _ => failsOnly_ok _
    · refine (h.member ht hparts hpending _).bind fun m _ => ?_
      exact (ih hrest hnone).bind fun _ _ => failsOnly_ok _

theorem heritage (h : r.Faults P N) (ht : N t) : FailsOnly P (r.heritage t) := by
  unfold Reading.heritage
  split
  · exact failsOnly_ok _
  · rename_i g hg
    have hg := h.below t ht g (List.mem_of_find?_eq_some hg)
    have hnamed : ∀ c ∈ g.namedChildren.filter (·.kind != "comment"), N c :=
      fun c hc => h.named hg c (List.mem_of_mem_filter hc)
    dsimp only
    split
    · rename_i e he
      exact h.node? (h.child (hnamed e (List.mem_of_find?_eq_some he)) "value")
    split
    · exact failsOnly_ok _
    · exact h.node? fun c hc => hnamed c (List.mem_of_mem_head? hc)

end Faults

theorem mem_preorder_of_child? {field : String} {c : Tree} (h : t.child? field = some c) :
    c ∈ t.preorder :=
  Tree.child_mem_preorder (List.mem_of_find?_eq_some h)

theorem hasParts_namedChildren (h : t.Complete) : ∀ c ∈ t.namedChildren, c.HasParts :=
  fun c hc => h c (Tree.child_mem_preorder (List.mem_of_mem_filter hc))

theorem Faults.declaration (h : r.Faults P N)
    (hrefused : ∀ message location, P (.refused (.classification message location))) {l : Located}
    (hl : l.node.Complete) (hnode : N l.node) (hexport : ∀ e ∈ l.export?, N e) :
    FailsOnly P (r.declaration l) := by
  have hdecorators : ∀ d ∈ l.classDecorators, N d := by
    intro d hd
    unfold Located.classDecorators at hd
    rcases List.mem_append.1 hd with hd | hd
    · split at hd
      · rename_i e he
        exact h.below e (hexport e he) d (e.decorators_sublist.subset hd)
      · cases hd
    · exact h.below l.node hnode d (l.node.decorators_sublist.subset hd)
  unfold Reading.declaration
  split
  · rename_i hclass
    have hself := hl l.node l.node.self_mem_preorder
    have hfirst := Agrees.firstPlain hnode (h.below l.node hnode)
    refine FailsOnly.map ?_
    unfold Reading.classDecl
    refine (h.node? (h.child hnode "name")).bind fun name _ => ?_
    refine (h.heritage hnode).bind fun heritage _ => ?_
    refine (failsOnly_need (hself.cls hclass)).bind fun body hbody => ?_
    have hmem := mem_preorder_of_child? (need_eq_ok.1 hbody)
    have hbody := h.child hnode "body" body (need_eq_ok.1 hbody)
    refine (h.text _ _ (Agrees.start hfirst) (Agrees.start hbody)).bind fun header _ => ?_
    refine (h.classMembers hrefused (fun c hc => ⟨h.named hbody c hc, ?_⟩) ?_).bind
      fun members _ => ?_
    · refine hasParts_namedChildren ?_ c hc
      exact fun u hu => hl u (Tree.mem_preorder_trans hu hmem)
    · exact fun d hd => by cases hd
    exact (FailsOnly.mapM fun d hd => h.decorator (hdecorators d hd)).bind
      fun _ _ => failsOnly_ok _
  · refine FailsOnly.map ?_
    unfold Reading.objectLiteral
    refine (FailsOnly.mapM fun c hc => ?_).bind fun _ _ => failsOnly_ok _
    exact h.member (h.named hnode c hc) (hasParts_namedChildren hl c hc)
      (fun d hd => by cases hd) _

end Reading

end Undecorate
