import Undecorate.Proofs.Except
import Undecorate.Proofs.Tree.Ranges

/-! # What a declaration is read from

A declaration is built from texts that begin and end where certain nodes begin and end: the site,
and the nodes below it down to those that may be sites of their own. Two readings that agree between
such places build the same declaration, or fail alike.

* `decorator_congr`, `key_congr`, `member_congr`: the parts of a declaration;
* `declaration_congr`: the whole.
-/

namespace Undecorate

/-- An offset at which one of some nodes begins or ends. -/
def Tree.Edge (N : Tree → Prop) (i : Nat) : Prop := ∃ n, N n ∧ (i = n.start ∨ i = n.stop)

namespace Reading

/-- Two readings agree between the edges of the nodes `N`. With a node, its children are among
these nodes unless it is one of the nodes `S` that sites replace; the arguments of a call are
none of those. -/
structure Agrees (r r' : Reading) (N S : Tree → Prop) : Prop where
  source : r.source = r'.source
  text : ∀ a b, Tree.Edge N a → Tree.Edge N b → r.textOf a b = r'.textOf a b
  kinds : ∀ p, S p → p.mayBeSite = true
  below : ∀ p, N p → ¬S p → ∀ c ∈ p.children, N c
  arguments : ∀ p, N p → p.kind = "call_expression" → ∀ args ∈ p.child? "arguments", ¬S args

namespace Agrees

variable {r r' : Reading} {N S : Tree → Prop} {t m n : Tree}

theorem start (hn : N n) : Tree.Edge N n.start := ⟨n, hn, .inl rfl⟩

theorem stop (hn : N n) : Tree.Edge N n.stop := ⟨n, hn, .inr rfl⟩

theorem node (h : Agrees r r' N S) (hn : N n) : r.text n = r'.text n :=
  h.text _ _ (start hn) (stop hn)

theorem node? (h : Agrees r r' N S) {o : Option Tree} (ho : ∀ n ∈ o, N n) :
    r.text? o = r'.text? o := by
  cases o with
  | none => rfl
  | some n => rw [Reading.text?, Reading.text?, h.node (ho n rfl)]

theorem range (h : Agrees r r' N S) (n : Tree) : r.range n = r'.range n := by
  rw [Reading.range, Reading.range, h.source]

/-- A node of a kind that no site has is not replaced. -/
theorem plain (h : Agrees r r' N S) {kind : String} (hk : t.kind = kind)
    (hp : kind ∉ ["class_declaration", "class", "abstract_class_declaration", "object",
      "export_statement"]) : ¬S t := by
  subst hk
  intro ht
  simp only [List.mem_cons, List.not_mem_nil, or_false, not_or] at hp
  have := h.kinds t ht
  simp [Tree.mayBeSite, Tree.isClass, Tree.isObject, hp] at this

theorem firstNamed (h : Agrees r r' N S) (ht : N t) (hm : ¬S t) :
    ∀ c ∈ t.firstNamed?, N c := by
  intro c hc
  exact h.below t ht hm c (t.namedChildren_sublist.subset (List.mem_of_find?_eq_some hc))

theorem child (h : Agrees r r' N S) (ht : N t) (hm : ¬S t) (field : String) :
    ∀ c ∈ t.child? field, N c := by
  intro c hc
  exact h.below t ht hm c (Tree.mem_children_of_child? hc)

theorem firstPlain (ht : N t) (hc : ∀ c ∈ t.children, N c) : N t.firstPlain := by
  unfold Tree.firstPlain
  cases hfind : t.children.find? fun c => c.kind != "decorator" && c.kind != "comment" with
  | none => exact ht
  | some c => exact hc c (List.mem_of_find?_eq_some hfind)

end Agrees

section Parts

variable {r r' : Reading} {N S : Tree → Prop} {t : Tree}

theorem decorator_congr (h : Agrees r r' N S) (ht : N t) (hk : t.kind = "decorator") :
    r.decorator t = r'.decorator t := by
  have hm := h.plain hk (by decide)
  unfold Reading.decorator
  rw [h.range t]
  dsimp only
  cases hfirst : t.firstNamed? with
  | none => rw [h.node ht]
  | some e =>
    have he := h.firstNamed ht hm e hfirst
    dsimp only
    rw [h.node he]
    refine bind_congr fun text => ?_
    split
    · rfl
    split
    · rename_i hcall
      -- the texts below a call: its function, and its arguments one by one
      have hcall : e.kind = "call_expression" := by simpa using hcall
      have hme := h.plain hcall (by decide)
      cases hfun : (e.child? "function").filter isPath with
      | none => rfl
      | some f =>
        have hf := h.child he hme "function" f (Option.filter_eq_some_iff.1 hfun).1
        dsimp only
        rw [h.node hf]
        refine bind_congr fun callee => ?_
        cases hargs : e.child? "arguments" with
        | none => rfl
        | some args =>
          have hN := h.child he hme "arguments" args hargs
          have hma := h.arguments e he hcall args hargs
          have hread : (args.namedChildren.filter (·.kind != "comment")).mapM r.text =
              (args.namedChildren.filter (·.kind != "comment")).mapM r'.text := by
            refine mapM_congr fun a ha => h.node (h.below args hN hma a ?_)
            exact args.namedChildren_sublist.subset (List.mem_filter.1 ha).1
          dsimp only
          rw [hread]
    · rfl

theorem key_congr (h : Agrees r r' N S) (ht : N t) : r.key t = r'.key t := by
  unfold Reading.key
  split
  · rename_i hk
    have hm := h.plain (t := t) (by simpa using hk) (by decide)
    rw [h.node? (h.firstNamed ht hm)]
  · rw [h.node ht]

theorem isConstructKey_congr (h : Agrees r r' N S) (ht : N t) :
    r.isConstructKey t = r'.isConstructKey t := by
  unfold Reading.isConstructKey
  rw [h.node ht]

theorem memberParts_congr (h : Agrees r r' N S) (ht : N t) (hm : ¬S t)
    (inClass : Bool) : r.memberParts t inClass = r'.memberParts t inClass := by
  -- every text is that of a child or lies between two children
  have hchild := h.child ht hm
  unfold Reading.memberParts
  split
  · refine bind_congr_ok fun name hname => ?_
    refine bind_congr_ok fun body hbody => ?_
    have hname := hchild _ name (need_eq_ok.1 hname)
    have hbody := hchild _ body (need_eq_ok.1 hbody)
    dsimp only
    rw [h.text _ _ (Agrees.stop hname) (Agrees.start hbody), h.node hbody,
      isConstructKey_congr h hname]
  split
  · rw [h.node? (hchild "value")]
  split
  · rw [h.node? (hchild "body")]
  split
  · refine bind_congr_ok fun value hvalue => ?_
    rw [h.node (hchild _ value (need_eq_ok.1 hvalue))]
  split
  · rw [h.node ht]
  split
  · rw [h.node? (h.firstNamed ht hm)]
  · rfl

/-- The node of a member's key is a child of the member. -/
theorem memberParts_key {inClass : Bool} {parts : Member} {k : Tree}
    (h : r.memberParts t inClass = .ok (parts, some k)) : k ∈ t.children :=
  Tree.keyNode?_mem (memberParts_cases h).name_eq.symm

theorem member_congr (h : Agrees r r' N S) {preceding : List Tree} {inClass : Bool} (ht : N t)
    (hm : ¬S t) (hpre : ∀ d ∈ preceding, N d ∧ d.kind = "decorator") :
    r.member preceding inClass t = r'.member preceding inClass t := by
  have hchildren := h.below t ht hm
  have hfirst := Agrees.firstPlain ht hchildren
  have hdecorators : (preceding ++ t.decorators).mapM r.decorator =
      (preceding ++ t.decorators).mapM r'.decorator := by
    refine mapM_congr fun d hd => ?_
    rcases List.mem_append.1 hd with hd | hd
    · exact decorator_congr h (hpre d hd).1 (hpre d hd).2
    · exact decorator_congr h (hchildren d (t.decorators_sublist.subset hd))
        (Tree.kind_of_mem_decorators hd)
  unfold Reading.member
  rw [hdecorators, memberParts_congr h ht hm, h.source]
  refine bind_congr fun ds => ?_
  dsimp only
  refine bind_congr_ok ?_
  rintro ⟨parts, name⟩ hparts
  dsimp only
  rw [h.node ht, h.text _ _ (Agrees.start hfirst) (Agrees.stop ht)]
  split
  · rfl
  -- the key is read on its own, so the source of the member falls into three stretches
  cases name with
  | none => rfl
  | some k =>
    have hk : N k := by
      refine hchildren k ?_
      exact memberParts_key hparts
    dsimp only
    rw [key_congr h hk, h.text _ _ (Agrees.start hfirst) (Agrees.start hk),
      h.text _ _ (Agrees.start hk) (Agrees.stop hk), h.text _ _ (Agrees.stop hk) (Agrees.stop ht)]

end Parts

section Whole

variable {r r' : Reading} {N S : Tree → Prop} {t : Tree} {l : Located}

theorem classMembers_congr (h : Agrees r r' N S) {pending ts : List Tree}
    (hpending : ∀ d ∈ pending, N d ∧ d.kind = "decorator")
    (hts : ∀ m ∈ ts, N m ∧ ¬S m) :
    r.classMembers pending ts = r'.classMembers pending ts := by
  induction ts generalizing pending with
  | nil =>
    cases pending with
    | nil => rfl
    | cons d ds => rw [Reading.classMembers, Reading.classMembers, h.range]
  | cons m ts ih =>
    rcases hts m List.mem_cons_self with ⟨hN, hm⟩
    have hrest := fun n hn => hts n (List.mem_cons_of_mem _ hn)
    have hnone : ∀ d ∈ ([] : List Tree), N d ∧ d.kind = "decorator" := by simp
    rw [Reading.classMembers, Reading.classMembers]
    split
    · rename_i hk
      refine ih ?_ hrest
      intro d hd
      rcases List.mem_append.1 hd with hd | hd
      · exact hpending d hd
      · rw [List.mem_singleton.1 hd]
        exact ⟨hN, by simpa using hk⟩
    · rw [ih hpending hrest, ih hnone hrest, member_congr h hN hm hpending,
        member_congr h hN hm hnone]

theorem heritage_congr (h : Agrees r r' N S) (hc : ∀ c ∈ t.children, N c) :
    r.heritage t = r'.heritage t := by
  unfold Reading.heritage
  cases hfind : t.children.find? (·.kind == "class_heritage") with
  | none => rfl
  | some g =>
    have hk : g.kind = "class_heritage" := by simpa using List.find?_some hfind
    have hg := hc g (List.mem_of_find?_eq_some hfind)
    have hnamed : ∀ c ∈ g.namedChildren.filter (·.kind != "comment"), N c := by
      intro c hc
      exact h.below g hg (h.plain hk (by decide)) c
        (g.namedChildren_sublist.subset (List.mem_filter.1 hc).1)
    dsimp only
    -- either grammar: the value of an extends clause, or the first child itself
    cases hext : (g.namedChildren.filter (·.kind != "comment")).find?
        (·.kind == "extends_clause") with
    | none =>
      dsimp only
      rw [h.node? fun n hn => hnamed n (List.mem_of_mem_head? hn)]
    | some e =>
      have hke : e.kind = "extends_clause" := by simpa using List.find?_some hext
      have he := hnamed e (List.mem_of_find?_eq_some hext)
      exact h.node? (h.child he (h.plain hke (by decide)) "value")

theorem classDecl_congr (h : Agrees r r' N S) (hnode : N l.node) (hc : ∀ c ∈ l.node.children, N c)
    (hexport : ∀ e ∈ l.export?, ∀ c ∈ e.children, N c)
    (hbody : ∀ b ∈ l.node.child? "body", ¬S b ∧
      ∀ m ∈ b.namedChildren, ¬S m) : r.classDecl l = r'.classDecl l := by
  have hdecorators : l.classDecorators.mapM r.decorator = l.classDecorators.mapM r'.decorator := by
    refine mapM_congr fun d hd => ?_
    unfold Located.classDecorators at hd
    rcases List.mem_append.1 hd with hd | hd
    · split at hd
      · rename_i e he
        exact decorator_congr h (hexport e he d (e.decorators_sublist.subset hd))
          (Tree.kind_of_mem_decorators hd)
      · cases hd
    · exact decorator_congr h (hc d (l.node.decorators_sublist.subset hd))
        (Tree.kind_of_mem_decorators hd)
  have hname : ∀ n ∈ l.node.child? "name", N n := fun n hn =>
    hc n (Tree.mem_children_of_child? hn)
  have hfirst := Agrees.firstPlain hnode hc
  unfold Reading.classDecl
  dsimp only
  rw [h.node? hname, heritage_congr h hc, hdecorators, h.range]
  refine bind_congr fun name => ?_
  refine bind_congr fun heritage => ?_
  refine bind_congr_ok fun body hfound => ?_
  have hfound := need_eq_ok.1 hfound
  rcases hbody body hfound with ⟨hmb, hmm⟩
  have hN := hc body (Tree.mem_children_of_child? hfound)
  have hmembers : r.classMembers [] body.namedChildren = r'.classMembers [] body.namedChildren := by
    refine classMembers_congr h (by simp) fun m hm => ⟨?_, hmm m hm⟩
    exact h.below body hN hmb m (body.namedChildren_sublist.subset hm)
  rw [h.text _ _ (Agrees.start hfirst) (Agrees.start hN), hmembers]

/-- Readings that agree between the edges of the nodes of a declaration build the same
declaration. -/
theorem declaration_congr (h : Agrees r r' N S) (hnode : N l.node)
    (hc : ∀ c ∈ l.node.children, N c) (hexport : ∀ e ∈ l.export?, ∀ c ∈ e.children, N c)
    (hbody : l.node.isClass = true → ∀ b ∈ l.node.child? "body", ¬S b)
    (hmembers : ∀ m ∈ l.memberNodes, ¬S m) :
    r.declaration l = r'.declaration l := by
  -- members are the children of the body of a class, or of the object literal itself
  unfold Located.memberNodes at hmembers
  unfold Reading.declaration
  split
  · rename_i hclass
    rw [if_pos hclass] at hmembers
    rw [classDecl_congr h hnode hc hexport]
    intro b hb
    refine ⟨hbody hclass b hb, ?_⟩
    rw [Option.mem_def] at hb
    rwa [hb] at hmembers
  · rename_i hclass
    rw [if_neg hclass] at hmembers
    have hread : l.node.namedChildren.mapM (r.member [] false) =
        l.node.namedChildren.mapM (r'.member [] false) := by
      refine mapM_congr fun m hm => member_congr h ?_ (hmembers m hm) (by simp)
      exact hc m (l.node.namedChildren_sublist.subset hm)
    rw [Reading.objectLiteral, Reading.objectLiteral, hread, h.range]

end Whole

end Reading

end Undecorate
