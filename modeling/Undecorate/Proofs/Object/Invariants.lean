import Undecorate.Proofs.Object.History

/-! # Invariants of descriptors

What holds of every descriptor that can be around, and of every property that can be stored. Both
follow from the few ways in which a descriptor comes about, and from merging:

* `Descriptor.Invariant`: what has to be shown, once for each way;
* `Descriptor.Invariant.holds_after`: it holds wherever a history leads.
-/

namespace Undecorate

/-- `P` holds of descriptors that are around, because it holds of new ones and is kept when a field
is set, and `Q` holds of those that are stored, because merging establishes it. -/
structure Descriptor.Invariant (P Q : Descriptor Value → Prop) : Prop where
  empty : P {}
  field : ∀ d d' f v, P d → d.withField f v = .ok d' → P d'
  mapping : ∀ isCallable given d, ofMapping isCallable given = .ok d → P d
  link : ∀ f, P (Heap.constructorLink f)
  merge : ∀ d existing merged, P d → (∀ e, existing = some e → Q e) →
    d.mergedOnto existing = .ok merged → Q merged
  copy : ∀ d, Q d → P d

/-- Every property of the object has `Q`. -/
def Object.Holds (Q : Descriptor Value → Prop) (o : Object) : Prop := ∀ p ∈ o.properties, Q p.2

/-- What is around has `P`, and what is stored has `Q`. -/
structure Heap.Holds (P Q : Descriptor Value → Prop) (h : Heap) : Prop where
  stored : ∀ r o, h.object? r = some o → o.Holds Q
  outstanding : ∀ q d, h.descriptor? q = some d → P d

theorem Object.mem_store {name : PropertyName} {d : Descriptor Value}
    {ps : List (PropertyName × Descriptor Value)} {p : PropertyName × Descriptor Value}
    (h : p ∈ store name d ps) : p ∈ ps ∨ p.2 = d := by
  induction ps with
  | nil =>
    obtain rfl := List.mem_singleton.1 h
    exact .inr rfl
  | cons q ps ih =>
    rcases q with ⟨n, e⟩
    unfold store at h
    split at h
    · rcases List.mem_cons.1 h with rfl | h
      · exact .inr rfl
      · exact .inl (List.mem_cons_of_mem _ h)
    · rcases List.mem_cons.1 h with rfl | h
      · exact .inl List.mem_cons_self
      · rcases ih h with h | h
        · exact .inl (List.mem_cons_of_mem _ h)
        · exact .inr h

theorem Object.holds_of_properties_nil {Q : Descriptor Value → Prop} {o : Object}
    (h : o.properties = []) : o.Holds Q := by
  intro p hp
  rw [h] at hp
  cases hp

namespace Descriptor.Invariant

variable {P Q : Descriptor Value → Prop} {h h' : Heap} {r q : Ref} {o : Object}
  {d : Descriptor Value}

theorem of_withFields (hi : Invariant P Q) {given : List (String × Value)} {fs : List Field}
    (hd : P d) : P (withFields given fs d).1 := by
  induction fs generalizing d with
  | nil => exact hd
  | cons f fs ih =>
    unfold withFields
    split
    · exact ih hd
    · split
      · exact ih (hi.field _ _ _ _ hd ‹_›)
      · exact ih hd

theorem of_ofFields (hi : Invariant P Q) {given : List (String × Value)}
    (h : ofFields given = .ok d) : P d := by
  have hfields : P (withFields given Field.all {}).1 := hi.of_withFields hi.empty
  unfold ofFields at h
  split at h
  · rename_i heq
    rw [heq] at hfields
    split at h
    · cases h
    · obtain rfl := Except.ok.inj h
      exact hfields
  · cases h

theorem of_assign (hi : Invariant P Q) {part : String} {v : Value} (hd : P d) :
    P (d.assign part v).1 := by
  unfold assign
  split
  · exact hd
  · split
    · exact hd
    · split
      · exact hd
      · split
        · exact hd
        · exact hi.field _ _ _ _ hd ‹_›

theorem holds_define (hi : Invariant P Q) (ho : o.Holds Q) (hd : P d) (name : PropertyName) :
    (o.define name d).1.Holds Q := by
  have hdefined := o.defined name d
  generalize o.define name d = result at hdefined
  cases hdefined with
  | refused r hrefusal => exact ho
  | misshapen f hrefusal hmerged => exact ho
  | stored merged hrefusal hmerged =>
    have hkept : ∀ e, o.own? name = some e → Q e := fun e he => ho _ (Object.mem_of_own? he)
    intro p hp
    rcases Object.mem_store hp with hp | hp
    · exact ho p hp
    · rw [hp]
      exact hi.merge d _ merged hd hkept hmerged

/-- A new object has no property, or only the link of a prototype. -/
theorem holds_of_none (hi : Invariant P Q) (hs : h.Step h') (hnone : h.object? r = none)
    (ho : h'.object? r = some o) : o.Holds Q := by
  have hold : ¬ h.object? r = some o := by simp [hnone]
  cases hs with
  | idle => exact absurd ho hold
  | fields hd => exact absurd ho hold
  | mapping hd => exact absurd ho hold
  | copied _ hd => exact absurd ho hold
  | assigned part v hd => exact absurd ho hold
  | newObject proto label =>
    rw [Heap.object?_newObject] at ho
    split at ho
    · obtain rfl := Option.some.inj ho
      exact Object.holds_of_properties_nil rfl
    · exact absurd ho hold
  | newFunction name implementation source parent =>
    obtain ⟨f, p, hobjects, hf, -, -, hp, -⟩ :=
      h.newFunction_objects name implementation source parent
    rw [Heap.object?, hobjects, Array.getElem?_push, Array.getElem?_push] at ho
    split at ho
    · obtain rfl := Option.some.inj ho
      exact hi.holds_define (Object.holds_of_properties_nil hp) (hi.link _) _
    · split at ho
      · obtain rfl := Option.some.inj ho
        exact Object.holds_of_properties_nil hf
      · exact absurd ho hold
  | define s name hd =>
    rw [Heap.object?_define] at ho
    split at ho
    · rename_i hrs
      rw [← hrs, hnone] at ho
      cases ho
    · exact absurd ho hold
  | logged s name =>
    dsimp only [Heap.object?] at ho hnone
    rw [Array.getElem?_modify, hnone] at ho
    split at ho <;> cases ho

theorem of_newDescriptor (hh : h.Holds P Q) {new : Descriptor Value} (hnew : P new)
    (hd : (h.newDescriptor new).2.descriptor? q = some d) : P d := by
  dsimp only [Heap.newDescriptor, Heap.descriptor?] at hd
  rw [Array.getElem?_push] at hd
  split at hd
  · obtain rfl := Option.some.inj hd
    exact hnew
  · exact hh.outstanding q d hd

theorem outstanding (hi : Invariant P Q) (hs : h.Step h') (hh : h.Holds P Q)
    (hd : h'.descriptor? q = some d) : P d := by
  cases hs with
  | idle => exact hh.outstanding q d hd
  | newObject proto label => exact hh.outstanding q d hd
  | newFunction name implementation source parent => exact hh.outstanding q d hd
  | logged s name => exact hh.outstanding q d hd
  | define s name he =>
    rw [Heap.descriptor?, Heap.descriptors_define] at hd
    exact hh.outstanding q d hd
  | fields he => exact of_newDescriptor hh (hi.of_ofFields he) hd
  | mapping he => exact of_newDescriptor hh (hi.mapping _ _ _ he) hd
  | copied ho he =>
    have hstored := hh.stored _ _ ho _ (Object.mem_of_own? he)
    exact of_newDescriptor hh (hi.copy _ hstored) hd
  | @assigned q' e part v he =>
    dsimp only [Heap.setDescriptor, Heap.descriptor?] at hd
    rw [Array.getElem?_setIfInBounds] at hd
    split at hd
    · split at hd
      · obtain rfl := Option.some.inj hd
        exact hi.of_assign (hh.outstanding q' e he)
      · cases hd
    · exact hh.outstanding q d hd

/-- One step keeps an invariant. -/
theorem holds_step (hi : Invariant P Q) (hs : h.Step h') (hh : h.Holds P Q) : h'.Holds P Q where
  stored := by
    intro r o' ho'
    cases ho : h.object? r with
    | none => exact hi.holds_of_none hs ho ho'
    | some o =>
      obtain ⟨o₁, ho₁, hchange⟩ := hs.object?_of_some ho
      obtain rfl := Option.some.inj (ho₁.symm.trans ho')
      rcases hchange with hsame | ⟨q, d, name, hd, rfl⟩
      · intro p hp
        rw [hsame] at hp
        exact hh.stored r o ho p hp
      · exact hi.holds_define (hh.stored r o ho) (hh.outstanding q d hd) name
  outstanding := fun _ _ hd => hi.outstanding hs hh hd

/-- An invariant holds wherever a history leads. -/
theorem holds_after (hi : Invariant P Q) (ops : List Operation) :
    (Heap.after {} ops).Holds P Q := by
  refine Heap.run_induction (fun _ _ hs => hi.holds_step hs) ?_ ops
  constructor
  · intro r o ho
    simp [Heap.object?] at ho
  · intro q d hd
    simp [Heap.descriptor?] at hd

end Descriptor.Invariant

end Undecorate
