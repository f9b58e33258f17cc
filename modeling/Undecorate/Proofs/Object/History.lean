import Undecorate.Proofs.Object.Actions

/-! # Histories of the heap

Everything that can be done to objects and descriptors from outside is an operation, and a history
is a list of operations, which may fail one by one. An operation takes one of a few steps:

* `Operation.step_perform`: whatever an operation is given, it takes a step, also when it fails;
* `Heap.run_induction`: what every step keeps holds at the end of every history.

From what a step does to an object (`Heap.Step.object?_of_some`) it follows that a property which is
not configurable is frozen from then on: `nonconfigurable_properties_stay_frozen`.
-/

namespace Undecorate

/-- Something that can be done to objects and descriptors. -/
inductive Operation where
  /-- Creates an object. -/
  | newObject (proto : Option Value) (label : Option Text)
  /-- Creates a function. -/
  | newFunction (name : Text) (implementation : Option Function) (source : Option Member)
      (parent : Value)
  /-- Creates a descriptor with the given fields. -/
  | fields (given : List (String × Value))
  /-- Creates a descriptor by a mapping. -/
  | mapping (given : List (String × Value))
  /-- Defines a property of an object by whatever is given for its descriptor. -/
  | define (target key given : Value)
  /-- Takes a copy of an own property. -/
  | ownDescriptor (target key : Value)
  /-- Assigns a part of a descriptor. -/
  | assign (target : Value) (part : String) (v : Value)

/-- What an operation does, and what it gives back. -/
def Operation.act {σ : Type} : Operation → Act σ Value
  | .newObject proto label => return .object (← Act.onHeap (·.newObject { proto, label }))
  | .newFunction name implementation source parent =>
    Act.newFunction name implementation source parent
  | .fields given => match Descriptor.ofFields given with
    | .ok d => Act.newDescriptor d
    | .error issues => throw (.invalid issues)
  | .mapping given => do Act.newDescriptor (← Act.readMapping given)
  | .define target key given => do
    Act.define target key given
    return .absent
  | .ownDescriptor target key => Act.ownDescriptor target key
  | .assign target part v => do
    Act.assign target part v
    return .absent

/-- The heap after an operation, whether it returned or failed. -/
def Operation.perform (op : Operation) (h : Heap) : Heap :=
  ((op.act : Act Unit Value).runIn { heap := h, host := () }).2.heap

/-- The heap after a history. -/
def Heap.after (h : Heap) (ops : List Operation) : Heap := ops.foldl (fun h op => op.perform h) h

/-! ## Steps -/

/-- The steps that a heap can take. -/
inductive Heap.Step (h : Heap) : Heap → Prop
  | idle : Step h h
  | newObject (proto : Option Value) (label : Option Text) : Step h (h.newObject { proto, label }).2
  | newFunction (name : Text) (implementation : Option Function) (source : Option Member)
      (parent : Option Ref) : Step h (h.newFunction name implementation source parent).2
  | fields {given : List (String × Value)} {d : Descriptor Value}
      (hd : Descriptor.ofFields given = .ok d) : Step h (h.newDescriptor d).2
  | mapping {given : List (String × Value)} {d : Descriptor Value}
      (hd : Descriptor.ofMapping h.isCallable given = .ok d) : Step h (h.newDescriptor d).2
  | define {q : Ref} {d : Descriptor Value} (r : Ref) (name : PropertyName)
      (hd : h.descriptor? q = some d) : Step h (h.define r name d).1
  /-- A definition by what is no descriptor is logged before that is found out. -/
  | logged (r : Ref) (name : PropertyName) :
      Step h { h with objects := h.objects.modify r (·.logged name) }
  | copied {r : Ref} {o : Object} {name : PropertyName} {d : Descriptor Value}
      (ho : h.object? r = some o) (hd : o.own? name = some d) : Step h (h.newDescriptor d).2
  /-- An assignment that fails its last check has been made. -/
  | assigned {q : Ref} {d : Descriptor Value} (part : String) (v : Value)
      (hd : h.descriptor? q = some d) : Step h (h.setDescriptor q (d.assign part v).1)

namespace Operation

variable {σ α β : Type} {w : World σ}

theorem step_of_reads {x : Act σ α} {f : α → Act σ β} (hx : x.Reads)
    (hf : ∀ a, x.Returns w a w → w.heap.Step ((f a).runIn w).2.heap) :
    w.heap.Step ((x >>= f).runIn w).2.heap :=
  hx.after (P := fun w' => w.heap.Step w'.heap) .idle hf

theorem step_newFunction (name : Text) (implementation : Option Function)
    (source : Option Member) (parent : Value) :
    w.heap.Step ((Act.newFunction name implementation source parent).runIn w).2.heap := by
  unfold Act.newFunction
  cases parent with
  | absent => exact .newFunction name implementation source none
  | _ =>
    refine step_of_reads (Act.reads_objectOf _ _) ?_
    rintro ⟨r, o⟩ -
    dsimp only
    split
    · exact .idle
    · exact .newFunction name implementation source (some r)

theorem step_define (target key given : Value) :
    w.heap.Step ((Act.define target key given).runIn w).2.heap := by
  unfold Act.define
  refine step_of_reads (Act.reads_objectOf _ _) ?_
  rintro ⟨r, o⟩ -
  refine step_of_reads (Act.reads_nameOf key) ?_
  intro name hname
  cases given with
  | descriptor q =>
    refine step_of_reads (Act.reads_descriptorOf _ _) ?_
    rintro ⟨q', d⟩ hd
    obtain ⟨-, hd, -⟩ := Act.returns_descriptorOf.1 hd
    rw [Act.runIn_defineBy]
    exact .define r name hd
  | _ =>
    refine step_of_reads (Act.reads_view _) ?_
    intro u hu
    dsimp only
    split
    · exact .idle
    · exact .logged r name

theorem step_ownDescriptor (target key : Value) :
    w.heap.Step ((Act.ownDescriptor target key).runIn w).2.heap := by
  unfold Act.ownDescriptor
  refine step_of_reads (Act.reads_objectOf _ _) ?_
  rintro ⟨r, o⟩ hobject
  obtain ⟨-, ho, -⟩ := Act.returns_objectOf.1 hobject
  refine step_of_reads (Act.reads_nameOf key) ?_
  intro name hname
  cases hd : o.own? name with
  | none => exact .idle
  | some d => exact .copied ho hd

theorem step_assign (target : Value) (part : String) (v : Value) :
    w.heap.Step ((Act.assign target part v).runIn w).2.heap := by
  rcases Act.after_assign target part v w with h | ⟨q, d, hd, h⟩
  · rw [h]
    exact .idle
  · rw [h]
    exact .assigned part v hd

/-- Whatever an operation is given, it takes one step, whether it returns or fails. -/
theorem step_perform (op : Operation) (h : Heap) : h.Step (op.perform h) := by
  change Heap.Step (World.heap { heap := h, host := () }) _
  unfold perform
  generalize ({ heap := h, host := () } : World Unit) = w
  cases op with
  | newObject proto label => exact .newObject proto label
  | newFunction name implementation source parent =>
    exact step_newFunction name implementation source parent
  | fields given =>
    dsimp only [act]
    cases hd : Descriptor.ofFields given with
    | ok d => exact .fields hd
    | error issues => exact .idle
  | mapping given =>
    refine step_of_reads (Act.reads_readMapping given) ?_
    intro d hd
    exact .mapping (Act.returns_readMapping.1 hd).1
  | define target key given =>
    dsimp only [act]
    rw [Act.after_seq_pure]
    exact step_define target key given
  | ownDescriptor target key => exact step_ownDescriptor target key
  | assign target part v =>
    dsimp only [act]
    rw [Act.after_seq_pure]
    exact step_assign target part v

end Operation

namespace Heap

variable {h h' : Heap} {r : Ref} {o o' : Object}

/-- What every step keeps holds at the end of every history. -/
theorem run_induction {P : Heap → Prop} (hstep : ∀ h h', Step h h' → P h → P h')
    (hstart : P h) (ops : List Operation) : P (h.after ops) := by
  induction ops generalizing h with
  | nil => exact hstart
  | cons op ops ih => exact ih (hstep h _ (op.step_perform h) hstart)

/-- An object stays where it is. Its properties stay as they are, or it takes a definition by one of
the descriptors that are around. -/
theorem Step.object?_of_some (hs : h.Step h') (ho : h.object? r = some o) :
    ∃ o', h'.object? r = some o' ∧
      (o'.properties = o.properties ∨
        ∃ q d name, h.descriptor? q = some d ∧ o' = (o.define name d).1) := by
  have hlt : r < h.objects.size := (Array.getElem?_eq_some_iff.1 ho).1
  cases hs with
  | idle => exact ⟨o, ho, .inl rfl⟩
  | newObject proto label =>
    refine ⟨o, ?_, .inl rfl⟩
    rw [object?_newObject, if_neg (Nat.ne_of_lt hlt)]
    exact ho
  | newFunction name implementation source parent =>
    refine ⟨o, ?_, .inl rfl⟩
    rw [object?_newFunction_of_lt hlt]
    exact ho
  | fields hd => exact ⟨o, ho, .inl rfl⟩
  | mapping hd => exact ⟨o, ho, .inl rfl⟩
  | copied _ hd => exact ⟨o, ho, .inl rfl⟩
  | assigned part v hd => exact ⟨o, ho, .inl rfl⟩
  | @define q d s name hd =>
    rw [object?_define]
    by_cases hrs : r = s
    · subst hrs
      rw [if_pos rfl, ho]
      exact ⟨_, rfl, .inr ⟨q, d, name, hd, rfl⟩⟩
    · rw [if_neg hrs]
      exact ⟨o, ho, .inl rfl⟩
  | logged s name =>
    dsimp only [object?] at ho ⊢
    rw [Array.getElem?_modify, ho]
    split
    · exact ⟨o.logged name, rfl, .inl rfl⟩
    · exact ⟨o, rfl, .inl rfl⟩

/-! ## Properties that are not configurable -/

/-- A property that is not configurable survives one step, frozen. -/
theorem Step.frozen (hs : h.Step h') {name : PropertyName} {d : Descriptor Value}
    (ho : h.object? r = some o) (hd : o.own? name = some d) (hc : d.configurable = false) :
    ∃ o' d', h'.object? r = some o' ∧ o'.own? name = some d' ∧ d.FrozenInto d' := by
  obtain ⟨o', ho', hsame | ⟨q, e, other, -, rfl⟩⟩ := hs.object?_of_some ho
  · refine ⟨o', d, ho', ?_, .refl d⟩
    rw [Object.own?, hsame]
    exact hd
  · obtain ⟨d', hd', hfrozen⟩ := Object.frozen_define other e hd hc
    exact ⟨_, d', ho', hd', hfrozen⟩

end Heap

/-- From the moment a property is not configurable, it is frozen to the end of every history. -/
theorem nonconfigurable_properties_stay_frozen (h : Heap) (ops : List Operation) {r : Ref}
    {o : Object} {name : PropertyName} {d : Descriptor Value} (ho : h.object? r = some o)
    (hd : o.own? name = some d) (hc : d.configurable = false) :
    ∃ o' d', (h.after ops).object? r = some o' ∧ o'.own? name = some d' ∧ d.FrozenInto d' := by
  refine Heap.run_induction
    (P := fun h' => ∃ o' d', h'.object? r = some o' ∧ o'.own? name = some d' ∧ d.FrozenInto d')
    ?_ ⟨o, d, ho, hd, .refl d⟩ ops
  rintro h₁ h₂ hstep ⟨o₁, d₁, ho₁, hd₁, hfrozen⟩
  obtain ⟨o₂, d₂, ho₂, hd₂, hstill⟩ := hstep.frozen ho₁ hd₁ (hfrozen.configurable.trans hc)
  exact ⟨o₂, d₂, ho₂, hd₂, hfrozen.trans hstill⟩

/-- A history that defines a property for good. -/
def Operation.freezing : List Operation :=
  [.newObject none none, .mapping [("value", .int 1 .shared)],
    .define (.object 0) (.text "x" .shared) (.descriptor 0)]

/-- What it leaves in the object. -/
def Descriptor.frozenSample : Descriptor Value where
  value := some (.int 1 .shared)
  writable := some false
  explicit := .ofList [.kind, .value, .enumerable, .configurable, .writable]

/-- The theorem at a property that other definitions try to change, one of them by a descriptor
which an assignment left in an inconsistent state. -/
theorem nonconfigurable_properties_stay_frozen_of_sample :
    let h := Heap.after {} Operation.freezing
    let o : Object := { properties := [(.text "x", .frozenSample)], log := [.text "x"] }
    let x : Value := .text "x" .shared
    let attempts : List Operation :=
      [.mapping [("value", .int 2 .shared), ("configurable", .bool true)],
        .define (.object 0) x (.descriptor 1), .ownDescriptor (.object 0) x,
        .assign (.descriptor 2) "kind" (.text "accessor" .shared),
        .define (.object 0) x (.descriptor 2)]
    h.object? 0 = some o ∧ o.own? (.text "x") = some .frozenSample ∧
      Descriptor.frozenSample.configurable = false ∧
      ∃ o' d', (h.after attempts).object? 0 = some o' ∧ o'.own? (.text "x") = some d' ∧
        Descriptor.frozenSample.FrozenInto d' := by
  intro h o x attempts
  exact ⟨rfl, rfl, rfl, nonconfigurable_properties_stay_frozen h attempts rfl rfl rfl⟩

end Undecorate
