import Undecorate.Proofs.Act
import Undecorate.Proofs.Object.Moved

/-! # Actions in displaced worlds

An action mirrors another one when it does in every displaced world what the other one does at
home: it fails with the same fault, or returns the displaced result, and in both cases the worlds
that are left stay displaced. All actions of the object model mirror themselves, and calls do when
those of the host do.

* `Mirrors.bind`, `mirrors_foldlM`: sequences and loops mirror part by part;
* `mirrors_define`, `mirrors_getProperty`: properties are defined and read alike.
-/

namespace Undecorate

variable {σ α β γ δ : Type}

/-- The heap of `w` is moved into that of `w'`, and the states of the host are alike. -/
structure World.Moved (T : Displacement) (room : Heap) (alike : σ → σ → Prop)
    (w w' : World σ) : Prop where
  heap : Heap.Moved T room w.heap w'.heap
  host : alike w.host w'.host

namespace Act

/-- The second action does in displaced worlds what the first one does; `e` is what becomes of the
result. -/
def Mirrors (T : Displacement) (room : Heap) (alike : σ → σ → Prop) (e : α → β)
    (x : Act σ α) (y : Act σ β) : Prop :=
  ∀ w w', World.Moved T room alike w w' →
    (y.runIn w').1 = (x.runIn w).1.map e ∧
      World.Moved T room alike (x.runIn w).2 (y.runIn w').2

variable {T : Displacement} {room : Heap} {alike : σ → σ → Prop} {e : α → β}
  {k : γ → δ} {x : Act σ α} {y : Act σ β} {f : α → Act σ γ} {g : β → Act σ δ}

/-! ## Rules -/

/-- In displaced worlds both fail with one fault, or both return. -/
theorem Mirrors.ends (hx : Mirrors T room alike e x y) {w w' : World σ}
    (h : World.Moved T room alike w w') :
    (∃ fault w₁ w₂, x.runIn w = (.error fault, w₁) ∧ y.runIn w' = (.error fault, w₂) ∧
        World.Moved T room alike w₁ w₂) ∨
      ∃ a w₁ w₂, x.runIn w = (.ok a, w₁) ∧ y.runIn w' = (.ok (e a), w₂) ∧
        World.Moved T room alike w₁ w₂ := by
  obtain ⟨hend, hleft⟩ := hx w w' h
  rcases hrun : x.runIn w with ⟨result, w₁⟩
  rcases hrun' : y.runIn w' with ⟨result', w₂⟩
  rw [hrun, hrun'] at hend hleft
  subst hend
  cases result with
  | error fault => exact .inl ⟨fault, w₁, w₂, rfl, rfl, hleft⟩
  | ok a => exact .inr ⟨a, w₁, w₂, rfl, rfl, hleft⟩

theorem mirrors_pure (a : α) : Mirrors T room alike e (pure a : Act σ α) (pure (e a)) :=
  fun _ _ h => ⟨rfl, h⟩

theorem mirrors_throw (fault : Fault) :
    Mirrors T room alike e (throw fault : Act σ α) (throw fault) :=
  fun _ _ h => ⟨rfl, h⟩

theorem Mirrors.bind (hx : Mirrors T room alike e x y)
    (hf : ∀ a, Mirrors T room alike k (f a) (g (e a))) :
    Mirrors T room alike k (x >>= f) (y >>= g) := by
  intro w w' h
  rw [runIn_bind, runIn_bind]
  rcases hx.ends h with ⟨fault, w₁, w₂, hrun, hrun', hleft⟩ | ⟨a, w₁, w₂, hrun, hrun', hleft⟩
  · rw [hrun, hrun']
    exact ⟨rfl, hleft⟩
  · rw [hrun, hrun']
    exact hf a w₁ w₂ hleft

/-- What is done with the heap is done alike when it is for every heap and the moved one. -/
theorem mirrors_heap_bind {f : Heap → Act σ γ} {g : Heap → Act σ δ}
    (hf : ∀ h h', Heap.Moved T room h h' → Mirrors T room alike k (f h) (g h')) :
    Mirrors T room alike k (heap >>= f) (heap >>= g) :=
  fun w w' h => hf w.heap w'.heap h.heap w w' h

theorem mirrors_onHeap {f : Heap → α × Heap} {g : Heap → β × Heap}
    (hf : ∀ h h', Heap.Moved T room h h' →
      (g h').1 = e (f h).1 ∧ Heap.Moved T room (f h).2 (g h').2) :
    Mirrors T room alike e (onHeap f : Act σ α) (onHeap g) := by
  intro w w' h
  obtain ⟨hresult, hheap⟩ := hf w.heap w'.heap h.heap
  exact ⟨congrArg Except.ok hresult, hheap, h.host⟩

/-- A handler that turns faults into faults does so in both worlds. -/
theorem Mirrors.tryCatch {handler : Fault → Act σ α} {handler' : Fault → Act σ β}
    (hx : Mirrors T room alike e x y)
    (hh : ∀ fault, Mirrors T room alike e (handler fault) (handler' fault)) :
    Mirrors T room alike e (tryCatch x handler) (tryCatch y handler') := by
  intro w w' h
  rw [runIn_tryCatch, runIn_tryCatch]
  rcases hx.ends h with ⟨fault, w₁, w₂, hrun, hrun', hleft⟩ | ⟨a, w₁, w₂, hrun, hrun', hleft⟩
  · rw [hrun, hrun']
    exact hh fault w₁ w₂ hleft
  · rw [hrun, hrun']
    exact ⟨rfl, hleft⟩

section Loops

variable {ι : Type} {items : List ι}

/-- A loop mirrors round by round. -/
theorem mirrors_foldlM {step : α → ι → Act σ α} {step' : β → ι → Act σ β}
    (hstep : ∀ a i, Mirrors T room alike e (step a i) (step' (e a) i)) (a : α) :
    Mirrors T room alike e (items.foldlM step a) (items.foldlM step' (e a)) := by
  induction items generalizing a with
  | nil => exact mirrors_pure a
  | cons i items ih =>
    rw [List.foldlM_cons, List.foldlM_cons]
    exact (hstep a i).bind ih

theorem mirrors_mapM {each : ι → Act σ α} {each' : ι → Act σ β}
    (heach : ∀ i, Mirrors T room alike e (each i) (each' i)) :
    Mirrors T room alike (List.map e) (items.mapM each) (items.mapM each') := by
  induction items with
  | nil => exact mirrors_pure []
  | cons i items ih =>
    rw [List.mapM_cons, List.mapM_cons]
    exact (heach i).bind fun a => ih.bind fun as => mirrors_pure (a :: as)

end Loops

/-! ## Looking -/

theorem mirrors_view (v : Value) :
    Mirrors T room alike id (view v : Act σ View) (view (T.value v)) := by
  unfold view
  refine mirrors_heap_bind fun h h' hm => ?_
  rw [hm.view]
  exact mirrors_pure _

theorem mirrors_checkQuotable (v : Value) :
    Mirrors T room alike id (checkQuotable v : Act σ Unit) (checkQuotable (T.value v)) := by
  unfold checkQuotable
  refine (mirrors_view v).bind fun u => ?_
  rw [id]
  cases u.obstacle? true with
  | none => exact mirrors_pure _
  | some o => exact mirrors_throw _

theorem mirrors_nameOf (v : Value) :
    Mirrors T room alike T.name (nameOf v : Act σ PropertyName) (nameOf (T.value v)) := by
  unfold nameOf
  rw [Displacement.propertyName_value]
  cases v.propertyName with
  | ok name => exact mirrors_pure name
  | error fault =>
    cases fault with
    | digits => exact mirrors_throw _
    | container => exact (mirrors_view v).bind fun _ => mirrors_throw _

/-- A value that is not of the wanted kind is reported by its view. -/
theorem mirrors_noAttribute (v : Value) (part : String) :
    Mirrors T room alike e (do throw (.noAttribute (← view v).typeName part) : Act σ α)
      (do throw (.noAttribute (← view (T.value v)).typeName part)) :=
  (mirrors_view v).bind fun _ => mirrors_throw _

theorem mirrors_objectOf (v : Value) (part : String) :
    Mirrors T room alike (Prod.map T.objects.move T.object)
      (objectOf v part : Act σ (Ref × Object)) (objectOf (T.value v) part) := by
  unfold objectOf
  cases v with
  | object r =>
    refine mirrors_heap_bind fun h h' hm => ?_
    rw [hm.object?]
    cases h.object? r with
    | some o => exact mirrors_pure (r, o)
    | none => exact mirrors_noAttribute (.object r) part
  | _ => exact mirrors_noAttribute _ part

theorem mirrors_descriptorOf (v : Value) (part : String) :
    Mirrors T room alike (Prod.map T.descriptors.move T.descriptor)
      (descriptorOf v part : Act σ (Ref × Descriptor Value)) (descriptorOf (T.value v) part) := by
  unfold descriptorOf
  cases v with
  | descriptor r =>
    refine mirrors_heap_bind fun h h' hm => ?_
    rw [hm.descriptor?]
    cases h.descriptor? r with
    | some d => exact mirrors_pure (r, d)
    | none => exact mirrors_noAttribute (.descriptor r) part
  | _ => exact mirrors_noAttribute _ part

/-! ## Creating -/

theorem mirrors_newDescriptor (d : Descriptor Value) :
    Mirrors T room alike T.value (newDescriptor d : Act σ Value)
      (newDescriptor (T.descriptor d)) :=
  (mirrors_onHeap fun _ _ hm => hm.newDescriptor d).bind fun r =>
    mirrors_pure (Value.descriptor r)

theorem mirrors_ownDescriptor (target key : Value) :
    Mirrors T room alike T.value (ownDescriptor target key : Act σ Value)
      (ownDescriptor (T.value target) (T.value key)) := by
  unfold ownDescriptor
  refine (mirrors_objectOf _ _).bind fun p => (mirrors_nameOf key).bind fun name => ?_
  rw [Displacement.own?_object]
  cases p.2.own? name with
  | some d => exact mirrors_newDescriptor d
  | none => exact mirrors_pure Value.absent

theorem mirrors_createFunction (label : Text) (implementation : Option Function)
    (source : Option Member) (parent : Option Ref) : Mirrors T room alike T.value
      (do return .object (← onHeap (·.newFunction label implementation source parent)) :
        Act σ Value)
      (do return .object (← onHeap (·.newFunction label (implementation.map T.function) source
        (parent.map T.objects.move)))) :=
  (mirrors_onHeap fun _ _ hm => hm.newFunction _ _ _ parent).bind
    fun r => mirrors_pure (Value.object r)

/-- A function below another one is created only if that is a function too. -/
theorem mirrors_newFunction_below (label : Text) (implementation : Option Function)
    (source : Option Member) (parent : Value) : Mirrors T room alike T.value (do
      let (r, o) ← objectOf parent "prototype"
      if o.callable.isNone then throw (.noAttribute (← view parent).typeName "prototype")
      return .object (← onHeap (·.newFunction label implementation source (some r))) :
        Act σ Value) (do
      let (r, o) ← objectOf (T.value parent) "prototype"
      if o.callable.isNone then
        throw (.noAttribute (← view (T.value parent)).typeName "prototype")
      return .object (← onHeap (·.newFunction label (implementation.map T.function) source
        (some r)))) := by
  refine (mirrors_objectOf parent "prototype").bind fun p => ?_
  dsimp only [Prod.map, Displacement.object]
  rw [Option.isNone_map]
  cases p.2.callable with
  | some c => exact mirrors_createFunction label implementation source (some p.1)
  | none => exact mirrors_noAttribute parent "prototype"

theorem mirrors_newFunction (label : Text) (implementation : Option Function)
    (source : Option Member) (parent : Value) :
    Mirrors T room alike T.value (newFunction label implementation source parent : Act σ Value)
      (newFunction label (implementation.map T.function) source (T.value parent)) := by
  cases parent with
  | absent => exact mirrors_createFunction label implementation source none
  | _ => exact mirrors_newFunction_below label implementation source _

/-! ## Changing -/

theorem mirrors_defineBy (r : Ref) (name : PropertyName) (d : Descriptor Value) :
    Mirrors T room alike id (defineBy r name d : Act σ Unit)
      (defineBy (T.objects.move r) (T.name name) (T.descriptor d)) := by
  unfold defineBy
  refine Mirrors.bind (e := id) (mirrors_onHeap fun _ _ hm => hm.define r name d) fun fault => ?_
  rw [id, Displacement.value_name]
  have hcheck : Mirrors T room alike id (checkQuotable name.value : Act σ Unit)
      (checkQuotable (T.value name.value)) := mirrors_checkQuotable name.value
  have hreport : ∀ fault : DefineFault, Mirrors T room alike id
      (do throw (fault.fault (← view name.value)) : Act σ Unit)
      (do throw (fault.fault (← view (T.value name.value)))) :=
    fun _ => (mirrors_view name.value).bind fun _ => mirrors_throw _
  cases fault with
  | none => exact hcheck.bind fun _ => mirrors_pure _
  | some fault =>
    cases fault with
    | refused r => exact hcheck.bind fun _ => hreport (.refused r)
    | shape f => exact (mirrors_pure ()).bind fun _ => hreport (.shape f)

theorem mirrors_logDefinition (r : Ref) (name : PropertyName) :
    Mirrors T room alike id (logDefinition r name : Act σ Unit)
      (logDefinition (T.objects.move r) (T.name name)) :=
  mirrors_onHeap fun _ _ hm => ⟨rfl, hm.logDefinition r name⟩

theorem mirrors_define (target key given : Value) :
    Mirrors T room alike id (define target key given : Act σ Unit)
      (define (T.value target) (T.value key) (T.value given)) := by
  unfold define
  refine (mirrors_objectOf _ _).bind fun p => (mirrors_nameOf key).bind fun name => ?_
  have hother : Mirrors T room alike id (do
      let typeName := (← view given).typeName
      if (p.2.own? name).any (!·.configurable) then throw (.noAttribute typeName "model_fields_set")
      logDefinition p.1 name
      throw (.noAttribute typeName "merged_onto") : Act σ Unit) (do
      let typeName := (← view (T.value given)).typeName
      if ((T.object p.2).own? (T.name name)).any (!·.configurable) then
        throw (.noAttribute typeName "model_fields_set")
      logDefinition (T.objects.move p.1) (T.name name)
      throw (.noAttribute typeName "merged_onto")) := by
    refine (mirrors_view given).bind fun u => ?_
    have hfixed : ((T.object p.2).own? (T.name name)).any (!·.configurable) =
        (p.2.own? name).any (!·.configurable) := by
      rw [Displacement.own?_object]
      cases p.2.own? name <;> rfl
    rw [hfixed, id]
    cases (p.2.own? name).any (!·.configurable) with
    | true => exact mirrors_throw _
    | false => exact (mirrors_logDefinition p.1 name).bind fun _ => mirrors_throw _
  cases given with
  | descriptor q =>
    exact (mirrors_descriptorOf (.descriptor q) _).bind fun _ => mirrors_defineBy _ _ _
  | _ => exact hother

theorem mirrors_assign (target : Value) (part : String) (v : Value) :
    Mirrors T room alike id (assign target part v : Act σ Unit)
      (assign (T.value target) part (T.value v)) := by
  unfold assign
  refine (mirrors_descriptorOf target part).bind fun ⟨r, d⟩ => ?_
  dsimp only [Prod.map]
  rw [Displacement.assign_descriptor]
  refine Mirrors.bind (e := id) (mirrors_onHeap fun _ _ hm => ?_) fun _ => ?_
  · exact ⟨rfl, hm.setDescriptor r _⟩
  cases (d.assign part v).2 with
  | none => exact mirrors_pure _
  | some f => exact mirrors_throw _

end Act

/-! ## Calling -/

open Act in
/-- The host does in the displaced world what it does at home. -/
structure Host.Mirrored (host : Host σ) (T : Displacement) (room : Heap)
    (alike : σ → σ → Prop) : Prop where
  call : ∀ f arguments, Mirrors T room alike T.value (host.call f arguments)
    (host.call (T.function f) (arguments.map T.value))
  fetch : ∀ v name, Mirrors T room alike (Option.map T.value) (host.fetch v name)
    (host.fetch (T.value v) name)

namespace Act

section Calls

variable {T : Displacement} {room : Heap} {alike : σ → σ → Prop} {host : Host σ}
  (hhost : host.Mirrored T room alike)

include hhost

theorem mirrors_call (callee : Value) (arguments : List Value) :
    Mirrors T room alike T.value (call host callee arguments)
      (call host (T.value callee) (arguments.map T.value)) := by
  unfold call
  cases callee with
  | function f => exact hhost.call f arguments
  | object r =>
    refine mirrors_heap_bind fun h h' hm => ?_
    rw [hm.callable?]
    cases h.callable? r with
    | none => exact mirrors_throw _
    | some c =>
      obtain ⟨label, implementation, source, prototype⟩ := c
      cases implementation with
      | none => exact mirrors_pure Value.absent
      | some f => exact hhost.call f arguments
  | _ => exact (mirrors_view _).bind fun _ => mirrors_throw _

theorem mirrors_getProperty (target key receiver : Value) :
    Mirrors T room alike T.value (getProperty host target key receiver)
      (getProperty host (T.value target) (T.value key) (T.value receiver)) := by
  unfold getProperty
  refine (mirrors_objectOf _ _).bind fun p => (mirrors_nameOf key).bind fun name => ?_
  refine mirrors_heap_bind fun h h' hm => ?_
  rw [hm.lookup?]
  cases h.lookup? p.1 name with
  | none =>
    refine mirrors_heap_bind fun h h' hm => ?_
    rw [hm.strayParent?]
    cases h.strayParent? p.1 with
    | none => exact mirrors_pure Value.absent
    | some stray => exact mirrors_noAttribute stray _
  | some d =>
    simp only [Option.map_some, Displacement.descriptor, Descriptor.map]
    cases d.kind with
    | data =>
      simp only [Displacement.ofOption_value]
      exact mirrors_pure _
    | accessor =>
      cases d.getter with
      | none => exact mirrors_pure Value.absent
      | some getter =>
        have hreceiver : ((T.value receiver).present?).getD (T.value target) =
            T.value (receiver.present?.getD target) := by
          rw [Displacement.present?_value]
          cases receiver.present? <;> rfl
        simp only [Option.map_some, hreceiver]
        exact mirrors_call hhost getter [receiver.present?.getD target]

theorem mirrors_fetch (v : Value) (name : String) :
    Mirrors T room alike (Option.map T.value) (fetch host v name)
      (fetch host (T.value v) name) := by
  unfold fetch
  cases v with
  | descriptor r =>
    refine mirrors_heap_bind fun h h' hm => ?_
    rw [hm.descriptor?, Option.bind_map]
    cases hd : h.descriptor? r with
    | none => exact hhost.fetch (.descriptor r) name
    | some d =>
      rw [Option.bind_some, Option.bind_some, Function.comp_apply, Displacement.part?_descriptor]
      cases d.part? name with
      | none => exact hhost.fetch (.descriptor r) name
      | some part => exact mirrors_pure (some part)
  | source text copy =>
    dsimp only [Displacement.value]
    split
    · exact mirrors_pure (some (Value.text text .shared))
    · exact hhost.fetch (.source text copy) name
  | _ => exact hhost.fetch _ name

theorem mirrors_hasAttribute (v : Value) (name : String) :
    Mirrors T room alike id (hasAttribute host v name) (hasAttribute host (T.value v) name) := by
  unfold hasAttribute
  rw [map_eq_pure_bind, map_eq_pure_bind]
  refine (mirrors_fetch hhost v name).bind fun found => ?_
  rw [Option.isSome_map]
  exact mirrors_pure _

theorem mirrors_getAttribute (v : Value) (name : String) :
    Mirrors T room alike T.value (getAttribute host v name)
      (getAttribute host (T.value v) name) := by
  unfold getAttribute
  refine (mirrors_fetch hhost v name).bind fun found => ?_
  cases found with
  | some found => exact mirrors_pure found
  | none => exact mirrors_noAttribute v name

end Calls

end Act

end Undecorate
