import Undecorate.Proofs.Act
import Undecorate.Proofs.Object.Define

/-! # The actions of the object model

What each action does to the heap, whether it returns or fails.

* `Reads`: an action that changes nothing; looking things up is of this kind;
* `runIn_defineBy`, `runIn_define`: how a definition ends, and what it leaves behind;
* `returns_define`: a definition returns iff the object takes it and its name can be quoted.
-/

namespace Undecorate

/-! ## The heap -/

namespace Heap

variable {h : Heap} {r s : Ref} {o : Object} {name : PropertyName} {d : Descriptor Value}

theorem object?_define : (h.define r name d).1.object? s =
    if s = r then (h.object? r).map (fun o => (o.define name d).1) else h.object? s := by
  unfold define
  cases ho : h.object? r with
  | none =>
    by_cases hs : s = r
    · rw [if_pos hs, hs]
      exact ho
    · rw [if_neg hs]
  | some o =>
    dsimp only [object?] at ho ⊢
    rw [Array.getElem?_setIfInBounds]
    by_cases hs : s = r
    · have hlt : r < h.objects.size := (Array.getElem?_eq_some_iff.1 ho).1
      simp [hs, hlt]
    · rw [if_neg (Ne.symm hs), if_neg hs]

theorem define_snd (ho : h.object? r = some o) :
    (h.define r name d).2 = (o.define name d).2 := by
  unfold define
  rw [ho]

/-- A refused definition changes nothing. -/
theorem define_eq_refused {reason : Refusal} (ho : h.object? r = some o)
    (hr : o.refusal? name d = some reason) :
    h.define r name d = (h, some (.refused reason)) := by
  have hobjects : h.objects.setIfInBounds r o = h.objects := by
    refine Array.ext_getElem? fun i => ?_
    rw [Array.getElem?_setIfInBounds]
    split
    · rename_i hri
      rw [← hri, if_pos (Array.getElem?_eq_some_iff.1 ho).1]
      exact ho.symm
    · rfl
  unfold define
  rw [ho]
  dsimp only
  rw [Object.define_eq_refused hr, hobjects]

@[simp] theorem descriptors_define : (h.define r name d).1.descriptors = h.descriptors := by
  unfold define
  split <;> rfl

@[simp] theorem size_define : (h.define r name d).1.objects.size = h.objects.size := by
  unfold define
  split
  · exact Array.size_setIfInBounds
  · rfl

theorem object?_newObject :
    (h.newObject o).2.object? s = if s = h.objects.size then some o else h.object? s := by
  dsimp only [newObject, object?]
  exact Array.getElem?_push

/-- A new function comes with a prototype right behind it, which has taken one definition. -/
theorem newFunction_objects (h : Heap) (name : Text) (implementation : Option Function)
    (source : Option Member) (parent : Option Ref) :
    ∃ f p : Object,
      (h.newFunction name implementation source parent).2.objects =
        (h.objects.push f).push
          (p.define (.text "constructor") (constructorLink h.objects.size)).1 ∧
      f.properties = [] ∧ f.log = [] ∧
      f.callable = some ⟨name, implementation, source, h.objects.size + 1⟩ ∧
      p.properties = [] ∧ p.log = [] :=
  ⟨_, _, rfl, rfl, rfl, rfl, rfl, rfl⟩

/-- A new function changes no object that was there. -/
theorem object?_newFunction_of_lt {name : Text} {implementation : Option Function}
    {source : Option Member} {parent : Option Ref} (hs : s < h.objects.size) :
    (h.newFunction name implementation source parent).2.object? s = h.object? s := by
  obtain ⟨f, p, hobjects, -⟩ := h.newFunction_objects name implementation source parent
  rw [object?, hobjects, Array.getElem?_push, Array.getElem?_push, Array.size_push,
    if_neg (Nat.ne_of_lt (Nat.lt_succ_of_lt hs)), if_neg (Nat.ne_of_lt hs), object?]

theorem newFunction_created (h : Heap) (name : Text) (implementation : Option Function)
    (source : Option Member) (parent : Option Ref) :
    ∃ f p : Object,
      (h.newFunction name implementation source parent).2.object? h.objects.size = some f ∧
      (h.newFunction name implementation source parent).2.object? (h.objects.size + 1) =
        some (p.define (.text "constructor") (constructorLink h.objects.size)).1 ∧
      f.properties = [] ∧ f.log = [] ∧
      f.callable = some ⟨name, implementation, source, h.objects.size + 1⟩ ∧
      p.properties = [] ∧ p.log = [] := by
  obtain ⟨f, p, hobjects, hfields⟩ := h.newFunction_objects name implementation source parent
  refine ⟨f, p, ?_, ?_, hfields⟩
  · rw [object?, hobjects, Array.getElem?_push, Array.getElem?_push, Array.size_push,
      if_neg (Nat.ne_of_lt (Nat.lt_succ_self _)), if_pos rfl]
  · rw [object?, hobjects, Array.getElem?_push, Array.size_push, if_pos rfl]

/-- A new function is told by what it was made from. -/
theorem callable?_newFunction (h : Heap) (name : Text) (implementation : Option Function)
    (source : Option Member) (parent : Option Ref) :
    (h.newFunction name implementation source parent).2.callable? h.objects.size =
      some ⟨name, implementation, source, h.objects.size + 1⟩ := by
  obtain ⟨f, p, hf, -, -, -, hcallable, -⟩ :=
    h.newFunction_created name implementation source parent
  rw [callable?, hf]
  exact hcallable

theorem size_newFunction (h : Heap) (name : Text) (implementation : Option Function)
    (source : Option Member) (parent : Option Ref) :
    (h.newFunction name implementation source parent).2.objects.size = h.objects.size + 2 := by
  obtain ⟨f, p, hobjects, -⟩ := h.newFunction_objects name implementation source parent
  rw [hobjects, Array.size_push, Array.size_push]

end Heap

namespace Act

variable {σ α β : Type} {x : Act σ α} {f : α → Act σ β} {w w' : World σ}

/-! ## Actions that change nothing -/

/-- The action leaves the world as it is, whether it returns or fails. -/
def Reads (x : Act σ α) : Prop := ∀ w, (x.runIn w).2 = w

theorem reads_pure (a : α) : (pure a : Act σ α).Reads := fun _ => rfl

theorem reads_throw (e : Fault) : (throw e : Act σ α).Reads := fun _ => rfl

theorem reads_heap : (heap : Act σ Heap).Reads := fun _ => rfl

theorem reads_view (v : Value) : (view v : Act σ View).Reads := fun _ => rfl

theorem Reads.of_returns (hx : x.Reads) {a : α} (h : x.Returns w a w') : w' = w := by
  have := hx w
  rw [h] at this
  exact this

/-- After reading, an action goes on from where it was. What holds of the world that is left holds
if it holds now and of what the rest leaves. -/
theorem Reads.after {P : World σ → Prop} (hx : x.Reads) (hw : P w)
    (hf : ∀ a, x.Returns w a w → P ((f a).runIn w).2) : P ((x >>= f).runIn w).2 := by
  rcases returns_or_fails x w with ⟨a, w₁, ha⟩ | ⟨e, w₁, he⟩
  · obtain rfl := hx.of_returns ha
    rw [ha.runIn_bind]
    exact hf a ha
  · rw [he.bind f]
    have := hx w
    rw [he] at this
    rw [this]
    exact hw

/-- What an action that only reads gives back decides how it goes on. -/
theorem Reads.after_bind_of {found : Option α} (hx : x.Reads)
    (hfound : ∀ a, x.Returns w a w ↔ found = some a) (f : α → Act σ β) :
    ((x >>= f).runIn w).2 = found.elim w fun a => ((f a).runIn w).2 := by
  rcases returns_or_fails x w with ⟨a, w₁, ha⟩ | ⟨e, w₁, he⟩
  · obtain rfl := hx.of_returns ha
    rw [(hfound a).1 ha, ha.runIn_bind]
    rfl
  · cases hnone : found with
    | none =>
      have hw := hx w
      rw [he] at hw
      rw [he.bind]
      exact hw
    | some a => exact absurd ((hfound a).2 hnone) he.not_returns

theorem runIn_view_bind (v : Value) (f : View → Act σ α) :
    (view v >>= f).runIn w = (f (w.heap.view v)).runIn w := rfl

theorem Reads.bind (hx : x.Reads) (hf : ∀ a, (f a).Reads) : (x >>= f).Reads := by
  intro w
  exact hx.after (P := fun w' => w' = w) rfl fun a _ => hf a w

theorem reads_checkQuotable (v : Value) : (checkQuotable v : Act σ Unit).Reads := by
  intro w
  rw [runIn_checkQuotable]
  split <;> rfl

theorem reads_nameOf (v : Value) : (nameOf v : Act σ PropertyName).Reads := by
  unfold nameOf
  split
  · exact reads_pure _
  · exact reads_throw _
  · exact (reads_view v).bind fun _ => reads_throw _

theorem reads_refuseMapping (f : MappingFault) : (refuseMapping f : Act σ α).Reads := by
  unfold refuseMapping
  cases f with
  | notCallable v =>
    exact (reads_checkQuotable v).bind fun _ => reads_heap.bind fun _ => reads_throw _
  | _ => exact reads_heap.bind fun _ => reads_throw _

theorem not_returns_refuseMapping {f : MappingFault} {a : α} :
    ¬(refuseMapping f : Act σ α).Returns w a w' := by
  unfold refuseMapping
  cases f <;> simp

theorem reads_readMapping (given : List (String × Value)) :
    (readMapping given : Act σ (Descriptor Value)).Reads := by
  refine reads_heap.bind fun h => ?_
  cases Descriptor.ofMapping h.isCallable given with
  | ok d => exact reads_pure d
  | error f => exact reads_refuseMapping f

@[simp] theorem returns_readMapping {given : List (String × Value)} {d : Descriptor Value} :
    (readMapping given : Act σ (Descriptor Value)).Returns w d w' ↔
      Descriptor.ofMapping w.heap.isCallable given = .ok d ∧ w' = w := by
  have hheap : (heap : Act σ Heap).Returns w w.heap w := rfl
  unfold readMapping
  rw [Returns, hheap.runIn_bind]
  cases Descriptor.ofMapping w.heap.isCallable given with
  | ok e =>
    refine returns_pure.trans ?_
    rw [Except.ok.injEq, eq_comm]
  | error f =>
    have hfails : ¬(refuseMapping f).runIn w = (.ok d, w') := not_returns_refuseMapping
    simpa using hfails

theorem reads_checkEnding (f : MappingFault) : (checkEnding f : Act σ Unit).Reads := by
  unfold checkEnding
  cases f with
  | notCallable v =>
    refine (reads_view v).bind fun u => ?_
    split
    · exact reads_throw _
    · exact reads_pure ()
  | _ => exact reads_pure ()

theorem reads_objectOf (v : Value) (part : String) :
    (objectOf v part : Act σ (Ref × Object)).Reads := by
  have hfail : ((do throw (.noAttribute (← view v).typeName part)) : Act σ (Ref × Object)).Reads :=
    (reads_view v).bind fun _ => reads_throw _
  unfold objectOf
  cases v with
  | object r =>
    refine reads_heap.bind fun h => ?_
    cases h.object? r with
    | some o => exact reads_pure _
    | none => exact hfail
  | _ => exact hfail

theorem reads_descriptorOf (v : Value) (part : String) :
    (descriptorOf v part : Act σ (Ref × Descriptor Value)).Reads := by
  have hfail : ((do throw (.noAttribute (← view v).typeName part)) :
      Act σ (Ref × Descriptor Value)).Reads :=
    (reads_view v).bind fun _ => reads_throw _
  unfold descriptorOf
  cases v with
  | descriptor r =>
    refine reads_heap.bind fun h => ?_
    cases h.descriptor? r with
    | some d => exact reads_pure _
    | none => exact hfail
  | _ => exact hfail

/-- What an action gives back does not matter for the world that it leaves. -/
theorem after_seq_pure (x : Act σ α) (b : β) (w : World σ) :
    ((x >>= fun _ => pure b).runIn w).2 = (x.runIn w).2 := by
  rw [runIn_bind]
  rcases x.runIn w with ⟨_ | _, _⟩ <;> rfl

/-! ## Looking up -/

variable {v target key given : Value} {part : String} {r q : Ref} {o : Object}
  {d : Descriptor Value} {name : PropertyName}

theorem returns_nameOf :
    (nameOf v : Act σ PropertyName).Returns w name w' ↔ v.propertyName = .ok name ∧ w' = w := by
  unfold nameOf
  cases v.propertyName with
  | ok n => simp [eq_comm]
  | error e => cases e <;> simp

theorem returns_objectOf {p : Ref × Object} :
    (objectOf v part : Act σ (Ref × Object)).Returns w p w' ↔
      v = .object p.1 ∧ w.heap.object? p.1 = some p.2 ∧ w' = w := by
  unfold objectOf
  cases v with
  | object r =>
    simp only [returns_bind, returns_heap]
    constructor
    · rintro ⟨_, _, ⟨rfl, rfl⟩, h⟩
      split at h
      · rename_i o ho
        rw [returns_pure] at h
        obtain ⟨rfl, rfl⟩ := h
        exact ⟨rfl, ho, rfl⟩
      · simp at h
    · rintro ⟨hr, ho, rfl⟩
      obtain rfl := Value.object.inj hr
      refine ⟨_, _, ⟨rfl, rfl⟩, ?_⟩
      rw [ho]
      rfl
  | _ => simp

theorem returns_descriptorOf {p : Ref × Descriptor Value} :
    (descriptorOf v part : Act σ (Ref × Descriptor Value)).Returns w p w' ↔
      v = .descriptor p.1 ∧ w.heap.descriptor? p.1 = some p.2 ∧ w' = w := by
  unfold descriptorOf
  cases v with
  | descriptor r =>
    simp only [returns_bind, returns_heap]
    constructor
    · rintro ⟨_, _, ⟨rfl, rfl⟩, h⟩
      split at h
      · rename_i d hd
        rw [returns_pure] at h
        obtain ⟨rfl, rfl⟩ := h
        exact ⟨rfl, hd, rfl⟩
      · simp at h
    · rintro ⟨hr, hd, rfl⟩
      obtain rfl := Value.descriptor.inj hr
      refine ⟨_, _, ⟨rfl, rfl⟩, ?_⟩
      rw [hd]
      rfl
  | _ => simp

/-! ## Defining -/

/-- How a definition ends by the fault that the object answers with, when quoting the name may fail
too. A shape fault does not name the property. -/
def defineResult (name : View) (quoting : Option Fault) : Option DefineFault → Except Fault Unit
  | some (.shape f) => .error (.invalid [f.issue])
  | some (.refused reason) =>
    .error (quoting.getD (.refused (.defineProperty name.note reason.message)))
  | none => match quoting with
    | some f => .error f
    | none => .ok ()

theorem defineResult_eq_ok {shown : View} {quoting : Option Fault} {fault : Option DefineFault}
    {u : Unit} : defineResult shown quoting fault = .ok u ↔ fault = none ∧ quoting = none := by
  rcases fault with _ | reason | f
  · cases quoting <;> simp [defineResult]
  · simp [defineResult]
  · simp [defineResult]

theorem runIn_defineBy (r : Ref) (name : PropertyName) (d : Descriptor Value) (w : World σ) :
    (defineBy r name d : Act σ Unit).runIn w =
      let h := (w.heap.define r name d).1
      (defineResult (h.view name.value) (h.quotingFault? name.value) (w.heap.define r name d).2,
        { w with heap := h }) := by
  have hdefine : (onHeap fun h => (h.define r name d).swap : Act σ (Option DefineFault)).Returns w
      (w.heap.define r name d).2 { w with heap := (w.heap.define r name d).1 } := rfl
  unfold defineBy
  rw [hdefine.runIn_bind]
  -- the name is looked at in the world that the definition has left
  generalize (w.heap.define r name d).2 = fault
  generalize (w.heap.define r name d).1 = h
  rcases fault with _ | reason | f
  · change (do checkQuotable name.value; pure () : Act σ Unit).runIn _ = _
    rw [runIn_bind, runIn_checkQuotable]
    dsimp only
    cases hq : (h.view name.value).obstacle? true <;> simp [defineResult, Heap.quotingFault?, hq]
    rfl
  · change (do
      checkQuotable name.value
      throw (DefineFault.fault (← view name.value) (.refused reason)) : Act σ Unit).runIn _ = _
    rw [runIn_bind, runIn_checkQuotable]
    dsimp only
    cases hq : (h.view name.value).obstacle? true <;> simp [defineResult, Heap.quotingFault?, hq]
    rfl
  · rfl

/-- A definition by a descriptor looks up the object, the name and the descriptor, in this order. -/
theorem runIn_define (ho : w.heap.object? r = some o) (hd : w.heap.descriptor? q = some d) :
    (define (.object r) key (.descriptor q) : Act σ Unit).runIn w =
      match key.propertyName with
      | .ok name => (defineBy r name d).runIn w
      | .error .digits => (.error .tooLong, w)
      | .error .container => (.error (.unhashable (w.heap.view key).typeName), w) := by
  have hobject : (objectOf (.object r) "define_property" : Act σ _).Returns w (r, o) w :=
    returns_objectOf.2 ⟨rfl, ho, rfl⟩
  have hdescriptor : (descriptorOf (.descriptor q) "merged_onto" : Act σ _).Returns w (q, d) w :=
    returns_descriptorOf.2 ⟨rfl, hd, rfl⟩
  unfold define
  rw [hobject.runIn_bind, runIn_bind]
  unfold nameOf
  cases key.propertyName with
  | ok name =>
    change (descriptorOf (.descriptor q) "merged_onto" >>= fun p =>
      defineBy r name p.2 : Act σ Unit).runIn w = _
    rw [hdescriptor.runIn_bind]
  | error e => cases e <;> rfl

/-- A definition returns iff the object takes it and its name can be quoted afterwards. -/
theorem returns_define {u : Unit} :
    (define target key given : Act σ Unit).Returns w u w' ↔
      ∃ r o name q d, target = .object r ∧ w.heap.object? r = some o ∧
        key.propertyName = .ok name ∧ given = .descriptor q ∧ w.heap.descriptor? q = some d ∧
        (o.define name d).2 = none ∧ w' = { w with heap := (w.heap.define r name d).1 } ∧
        w'.heap.Quotable name.value := by
  constructor
  · intro h
    unfold define at h
    obtain ⟨⟨r, o⟩, w₁, hobject, h₁⟩ := returns_bind.1 h
    obtain ⟨htarget, ho, rfl⟩ := returns_objectOf.1 hobject
    obtain ⟨name, w₂, hnameOf, h₂⟩ := returns_bind.1 h₁
    obtain ⟨hname, rfl⟩ := returns_nameOf.1 hnameOf
    cases given with
    | descriptor q =>
      obtain ⟨⟨_, d⟩, w₃, hdescriptor, h₃⟩ := returns_bind.1 h₂
      obtain ⟨hq, hd, rfl⟩ := returns_descriptorOf.1 hdescriptor
      rw [Returns, runIn_defineBy, Heap.define_snd ho, Prod.mk.injEq, defineResult_eq_ok,
        Heap.quotingFault?_eq_none] at h₃
      obtain ⟨⟨hnone, hquote⟩, hw⟩ := h₃
      refine ⟨r, o, name, q, d, htarget, ho, hname, rfl, ?_, hnone, hw.symm, ?_⟩
      · rw [Value.descriptor.inj hq]
        exact hd
      · rw [← hw]
        exact hquote
    | _ =>
      -- what is no descriptor fails as soon as its fields are asked for
      simp only [returns_bind, returns_view] at h₂
      obtain ⟨_, _, -, h₃⟩ := h₂
      split at h₃ <;> simp at h₃
  · rintro ⟨r, o, name, q, d, rfl, ho, hname, rfl, hd, hnone, rfl, hquote⟩
    rw [Returns, runIn_define ho hd, hname]
    dsimp only
    rw [runIn_defineBy, Heap.define_snd ho, hnone, Prod.mk.injEq, defineResult_eq_ok,
      Heap.quotingFault?_eq_none]
    exact ⟨⟨rfl, hquote⟩, rfl⟩

/-! ## Creating functions -/

theorem returns_newFunction {label : Text} {implementation : Option Function}
    {source : Option Member} {parent : Value} :
    (newFunction label implementation source parent : Act σ Value).Returns w v w' →
      v = .object w.heap.objects.size ∧ ∃ p,
        w' = { w with heap := (w.heap.newFunction label implementation source p).2 } := by
  intro h
  unfold newFunction at h
  cases parent with
  | absent =>
    simp only [returns_bind, returns_onHeap, returns_pure] at h
    obtain ⟨_, _, ⟨rfl, rfl⟩, rfl, rfl⟩ := h
    exact ⟨rfl, none, rfl⟩
  | _ =>
    simp only [returns_bind, returns_objectOf] at h
    obtain ⟨⟨p, o⟩, _, ⟨-, -, rfl⟩, h⟩ := h
    dsimp only at h
    split at h
    · simp at h
    · simp only [returns_bind, returns_onHeap, returns_pure] at h
      obtain ⟨_, _, ⟨rfl, rfl⟩, rfl, rfl⟩ := h
      exact ⟨rfl, some p, rfl⟩

/-! ## Assigning -/

/-- What an assignment leaves behind: nothing has changed, or the descriptor has its new value by
now, whether or not that is reported as a failure. -/
theorem after_assign (target : Value) (part : String) (v : Value) (w : World σ) :
    ((assign target part v).runIn w).2 = w ∨
      ∃ q d, w.heap.descriptor? q = some d ∧
        ((assign target part v).runIn w).2 =
          { w with heap := w.heap.setDescriptor q (d.assign part v).1 } := by
  unfold assign
  rcases returns_or_fails (descriptorOf target part) w with ⟨⟨q, d⟩, w₁, hdescriptor⟩ | ⟨e, w₁, hf⟩
  · obtain ⟨-, hd, rfl⟩ := returns_descriptorOf.1 hdescriptor
    have hset : (onHeap fun h => ((), h.setDescriptor q (d.assign part v).1) : Act σ Unit).Returns
        w₁ () { w₁ with heap := w₁.heap.setDescriptor q (d.assign part v).1 } := rfl
    refine .inr ⟨q, d, hd, ?_⟩
    rw [hdescriptor.runIn_bind]
    dsimp only
    rw [hset.runIn_bind]
    cases (d.assign part v).2 <;> rfl
  · refine .inl ?_
    have hreads := reads_descriptorOf target part w
    rw [hf] at hreads
    rw [hf.bind]
    exact hreads

theorem returns_assign {u : Unit} (hd : w.heap.descriptor? q = some d) :
    (assign (.descriptor q) part v).Returns w u w' ↔
      (d.assign part v).2 = none ∧
        w' = { w with heap := w.heap.setDescriptor q (d.assign part v).1 } := by
  have hdescriptor : (descriptorOf (.descriptor q) part : Act σ _).Returns w (q, d) w :=
    returns_descriptorOf.2 ⟨rfl, hd, rfl⟩
  have hset : (onHeap fun h => ((), h.setDescriptor q (d.assign part v).1) : Act σ Unit).Returns w
      () { w with heap := w.heap.setDescriptor q (d.assign part v).1 } := rfl
  unfold assign
  rw [Returns, hdescriptor.runIn_bind]
  dsimp only
  rw [hset.runIn_bind]
  cases (d.assign part v).2 with
  | none => exact (returns_pure (a := ())).trans (by simp)
  | some f => exact iff_of_false (not_returns_throw _) (by simp)

/-- Taking a copy of an own property creates a descriptor, if there is such a property. -/
theorem returns_ownDescriptor :
    (ownDescriptor target key : Act σ Value).Returns w v w' ↔
      ∃ r o name, target = .object r ∧ w.heap.object? r = some o ∧ key.propertyName = .ok name ∧
        (match o.own? name with
          | some d => newDescriptor d
          | none => pure .absent : Act σ Value).Returns w v w' := by
  unfold ownDescriptor
  constructor
  · intro h
    obtain ⟨⟨r, o⟩, w₁, hobject, h₁⟩ := returns_bind.1 h
    obtain ⟨htarget, ho, rfl⟩ := returns_objectOf.1 hobject
    obtain ⟨name, w₂, hnameOf, h₂⟩ := returns_bind.1 h₁
    obtain ⟨hname, rfl⟩ := returns_nameOf.1 hnameOf
    exact ⟨r, o, name, htarget, ho, hname, h₂⟩
  · rintro ⟨r, o, name, htarget, ho, hname, h⟩
    exact returns_bind.2 ⟨(r, o), w, returns_objectOf.2 ⟨htarget, ho, rfl⟩,
      returns_bind.2 ⟨name, w, returns_nameOf.2 ⟨hname, rfl⟩, h⟩⟩

end Act

end Undecorate
