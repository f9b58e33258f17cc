import Undecorate.Proofs.Object.Moved
import Undecorate.Proofs.Object.Stored

/-! # Definitions that say nothing new

A definition restates a property if all that it says about the property is so already. Such a
definition is never refused, whatever the property has become, and every field stays as it is.

* `Descriptor.restates_of_mergedOnto`: a definition restates what it has left behind;
* `Descriptor.restates_mapping`: a property that is read back as a mapping is restated by it;
* `Heap.SameProperties.view_name`: how a name looks depends on no field of a property;
* `redefinitions_change_nothing`: what follows for every property that a history can lead to.
-/

namespace Undecorate

namespace Descriptor

variable {d e merged : Descriptor Value} {existing : Option (Descriptor Value)}

/-- The same property. Which fields were given explicitly is no part of it. -/
structure SameFields (d d' : Descriptor Value) : Prop where
  kind : d'.kind = d.kind
  value : d'.value = d.value
  getter : d'.getter = d.getter
  setter : d'.setter = d.setter
  enumerable : d'.enumerable = d.enumerable
  configurable : d'.configurable = d.configurable
  writable : d'.writable = d.writable

theorem SameFields.refl (d : Descriptor Value) : d.SameFields d :=
  ⟨rfl, rfl, rfl, rfl, rfl, rfl, rfl⟩

/-! ## Restating a property -/

/-- All that a definition says about a property is so already. What is given for `writable` may also
be left open, which stands for false. -/
structure Restates (d e : Descriptor Value) : Prop where
  kind : d.isGeneric = false → d.kind = e.kind
  enumerable : d.explicit.enumerable = true → d.enumerable = e.enumerable
  configurable : d.explicit.configurable = true → d.configurable = e.configurable
  value : e.kind = .data → d.explicit.value = true → d.value = e.value
  writable : e.kind = .data → d.explicit.writable = true →
    some (d.writable.getD false) = e.writable
  getter : e.kind = .accessor → d.explicit.getter = true → d.getter = e.getter
  setter : e.kind = .accessor → d.explicit.setter = true → d.setter = e.setter

/-- A property that is not configurable has nothing against what is so already. -/
theorem Restates.tolerates (h : d.Restates e) (hc : e.configurable = false) : e.Tolerates d where
  configurable := fun hgiven => (h.configurable hgiven).trans hc
  enumerable := h.enumerable
  kind := h.kind
  writable := by
    intro hk hw hgiven htrue
    have hsame := h.writable hk hgiven
    rw [htrue] at hsame
    exact hw hsame.symm
  value := fun hk _ => h.value hk
  getter := h.getter
  setter := h.setter

/-- A definition that restates a property leaves all of its fields as they are. -/
theorem Restates.mergedOnto (h : d.Restates e) (he : e.Complete) :
    ∃ merged, d.mergedOnto (some e) = .ok merged ∧ e.SameFields merged := by
  have hshape : d.mergedShape (some e) = e.kind := by
    unfold mergedShape
    cases hg : d.isGeneric with
    | true => rfl
    | false => exact h.kind hg
  have henumerable : d.mergedEnumerable (some e) = e.enumerable := by
    unfold mergedEnumerable
    split
    · exact h.enumerable ‹_›
    · rfl
  have hconfigurable : d.mergedConfigurable (some e) = e.configurable := by
    unfold mergedConfigurable
    split
    · exact h.configurable ‹_›
    · rfl
  cases he with
  | data hk hw hg hs =>
    rw [hk] at hshape
    have hkept : (some e).filter (fun x => x.kind = .data) = some e := by simp [hk]
    refine ⟨_, mergedOnto_data hshape, ?_⟩
    rw [hkept]
    refine ⟨hk.symm, mergedField_eq (h.value hk), hg.symm, hs.symm, henumerable, hconfigurable, ?_⟩
    -- what was not given is the property's own, and that is true or false
    have hwritable : some ((mergedField d.explicit.writable d.writable (some e)
        (·.writable)).getD false) = e.writable := by
      cases hgiven : d.explicit.writable with
      | true => exact h.writable hk hgiven
      | false => rcases hw with hw | hw <;> simp [mergedField, hw]
    exact hwritable
  | accessor hk hf hv hw =>
    rw [hk] at hshape
    have hkept : (some e).filter (fun x => x.kind = .accessor) = some e := by simp [hk]
    have hgetter : mergedField d.explicit.getter d.getter (some e) (·.getter) = e.getter :=
      mergedField_eq (h.getter hk)
    have hsetter : mergedField d.explicit.setter d.setter (some e) (·.setter) = e.setter :=
      mergedField_eq (h.setter hk)
    have hfunctions : ¬ (e.getter.isNone && e.setter.isNone) = true := by
      rw [Bool.and_eq_true, Option.isNone_iff_eq_none, Option.isNone_iff_eq_none]
      exact Decidable.not_and_iff_not_or_not.2 hf
    have hmerged := mergedOnto_accessor hshape
    rw [hkept] at hmerged
    dsimp only at hmerged
    rw [hgetter, hsetter, if_neg hfunctions] at hmerged
    exact ⟨_, hmerged, hk.symm, hv.symm, rfl, rfl, henumerable, hconfigurable, hw.symm⟩

/-- A definition restates what it has left behind: what it gave is there now. -/
theorem restates_of_mergedOnto (h : d.mergedOnto existing = .ok merged) : d.Restates merged := by
  have hkind : d.isGeneric = false → d.kind = d.mergedShape existing := by
    intro hg
    simp [mergedShape, hg]
  have henumerable : d.explicit.enumerable = true → d.enumerable = d.mergedEnumerable existing := by
    intro hgiven
    simp [mergedEnumerable, hgiven]
  have hconfigurable :
      d.explicit.configurable = true → d.configurable = d.mergedConfigurable existing := by
    intro hgiven
    simp [mergedConfigurable, hgiven]
  cases hk : d.mergedShape existing with
  | data =>
    rw [hk] at hkind
    rw [mergedOnto_data hk] at h
    obtain rfl := Except.ok.inj h
    have hother : ∀ {p : Prop}, Shape.data = .accessor → p := fun h => by cases h
    refine ⟨hkind, henumerable, hconfigurable, ?_, ?_, hother, hother⟩
    · intro _ hgiven
      simp [mergedField, hgiven]
    · intro _ hgiven
      simp [mergedField, hgiven]
  | accessor =>
    rw [hk] at hkind
    rw [mergedOnto_accessor hk] at h
    dsimp only at h
    split at h
    · cases h
    · obtain rfl := Except.ok.inj h
      have hother : ∀ {p : Prop}, Shape.accessor = .data → p := fun h => by cases h
      refine ⟨hkind, henumerable, hconfigurable, hother, hother, ?_, ?_⟩
      · intro _ hgiven
        simp [mergedField, hgiven]
      · intro _ hgiven
        simp [mergedField, hgiven]

/-! ## Reading a property back -/

/-- The functions of a property can be called. -/
def Callables (isCallable : Value → Bool) (e : Descriptor Value) : Prop :=
  ∀ f, e.getter = some f ∨ e.setter = some f → isCallable f = true

theorem present?_ofOption {v : Option Value} (hv : v ≠ some .absent) :
    (Value.ofOption v).present? = v := by
  cases v with
  | none => rfl
  | some v =>
    cases v with
    | absent => exact absurd rfl hv
    | _ => rfl

theorem accessorPart_of_callable {isCallable : Value → Bool} {f : Option Value}
    (hproper : f ≠ some .absent) (hcallable : ∀ g, f = some g → isCallable g = true) :
    accessorPart isCallable f = .ok f := by
  unfold accessorPart
  split
  · rfl
  · exact absurd rfl hproper
  · rw [if_pos (hcallable _ rfl)]

/-- A mapping with a function and with the attributes, and nothing else, gives an accessor. -/
theorem ofMapping_accessor {isCallable : Value → Bool} {given : List (String × Value)}
    {getter setter : Option Value} {enumerable configurable : Bool}
    (hgetter : firstOf? given ["get", "getter"] = getter)
    (hsetter : firstOf? given ["set", "setter"] = setter)
    (hvalue : given.lookup "value" = none) (hwritable : given.lookup "writable" = none)
    (henumerable : given.lookup "enumerable" = some (.bool enumerable))
    (hconfigurable : given.lookup "configurable" = some (.bool configurable))
    (hget : accessorPart isCallable getter = .ok getter)
    (hset : accessorPart isCallable setter = .ok setter)
    (hf : getter ≠ none ∨ setter ≠ none) :
    ofMapping isCallable given = .ok {
      kind := .accessor
      getter
      setter
      enumerable
      configurable
      explicit := {
        kind := true, enumerable := true, configurable := true
        getter := getter.isSome, setter := setter.isSome } } := by
  have hsome : (getter.isSome || setter.isSome) = true := by
    rw [Bool.or_eq_true, Option.isSome_iff_ne_none, Option.isSome_iff_ne_none]
    exact hf
  have hnone : (getter.isNone && setter.isNone) = false := by
    rcases hf with h | h <;> cases getter <;> cases setter <;> first | rfl | exact absurd rfl h
  unfold ofMapping attributesOf
  simp only [hgetter, hsetter, hvalue, hwritable, henumerable, hconfigurable, hsome, ↓reduceIte,
    Option.isSome_none, Bool.or_false, Bool.false_eq_true, hget, hset, bind, Except.bind,
    shapeFault?, hnone, Option.map_some, Option.getD_some, Value.isTruthy, Option.isSome_some]

/-- Reading a property back gives a mapping that is accepted and restates the property. -/
theorem restates_mapping {isCallable : Value → Bool} (he : e.Storable)
    (hcallable : e.Callables isCallable) :
    ∃ d, ofMapping isCallable e.toMapping = .ok d ∧ d.Restates e := by
  obtain ⟨hcomplete, hproper⟩ := he
  cases hcomplete with
  | data hk hw hg hs =>
    have hmapping : e.toMapping = [("value", .ofOption e.value),
        ("writable", .bool (e.writable.getD false)), ("enumerable", .bool e.enumerable),
        ("configurable", .bool e.configurable)] := by
      simp [toMapping, parts, hk]
    have hwritable : some (e.writable.getD false) = e.writable := by
      rcases hw with hw | hw <;> simp [hw]
    rw [hmapping]
    refine ⟨_, rfl, ⟨?_, ?_, ?_, ?_, ?_, ?_, ?_⟩⟩
    · exact fun _ => hk.symm
    · exact fun _ => rfl
    · exact fun _ => rfl
    · exact fun _ _ => present?_ofOption hproper.value
    · exact fun _ _ => hwritable
    · exact fun h => absurd (hk.symm.trans h) (by decide)
    · exact fun h => absurd (hk.symm.trans h) (by decide)
  | accessor hk hf hv hw =>
    have hget := accessorPart_of_callable hproper.getter fun g hg => hcallable g (.inl hg)
    have hset := accessorPart_of_callable hproper.setter fun g hg => hcallable g (.inr hg)
    have hmapping : e.toMapping = (e.getter.map fun g => ("get", g)).toList ++
        (e.setter.map fun s => ("set", s)).toList ++
        [("enumerable", .bool e.enumerable), ("configurable", .bool e.configurable)] := by
      unfold toMapping parts
      rw [hk]
      cases e.getter <;> cases e.setter <;> rfl
    have hlookups : firstOf? e.toMapping ["get", "getter"] = e.getter ∧
        firstOf? e.toMapping ["set", "setter"] = e.setter ∧
        e.toMapping.lookup "value" = none ∧ e.toMapping.lookup "writable" = none ∧
        e.toMapping.lookup "enumerable" = some (.bool e.enumerable) ∧
        e.toMapping.lookup "configurable" = some (.bool e.configurable) := by
      rw [hmapping]
      cases e.getter <;> cases e.setter <;> exact ⟨rfl, rfl, rfl, rfl, rfl, rfl⟩
    obtain ⟨hg, hs, hvalue, hwritable, henumerable, hconfigurable⟩ := hlookups
    refine ⟨_, ofMapping_accessor hg hs hvalue hwritable henumerable hconfigurable hget hset hf, ?_⟩
    refine ⟨fun _ => hk.symm, fun _ => rfl, fun _ => rfl, ?_, ?_, fun _ _ => rfl, fun _ _ => rfl⟩
    · exact fun h => absurd (hk.symm.trans h) (by decide)
    · exact fun h => absurd (hk.symm.trans h) (by decide)

end Descriptor

/-! ## The same properties -/

/-- The same object with the same properties in the same order. The log is no part of that. -/
structure Object.SameProperties (o o' : Object) : Prop where
  proto : o'.proto = o.proto
  label : o'.label = o.label
  callable : o'.callable = o.callable
  properties :
    List.Forall₂ (fun p p' => p'.1 = p.1 ∧ p.2.SameFields p'.2) o.properties o'.properties

/-- The same objects with the same properties. -/
def Heap.SameProperties (h h' : Heap) : Prop :=
  ∀ r, Option.Rel Object.SameProperties (h.object? r) (h'.object? r)

namespace Object

variable {o o' : Object} {name : PropertyName} {d e : Descriptor Value}

theorem SameProperties.refl (o : Object) : o.SameProperties o where
  proto := rfl
  label := rfl
  callable := rfl
  properties := List.forall₂_same.2 fun _ _ => ⟨rfl, .refl _⟩

theorem SameProperties.ownNames (h : o.SameProperties o') : o'.ownNames = o.ownNames := by
  have hproperties := h.properties
  unfold Object.ownNames
  generalize o.properties = ps at hproperties ⊢
  generalize o'.properties = ps' at hproperties ⊢
  induction hproperties with
  | nil => rfl
  | cons hp _ ih => rw [List.map_cons, List.map_cons, hp.1, ih]

/-- A property that is stored again with the same fields changes nothing. -/
theorem forall₂_store {ps : List (PropertyName × Descriptor Value)} (he : ps.lookup name = some e)
    (hd : e.SameFields d) :
    List.Forall₂ (fun p p' => p'.1 = p.1 ∧ p.2.SameFields p'.2) ps (store name d ps) := by
  induction ps with
  | nil => cases he
  | cons p ps ih =>
    rcases p with ⟨n, f⟩
    unfold store
    by_cases hn : n = name
    · subst hn
      rw [List.lookup_cons_self, Option.some.injEq] at he
      subst he
      rw [if_pos rfl]
      exact .cons ⟨rfl, hd⟩ (List.forall₂_same.2 fun _ _ => ⟨rfl, .refl _⟩)
    · rw [List.lookup_cons, beq_eq_false_iff_ne.2 (Ne.symm hn)] at he
      rw [if_neg hn]
      exact .cons ⟨rfl, .refl f⟩ (ih he)

theorem sameProperties_holding (he : o.own? name = some e) (hd : e.SameFields d) :
    o.SameProperties (o.holding name d) where
  proto := rfl
  label := rfl
  callable := rfl
  properties := forall₂_store he hd

/-- A definition that restates a property is taken, and every property stays as it is. -/
theorem sameProperties_define (he : o.own? name = some e) (hcomplete : e.Complete)
    (hd : d.Restates e) :
    (o.define name d).2 = none ∧ o.SameProperties (o.define name d).1 := by
  obtain ⟨merged, hmerged, hsame⟩ := hd.mergedOnto hcomplete
  have hrefusal : o.refusal? name d = none := by
    unfold refusal?
    rw [he]
    dsimp only
    cases hc : e.configurable with
    | true => rfl
    | false => exact Descriptor.refusal?_eq_none_iff.2 (hd.tolerates hc)
  rw [← he] at hmerged
  rw [define_eq_holding hrefusal hmerged]
  exact ⟨rfl, sameProperties_holding he hsame⟩

end Object

namespace Heap

variable {h h' : Heap} {r : Ref} {o : Object} {name : PropertyName} {d : Descriptor Value}

theorem SameProperties.refl (h : Heap) : h.SameProperties h := by
  intro r
  cases h.object? r with
  | none => exact .none
  | some o => exact .some (.refl o)

theorem sameProperties_of_objects (hobjects : h'.objects = h.objects) : h.SameProperties h' := by
  intro r
  rw [object?, object?, hobjects]
  exact SameProperties.refl h r

theorem sameProperties_define (ho : h.object? r = some o)
    (hsame : o.SameProperties (o.define name d).1) : h.SameProperties (h.define r name d).1 := by
  intro s
  rw [object?_define]
  by_cases hs : s = r
  · subst hs
    rw [if_pos rfl, ho]
    exact .some hsame
  · rw [if_neg hs]
    exact SameProperties.refl h s

theorem SameProperties.size_le (hsame : h.SameProperties h') :
    h.objects.size ≤ h'.objects.size := by
  by_contra hlt
  have hnone : h'.object? h'.objects.size = none := Array.getElem?_eq_none (Nat.le_refl _)
  have hsome := Array.getElem?_eq_getElem (Nat.lt_of_not_le hlt)
  have hrel := hsame h'.objects.size
  rw [hnone, object?, hsome] at hrel
  cases hrel

/-- How the name of a property looks depends on the labels and the names of the properties alone.
Where only objects follow one another, a way ends when every object has been passed. -/
theorem SameProperties.viewTo_name (hsame : h.SameProperties h') (depth depth' : Nat)
    (path : List Value) (name : PropertyName)
    (hpath : IsPath { h with descriptors := #[] } path)
    (hdepth : h.objects.size < depth + path.length)
    (hdepth' : h.objects.size < depth' + path.length) :
    h'.viewTo depth' path name.value = h.viewTo depth path name.value := by
  induction depth generalizing depth' path name with
  | zero =>
    have := hpath.length_le
    simp at this
    omega
  | succ depth ih =>
    cases depth' with
    | zero =>
      have := hpath.length_le
      simp at this
      omega
    | succ depth' =>
      cases name with
      | object r =>
        have hrel := hsame r
        simp only [PropertyName.value, viewTo, Value.viewBy]
        generalize ho : h.object? r = x at hrel ⊢
        generalize h'.object? r = x' at hrel ⊢
        cases hrel with
        | none => rfl
        | @some o o' hobject =>
          dsimp only
          rw [hobject.callable]
          cases o.callable with
          | some c => rfl
          | none =>
            dsimp only
            cases hin : path.any (Value.object r).same with
            | true => rfl
            | false =>
              have hthere : r < h.objects.size := (Array.getElem?_eq_some_iff.1 ho).1
              have hnext := hpath.cons hin (.inl ⟨r, rfl, hthere⟩)
              rw [if_neg Bool.false_ne_true, if_neg Bool.false_ne_true, hobject.label,
                hobject.ownNames]
              refine congrArg (View.object o.label) (List.map_congr_left fun n _ => ?_)
              refine ih depth' (.object r :: path) n hnext ?_ ?_ <;>
                rw [List.length_cons] <;> omega
      | _ => rfl

theorem SameProperties.view_name (hsame : h.SameProperties h') (name : PropertyName) :
    h'.view name.value = h.view name.value := by
  have hsize := hsame.size_le
  refine hsame.viewTo_name _ _ [] name ⟨List.nodup_nil, nofun⟩ ?_ ?_ <;>
    rw [List.length_nil] <;> omega

theorem SameProperties.quotingFault?_name (hsame : h.SameProperties h') (name : PropertyName) :
    h'.quotingFault? name.value = h.quotingFault? name.value := by
  rw [quotingFault?, hsame.view_name, quotingFault?]

end Heap

/-! ## Definitions again -/

namespace Act

variable {σ : Type} {w : World σ} {r q : Ref} {o : Object} {name : PropertyName} {key : Value}
  {d e : Descriptor Value}

/-- How a definition ends that the object takes: quoting the name for the record can still fail. -/
def recorded (h : Heap) (name : PropertyName) : Except Fault Unit :=
  match h.quotingFault? name.value with
  | none => .ok ()
  | some f => .error f

/-- Defines an own property by what reading it back gives: a copy of it, as a mapping. -/
def redefineAsRead (target key : Value) : Act σ Unit := do
  let copy ← ownDescriptor target key
  let (_, d) ← descriptorOf copy "as_dict"
  define target key (← newDescriptor (← readMapping d.toMapping))

/-- A definition that restates a property changes no property of any object. -/
theorem runIn_define_of_restates (ho : w.heap.object? r = some o)
    (hname : key.propertyName = .ok name) (hq : w.heap.descriptor? q = some d)
    (he : o.own? name = some e) (hcomplete : e.Complete) (hd : d.Restates e) :
    ∃ w', (define (.object r) key (.descriptor q)).runIn w = (recorded w.heap name, w') ∧
      w.heap.SameProperties w'.heap := by
  obtain ⟨hnone, hobject⟩ := Object.sameProperties_define he hcomplete hd
  have hsame := Heap.sameProperties_define ho hobject
  refine ⟨{ w with heap := (w.heap.define r name d).1 }, ?_, hsame⟩
  rw [runIn_define ho hq, hname]
  dsimp only
  rw [runIn_defineBy, Heap.define_snd ho, hnone]
  dsimp only [defineResult, recorded]
  rw [hsame.quotingFault?_name]
  cases w.heap.quotingFault? name.value <;> rfl

/-- What a definition has left behind is restated by it. -/
theorem restates_of_returns {w' : World σ} {given : Value} {u : Unit}
    (h : (define (.object r) key given).Returns w u w') :
    ∃ o' name q d e, w'.heap.object? r = some o' ∧ key.propertyName = .ok name ∧
      given = .descriptor q ∧ w'.heap.descriptor? q = some d ∧ o'.own? name = some e ∧
      e.Complete ∧ d.Restates e ∧ w'.heap.Quotable name.value := by
  obtain ⟨r', o, name, q, d, hr, ho, hname, hgiven, hq, hnone, rfl, hquotable⟩ :=
    returns_define.1 h
  obtain rfl := Value.object.inj hr
  have hdefined := o.defined name d
  generalize hresult : o.define name d = result at hdefined hnone
  cases hdefined with
  | refused reason _ => cases hnone
  | misshapen f _ _ => cases hnone
  | stored merged _ hmerged =>
    refine ⟨o.holding name merged, name, q, d, merged, ?_, hname, hgiven, ?_, ?_,
      Descriptor.complete_of_mergedOnto hmerged, Descriptor.restates_of_mergedOnto hmerged,
      hquotable⟩
    · rw [Heap.object?_define, if_pos rfl, ho, Option.map_some, hresult]
    · rw [Heap.descriptor?, Heap.descriptors_define]
      exact hq
    · rw [Object.own?_holding, if_pos rfl]

/-- Defining a property as it was read changes no property of any object. -/
theorem runIn_redefineAsRead (ho : w.heap.object? r = some o)
    (hname : key.propertyName = .ok name) (he : o.own? name = some e) (hstorable : e.Storable)
    (hcallable : e.Callables w.heap.isCallable) :
    ∃ w', (redefineAsRead (.object r) key).runIn w = (recorded w.heap name, w') ∧
      w.heap.SameProperties w'.heap := by
  obtain ⟨d, hmapping, hd⟩ := Descriptor.restates_mapping hstorable hcallable
  -- two new descriptors, the copy and the one that the mapping gives
  let w₁ : World σ := { w with heap := (w.heap.newDescriptor e).2 }
  let w₂ : World σ := { w₁ with heap := (w₁.heap.newDescriptor d).2 }
  have hcopy : (ownDescriptor (.object r) key).Returns w (.descriptor w.heap.descriptors.size) w₁ :=
    returns_ownDescriptor.2 ⟨r, o, name, rfl, ho, hname, by
      rw [he]
      exact returns_newDescriptor.2 ⟨rfl, rfl⟩⟩
  have htaken : (descriptorOf (.descriptor w.heap.descriptors.size) "as_dict").Returns w₁
      (w.heap.descriptors.size, e) w₁ :=
    returns_descriptorOf.2 ⟨rfl, by simp [w₁, Heap.descriptor?, Heap.newDescriptor], rfl⟩
  have hmapping' : Descriptor.ofMapping w₁.heap.isCallable e.toMapping = .ok d := hmapping
  have hread : (readMapping e.toMapping).Returns w₁ d w₁ := returns_readMapping.2 ⟨hmapping', rfl⟩
  have hgiven : (newDescriptor d).Returns w₁ (.descriptor w₁.heap.descriptors.size) w₂ :=
    returns_newDescriptor.2 ⟨rfl, rfl⟩
  have hq : w₂.heap.descriptor? w₁.heap.descriptors.size = some d := by
    simp [w₂, Heap.descriptor?, Heap.newDescriptor]
  have ho₂ : w₂.heap.object? r = some o := ho
  have hobjects : w.heap.SameProperties w₂.heap := Heap.sameProperties_of_objects rfl
  obtain ⟨w', hrun, hsame⟩ :=
    runIn_define_of_restates ho₂ hname hq he hstorable.complete hd
  refine ⟨w', ?_, ?_⟩
  · unfold redefineAsRead
    rw [hcopy.runIn_bind, htaken.runIn_bind]
    dsimp only
    rw [hread.runIn_bind, hgiven.runIn_bind, hrun]
    unfold recorded
    rw [hobjects.quotingFault?_name]
  · exact fun s => hsame s

end Act

/-- Wherever a history leads, a definition that returns can be made again: it returns and changes no
property, whatever the property has become. And a property whose functions can be called can be
defined as it is read back, which changes no property either; that fails only if its name cannot be
quoted. -/
theorem redefinitions_change_nothing {σ : Type} (ops : List Operation) (host : σ) (r : Ref)
    (key : Value) :
    let w : World σ := { heap := Heap.after {} ops, host }
    (∀ given w₁, (Act.define (.object r) key given).Returns w () w₁ →
      ∃ w₂, (Act.define (.object r) key given).Returns w₁ () w₂ ∧
        w₁.heap.SameProperties w₂.heap) ∧
    ∀ o name e, w.heap.object? r = some o → key.propertyName = .ok name → o.own? name = some e →
      e.Callables w.heap.isCallable →
      ∃ w₁, (Act.redefineAsRead (.object r) key).runIn w = (Act.recorded w.heap name, w₁) ∧
        w.heap.SameProperties w₁.heap := by
  intro w
  constructor
  · intro given w₁ hdefine
    obtain ⟨o, name, q, d, e, ho, hname, rfl, hq, he, hcomplete, hd, hquotable⟩ :=
      Act.restates_of_returns hdefine
    obtain ⟨w₂, hrun, hsame⟩ := Act.runIn_define_of_restates ho hname hq he hcomplete hd
    refine ⟨w₂, ?_, hsame⟩
    rw [Act.Returns, hrun, Act.recorded, Heap.quotingFault?_eq_none.2 hquotable]
  · intro o name e ho hname he hcallable
    have hstorable := (Heap.sound_after ops).stored r o ho _ (Object.mem_of_own? he)
    exact Act.runIn_redefineAsRead ho hname he hstorable hcallable

/-- The theorem at a read-only property: its definition can be made again, and it can be defined as
it is read. -/
theorem redefinitions_change_nothing_of_frozen :
    let w : World Unit := { heap := Heap.after {} Operation.freezing, host := () }
    (∃ w₁, (Act.define (.object 0) (.text "x" .shared) (.descriptor 0)).Returns w () w₁ ∧
      ∃ w₂, (Act.define (.object 0) (.text "x" .shared) (.descriptor 0)).Returns w₁ () w₂ ∧
        w₁.heap.SameProperties w₂.heap) ∧
    Descriptor.frozenSample.Callables w.heap.isCallable ∧
    ∃ w₁, (Act.redefineAsRead (.object 0) (.text "x" .shared)).runIn w = (.ok (), w₁) ∧
      w.heap.SameProperties w₁.heap := by
  intro w
  have hcallable : Descriptor.frozenSample.Callables w.heap.isCallable := by
    rintro f (h | h) <;> cases h
  obtain ⟨hagain, hread⟩ :=
    redefinitions_change_nothing Operation.freezing () 0 (.text "x" .shared)
  refine ⟨⟨_, rfl, hagain (.descriptor 0) _ rfl⟩, hcallable, ?_⟩
  exact hread _ (.text "x") .frozenSample rfl rfl rfl hcallable

end Undecorate
