import Undecorate.Object.Heap
import Undecorate.Proofs.Object.Identity

/-! # One definition

What a definition can do to an object, and what the property it leaves behind is like. Nothing
after this module looks into the merge again:

* `Object.defined`: a definition is refused, or fails for its shape, or stores what it merges to;
* `Descriptor.complete_of_mergedOnto`: what is stored is complete;
* `Descriptor.frozenInto_of_mergedOnto`: what a property that is not configurable lets pass keeps it
  as it is.
-/

namespace Undecorate

namespace Descriptor

variable {α : Type} {d e merged : Descriptor α} {existing : Option (Descriptor α)}

/-- Nothing is left open, and everything is of one shape: a data descriptor is writable or not and
has no functions, an accessor has a function and neither a value nor anything to write. -/
inductive Complete (d : Descriptor α) : Prop
  | data (kind : d.kind = .data) (writable : d.writable = some true ∨ d.writable = some false)
      (getter : d.getter = none) (setter : d.setter = none)
  | accessor (kind : d.kind = .accessor) (functions : d.getter ≠ none ∨ d.setter ≠ none)
      (value : d.value = none) (writable : d.writable = none)

/-! ## Merging -/

/-- The attributes that a definition leaves behind. -/
def mergedEnumerable (d : Descriptor α) (existing : Option (Descriptor α)) : Bool :=
  if d.explicit.enumerable then d.enumerable else existing.any (·.enumerable)

@[inherit_doc mergedEnumerable]
def mergedConfigurable (d : Descriptor α) (existing : Option (Descriptor α)) : Bool :=
  if d.explicit.configurable then d.configurable else existing.any (·.configurable)

/-- A field that a definition leaves behind: its own if it is given, and otherwise that of an
existing property of the same shape. -/
def mergedField {β : Type} (given : Bool) (own : Option β) (kept : Option (Descriptor α))
    (field : Descriptor α → Option β) : Option β :=
  if given then own else kept.bind field

/-- A field that is given as it is already stays as it is. -/
theorem mergedField_eq {β : Type} {given : Bool} {own : Option β} {field : Descriptor α → Option β}
    (h : given = true → own = field e) : mergedField given own (some e) field = field e := by
  unfold mergedField
  cases given with
  | true => exact h rfl
  | false => rfl

/-- A definition of a data property always leaves one behind. -/
theorem mergedOnto_data (hk : d.mergedShape existing = .data) :
    d.mergedOnto existing = .ok {
      kind := .data
      enumerable := d.mergedEnumerable existing
      configurable := d.mergedConfigurable existing
      value := mergedField d.explicit.value d.value (existing.filter (·.kind = .data)) (·.value)
      writable := some ((mergedField d.explicit.writable d.writable
        (existing.filter (·.kind = .data)) (·.writable)).getD false)
      explicit := {
        kind := true, enumerable := true, configurable := true, writable := true
        value := d.explicit.value || (existing.filter (·.kind = .data)).isSome } } := by
  unfold mergedOnto
  rw [hk]
  rfl

/-- A definition of an accessor leaves one behind if it has a function. -/
theorem mergedOnto_accessor (hk : d.mergedShape existing = .accessor) :
    d.mergedOnto existing =
      let kept := existing.filter (·.kind = .accessor)
      let getter := mergedField d.explicit.getter d.getter kept (·.getter)
      let setter := mergedField d.explicit.setter d.setter kept (·.setter)
      if getter.isNone && setter.isNone then .error .accessorWithoutFunction
      else .ok {
        kind := .accessor
        enumerable := d.mergedEnumerable existing
        configurable := d.mergedConfigurable existing
        getter
        setter
        explicit := {
          kind := true, enumerable := true, configurable := true
          getter := d.explicit.getter || kept.isSome
          setter := d.explicit.setter || kept.isSome } } := by
  unfold mergedOnto
  rw [hk]
  simp only [shapeFault?, mergedField, Option.isSome_none, Bool.or_false, Bool.false_eq_true,
    ↓reduceIte]
  split <;> split <;> simp_all [mergedEnumerable, mergedConfigurable]

/-- What a definition leaves behind is complete, whatever the definition is like. -/
theorem complete_of_mergedOnto (h : d.mergedOnto existing = .ok merged) : merged.Complete := by
  cases hk : d.mergedShape existing with
  | data =>
    rw [mergedOnto_data hk] at h
    cases h
    refine .data rfl ?_ rfl rfl
    cases (mergedField d.explicit.writable d.writable _ _).getD false <;> simp
  | accessor =>
    rw [mergedOnto_accessor hk] at h
    dsimp only at h
    split at h
    · cases h
    · rename_i hfunctions
      cases h
      refine .accessor rfl ?_ rfl rfl
      rw [Bool.and_eq_true, Option.isNone_iff_eq_none, Option.isNone_iff_eq_none] at hfunctions
      exact Decidable.not_and_iff_not_or_not.1 hfunctions

/-! ## Properties that are not configurable -/

/-- What a property that is not configurable may become: its kind and its attributes stay, an
accessor keeps its functions, and a data property can stop being writable, after which it keeps its
value. -/
structure FrozenInto (d d' : Descriptor Value) : Prop where
  kind : d'.kind = d.kind
  enumerable : d'.enumerable = d.enumerable
  configurable : d'.configurable = d.configurable
  functions : d.kind = .accessor → d'.getter = d.getter ∧ d'.setter = d.setter
  writable : d.kind = .data → d.writable = some true →
    d'.writable = some true ∨ d'.writable = some false
  readOnly : d.kind = .data → d.writable = some false →
    d'.writable = some false ∧ d'.value = d.value

theorem FrozenInto.refl (d : Descriptor Value) : d.FrozenInto d where
  kind := rfl
  enumerable := rfl
  configurable := rfl
  functions := fun _ => ⟨rfl, rfl⟩
  writable := fun _ h => .inl h
  readOnly := fun _ h => ⟨h, rfl⟩

theorem FrozenInto.trans {d₁ d₂ d₃ : Descriptor Value} (h₁ : d₁.FrozenInto d₂)
    (h₂ : d₂.FrozenInto d₃) : d₁.FrozenInto d₃ where
  kind := h₂.kind.trans h₁.kind
  enumerable := h₂.enumerable.trans h₁.enumerable
  configurable := h₂.configurable.trans h₁.configurable
  functions := by
    intro hk
    obtain ⟨hg₁, hs₁⟩ := h₁.functions hk
    obtain ⟨hg₂, hs₂⟩ := h₂.functions (h₁.kind.trans hk)
    exact ⟨hg₂.trans hg₁, hs₂.trans hs₁⟩
  writable := by
    intro hk hw
    rcases h₁.writable hk hw with h | h
    · exact h₂.writable (h₁.kind.trans hk) h
    · exact .inr (h₂.readOnly (h₁.kind.trans hk) h).1
  readOnly := by
    intro hk hw
    obtain ⟨hw₁, hv₁⟩ := h₁.readOnly hk hw
    obtain ⟨hw₂, hv₂⟩ := h₂.readOnly (h₁.kind.trans hk) hw₁
    exact ⟨hw₂, hv₂.trans hv₁⟩

section Frozen

variable {e d merged : Descriptor Value}

/-- What a property that is not configurable lets pass. -/
structure Tolerates (e d : Descriptor Value) : Prop where
  configurable : d.explicit.configurable = true → d.configurable = false
  enumerable : d.explicit.enumerable = true → d.enumerable = e.enumerable
  kind : d.isGeneric = false → d.kind = e.kind
  writable : e.kind = .data → e.writable ≠ some true → d.explicit.writable = true →
    d.writable ≠ some true
  value : e.kind = .data → e.writable ≠ some true → d.explicit.value = true → d.value = e.value
  getter : e.kind = .accessor → d.explicit.getter = true → d.getter = e.getter
  setter : e.kind = .accessor → d.explicit.setter = true → d.setter = e.setter

/-- A property that is not configurable refuses exactly what it does not tolerate. -/
theorem refusal?_eq_none_iff : e.refusal? d = none ↔ e.Tolerates d := by
  -- a generic definition gives no field that a later check could mind
  have hgeneric : d.isGeneric = true → d.explicit.value = false ∧ d.explicit.writable = false ∧
      d.explicit.getter = false ∧ d.explicit.setter = false := by
    intro h
    simp only [isGeneric, Bool.not_eq_true', Bool.or_eq_false_iff] at h
    obtain ⟨⟨⟨⟨-, hv⟩, hw⟩, hg⟩, hs⟩ := h
    exact ⟨hv, hw, hg, hs⟩
  constructor
  · intro h
    unfold refusal? at h
    constructor <;> grind [Value.sameOption_iff]
  · rintro ⟨hconfigurable, henumerable, hkind, hwritable, hvalue, hgetter, hsetter⟩
    unfold refusal?
    grind [Value.sameOption_iff]

theorem Tolerates.mergedShape_eq (h : e.Tolerates d) : d.mergedShape (some e) = e.kind := by
  unfold mergedShape
  cases hg : d.isGeneric with
  | true => rfl
  | false => exact h.kind hg

/-- What may not be written stays so: true is not given for `writable`, and whatever else is given
is false in the end. -/
theorem Tolerates.mergedWritable_eq (h : e.Tolerates d) (hk : e.kind = .data)
    (hw : e.writable = some false) :
    (mergedField d.explicit.writable d.writable (some e) (·.writable)).getD false = false := by
  cases hgiven : d.explicit.writable with
  | false => simp [mergedField, hw]
  | true =>
    have hnot := h.writable hk (by simp [hw]) hgiven
    cases hd : d.writable with
    | none => rfl
    | some b =>
      rw [hd] at hnot
      simpa [mergedField] using hnot

/-- A definition that a property which is not configurable tolerates leaves it frozen. -/
theorem frozenInto_of_mergedOnto (hc : e.configurable = false) (ht : e.Tolerates d)
    (h : d.mergedOnto (some e) = .ok merged) : e.FrozenInto merged := by
  have henumerable : d.mergedEnumerable (some e) = e.enumerable := by
    unfold mergedEnumerable
    split
    · exact ht.enumerable ‹_›
    · rfl
  have hconfigurable : d.mergedConfigurable (some e) = e.configurable := by
    unfold mergedConfigurable
    split
    · exact (ht.configurable ‹_›).trans hc.symm
    · rfl
  have hshape := ht.mergedShape_eq
  cases hk : e.kind with
  | data =>
    rw [hk] at hshape
    have hkept : (some e).filter (fun x => x.kind = .data) = some e := by simp [hk]
    rw [mergedOnto_data hshape, hkept] at h
    cases h
    refine ⟨hk.symm, henumerable, hconfigurable, ?_, ?_, ?_⟩
    · intro hk'
      rw [hk] at hk'
      cases hk'
    · intro _ _
      cases (mergedField d.explicit.writable d.writable (some e) _).getD false <;> simp
    · intro _ hw
      have hnot : e.writable ≠ some true := by simp [hw]
      exact ⟨congrArg some (ht.mergedWritable_eq hk hw), mergedField_eq (ht.value hk hnot)⟩
  | accessor =>
    rw [hk] at hshape
    have hkept : (some e).filter (fun x => x.kind = .accessor) = some e := by simp [hk]
    rw [mergedOnto_accessor hshape, hkept] at h
    dsimp only at h
    split at h
    · cases h
    cases h
    refine ⟨hk.symm, henumerable, hconfigurable, ?_, ?_, ?_⟩
    · intro _
      exact ⟨mergedField_eq (ht.getter hk), mergedField_eq (ht.setter hk)⟩
    · intro hk'
      rw [hk] at hk'
      cases hk'
    · intro hk'
      rw [hk] at hk'
      cases hk'

end Frozen

end Descriptor

/-! ## Objects -/

namespace Object

variable {o : Object} {name other : PropertyName} {d : Descriptor Value}

theorem lookup_store (name other : PropertyName) (d : Descriptor Value)
    (ps : List (PropertyName × Descriptor Value)) :
    (store name d ps).lookup other = if other = name then some d else ps.lookup other := by
  induction ps with
  | nil =>
    by_cases h : other = name
    · simp [store, h]
    · simp [store, List.lookup_cons, h, beq_eq_false_iff_ne.2 h]
  | cons p ps ih =>
    rcases p with ⟨n, e⟩
    unfold store
    split
    · rename_i hn
      subst hn
      by_cases h : other = n
      · simp [h]
      · simp [List.lookup_cons, h, beq_eq_false_iff_ne.2 h]
    · rename_i hn
      by_cases h : other = n
      · simp [h, hn]
      · simp [List.lookup_cons, beq_eq_false_iff_ne.2 h, ih]

theorem mem_of_own? (h : o.own? name = some d) : (name, d) ∈ o.properties := by
  obtain ⟨before, after, hsplit, -⟩ := List.lookup_eq_some_iff.1 h
  rw [hsplit]
  simp

/-- A known property keeps its place and a new one goes last. -/
theorem map_fst_store (name : PropertyName) (d : Descriptor Value)
    (ps : List (PropertyName × Descriptor Value)) :
    (store name d ps).map (·.1) =
      if (ps.lookup name).isSome then ps.map (·.1) else ps.map (·.1) ++ [name] := by
  induction ps with
  | nil => simp [store]
  | cons p ps ih =>
    rcases p with ⟨n, e⟩
    unfold store
    by_cases hn : n = name
    · simp [hn]
    · have hlookup : ((n, e) :: ps).lookup name = ps.lookup name := by
        simp [List.lookup_cons, beq_eq_false_iff_ne.2 (Ne.symm hn)]
      rw [if_neg hn, hlookup, List.map_cons, ih, List.map_cons]
      split <;> simp

/-- The object with one more definition in its log. -/
def logged (o : Object) (name : PropertyName) : Object := { o with log := o.log ++ [name] }

/-- The object with a property that a definition has left behind. -/
def holding (o : Object) (name : PropertyName) (d : Descriptor Value) : Object :=
  { o.logged name with properties := store name d o.properties }

@[simp] theorem own?_holding :
    (o.holding name d).own? other = if other = name then some d else o.own? other :=
  lookup_store name other d o.properties

theorem ownNames_holding : (o.holding name d).ownNames =
    if (o.own? name).isSome then o.ownNames else o.ownNames ++ [name] :=
  map_fst_store name d o.properties

/-- What a definition can do to an object, and how it ends. -/
inductive Defined (o : Object) (name : PropertyName) (d : Descriptor Value) :
    Object × Option DefineFault → Prop
  /-- The property refuses the definition, and nothing changes. -/
  | refused (r : Refusal) (h : o.refusal? name d = some r) : Defined o name d (o, some (.refused r))
  /-- What the definition would leave behind is no descriptor. -/
  | misshapen (f : ShapeFault) (h : o.refusal? name d = none)
      (hm : d.mergedOnto (o.own? name) = .error f) :
      Defined o name d (o.logged name, some (.shape f))
  /-- The property holds what the definition merges to. -/
  | stored (merged : Descriptor Value) (h : o.refusal? name d = none)
      (hm : d.mergedOnto (o.own? name) = .ok merged) :
      Defined o name d (o.holding name merged, none)

theorem defined (o : Object) (name : PropertyName) (d : Descriptor Value) :
    Defined o name d (o.define name d) := by
  have hlogged : d.mergedOnto ((o.logged name).own? name) = d.mergedOnto (o.own? name) := rfl
  unfold define
  cases hr : o.refusal? name d with
  | some r => exact .refused r hr
  | none =>
    dsimp only [logged] at hlogged ⊢
    rw [hlogged]
    cases hm : d.mergedOnto (o.own? name) with
    | error f => exact .misshapen f hr hm
    | ok merged => exact .stored merged hr hm

theorem define_eq_refused {r : Refusal} (h : o.refusal? name d = some r) :
    o.define name d = (o, some (.refused r)) := by
  unfold define
  rw [h]

theorem define_eq_holding {merged : Descriptor Value} (h : o.refusal? name d = none)
    (hm : d.mergedOnto (o.own? name) = .ok merged) :
    o.define name d = (o.holding name merged, none) := by
  have hlogged : d.mergedOnto ((o.logged name).own? name) = .ok merged := hm
  unfold define
  rw [h]
  dsimp only [logged] at hlogged ⊢
  rw [hlogged]
  rfl

theorem define_eq_logged {f : ShapeFault} (h : o.refusal? name d = none)
    (hm : d.mergedOnto (o.own? name) = .error f) :
    o.define name d = (o.logged name, some (.shape f)) := by
  have hlogged : d.mergedOnto ((o.logged name).own? name) = .error f := hm
  unfold define
  rw [h]
  dsimp only [logged] at hlogged ⊢
  rw [hlogged]

/-- No definition, of whatever property and by whatever descriptor, thaws a property that is not
configurable. -/
theorem frozen_define (other : PropertyName) (e : Descriptor Value) (hd : o.own? name = some d)
    (hc : d.configurable = false) :
    ∃ d', (o.define other e).1.own? name = some d' ∧ d.FrozenInto d' := by
  have hdefined := o.defined other e
  generalize o.define other e = result at hdefined
  cases hdefined with
  | refused r hrefusal => exact ⟨d, hd, .refl d⟩
  | misshapen f hrefusal hmerged => exact ⟨d, hd, .refl d⟩
  | stored merged hrefusal hmerged =>
    by_cases hname : name = other
    · -- the definition was let pass, so it agrees with the property in all that is frozen
      subst hname
      have htolerates : d.Tolerates e := by
        rw [← Descriptor.refusal?_eq_none_iff]
        simpa [refusal?, hd, hc] using hrefusal
      rw [hd] at hmerged
      exact ⟨merged, by simp, Descriptor.frozenInto_of_mergedOnto hc htolerates hmerged⟩
    · exact ⟨d, by simpa [hname] using hd, .refl d⟩

end Object

end Undecorate
