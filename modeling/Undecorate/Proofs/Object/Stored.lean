import Undecorate.Proofs.Except
import Undecorate.Proofs.Object.Invariants
import Undecorate.Proofs.Object.References

/-! # What objects store

Every property that an object stores is complete, whatever was done to descriptors before it was
defined: a descriptor can be left with fields that do not fit together, but it is merged before it
is stored. And a descriptor that is handed out or taken in is a copy, so nothing that is assigned to
it reaches a property.

* `Heap.Sound`: the invariant, which also says that outstanding descriptors are proper;
* `stored_properties_complete_and_isolated`: what holds of every heap that a history leads to.
-/

namespace Undecorate

namespace Descriptor

variable {d d' merged : Descriptor Value} {existing : Option (Descriptor Value)}

/-! ## Proper descriptors -/

/-- What is absent is not there: no field holds the absent value. -/
structure Proper (d : Descriptor Value) : Prop where
  value : d.value ≠ some .absent
  getter : d.getter ≠ some .absent
  setter : d.setter ≠ some .absent

theorem present?_ne (v : Value) : v.present? ≠ some .absent := by
  cases v <;> simp [Value.present?]

theorem proper_of_withField {f : Field} {v : Value} (hd : d.Proper)
    (h : d.withField f v = .ok d') : d'.Proper := by
  obtain ⟨hvalue, hgetter, hsetter⟩ := hd
  unfold withField at h
  cases f with
  | value =>
    obtain rfl := Except.ok.inj h
    exact ⟨present?_ne v, hgetter, hsetter⟩
  | getter =>
    obtain rfl := Except.ok.inj h
    exact ⟨hvalue, present?_ne v, hsetter⟩
  | setter =>
    obtain rfl := Except.ok.inj h
    exact ⟨hvalue, hgetter, present?_ne v⟩
  | kind | enumerable | configurable =>
    simp only [bind_eq_ok, pure_eq_ok] at h
    obtain ⟨_, -, _, rfl, rfl⟩ := h
    exact ⟨hvalue, hgetter, hsetter⟩
  | writable =>
    dsimp only at h
    split at h
    · obtain rfl := Except.ok.inj h
      exact ⟨hvalue, hgetter, hsetter⟩
    · simp only [bind_eq_ok, pure_eq_ok] at h
      obtain ⟨_, -, _, rfl, rfl⟩ := h
      exact ⟨hvalue, hgetter, hsetter⟩

theorem accessorPart_ne {isCallable : Value → Bool} {given part : Option Value}
    (h : accessorPart isCallable given = .ok part) : part ≠ some .absent := by
  unfold accessorPart at h
  split at h
  · obtain rfl := Except.ok.inj h
    nofun
  · obtain rfl := Except.ok.inj h
    nofun
  · rename_i hpresent
    split at h
    · obtain rfl := Except.ok.inj h
      rintro ⟨⟩
      exact hpresent rfl
    · cases h

theorem none_ne : (none : Option Value) ≠ some .absent := (Option.some_ne_none _).symm

theorem proper_of_ofMapping {isCallable : Value → Bool} {given : List (String × Value)}
    (h : ofMapping isCallable given = .ok d) : d.Proper := by
  unfold ofMapping at h
  dsimp only at h
  split at h
  · split at h
    · cases h
    · simp only [bind_eq_ok] at h
      obtain ⟨getter, hgetter, setter, hsetter, h⟩ := h
      split at h
      · cases h
      · obtain rfl := Except.ok.inj h
        exact ⟨none_ne, accessorPart_ne hgetter, accessorPart_ne hsetter⟩
  · split at h
    · obtain rfl := Except.ok.inj h
      refine ⟨?_, none_ne, none_ne⟩
      cases given.lookup "value" with
      | none => exact none_ne
      | some v => exact present?_ne v
    · obtain rfl := Except.ok.inj h
      exact ⟨none_ne, none_ne, none_ne⟩

theorem mergedField_ne {given : Bool} {own : Option Value}
    {field : Descriptor Value → Option Value} (hown : own ≠ some .absent)
    (hkept : ∀ e, existing = some e → field e ≠ some .absent) :
    mergedField given own existing field ≠ some .absent := by
  unfold mergedField
  cases given with
  | true => exact hown
  | false =>
    cases existing with
    | none => nofun
    | some e => exact hkept e rfl

theorem proper_of_mergedOnto (hd : d.Proper) (he : ∀ e, existing = some e → e.Proper)
    (h : d.mergedOnto existing = .ok merged) : merged.Proper := by
  have hkept : ∀ shape e, existing.filter (fun x => x.kind = shape) = some e → e.Proper := by
    intro shape e hfilter
    exact he e (Option.filter_eq_some_iff.1 hfilter).1
  cases hk : d.mergedShape existing with
  | data =>
    rw [mergedOnto_data hk] at h
    obtain rfl := Except.ok.inj h
    exact ⟨mergedField_ne hd.value fun e h => (hkept .data e h).value, nofun, nofun⟩
  | accessor =>
    rw [mergedOnto_accessor hk] at h
    dsimp only at h
    split at h
    · cases h
    · obtain rfl := Except.ok.inj h
      exact ⟨nofun, mergedField_ne hd.getter fun e h => (hkept .accessor e h).getter,
        mergedField_ne hd.setter fun e h => (hkept .accessor e h).setter⟩

/-- A property as it may be stored. -/
structure Storable (d : Descriptor Value) : Prop where
  complete : d.Complete
  proper : d.Proper

theorem storable_of_mergedOnto (hd : d.Proper) (he : ∀ e, existing = some e → e.Proper)
    (h : d.mergedOnto existing = .ok merged) : merged.Storable where
  complete := complete_of_mergedOnto h
  proper := proper_of_mergedOnto hd he h

theorem proper_constructorLink (f : Ref) : (Heap.constructorLink f).Proper := by
  constructor <;> simp [Heap.constructorLink, method]

theorem invariant_storable : Invariant Proper Storable where
  empty := ⟨nofun, nofun, nofun⟩
  field := fun _ _ _ _ => proper_of_withField
  mapping := fun _ _ _ => proper_of_ofMapping
  link := proper_constructorLink
  merge := fun _ _ _ hd he => storable_of_mergedOnto hd fun e hkept => (he e hkept).proper
  copy := fun _ hd => hd.proper

end Descriptor

/-! ## The invariant -/

/-- Every property of the object may be stored. -/
def Object.Sound (o : Object) : Prop := ∀ p ∈ o.properties, p.2.Storable

namespace Heap

/-- What is stored is complete, and what is outstanding is proper. -/
structure Sound (h : Heap) : Prop where
  stored : ∀ r o, h.object? r = some o → o.Sound
  outstanding : ∀ q d, h.descriptor? q = some d → d.Proper

theorem sound_after (ops : List Operation) : Sound (Heap.after {} ops) := by
  have hholds := Descriptor.invariant_storable.holds_after ops
  exact ⟨hholds.stored, hholds.outstanding⟩

end Heap

/-- An assignment to a descriptor touches no object. -/
theorem Operation.objects_assign (h : Heap) (target : Value) (part : String) (v : Value) :
    ((Operation.assign target part v).perform h).objects = h.objects := by
  unfold perform act
  rw [Act.after_seq_pure]
  rcases Act.after_assign target part v { heap := h, host := () } with hw | ⟨q, d, -, hw⟩
  · rw [hw]
  · rw [hw]
    rfl

/-- Wherever a history leads, every stored property is complete, and what is assigned to a
descriptor after that changes no stored property. Nor would it if properties and descriptors were
cells that are changed in place: in the memory that the same history leads to, whatever is written
to a cell that was handed out leaves all objects as they are. -/
theorem stored_properties_complete_and_isolated (ops : List Operation) :
    (∀ r o, (Heap.after {} ops).object? r = some o →
      ∀ p ∈ o.properties, p.2.Complete ∧ p.2.Proper) ∧
    (∀ target part v,
      (Heap.after {} (ops ++ [.assign target part v])).objects = (Heap.after {} ops).objects) ∧
    (Memory.after {} ops).read = Heap.after {} ops ∧
    ∀ c ∈ (Memory.after {} ops).references, ∀ d,
      ((Memory.after {} ops).write c d).read.objects = (Heap.after {} ops).objects := by
  refine ⟨?_, ?_, ?_⟩
  · intro r o ho p hp
    have hstorable := (Heap.sound_after ops).stored r o ho p hp
    exact ⟨hstorable.complete, hstorable.proper⟩
  · intro target part v
    rw [Heap.after, List.foldl_append]
    exact Operation.objects_assign _ target part v
  · obtain ⟨hread, happart⟩ := Memory.apart_empty.run_after ops
    rw [Memory.read_empty] at hread
    refine ⟨hread, fun c hc d => ?_⟩
    calc ((Memory.after {} ops).write c d).read.objects
      _ = (Memory.after {} ops).read.objects :=
        Array.map_congr_left fun _ ho => happart.read_holder_write hc ho d
      _ = (Heap.after {} ops).objects := congrArg Heap.objects hread

end Undecorate
