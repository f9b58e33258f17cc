import Undecorate.Proofs.Fields
import Undecorate.Proofs.Object.History

/-! # Descriptors by reference

In a memory all descriptors are cells, those of properties and those that were handed out. An object
refers to the cells of its properties, and whoever was handed a descriptor refers to a cell as well;
an assignment changes the cell in place. That no assignment reaches a property is due to two copies:
a definition stores the merged descriptor in a new cell, and an own property is handed out as a copy
in a new cell.

* `Memory.read`: the heap that a memory stands for;
* `Memory.Apart`: no property is kept in a cell that was handed out, and no cell was handed out
  twice;
* `Memory.Apart.read_perform`: an operation on the memory is the operation on the heap;
* `Memory.Apart.run_after`: both hold after every history.
-/

namespace Undecorate

/-- The place of a descriptor in a memory. -/
abbrev Cell := Nat

/-- An object that keeps its properties in cells; `bare` is all of it but the properties. -/
structure Holder where
  bare : Object
  properties : List (PropertyName × Cell) := []

/-- The object, with its properties as they are read from their cells. -/
def Holder.read (o : Holder) (content : Cell → Descriptor Value) : Object :=
  { o.bare with properties := o.properties.map fun p => (p.1, content p.2) }

/-- The objects, the cells of the descriptors that were handed out, and all cells. -/
structure Memory where
  holders : Array Holder := #[]
  references : Array Cell := #[]
  cells : Array (Descriptor Value) := #[]

namespace Memory

/-- The descriptor in a cell. -/
def content (m : Memory) (c : Cell) : Descriptor Value := m.cells.getD c {}

/-- The heap that a memory stands for. -/
def read (m : Memory) : Heap where
  objects := m.holders.map (·.read m.content)
  descriptors := m.references.map m.content

/-- The object that a value refers to. -/
def holder? (m : Memory) : Value → Option (Ref × Holder)
  | .object r => (m.holders[r]?).map (r, ·)
  | _ => none

/-- The cell that a value refers to. -/
def cell? (m : Memory) : Value → Option (Ref × Cell)
  | .descriptor q => (m.references[q]?).map (q, ·)
  | _ => none

/-! ## Operations -/

/-- Puts a descriptor into a new cell, the next one. -/
def allocate (m : Memory) (d : Descriptor Value) : Memory := { m with cells := m.cells.push d }

/-- Hands out a descriptor in a new cell. -/
def handOut (m : Memory) (d : Descriptor Value) : Memory :=
  { m.allocate d with references := m.references.push m.cells.size }

/-- Changes a cell in place. -/
def write (m : Memory) (c : Cell) (d : Descriptor Value) : Memory :=
  { m with cells := m.cells.setIfInBounds c d }

/-- Creates an object without properties. -/
def newObject (m : Memory) (o : Object) : Memory :=
  { m with holders := m.holders.push { bare := o } }

/-- Adds a definition to the log of an object. -/
def log (m : Memory) (r : Ref) (name : PropertyName) : Memory :=
  { m with holders := m.holders.modify r fun o => { o with bare := o.bare.logged name } }

/-- Makes an object refer to a cell under a name. -/
def store (m : Memory) (r : Ref) (name : PropertyName) (c : Cell) : Memory :=
  { m with holders := m.holders.modify r fun o =>
      { o with properties := setField name c o.properties } }

/-- Defines a property. What is stored is the merged descriptor, in a new cell. -/
def define (m : Memory) (r : Ref) (name : PropertyName) (d : Descriptor Value) : Memory :=
  match (m.holders[r]?).map (·.read m.content) with
  | none => m
  | some o => match o.refusal? name d with
    | some _ => m
    | none => match d.mergedOnto (o.own? name) with
      | .error _ => m.log r name
      | .ok merged => ((m.log r name).allocate merged).store r name m.cells.size

/-- Creates a function with a fresh prototype. -/
def newFunction (m : Memory) (name : Text) (implementation : Option Function)
    (source : Option Member) (parent : Option Ref) : Memory :=
  let function := m.holders.size
  let parentPrototype := parent.bind fun p => (m.read.callable? p).map fun c => .object c.prototype
  let m := m.newObject {
    proto := parent.map .object
    label := some name
    callable := some { name, implementation, source, prototype := function + 1 } }
  let m := m.newObject { proto := parentPrototype, label := some (name ++ ".prototype") }
  m.define (function + 1) (.text "constructor") (Heap.constructorLink function)

/-- What an operation does to a memory. -/
def perform (m : Memory) : Operation → Memory
  | .newObject proto label => m.newObject { proto, label }
  | .newFunction name implementation source parent => match parent with
    | .absent => m.newFunction name implementation source none
    | .object p =>
      if (m.read.callable? p).isSome then m.newFunction name implementation source (some p) else m
    | _ => m
  | .fields given => match Descriptor.ofFields given with
    | .ok d => m.handOut d
    | .error _ => m
  | .mapping given => match Descriptor.ofMapping m.read.isCallable given with
    | .ok d => m.handOut d
    | .error _ => m
  | .define target key given => match m.holder? target, key.propertyName with
    | some (r, o), .ok name => match given with
      | .descriptor _ => match m.cell? given with
        | some (_, c) => m.define r name (m.content c)
        | none => m
      | _ =>
        if (o.properties.lookup name).any fun c => !(m.content c).configurable then m
        else m.log r name
    | _, _ => m
  | .ownDescriptor target key => match m.holder? target, key.propertyName with
    | some (_, o), .ok name => match o.properties.lookup name with
      | some c => m.handOut (m.content c)
      | none => m
    | _, _ => m
  | .assign target part v => match m.cell? target with
    | some (_, c) => m.write c ((m.content c).assign part v).1
    | none => m

/-- The memory after a history. -/
def after (m : Memory) (ops : List Operation) : Memory := ops.foldl perform m

/-- No cell was handed out twice, and no property is kept in one that was handed out. -/
structure Apart (m : Memory) : Prop where
  once : m.references.toList.Nodup
  outstanding : ∀ c ∈ m.references, c < m.cells.size
  stored : ∀ o ∈ m.holders, ∀ p ∈ o.properties, p.2 < m.cells.size ∧ p.2 ∉ m.references

end Memory

/-! ## Arrays -/

section Arrays

variable {α β : Type} {xs : Array α} {r : Nat} {a : α}

theorem setIfInBounds_eq_modify (h : xs[r]? = some a) (f : α → α) :
    xs.setIfInBounds r (f a) = xs.modify r f := by
  refine Array.ext_getElem? fun i => ?_
  rw [Array.getElem?_setIfInBounds, Array.getElem?_modify]
  split
  · rename_i hi
    subst hi
    rw [if_pos (Array.getElem?_eq_some_iff.1 h).1, h]
    rfl
  · rfl

theorem map_modify {f : α → α} {f' : β → β} {g : α → β} (h : ∀ a, g (f a) = f' (g a)) :
    (xs.modify r f).map g = (xs.map g).modify r f' := by
  refine Array.ext_getElem? fun i => ?_
  rw [Array.getElem?_map, Array.getElem?_modify, Array.getElem?_modify, Array.getElem?_map]
  split
  · simp [Option.map_map, Function.comp_def, h]
  · rfl

theorem modify_modify (f g : α → α) :
    (xs.modify r f).modify r g = xs.modify r fun a => g (f a) := by
  refine Array.ext_getElem? fun i => ?_
  simp only [Array.getElem?_modify]
  split
  · simp [Option.map_map, Function.comp_def]
  · rfl

theorem eq_or_mem_of_mem_modify {f : α → α} (h : a ∈ xs.modify r f) :
    a ∈ xs ∨ ∃ b ∈ xs, a = f b := by
  obtain ⟨i, hi⟩ := Array.mem_iff_getElem?.1 h
  rw [Array.getElem?_modify] at hi
  split at hi
  · obtain ⟨b, hb, rfl⟩ := Option.map_eq_some_iff.1 hi
    exact .inr ⟨b, Array.mem_iff_getElem?.2 ⟨i, hb⟩, rfl⟩
  · exact .inl (Array.mem_iff_getElem?.2 ⟨i, hi⟩)

end Arrays

/-- What is pushed and then replaced is pushed as what replaces it. -/
theorem setIfInBounds_push {α : Type} (xs : Array α) (a b : α) :
    (xs.push a).setIfInBounds xs.size b = xs.push b := by
  refine Array.ext_getElem? fun i => ?_
  rw [Array.getElem?_setIfInBounds, Array.getElem?_push, Array.getElem?_push, Array.size_push]
  by_cases hi : i = xs.size
  · rw [if_pos hi.symm, if_pos (Nat.lt_succ_self _), if_pos hi]
  · rw [if_neg (Ne.symm hi), if_neg hi, if_neg hi]

/-- A definition on the newest object. -/
theorem Heap.define_newObject (h : Heap) (o : Object) (name : PropertyName)
    (d : Descriptor Value) :
    ((h.newObject o).2.define h.objects.size name d).1 = (h.newObject (o.define name d).1).2 := by
  have ho : (h.newObject o).2.object? h.objects.size = some o := by
    rw [object?_newObject, if_pos rfl]
  unfold define
  rw [ho]
  exact congrArg (Heap.mk · h.descriptors) (setIfInBounds_push h.objects o _)

/-! ## Reading -/

theorem Holder.read_congr {o : Holder} {f g : Cell → Descriptor Value}
    (h : ∀ p ∈ o.properties, f p.2 = g p.2) : o.read f = o.read g := by
  have hproperties : (o.properties.map fun p => (p.1, f p.2)) =
      o.properties.map fun p => (p.1, g p.2) :=
    List.map_congr_left fun p hp => by rw [h p hp]
  unfold read
  rw [hproperties]

theorem Object.store_eq_setField (name : PropertyName) (d : Descriptor Value)
    (ps : List (PropertyName × Descriptor Value)) : store name d ps = setField name d ps := by
  induction ps with
  | nil => rfl
  | cons p ps ih =>
    unfold store setField
    rw [ih]

theorem Holder.read_store (o : Holder) (name : PropertyName) (c : Cell)
    (content : Cell → Descriptor Value) :
    Holder.read { o with properties := setField name c o.properties } content =
      { o.read content with
        properties := Object.store name (content c) (o.read content).properties } := by
  have hmap : ∀ ps : List (PropertyName × Cell),
      (setField name c ps).map (fun p => (p.1, content p.2)) =
        setField name (content c) (ps.map fun p => (p.1, content p.2)) := by
    intro ps
    induction ps with
    | nil => rfl
    | cons p ps ih =>
      simp only [setField, List.map_cons]
      split
      · rfl
      · rw [List.map_cons, ih]
  rw [Object.store_eq_setField]
  unfold read
  rw [hmap]

/-- A property is read from its cell. -/
theorem Holder.own?_read (o : Holder) (content : Cell → Descriptor Value) (name : PropertyName) :
    (o.read content).own? name = (o.properties.lookup name).map content := by
  change ((o.properties.map fun p => (p.1, content p.2)).lookup name) = _
  induction o.properties with
  | nil => rfl
  | cons p ps ih =>
    rw [List.map_cons, lookup_field_cons, lookup_field_cons, ih]
    split <;> rfl

namespace Memory

variable {m : Memory} {c c' : Cell} {d : Descriptor Value} {r q : Ref} {name : PropertyName}

theorem content_allocate (h : c < m.cells.size) : (m.allocate d).content c = m.content c := by
  simp [content, allocate, Array.getElem?_push, Nat.ne_of_lt h]

theorem content_allocate_self : (m.allocate d).content m.cells.size = d := by
  simp [content, allocate]

theorem content_write_of_ne (h : c' ≠ c) : (m.write c d).content c' = m.content c' := by
  simp [content, write, Ne.symm h]

theorem content_write_self (h : c < m.cells.size) : (m.write c d).content c = d := by
  simp [content, write, h]

theorem descriptor?_read : m.read.descriptor? q = (m.references[q]?).map m.content :=
  Array.getElem?_map

theorem object?_read : m.read.object? r = (m.holders[r]?).map (·.read m.content) :=
  Array.getElem?_map

theorem read_newObject {o : Object} (ho : o.properties = []) :
    (m.newObject o).read = (m.read.newObject o).2 := by
  have hread : Holder.read { bare := o } m.content = o := by
    unfold Holder.read
    rw [List.map_nil, ← ho]
  change Heap.mk ((m.holders.push { bare := o }).map (·.read m.content)) _ = _
  rw [Array.map_push, hread]
  rfl

theorem read_log : (m.log r name).read =
    { m.read with objects := m.read.objects.modify r (·.logged name) } := by
  have hobjects : (m.holders.modify r fun o => { o with bare := o.bare.logged name }).map
      (·.read m.content) = m.read.objects.modify r (·.logged name) := map_modify fun _ => rfl
  exact congrArg (Heap.mk · m.read.descriptors) hobjects

theorem read_store : (m.store r name c).read = { m.read with
    objects := m.read.objects.modify r fun o =>
      { o with properties := Object.store name (m.content c) o.properties } } := by
  have hobjects : (m.holders.modify r fun o =>
      { o with properties := setField name c o.properties }).map (·.read m.content) =
        m.read.objects.modify r fun o =>
          { o with properties := Object.store name (m.content c) o.properties } :=
    map_modify fun o => Holder.read_store o name c m.content
  exact congrArg (Heap.mk · m.read.descriptors) hobjects

theorem returns_objectOf_read {target : Value} {part : String} {p : Ref × Object} :
    (Act.objectOf target part : Act Unit _).Returns ⟨m.read, ()⟩ p ⟨m.read, ()⟩ ↔
      (m.holder? target).map (fun p => (p.1, p.2.read m.content)) = some p := by
  rw [Act.returns_objectOf]
  cases target with
  | object r =>
    obtain ⟨s, o⟩ := p
    rw [object?_read, holder?, Option.map_map]
    constructor
    · rintro ⟨hs, ho, -⟩
      obtain rfl := Value.object.inj hs
      obtain ⟨holder, hholder, rfl⟩ := Option.map_eq_some_iff.1 ho
      rw [hholder]
      rfl
    · intro h
      obtain ⟨holder, hholder, heq⟩ := Option.map_eq_some_iff.1 h
      obtain ⟨rfl, rfl⟩ := Prod.mk.inj heq
      exact ⟨rfl, Option.map_eq_some_iff.2 ⟨holder, hholder, rfl⟩, rfl⟩
  | _ => simp [holder?]

theorem references_of_cell? {target : Value} (h : m.cell? target = some (q, c)) :
    m.references[q]? = some c := by
  cases target with
  | descriptor s =>
    obtain ⟨c', hc, heq⟩ := Option.map_eq_some_iff.1 h
    obtain ⟨rfl, rfl⟩ := Prod.mk.inj heq
    exact hc
  | _ => cases h

theorem returns_descriptorOf_read {target : Value} {part : String} {p : Ref × Descriptor Value} :
    (Act.descriptorOf target part : Act Unit _).Returns ⟨m.read, ()⟩ p ⟨m.read, ()⟩ ↔
      (m.cell? target).map (fun p => (p.1, m.content p.2)) = some p := by
  rw [Act.returns_descriptorOf]
  cases target with
  | descriptor q =>
    obtain ⟨s, d⟩ := p
    rw [descriptor?_read, cell?, Option.map_map]
    constructor
    · rintro ⟨hs, hd, -⟩
      obtain rfl := Value.descriptor.inj hs
      obtain ⟨c, hc, rfl⟩ := Option.map_eq_some_iff.1 hd
      rw [hc]
      rfl
    · intro h
      obtain ⟨c, hc, heq⟩ := Option.map_eq_some_iff.1 h
      obtain ⟨rfl, rfl⟩ := Prod.mk.inj heq
      exact ⟨rfl, Option.map_eq_some_iff.2 ⟨c, hc, rfl⟩, rfl⟩
  | _ => simp [cell?]

theorem returns_nameOf_read {key : Value} {w : World Unit} :
    (Act.nameOf key : Act Unit _).Returns w name w ↔ key.propertyName.toOption = some name := by
  rw [Act.returns_nameOf]
  cases key.propertyName <;> simp [Except.toOption]

theorem returns_readMapping_read {given : List (String × Value)} {w : World Unit} :
    (Act.readMapping given : Act Unit _).Returns w d w ↔
      (Descriptor.ofMapping w.heap.isCallable given).toOption = some d := by
  rw [Act.returns_readMapping]
  cases Descriptor.ofMapping w.heap.isCallable given <;> simp [Except.toOption]

namespace Apart

variable (hm : m.Apart)

include hm

/-- A new cell does not change what is read. -/
theorem read_allocate (d : Descriptor Value) : (m.allocate d).read = m.read :=
  congrArg₂ Heap.mk
    (Array.map_congr_left fun o ho => Holder.read_congr fun p hp =>
      content_allocate (hm.stored o ho p hp).1)
    (Array.map_congr_left fun c hc => content_allocate (hm.outstanding c hc))

theorem read_handOut (d : Descriptor Value) : (m.handOut d).read = (m.read.newDescriptor d).2 := by
  have hread := hm.read_allocate d
  have hnew : (m.references.push m.cells.size).map (m.allocate d).content =
      (m.references.map (m.allocate d).content).push d := by
    rw [Array.map_push, content_allocate_self]
  exact congrArg₂ Heap.mk (congrArg Heap.objects hread)
    (hnew.trans (congrArg (Array.push · d) (congrArg Heap.descriptors hread)))

/-- A cell that was handed out is the cell of one reference only. -/
theorem reference_inj {i : Nat} (hq : m.references[q]? = some c) (hi : m.references[i]? = some c) :
    q = i := by
  rw [← Array.getElem?_toList] at hq hi
  exact (List.getElem?_inj (List.getElem?_eq_some_iff.1 hq).1 hm.once).1 (hq.trans hi.symm)

/-- Writing to a cell that was handed out reaches no property, so no object. -/
theorem read_holder_write (hc : c ∈ m.references) {o : Holder} (ho : o ∈ m.holders)
    (d : Descriptor Value) : o.read (m.write c d).content = o.read m.content := by
  refine Holder.read_congr fun p hp => content_write_of_ne ?_
  rintro rfl
  exact (hm.stored o ho p hp).2 hc

theorem read_write (hq : m.references[q]? = some c) (d : Descriptor Value) :
    (m.write c d).read = m.read.setDescriptor q d := by
  have hobjects : m.holders.map (·.read (m.write c d).content) = m.holders.map (·.read m.content) :=
    Array.map_congr_left fun o ho => hm.read_holder_write (Array.mem_iff_getElem?.2 ⟨q, hq⟩) ho d
  have hdescriptors : m.references.map (m.write c d).content =
      (m.references.map m.content).setIfInBounds q d := by
    refine Array.ext_getElem? fun i => ?_
    rw [Array.getElem?_setIfInBounds, Array.getElem?_map, Array.getElem?_map, Array.size_map]
    split
    · rename_i hi
      subst hi
      rw [if_pos (Array.getElem?_eq_some_iff.1 hq).1, hq, Option.map_some,
        content_write_self (hm.outstanding c (Array.mem_iff_getElem?.2 ⟨q, hq⟩))]
    · rename_i hne
      cases hi : m.references[i]? with
      | none => rfl
      | some c' =>
        rw [Option.map_some, Option.map_some, content_write_of_ne]
        rintro rfl
        exact hne (hm.reference_inj hq hi)
  exact congrArg₂ Heap.mk hobjects hdescriptors

/-! ## Apart -/

theorem allocate (d : Descriptor Value) : (m.allocate d).Apart where
  once := hm.once
  outstanding := fun c hc => by
    rw [Memory.allocate, Array.size_push]
    exact Nat.lt_succ_of_lt (hm.outstanding c hc)
  stored := fun o ho p hp => by
    rw [Memory.allocate, Array.size_push]
    exact ⟨Nat.lt_succ_of_lt (hm.stored o ho p hp).1, (hm.stored o ho p hp).2⟩

theorem handOut (d : Descriptor Value) : (m.handOut d).Apart := by
  have hallocated := hm.allocate d
  -- the new cell is behind all that are known
  have hnew : m.cells.size ∉ m.references :=
    fun h => Nat.lt_irrefl _ (hm.outstanding _ h)
  refine ⟨?_, fun c hc => ?_, fun o ho p hp => ?_⟩
  · rw [Memory.handOut, Array.toList_push, List.nodup_append]
    refine ⟨hm.once, List.nodup_singleton _, ?_⟩
    rintro c hc _ hsingle rfl
    rw [List.mem_singleton.1 hsingle] at hc
    exact hnew (Array.mem_toList_iff.1 hc)
  · rcases Array.mem_push.1 hc with hc | rfl
    · exact hallocated.outstanding c hc
    · exact Nat.lt_of_lt_of_eq (Nat.lt_succ_self _) (Array.size_push _).symm
  · obtain ⟨hlt, hnot⟩ := hallocated.stored o ho p hp
    refine ⟨hlt, fun hmem => ?_⟩
    rcases Array.mem_push.1 hmem with hmem | heq
    · exact hnot hmem
    · exact Nat.lt_irrefl _ (heq ▸ (hm.stored o ho p hp).1)

theorem write (c : Cell) (d : Descriptor Value) : (m.write c d).Apart where
  once := hm.once
  outstanding := fun c' hc => by
    rw [Memory.write, Array.size_setIfInBounds]
    exact hm.outstanding c' hc
  stored := fun o ho p hp => by
    rw [Memory.write, Array.size_setIfInBounds]
    exact hm.stored o ho p hp

theorem newObject (o : Object) : (m.newObject o).Apart where
  once := hm.once
  outstanding := hm.outstanding
  stored := fun o' ho p hp => by
    rcases Array.mem_push.1 ho with ho | rfl
    · exact hm.stored o' ho p hp
    · cases hp

theorem log (r : Ref) (name : PropertyName) : (m.log r name).Apart where
  once := hm.once
  outstanding := hm.outstanding
  stored := fun o ho p hp => by
    dsimp only [Memory.log] at ho
    rcases eq_or_mem_of_mem_modify ho with ho | ⟨o', ho', rfl⟩
    · exact hm.stored o ho p hp
    · exact hm.stored o' ho' p hp

theorem store (hc : c < m.cells.size) (hnot : c ∉ m.references) (r : Ref) (name : PropertyName) :
    (m.store r name c).Apart where
  once := hm.once
  outstanding := hm.outstanding
  stored := fun o ho p hp => by
    dsimp only [Memory.store] at ho
    rcases eq_or_mem_of_mem_modify ho with ho | ⟨o', ho', rfl⟩
    · exact hm.stored o ho p hp
    · rcases mem_of_mem_setField hp with rfl | hp
      · exact ⟨hc, hnot⟩
      · exact hm.stored o' ho' p hp

/-- A merged descriptor is stored in a new cell. -/
theorem storeNew (r : Ref) (name : PropertyName) (d : Descriptor Value) :
    ((m.allocate d).store r name m.cells.size).Apart := by
  refine (hm.allocate d).store ?_ ?_ r name
  · exact Nat.lt_of_lt_of_eq (Nat.lt_succ_self _) (Array.size_push _).symm
  · exact fun h => Nat.lt_irrefl _ (hm.outstanding _ h)

theorem define (r : Ref) (name : PropertyName) (d : Descriptor Value) :
    (m.define r name d).Apart := by
  unfold Memory.define
  split
  · exact hm
  · split
    · exact hm
    · split
      · exact hm.log r name
      · exact (hm.log r name).storeNew r name _

theorem newFunction (name : Text) (implementation : Option Function) (source : Option Member)
    (parent : Option Ref) : (m.newFunction name implementation source parent).Apart :=
  ((hm.newObject _).newObject _).define _ _ _

/-- Whatever an operation does, properties stay apart from what was handed out. -/
theorem perform (op : Operation) : (m.perform op).Apart := by
  cases op with
  | newObject proto label => exact hm.newObject _
  | newFunction name implementation source parent =>
    dsimp only [Memory.perform]
    split
    · exact hm.newFunction name implementation source none
    · split
      · exact hm.newFunction name implementation source _
      · exact hm
    · exact hm
  | fields given | mapping given =>
    dsimp only [Memory.perform]
    split
    · exact hm.handOut _
    · exact hm
  | define target key given =>
    dsimp only [Memory.perform]
    split
    · split
      · split
        · exact hm.define _ _ _
        · exact hm
      · split
        · exact hm
        · exact hm.log _ _
    · exact hm
  | ownDescriptor target key =>
    dsimp only [Memory.perform]
    split
    · split
      · exact hm.handOut _
      · exact hm
    · exact hm
  | assign target part v =>
    dsimp only [Memory.perform]
    split
    · exact hm.write _ _
    · exact hm

/-! ## Operations -/

theorem read_define (r : Ref) (name : PropertyName) (d : Descriptor Value) :
    (m.define r name d).read = (m.read.define r name d).1 := by
  unfold Memory.define
  rw [← object?_read]
  cases ho : m.read.object? r with
  | none =>
    unfold Heap.define
    rw [ho]
  | some o =>
    have hmodify : ∀ f : Object → Object,
        m.read.objects.setIfInBounds r (f o) = m.read.objects.modify r f :=
      setIfInBounds_eq_modify ho
    cases hrefusal : o.refusal? name d with
    | some reason => simp only [hrefusal, Heap.define_eq_refused ho hrefusal]
    | none =>
      cases hmerged : d.mergedOnto (o.own? name) with
      | error f =>
        simp only [hrefusal, hmerged, Heap.define, ho, Object.define_eq_logged hrefusal hmerged]
        rw [read_log, hmodify (·.logged name)]
      | ok merged =>
        simp only [hrefusal, hmerged, Heap.define, ho, Object.define_eq_holding hrefusal hmerged]
        have hcell : ((m.log r name).allocate merged).content m.cells.size = merged :=
          content_allocate_self (m := m.log r name)
        rw [read_store, hcell, (hm.log r name).read_allocate, read_log, modify_modify,
          hmodify (·.holding name merged)]
        rfl

theorem read_newFunction (name : Text) (implementation : Option Function) (source : Option Member)
    (parent : Option Ref) : (m.newFunction name implementation source parent).read =
      (m.read.newFunction name implementation source parent).2 := by
  have hsize : m.read.objects.size = m.holders.size := Array.size_map
  let function : Object := {
    proto := parent.map .object
    label := some name
    callable := some { name, implementation, source, prototype := m.holders.size + 1 } }
  have hnext : m.holders.size + 1 = (m.read.newObject function).2.objects.size :=
    (congrArg (· + 1) hsize).symm.trans (Array.size_push function).symm
  unfold Memory.newFunction
  dsimp only
  rw [((hm.newObject _).newObject _).read_define, Memory.read_newObject rfl,
    Memory.read_newObject rfl]
  calc (((m.read.newObject function).2.newObject _).2.define (m.holders.size + 1) _
        (Heap.constructorLink m.holders.size)).1
    _ = ((m.read.newObject function).2.newObject _).2 := by
      rw [hnext]
      exact Heap.define_newObject _ _ _ _
    _ = (m.read.newFunction name implementation source parent).2 := by
      unfold Heap.newFunction
      rw [hsize]

theorem read_perform_newFunction (name : Text) (implementation : Option Function)
    (source : Option Member) (parent : Value) :
    (m.perform (.newFunction name implementation source parent)).read =
      (Operation.newFunction name implementation source parent).perform m.read := by
  dsimp only [Memory.perform, Operation.perform, Operation.act]
  unfold Act.newFunction
  cases parent with
  | absent => exact hm.read_newFunction name implementation source none
  | object p =>
    dsimp only
    rw [(Act.reads_objectOf _ _).after_bind_of fun _ => returns_objectOf_read, Heap.callable?,
      object?_read, holder?]
    cases m.holders[p]? with
    | none => rfl
    | some o =>
      dsimp only [Option.map_some, Option.elim_some, Option.bind_some]
      by_cases hnone : (o.read m.content).callable = none
      · rw [if_neg (mt Option.isSome_iff_ne_none.1 (not_not_intro hnone)),
          if_pos (Option.isNone_iff_eq_none.2 hnone)]
        rfl
      · rw [if_pos (Option.isSome_iff_ne_none.2 hnone),
          if_neg (mt Option.isNone_iff_eq_none.1 hnone)]
        exact hm.read_newFunction name implementation source (some p)
  | _ => rfl

theorem read_perform_define (target key given : Value) :
    (m.perform (.define target key given)).read =
      (Operation.define target key given).perform m.read := by
  dsimp only [Memory.perform, Operation.perform, Operation.act]
  rw [Act.after_seq_pure]
  unfold Act.define
  rw [(Act.reads_objectOf _ _).after_bind_of fun _ => returns_objectOf_read]
  cases m.holder? target with
  | none => rfl
  | some p =>
    obtain ⟨r, o⟩ := p
    dsimp only [Option.map_some, Option.elim_some]
    rw [(Act.reads_nameOf key).after_bind_of fun _ => returns_nameOf_read]
    cases key.propertyName with
    | error f => rfl
    | ok name =>
      dsimp only [Except.toOption, Option.elim_some]
      cases given with
      | descriptor q =>
        dsimp only
        rw [(Act.reads_descriptorOf _ _).after_bind_of fun _ => returns_descriptorOf_read]
        cases m.cell? (.descriptor q) with
        | none => rfl
        | some p =>
          dsimp only [Option.map_some, Option.elim_some]
          rw [Act.runIn_defineBy]
          exact hm.read_define r name (m.content p.2)
      | _ =>
        -- what is no descriptor is logged at most
        dsimp only
        rw [Act.runIn_view_bind, o.own?_read, Option.any_map]
        dsimp only [Function.comp_def]
        split
        · rfl
        · exact Memory.read_log

theorem read_perform_ownDescriptor (target key : Value) :
    (m.perform (.ownDescriptor target key)).read =
      (Operation.ownDescriptor target key).perform m.read := by
  dsimp only [Memory.perform, Operation.perform, Operation.act]
  unfold Act.ownDescriptor
  rw [(Act.reads_objectOf _ _).after_bind_of fun _ => returns_objectOf_read]
  cases m.holder? target with
  | none => rfl
  | some p =>
    obtain ⟨r, o⟩ := p
    dsimp only [Option.map_some, Option.elim_some]
    rw [(Act.reads_nameOf key).after_bind_of fun _ => returns_nameOf_read]
    cases key.propertyName with
    | error f => rfl
    | ok name =>
      dsimp only [Except.toOption, Option.elim_some]
      rw [o.own?_read]
      cases o.properties.lookup name with
      | none => rfl
      | some c => exact hm.read_handOut (m.content c)

theorem read_perform_assign (target : Value) (part : String) (v : Value) :
    (m.perform (.assign target part v)).read =
      (Operation.assign target part v).perform m.read := by
  dsimp only [Memory.perform, Operation.perform, Operation.act]
  rw [Act.after_seq_pure]
  unfold Act.assign
  rw [(Act.reads_descriptorOf _ _).after_bind_of fun _ => returns_descriptorOf_read]
  cases hcell : m.cell? target with
  | none => rfl
  | some p =>
    obtain ⟨q, c⟩ := p
    dsimp only [Option.map_some, Option.elim_some]
    rw [hm.read_write (references_of_cell? hcell)]
    cases ((m.content c).assign part v).2 <;> rfl

/-- An operation does to a memory what it does to the heap. -/
theorem read_perform (op : Operation) : (m.perform op).read = op.perform m.read := by
  cases op with
  | newObject proto label => exact Memory.read_newObject rfl
  | newFunction name implementation source parent =>
    exact hm.read_perform_newFunction name implementation source parent
  | fields given =>
    dsimp only [Memory.perform, Operation.perform, Operation.act]
    cases Descriptor.ofFields given with
    | ok d => exact hm.read_handOut d
    | error issues => rfl
  | mapping given =>
    dsimp only [Memory.perform, Operation.perform, Operation.act]
    rw [(Act.reads_readMapping given).after_bind_of fun _ => returns_readMapping_read]
    cases Descriptor.ofMapping m.read.isCallable given with
    | ok d => exact hm.read_handOut d
    | error f => rfl
  | define target key given => exact hm.read_perform_define target key given
  | ownDescriptor target key => exact hm.read_perform_ownDescriptor target key
  | assign target part v => exact hm.read_perform_assign target part v

/-- A history does to a memory what it does to the heap, and leaves properties apart. -/
theorem run_after (ops : List Operation) :
    (m.after ops).read = m.read.after ops ∧ (m.after ops).Apart := by
  induction ops generalizing m with
  | nil => exact ⟨rfl, hm⟩
  | cons op ops ih =>
    obtain ⟨hread, happart⟩ := ih (hm.perform op)
    refine ⟨hread.trans ?_, happart⟩
    rw [hm.read_perform op]
    rfl

end Apart

theorem read_empty : ({} : Memory).read = {} := congrArg₂ Heap.mk Array.map_empty Array.map_empty

theorem apart_empty : ({} : Memory).Apart where
  once := List.nodup_nil
  outstanding := fun _ hc => absurd hc (Array.not_mem_empty _)
  stored := fun _ ho => absurd ho (Array.not_mem_empty _)

end Memory

end Undecorate
