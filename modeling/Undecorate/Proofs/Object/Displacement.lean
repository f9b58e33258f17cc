import Undecorate.Object.World
import Undecorate.Proofs.Lookup
import Undecorate.Proofs.Object.Define

/-! # Displaced values

A heap into which others have put objects of their own holds the same program at other places. A
displacement says where: everything behind a base is moved by the room that the others have taken.
Nothing in the object model looks at a place itself, so displaced values and objects behave as the
ones at home.

* `Displacement.value_inj`: a displacement keeps values apart;
* `Displacement.ofMapping_fields`, `Displacement.assign_descriptor`: displaced descriptors are made
  and changed as those at home;
* `Displacement.define_object`: a definition of a displaced property leaves the displaced object.
-/

namespace Undecorate

/-- Room for others behind the first `base` places: what comes after them is moved by `shift`. -/
structure Gap where
  base : Nat
  shift : Nat
deriving DecidableEq, Repr

namespace Gap

variable {g : Gap} {m n : Nat}

/-- Where a place is moved to. -/
def move (g : Gap) (n : Nat) : Nat := if n < g.base then n else n + g.shift

theorem move_of_lt (h : n < g.base) : g.move n = n := if_pos h

theorem move_of_le (h : g.base ≤ n) : g.move n = n + g.shift := if_neg (Nat.not_lt.2 h)

@[simp] theorem move_lt_move : g.move m < g.move n ↔ m < n := by
  unfold move
  split <;> split <;> omega

@[simp] theorem move_inj : g.move m = g.move n ↔ m = n := by
  unfold move
  split <;> split <;> omega

/-- Nothing is moved into the room for others. -/
theorem move_lt_or_le (g : Gap) (n : Nat) : g.move n < g.base ∨ g.base + g.shift ≤ g.move n := by
  unfold move
  split <;> omega

end Gap

/-- Where the objects, the descriptors and the functions of a program are moved to, and the copies
of values that its host tells apart. Other things of the host are numbered with its functions. -/
structure Displacement where
  objects : Gap
  descriptors : Gap
  functions : Gap
  copies : Gap
deriving DecidableEq, Repr

namespace Displacement

variable (T : Displacement)

/-- The displaced function. -/
def function (f : Function) : Function := { f with id := T.functions.move f.id }

/-- The displaced thing of the host. -/
def foreign (x : Foreign) : Foreign := { x with id := T.functions.move x.id }

/-- The displaced copy. -/
def copy : Copy → Copy
  | .shared => .shared
  | .kept n => .kept (T.copies.move n)
  | .made r => .made (T.descriptors.move r)

mutual

/-- The displaced value. -/
def value : Value → Value
  | .absent => .absent
  | .bool b => .bool b
  | .int n c => .int n (T.copy c)
  | .float x c => .float x (T.copy c)
  | .text t c => .text t (T.copy c)
  | .list vs c => .list (items vs) (T.copy c)
  | .record fs c => .record (fields fs) (T.copy c)
  | .function f => .function (T.function f)
  | .foreign x => .foreign (T.foreign x)
  | .object r => .object (T.objects.move r)
  | .descriptor r => .descriptor (T.descriptors.move r)
  | .source s c => .source s (T.copy c)
  | .member m c => .member m (T.copy c)

/-- The displaced items of a list. -/
def items : List Value → List Value
  | [] => []
  | v :: vs => value v :: items vs

/-- The displaced fields of a record. -/
def fields : List (String × Value) → List (String × Value)
  | [] => []
  | (k, v) :: fs => (k, value v) :: fields fs

end

/-- The displaced name of a property. -/
def name : PropertyName → PropertyName
  | .text t => .text t
  | .absent => .absent
  | .function f => .function (T.function f)
  | .foreign x => .foreign (T.foreign x)
  | .object r => .object (T.objects.move r)
  | .source s => .source s

/-- The displaced descriptor. -/
def descriptor (d : Descriptor Value) : Descriptor Value := d.map T.value

/-- What makes the displaced object a function. -/
def callable (c : Callable) : Callable :=
  { c with
    implementation := c.implementation.map T.function
    prototype := T.objects.move c.prototype }

/-- The displaced property. -/
def property (p : PropertyName × Descriptor Value) : PropertyName × Descriptor Value :=
  (T.name p.1, T.descriptor p.2)

/-- The displaced object. -/
def object (o : Object) : Object where
  proto := o.proto.map T.value
  label := o.label
  properties := o.properties.map T.property
  log := o.log.map T.name
  callable := o.callable.map T.callable

variable {T}

/-! ## Values -/

theorem fields_eq_map (fs : List (String × Value)) :
    T.fields fs = fs.map fun p => (p.1, T.value p.2) := by
  induction fs with
  | nil => rfl
  | cons f fs ih => rw [fields, ih, List.map_cons]

theorem lookup_fields (fs : List (String × Value)) (k : String) :
    (T.fields fs).lookup k = (fs.lookup k).map T.value := by
  rw [fields_eq_map, lookup_map_snd]

@[simp] theorem function_inj {f g : Function} : T.function f = T.function g ↔ f = g := by
  cases f
  cases g
  simp [function]

@[simp] theorem foreign_inj {x y : Foreign} : T.foreign x = T.foreign y ↔ x = y := by
  cases x
  cases y
  simp [foreign]

@[simp] theorem copy_inj {c d : Copy} : T.copy c = T.copy d ↔ c = d := by
  cases c <;> cases d <;> simp [copy]

mutual

theorem eq_of_value : ∀ a b : Value, T.value a = T.value b → a = b
  | .list xs c, b => by
    cases b with
    | list ys d =>
      intro h
      rw [value, value, Value.list.injEq, copy_inj] at h
      rw [eq_of_items xs ys h.1, h.2]
    | _ => simp [value]
  | .record fs c, b => by
    cases b with
    | record gs d =>
      intro h
      rw [value, value, Value.record.injEq, copy_inj] at h
      rw [eq_of_fields fs gs h.1, h.2]
    | _ => simp [value]
  | .absent, b | .bool _, b | .int _ _, b | .float _ _, b | .text _ _, b | .function _, b
  | .foreign _, b | .object _, b | .descriptor _, b | .source _ _, b | .member _ _, b => by
    cases b <;> simp [value]

theorem eq_of_items : ∀ xs ys : List Value, T.items xs = T.items ys → xs = ys
  | [], ys => by cases ys <;> simp [items]
  | x :: xs, ys => by
    cases ys with
    | nil => simp [items]
    | cons y ys =>
      intro h
      rw [items, items, List.cons.injEq] at h
      rw [eq_of_value x y h.1, eq_of_items xs ys h.2]

theorem eq_of_fields : ∀ fs gs : List (String × Value), T.fields fs = T.fields gs → fs = gs
  | [], gs => by cases gs <;> simp [fields]
  | (j, x) :: fs, gs => by
    cases gs with
    | nil => simp [fields]
    | cons g gs =>
      rcases g with ⟨k, y⟩
      intro h
      rw [fields, fields, List.cons.injEq, Prod.mk.injEq] at h
      rw [h.1.1, eq_of_value x y h.1.2, eq_of_fields fs gs h.2]

end

/-- A displacement keeps values apart. -/
@[simp] theorem value_inj {a b : Value} : T.value a = T.value b ↔ a = b :=
  ⟨eq_of_value a b, congrArg T.value⟩

@[simp] theorem same_value (a b : Value) : (T.value a).same (T.value b) = a.same b := by
  rw [Bool.eq_iff_iff, Value.same_iff, Value.same_iff, value_inj]

@[simp] theorem sameOption_value (a b : Option Value) :
    Value.sameOption (a.map T.value) (b.map T.value) = Value.sameOption a b := by
  cases a <;> cases b <;> simp [Value.sameOption]

@[simp] theorem isTruthy_value (v : Value) : (T.value v).isTruthy = v.isTruthy := by
  cases v with
  | list items copy => cases items <;> rfl
  | record fields copy =>
    rcases fields with _ | ⟨⟨k, v⟩, fields⟩
    · rfl
    · rfl
  | _ => rfl

@[simp] theorem scalar_value (v : Value) : (T.value v).scalar = v.scalar := by
  cases v <;> rfl

@[simp] theorem present?_value (v : Value) : (T.value v).present? = v.present?.map T.value := by
  cases v <;> rfl

@[simp] theorem ofOption_value (v : Option Value) :
    Value.ofOption (v.map T.value) = T.value (.ofOption v) := by
  cases v <;> rfl

/-! ## Names of properties -/

@[simp] theorem name_inj {m n : PropertyName} : T.name m = T.name n ↔ m = n := by
  cases m <;> cases n <;> simp [name]

@[simp] theorem value_name (n : PropertyName) : (T.name n).value = T.value n.value := by
  cases n <;> rfl

theorem propertyName_value (v : Value) :
    (T.value v).propertyName = v.propertyName.map T.name := by
  cases v with
  | int n c =>
    rw [value, Value.propertyName_int, Value.propertyName_int]
    cases Number.text? n <;> rfl
  | _ => rfl

/-! ## Descriptors -/

section Descriptors

variable {d : Descriptor Value} {existing : Option (Descriptor Value)}

theorem shapeFault?_descriptor (d : Descriptor Value) :
    (T.descriptor d).shapeFault? = d.shapeFault? := by
  simp [Descriptor.shapeFault?, descriptor, Descriptor.map]

theorem mergedShape_descriptor : (T.descriptor d).mergedShape (existing.map T.descriptor) =
    d.mergedShape existing := by
  cases existing <;> rfl

theorem filter_kind (k : Shape) : (existing.map T.descriptor).filter (·.kind = k) =
    (existing.filter (·.kind = k)).map T.descriptor := by
  rw [Option.filter_map]
  rfl

/-- A field that holds a value is merged as the field at home. -/
theorem mergedField_value {given : Bool} {own : Option Value} {kept : Option (Descriptor Value)}
    {field : Descriptor Value → Option Value}
    (hfield : ∀ e, field (T.descriptor e) = (field e).map T.value) :
    Descriptor.mergedField given (own.map T.value) (kept.map T.descriptor) field =
      (Descriptor.mergedField given own kept field).map T.value := by
  unfold Descriptor.mergedField
  cases given with
  | true => rfl
  | false =>
    cases kept with
    | none => rfl
    | some e => exact hfield e

theorem mergedOnto_descriptor (d : Descriptor Value) (existing : Option (Descriptor Value)) :
    (T.descriptor d).mergedOnto (existing.map T.descriptor) =
      (d.mergedOnto existing).map T.descriptor := by
  have henumerable : (T.descriptor d).mergedEnumerable (existing.map T.descriptor) =
      d.mergedEnumerable existing := by cases existing <;> rfl
  have hconfigurable : (T.descriptor d).mergedConfigurable (existing.map T.descriptor) =
      d.mergedConfigurable existing := by cases existing <;> rfl
  have hshape : (T.descriptor d).mergedShape (existing.map T.descriptor) =
      d.mergedShape existing := mergedShape_descriptor
  cases hk : d.mergedShape existing with
  | data =>
    rw [hk] at hshape
    rw [Descriptor.mergedOnto_data hshape, Descriptor.mergedOnto_data hk, filter_kind, henumerable,
      hconfigurable]
    generalize existing.filter (·.kind = .data) = kept
    have hvalue : Descriptor.mergedField (T.descriptor d).explicit.value (T.descriptor d).value
        (kept.map T.descriptor) (·.value) =
        (Descriptor.mergedField d.explicit.value d.value kept (·.value)).map T.value :=
      mergedField_value fun _ => rfl
    have hwritable : Descriptor.mergedField (T.descriptor d).explicit.writable
        (T.descriptor d).writable (kept.map T.descriptor) (·.writable) =
        Descriptor.mergedField d.explicit.writable d.writable kept (·.writable) := by
      cases kept <;> rfl
    rw [hvalue, hwritable, Option.isSome_map]
    rfl
  | accessor =>
    rw [hk] at hshape
    rw [Descriptor.mergedOnto_accessor hshape, Descriptor.mergedOnto_accessor hk, filter_kind,
      henumerable, hconfigurable]
    generalize existing.filter (·.kind = .accessor) = kept
    have hgetter : Descriptor.mergedField (T.descriptor d).explicit.getter (T.descriptor d).getter
        (kept.map T.descriptor) (·.getter) =
        (Descriptor.mergedField d.explicit.getter d.getter kept (·.getter)).map T.value :=
      mergedField_value fun _ => rfl
    have hsetter : Descriptor.mergedField (T.descriptor d).explicit.setter (T.descriptor d).setter
        (kept.map T.descriptor) (·.setter) =
        (Descriptor.mergedField d.explicit.setter d.setter kept (·.setter)).map T.value :=
      mergedField_value fun _ => rfl
    dsimp only
    rw [hgetter, hsetter, Option.isNone_map, Option.isNone_map, Option.isSome_map]
    split <;> rfl

theorem refusal?_descriptor (existing incoming : Descriptor Value) :
    (T.descriptor existing).refusal? (T.descriptor incoming) = existing.refusal? incoming := by
  simp only [Descriptor.refusal?, descriptor, Descriptor.map, Descriptor.isGeneric,
    sameOption_value]
  rfl

theorem withField_descriptor (d : Descriptor Value) (f : Field) (v : Value) :
    (T.descriptor d).withField f (T.value v) = (d.withField f v).map T.descriptor := by
  have hscalar : (T.value v).scalar = v.scalar := scalar_value v
  unfold Descriptor.withField
  cases f with
  | kind =>
    rw [hscalar]
    dsimp only
    cases v.scalar.readChoice Shape.choices <;> rfl
  | value | getter | setter =>
    rw [present?_value]
    rfl
  | enumerable | configurable =>
    rw [hscalar]
    dsimp only
    cases v.scalar.readBool <;> rfl
  | writable =>
    cases v with
    | absent => rfl
    | _ =>
      dsimp only [value, Value.scalar]
      generalize Scalar.readBool _ = b
      cases b <;> rfl

theorem assign_descriptor (d : Descriptor Value) (part : String) (v : Value) :
    (T.descriptor d).assign part (T.value v) =
      (T.descriptor (d.assign part v).1, (d.assign part v).2) := by
  unfold Descriptor.assign
  split
  · rfl
  · split
    · rfl
    · split
      · rfl
      · rename_i f _
        rw [withField_descriptor]
        cases hfield : d.withField f v with
        | error kind => rfl
        | ok d' =>
          change (T.descriptor d', (T.descriptor d').shapeFault?.map _) = _
          rw [shapeFault?_descriptor]

theorem part?_descriptor (d : Descriptor Value) (name : String) :
    (T.descriptor d).part? name = (d.part? name).map T.value := by
  have hwritable : Value.ofOption ((T.descriptor d).writable.map .bool) =
      T.value (.ofOption (d.writable.map .bool)) := by
    rw [← ofOption_value]
    cases h : d.writable <;> simp [descriptor, Descriptor.map, h, value]
  unfold Descriptor.part?
  split <;> first
    | exact congrArg some (ofOption_value _)
    | exact congrArg some hwritable
    | rfl

/-- The displaced fault of a mapping. -/
def mappingFault (T : Displacement) : MappingFault → MappingFault
  | .mixed => .mixed
  | .notCallable v => .notCallable (T.value v)
  | .shape f => .shape f

theorem firstOf?_fields (given : List (String × Value)) (names : List String) :
    Descriptor.firstOf? (T.fields given) names =
      (Descriptor.firstOf? given names).map T.value := by
  unfold Descriptor.firstOf?
  induction names with
  | nil => rfl
  | cons name names ih =>
    rw [List.findSome?_cons, List.findSome?_cons, lookup_fields]
    cases given.lookup name with
    | none => exact ih
    | some v => rfl

theorem isTruthy_map (v : Option Value) :
    (v.map T.value).map (·.isTruthy) = v.map (·.isTruthy) := by
  cases v with
  | none => rfl
  | some v => exact congrArg some (isTruthy_value v)

theorem attributesOf_fields (given : List (String × Value)) :
    Descriptor.attributesOf (T.fields given) = T.descriptor (Descriptor.attributesOf given) := by
  simp only [Descriptor.attributesOf, lookup_fields, isTruthy_map, Option.isSome_map]
  rfl

/-- The check of a descriptor comes out the same for the displaced one. -/
theorem checked_descriptor (d : Descriptor Value) :
    (match (T.descriptor d).shapeFault? with
      | some f => Except.error (MappingFault.shape f)
      | none => .ok (T.descriptor d)) =
      match (match d.shapeFault? with
        | some f => Except.error (MappingFault.shape f)
        | none => .ok d) with
      | .ok d => .ok (T.descriptor d)
      | .error f => .error (T.mappingFault f) := by
  rw [shapeFault?_descriptor (T := T) d]
  cases d.shapeFault? <;> rfl

section Mapping

variable {isCallable isCallable' : Value → Bool}
  (hcallable : ∀ v, isCallable' (T.value v) = isCallable v)

include hcallable

theorem accessorPart_value (v : Option Value) :
    Descriptor.accessorPart isCallable' (v.map T.value) =
      match Descriptor.accessorPart isCallable v with
      | .ok part => .ok (part.map T.value)
      | .error f => .error (T.mappingFault f) := by
  rcases v with _ | v
  · rfl
  · have hv := hcallable v
    cases v with
    | absent => rfl
    | _ =>
      simp only [value] at hv
      simp only [Option.map_some, value, Descriptor.accessorPart, hv]
      split <;> rfl

theorem ofMapping_fields (given : List (String × Value)) :
    Descriptor.ofMapping isCallable' (T.fields given) =
      match Descriptor.ofMapping isCallable given with
      | .ok d => .ok (T.descriptor d)
      | .error f => .error (T.mappingFault f) := by
  unfold Descriptor.ofMapping
  simp only [attributesOf_fields, firstOf?_fields, lookup_fields, Option.isSome_map,
    accessorPart_value hcallable]
  split
  · split
    · rfl
    · cases Descriptor.accessorPart isCallable (Descriptor.firstOf? given ["get", "getter"]) with
      | error f => rfl
      | ok get =>
        cases Descriptor.accessorPart isCallable (Descriptor.firstOf? given ["set", "setter"]) with
        | error f => rfl
        | ok set =>
          let d : Descriptor Value := { Descriptor.attributesOf given with
            kind := .accessor
            getter := get
            setter := set
            explicit := { (Descriptor.attributesOf given).explicit with
              kind := true
              getter := (Descriptor.firstOf? given ["get", "getter"]).isSome
              setter := (Descriptor.firstOf? given ["set", "setter"]).isSome } }
          exact checked_descriptor (T := T) d
  · split
    · have hpresent : ((given.lookup "value").map T.value).bind (·.present?) =
          ((given.lookup "value").bind (·.present?)).map T.value := by
        cases given.lookup "value" with
        | none => rfl
        | some v => exact present?_value v
      rw [hpresent, isTruthy_map]
      rfl
    · rfl

end Mapping

end Descriptors

/-! ## Objects -/

section Objects

variable {o : Object}

theorem lookup_properties (ps : List (PropertyName × Descriptor Value)) (n : PropertyName) :
    (ps.map T.property).lookup (T.name n) = (ps.lookup n).map T.descriptor := by
  induction ps with
  | nil => rfl
  | cons p ps ih =>
    have hkey : (T.name n == (T.property p).1) = (n == p.1) := by
      rw [Bool.eq_iff_iff, beq_iff_eq, beq_iff_eq]
      exact name_inj
    rw [List.map_cons, List.lookup_cons, List.lookup_cons, hkey]
    split
    · rfl
    · exact ih

@[simp] theorem own?_object (o : Object) (n : PropertyName) :
    (T.object o).own? (T.name n) = (o.own? n).map T.descriptor :=
  lookup_properties o.properties n

theorem store_properties (n : PropertyName) (d : Descriptor Value)
    (ps : List (PropertyName × Descriptor Value)) :
    Object.store (T.name n) (T.descriptor d) (ps.map T.property) =
      (Object.store n d ps).map T.property := by
  induction ps with
  | nil => rfl
  | cons p ps ih =>
    obtain ⟨k, e⟩ := p
    rw [List.map_cons, property, Object.store, Object.store]
    by_cases hk : k = n
    · rw [if_pos hk, if_pos (name_inj.2 hk)]
      rfl
    · rw [if_neg hk, if_neg (mt name_inj.1 hk), ih]
      rfl

theorem refusal?_object (o : Object) (n : PropertyName) (d : Descriptor Value) :
    (T.object o).refusal? (T.name n) (T.descriptor d) = o.refusal? n d := by
  unfold Object.refusal?
  rw [own?_object]
  cases o.own? n with
  | none => rfl
  | some e =>
    change (if e.configurable then none else (T.descriptor e).refusal? (T.descriptor d)) = _
    rw [refusal?_descriptor]

/-- A definition of a displaced property leaves the displaced object, and fails alike. -/
theorem define_object (o : Object) (n : PropertyName) (d : Descriptor Value) :
    (T.object o).define (T.name n) (T.descriptor d) =
      (T.object (o.define n d).1, (o.define n d).2) := by
  unfold Object.define
  rw [refusal?_object]
  cases o.refusal? n d with
  | some r => rfl
  | none =>
    have hown : ({ T.object o with log := (T.object o).log ++ [T.name n] } : Object).own?
        (T.name n) = (({ o with log := o.log ++ [n] } : Object).own? n).map T.descriptor :=
      own?_object o n
    have hlog : (T.object o).log ++ [T.name n] = (o.log ++ [n]).map T.name := by
      rw [List.map_append]
      rfl
    dsimp only
    rw [hown, mergedOnto_descriptor]
    cases d.mergedOnto (({ o with log := o.log ++ [n] } : Object).own? n) with
    | error f => simp [object, Except.map]
    | ok merged =>
      have hstore : Object.store (T.name n) (T.descriptor merged) (T.object o).properties =
          (Object.store n merged o.properties).map T.property :=
        store_properties n merged o.properties
      simp only [Except.map, hstore, hlog]
      rfl

theorem parent?_object (o : Object) : (T.object o).parent? = o.parent?.map T.objects.move := by
  unfold Object.parent?
  cases hproto : o.proto with
  | none => simp [object, hproto]
  | some v => cases v <;> simp [object, hproto, value]

theorem strayParent?_object (o : Object) :
    (T.object o).strayParent? = o.strayParent?.map T.value := by
  unfold Object.strayParent?
  cases hproto : o.proto with
  | none => simp [object, hproto]
  | some v => cases v <;> simp [object, hproto, value]

theorem ownNames_object (o : Object) : (T.object o).ownNames = o.ownNames.map T.name := by
  simp [Object.ownNames, object, property, Function.comp_def]

end Objects

end Displacement

end Undecorate
