import Undecorate.Object.Equal
import Undecorate.Proofs.Object.Stored

/-! # Definitions by the standard

The algorithm by which the language standard validates and applies a property descriptor, written
down on its own: properties are of one shape or the other, and any field of a descriptor can be
missing. An object of this model takes a definition that was given as a mapping just as the
algorithm does.

* `Fields.ofMapping_eq_ok`: a mapping that is accepted gives the fields that it has;
* `Fields.refusal?_eq_none_iff`: what a property refuses is what the algorithm rejects;
* `Fields.mergedOnto_eq`: what a definition merges to is what the algorithm applies;
* `definitions_follow_the_standard`: how every definition by a mapping ends.
-/

namespace Undecorate

namespace Standard

/-! ## The algorithm -/

/-- A property: its value, or its functions, and its attributes. -/
inductive Property where
  | data (value : Option Value) (writable enumerable configurable : Bool)
  | accessor (get set : Option Value) (enumerable configurable : Bool)
deriving DecidableEq

/-- The fields of a descriptor, each of which is given or missing. A value or function that is given
can be the undefined one. -/
structure Fields where
  value : Option (Option Value) := none
  get : Option (Option Value) := none
  set : Option (Option Value) := none
  writable : Option Bool := none
  enumerable : Option Bool := none
  configurable : Option Bool := none
deriving DecidableEq

namespace Property

def isAccessor : Property → Bool
  | .data .. => false
  | .accessor .. => true

def enumerable : Property → Bool
  | .data _ _ enumerable _ => enumerable
  | .accessor _ _ enumerable _ => enumerable

def configurable : Property → Bool
  | .data _ _ _ configurable => configurable
  | .accessor _ _ _ configurable => configurable

end Property

namespace Fields

def isAccessor (m : Fields) : Bool := m.get.isSome || m.set.isSome

def isData (m : Fields) : Bool := m.value.isSome || m.writable.isSome

def isGeneric (m : Fields) : Bool := !m.isAccessor && !m.isData

/-- Whether a field is given and is not what it was. Values are compared by their identity: one that
is equal to the old value but not that very one differs from it. -/
def differs {α : Type} [DecidableEq α] (given : Option α) (current : α) : Bool :=
  given.any (· ≠ current)

/-- Whether the fields would replace a function, or write what is read-only. -/
def overwrites (m : Fields) : Property → Bool
  | .accessor get set _ _ => differs m.get get || differs m.set set
  | .data value writable _ _ => !writable && (m.writable = some true || differs m.value value)

/-- Whether a property that is not configurable rejects the fields. -/
def rejectedBy (m : Fields) (current : Property) : Bool :=
  m.configurable = some true ||
  differs m.enumerable current.enumerable ||
  (!m.isGeneric && m.isAccessor != current.isAccessor) ||
  m.overwrites current

/-- The property that the fields create. -/
def create (m : Fields) : Property :=
  if m.isAccessor then
    .accessor (m.get.getD none) (m.set.getD none) (m.enumerable.getD false)
      (m.configurable.getD false)
  else
    .data (m.value.getD none) (m.writable.getD false) (m.enumerable.getD false)
      (m.configurable.getD false)

/-- The property that the fields turn a property into. One that changes its shape keeps its
attributes and nothing else. -/
def apply (m : Fields) : Property → Property
  | .data value writable enumerable configurable =>
    if m.isAccessor then
      .accessor (m.get.getD none) (m.set.getD none) (m.enumerable.getD enumerable)
        (m.configurable.getD configurable)
    else
      .data (m.value.getD value) (m.writable.getD writable) (m.enumerable.getD enumerable)
        (m.configurable.getD configurable)
  | .accessor get set enumerable configurable =>
    if m.isData then
      .data (m.value.getD none) (m.writable.getD false) (m.enumerable.getD enumerable)
        (m.configurable.getD configurable)
    else
      .accessor (m.get.getD get) (m.set.getD set) (m.enumerable.getD enumerable)
        (m.configurable.getD configurable)

/-- Validates the fields against the current property, if there is one, and applies them. Nothing
comes out if they are rejected. -/
def validateAndApply (m : Fields) : Option Property → Option Property
  | none => some m.create
  | some current =>
    if !current.configurable && m.rejectedBy current then none else some (m.apply current)

/-- The fields that a mapping has. Attributes are read by their truth, and the short names of the
functions win over the longer ones. -/
def ofMapping (given : List (String × Value)) : Fields where
  value := (given.lookup "value").map (·.present?)
  get := ((given.lookup "get").or (given.lookup "getter")).map (·.present?)
  set := ((given.lookup "set").or (given.lookup "setter")).map (·.present?)
  writable := (given.lookup "writable").map (·.isTruthy)
  enumerable := (given.lookup "enumerable").map (·.isTruthy)
  configurable := (given.lookup "configurable").map (·.isTruthy)

end Fields

namespace Property

variable {d : Descriptor Value} {p : Property}

/-- The property that a descriptor stands for, if its fields are all there and of one shape. -/
def of? (d : Descriptor Value) : Option Property :=
  match d.kind, d.value, d.writable, d.getter, d.setter with
  | .data, value, some writable, none, none =>
    some (.data value writable d.enumerable d.configurable)
  | .accessor, none, none, get, set => some (.accessor get set d.enumerable d.configurable)
  | _, _, _, _, _ => none

theorem of?_data {writable : Bool} (hk : d.kind = .data) (hw : d.writable = some writable)
    (hg : d.getter = none) (hs : d.setter = none) :
    of? d = some (.data d.value writable d.enumerable d.configurable) := by
  simp [of?, hk, hw, hg, hs]

theorem of?_accessor (hk : d.kind = .accessor) (hv : d.value = none) (hw : d.writable = none) :
    of? d = some (.accessor d.getter d.setter d.enumerable d.configurable) := by
  simp [of?, hk, hw, hv]

/-- What an object stores stands for a property, which has all that is stored. -/
theorem of?_of_complete (hd : d.Complete) :
    (∃ writable, d.kind = .data ∧ d.writable = some writable ∧
      of? d = some (.data d.value writable d.enumerable d.configurable)) ∨
    (d.kind = .accessor ∧ (d.getter ≠ none ∨ d.setter ≠ none) ∧
      of? d = some (.accessor d.getter d.setter d.enumerable d.configurable)) := by
  cases hd with
  | data hk hw hg hs =>
    obtain ⟨writable, hw⟩ : ∃ writable, d.writable = some writable := by
      rcases hw with h | h <;> exact ⟨_, h⟩
    exact .inl ⟨writable, hk, hw, of?_data hk hw hg hs⟩
  | accessor hk hf hv hw => exact .inr ⟨hk, hf, of?_accessor hk hv hw⟩

theorem isSome_of? (hd : d.Complete) : (of? d).isSome := by
  rcases of?_of_complete hd with ⟨_, -, -, h⟩ | ⟨-, -, h⟩ <;> rw [h] <;> rfl

theorem configurable_of? (hd : d.Complete) (hp : of? d = some p) :
    p.configurable = d.configurable := by
  rcases of?_of_complete hd with ⟨_, -, -, h⟩ | ⟨-, -, h⟩
  all_goals
    obtain rfl := Option.some.inj (h.symm.trans hp)
    rfl

end Property

/-! ## Descriptors given by mappings -/

namespace Fields

variable {m : Fields} {given : List (String × Value)} {isCallable : Value → Bool}
  {d e merged : Descriptor Value} {p : Property}

/-- The descriptor with the given fields. -/
def descriptor (m : Fields) : Descriptor Value where
  kind := if m.isAccessor then .accessor else .data
  value := m.value.getD none
  getter := m.get.getD none
  setter := m.set.getD none
  enumerable := m.enumerable.getD false
  configurable := m.configurable.getD false
  writable := m.writable
  explicit := {
    kind := !m.isGeneric
    value := m.value.isSome
    getter := m.get.isSome
    setter := m.set.isSome
    enumerable := m.enumerable.isSome
    configurable := m.configurable.isSome
    writable := m.writable.isSome }

/-- The fields are not of both shapes, and an accessor has a function. -/
structure Regular (m : Fields) : Prop where
  unmixed : m.isAccessor = true → m.isData = false
  functions : m.isAccessor = true → m.get.getD none ≠ none ∨ m.set.getD none ≠ none

theorem firstOf?_pair (first second : String) :
    Descriptor.firstOf? given [first, second] = (given.lookup first).or (given.lookup second) := by
  unfold Descriptor.firstOf?
  cases h₁ : given.lookup first with
  | some v => simp [h₁]
  | none => cases h₂ : given.lookup second <;> simp [h₁, h₂]

theorem accessorPart_eq {part function : Option Value}
    (h : Descriptor.accessorPart isCallable part = .ok function) :
    function = (part.map (·.present?)).getD none := by
  unfold Descriptor.accessorPart at h
  split at h
  · cases h
    rfl
  · cases h
    rfl
  · rename_i v hpresent
    split at h
    · cases h
      cases v <;> first | rfl | exact absurd rfl hpresent
    · cases h

/-- A mapping that is accepted gives the descriptor with the fields that it has. -/
theorem ofMapping_eq_ok (h : Descriptor.ofMapping isCallable given = .ok d) :
    d = (ofMapping given).descriptor ∧ (ofMapping given).Regular := by
  unfold Descriptor.ofMapping at h
  unfold ofMapping
  rw [firstOf?_pair, firstOf?_pair] at h
  dsimp only [Descriptor.attributesOf] at h
  -- only what is found under the names matters
  generalize (given.lookup "get").or (given.lookup "getter") = get at h ⊢
  generalize (given.lookup "set").or (given.lookup "setter") = set at h ⊢
  generalize given.lookup "value" = value at h ⊢
  generalize given.lookup "writable" = writable at h ⊢
  generalize given.lookup "enumerable" = enumerable at h ⊢
  generalize given.lookup "configurable" = configurable at h ⊢
  split at h
  · rename_i haccessor
    split at h
    · cases h
    rename_i hdata
    simp only [bind_eq_ok] at h
    obtain ⟨getter, hgetter, setter, hsetter, h⟩ := h
    split at h
    · cases h
    rename_i hshape
    obtain rfl := Except.ok.inj h
    obtain rfl := accessorPart_eq hgetter
    obtain rfl := accessorPart_eq hsetter
    obtain ⟨rfl, rfl⟩ : value = none ∧ writable = none := by simpa using hdata
    refine ⟨?_, fun _ => rfl, fun _ => ?_⟩
    · simp [descriptor, isGeneric, isAccessor, haccessor]
    · refine Decidable.not_and_iff_not_or_not.1 ?_
      rintro ⟨hg, hs⟩
      simp [Descriptor.shapeFault?, hg, hs] at hshape
  · rename_i haccessor
    obtain ⟨rfl, rfl⟩ : get = none ∧ set = none := by simpa using haccessor
    refine ⟨?_, nofun, nofun⟩
    split at h
    · rename_i hdata
      obtain rfl := Except.ok.inj h
      simp [descriptor, isGeneric, isAccessor, isData, hdata]
      cases value <;> rfl
    · rename_i hdata
      obtain rfl := Except.ok.inj h
      obtain ⟨rfl, rfl⟩ : value = none ∧ writable = none := by simpa using hdata
      simp [descriptor, isGeneric, isAccessor, isData]

/-! ## Validation and application -/

@[simp] theorem isGeneric_descriptor : m.descriptor.isGeneric = m.isGeneric := by
  simp only [Descriptor.isGeneric, descriptor, isGeneric, isAccessor, isData]
  cases m.get <;> cases m.set <;> cases m.value <;> cases m.writable <;> rfl

/-- A field that is given is the current one. -/
theorem differs_eq_false_iff {α : Type} [DecidableEq α] {given : Option α} {current : α}
    (default : α) :
    differs given current = false ↔ (given.isSome = true → given.getD default = current) := by
  cases given <;> simp [differs]

/-- The shapes agree, unless the fields are of no shape. -/
theorem kind_descriptor_iff {accessor : Bool} {shape : Shape}
    (hs : accessor = true ↔ shape = .accessor) :
    (!m.isGeneric && m.isAccessor != accessor) = false ↔
      (m.isGeneric = false → m.descriptor.kind = shape) := by
  rw [descriptor]
  cases accessor <;> cases shape <;> cases m.isGeneric <;> cases m.isAccessor <;> simp_all

/-- A property that is not configurable refuses exactly the fields that the algorithm rejects. -/
theorem refusal?_eq_none_iff (he : e.Complete) (hp : Property.of? e = some p) :
    e.refusal? m.descriptor = none ↔ m.rejectedBy p = false := by
  have hconfigurable : decide (m.configurable = some true) = false ↔
      (m.configurable.isSome = true → m.configurable.getD false = false) := by
    cases m.configurable <;> simp
  rw [Descriptor.refusal?_eq_none_iff, rejectedBy, Bool.or_eq_false_iff, Bool.or_eq_false_iff,
    Bool.or_eq_false_iff, hconfigurable, differs_eq_false_iff false]
  rcases Property.of?_of_complete he with ⟨w, hk, hw, hof⟩ | ⟨hk, -, hof⟩
  · obtain rfl := Option.some.inj (hof.symm.trans hp)
    have hdata : m.overwrites (.data e.value w e.enumerable e.configurable) = false ↔
        (e.writable ≠ some true → m.writable ≠ some true ∧
          (m.value.isSome = true → m.value.getD none = e.value)) := by
      rw [hw, ← differs_eq_false_iff none, overwrites]
      cases w <;> simp
    have hshape : false = true ↔ e.kind = .accessor := by simp [hk]
    rw [Property.isAccessor, kind_descriptor_iff hshape, hdata]
    constructor
    · intro ht
      refine ⟨⟨⟨ht.configurable, ht.enumerable⟩, fun h => ht.kind (by simpa using h)⟩, ?_⟩
      intro hnot
      refine ⟨?_, ht.value hk hnot⟩
      intro htrue
      exact ht.writable hk hnot (by simp [descriptor, htrue]) htrue
    · rintro ⟨⟨⟨hc, hen⟩, hkind⟩, hwrite⟩
      refine ⟨hc, hen, fun h => hkind (by simpa using h), ?_, ?_, ?_, ?_⟩
      · exact fun _ hnot _ => (hwrite hnot).1
      · exact fun _ hnot => (hwrite hnot).2
      · exact fun h => absurd (hk.symm.trans h) nofun
      · exact fun h => absurd (hk.symm.trans h) nofun
  · obtain rfl := Option.some.inj (hof.symm.trans hp)
    have haccessor :
        m.overwrites (.accessor e.getter e.setter e.enumerable e.configurable) = false ↔
        (m.get.isSome = true → m.get.getD none = e.getter) ∧
          (m.set.isSome = true → m.set.getD none = e.setter) := by
      rw [← differs_eq_false_iff none, ← differs_eq_false_iff none, overwrites,
        Bool.or_eq_false_iff]
    have hshape : true = true ↔ e.kind = .accessor := by simp [hk]
    rw [Property.isAccessor, kind_descriptor_iff hshape, haccessor]
    constructor
    · intro ht
      exact ⟨⟨⟨ht.configurable, ht.enumerable⟩, fun h => ht.kind (by simpa using h)⟩,
        ht.getter hk, ht.setter hk⟩
    · rintro ⟨⟨⟨hc, hen⟩, hkind⟩, hget, hset⟩
      refine ⟨hc, hen, fun h => hkind (by simpa using h), ?_, ?_, fun _ => hget, fun _ => hset⟩
      · exact fun h => absurd (hk.symm.trans h) nofun
      · exact fun h => absurd (hk.symm.trans h) nofun

theorem mergedField_getD {β : Type} (given : Option (Option β)) (kept : Option (Descriptor Value))
    (field : Descriptor Value → Option β) :
    Descriptor.mergedField given.isSome (given.getD none) kept field =
      given.getD (kept.bind field) := by
  cases given <;> rfl

theorem mergedField_writable (given : Option Bool) (kept : Option (Descriptor Value)) :
    (Descriptor.mergedField given.isSome given kept (·.writable)).getD false =
      given.getD ((kept.bind (·.writable)).getD false) := by
  cases given <;> rfl

theorem mergedEnumerable_descriptor (existing : Option (Descriptor Value)) :
    m.descriptor.mergedEnumerable existing = m.enumerable.getD (existing.any (·.enumerable)) := by
  unfold Descriptor.mergedEnumerable descriptor
  cases m.enumerable <;> rfl

theorem mergedConfigurable_descriptor (existing : Option (Descriptor Value)) :
    m.descriptor.mergedConfigurable existing =
      m.configurable.getD (existing.any (·.configurable)) := by
  unfold Descriptor.mergedConfigurable descriptor
  cases m.configurable <;> rfl

variable {existing : Option (Descriptor Value)}

/-- A field that is missing comes from an existing property of the same shape. -/
theorem mergedOnto_data (hk : m.descriptor.mergedShape existing = .data) :
    let kept := existing.filter (·.kind = .data)
    ∃ merged, m.descriptor.mergedOnto existing = .ok merged ∧
      Property.of? merged = some (.data (m.value.getD (kept.bind (·.value)))
        (m.writable.getD ((kept.bind (·.writable)).getD false))
        (m.enumerable.getD (existing.any (·.enumerable)))
        (m.configurable.getD (existing.any (·.configurable)))) := by
  refine ⟨_, Descriptor.mergedOnto_data hk, ?_⟩
  rw [Property.of?_data rfl rfl rfl rfl, mergedEnumerable_descriptor, mergedConfigurable_descriptor]
  dsimp only [descriptor]
  rw [mergedField_getD, mergedField_writable]

theorem mergedOnto_accessor (hk : m.descriptor.mergedShape existing = .accessor)
    (hf : m.get.getD ((existing.filter (·.kind = .accessor)).bind (·.getter)) ≠ none ∨
      m.set.getD ((existing.filter (·.kind = .accessor)).bind (·.setter)) ≠ none) :
    let kept := existing.filter (·.kind = .accessor)
    ∃ merged, m.descriptor.mergedOnto existing = .ok merged ∧
      Property.of? merged = some (.accessor (m.get.getD (kept.bind (·.getter)))
        (m.set.getD (kept.bind (·.setter)))
        (m.enumerable.getD (existing.any (·.enumerable)))
        (m.configurable.getD (existing.any (·.configurable)))) := by
  intro kept
  have hget : Descriptor.mergedField m.descriptor.explicit.getter m.descriptor.getter kept
      (·.getter) = m.get.getD (kept.bind (·.getter)) := mergedField_getD m.get kept _
  have hset : Descriptor.mergedField m.descriptor.explicit.setter m.descriptor.setter kept
      (·.setter) = m.set.getD (kept.bind (·.setter)) := mergedField_getD m.set kept _
  have hsome : ¬ ((m.get.getD (kept.bind (·.getter))).isNone &&
      (m.set.getD (kept.bind (·.setter))).isNone) = true := by
    rw [Bool.and_eq_true, Option.isNone_iff_eq_none, Option.isNone_iff_eq_none]
    exact Decidable.not_and_iff_not_or_not.2 hf
  have hmerged := Descriptor.mergedOnto_accessor hk
  dsimp only at hmerged
  rw [hget, hset, if_neg hsome] at hmerged
  refine ⟨_, hmerged, ?_⟩
  rw [Property.of?_accessor rfl rfl rfl, mergedEnumerable_descriptor, mergedConfigurable_descriptor]

/-- The shape that the fields leave behind. -/
theorem mergedShape_descriptor (existing : Option (Descriptor Value)) :
    m.descriptor.mergedShape existing =
      if m.isAccessor then .accessor
      else if m.isData then .data
      else (existing.map (·.kind)).getD .data := by
  unfold Descriptor.mergedShape
  rw [isGeneric_descriptor, isGeneric, descriptor]
  cases existing <;> cases m.isAccessor <;> cases m.isData <;> rfl

/-- A function that is given is there, whatever it replaces. -/
theorem Regular.functions_getD (hm : m.Regular) (ha : m.isAccessor = true)
    (get set : Option Value) : m.get.getD get ≠ none ∨ m.set.getD set ≠ none := by
  rcases hm.functions ha with hget | hset
  · cases hg : m.get with
    | none => simp [hg] at hget
    | some g => exact .inl (by simpa [hg] using hget)
  · cases hs : m.set with
    | none => simp [hs] at hset
    | some s => exact .inr (by simpa [hs] using hset)

/-- A new property is the one that the algorithm creates. -/
theorem mergedOnto_none (hm : m.Regular) : ∃ merged, m.descriptor.mergedOnto none = .ok merged ∧
    Property.of? merged = some m.create := by
  have hshape := mergedShape_descriptor (m := m) none
  unfold create
  cases ha : m.isAccessor with
  | true =>
    rw [ha] at hshape
    exact mergedOnto_accessor hshape (hm.functions ha)
  | false =>
    rw [ha] at hshape
    exact mergedOnto_data (hshape.trans (by cases m.isData <;> rfl))

/-- An existing property becomes what the algorithm turns it into. -/
theorem mergedOnto_some (hm : m.Regular) (he : e.Complete) (hp : Property.of? e = some p) :
    ∃ merged, m.descriptor.mergedOnto (some e) = .ok merged ∧
      Property.of? merged = some (m.apply p) := by
  have hshape := mergedShape_descriptor (m := m) (some e)
  rcases Property.of?_of_complete he with ⟨w, hk, hw, hof⟩ | ⟨hk, hf, hof⟩
  · obtain rfl := Option.some.inj (hof.symm.trans hp)
    have hdata : (some e).filter (fun x => x.kind = .data) = some e := by simp [hk]
    have haccessor : (some e).filter (fun x => x.kind = .accessor) = none := by simp [hk]
    unfold apply
    cases ha : m.isAccessor with
    | true =>
      rw [ha] at hshape
      have hmerged := mergedOnto_accessor hshape (hm.functions_getD ha _ _)
      rw [haccessor] at hmerged
      exact hmerged
    | false =>
      rw [ha] at hshape
      have hkind : m.descriptor.mergedShape (some e) = .data := by
        rw [hshape]
        cases m.isData <;> simp [hk]
      have hmerged := mergedOnto_data hkind
      rw [hdata] at hmerged
      simpa [hw] using hmerged
  · obtain rfl := Option.some.inj (hof.symm.trans hp)
    have hdata : (some e).filter (fun x => x.kind = .data) = none := by simp [hk]
    have haccessor : (some e).filter (fun x => x.kind = .accessor) = some e := by simp [hk]
    unfold apply
    cases hd : m.isData with
    | true =>
      have ha : m.isAccessor = false := by
        cases ha : m.isAccessor with
        | true => exact absurd (hm.unmixed ha) (by simp [hd])
        | false => rfl
      rw [ha, hd] at hshape
      have hmerged := mergedOnto_data hshape
      rw [hdata] at hmerged
      exact hmerged
    | false =>
      have hkind : m.descriptor.mergedShape (some e) = .accessor := by
        rw [hshape, hd]
        cases m.isAccessor <;> simp [hk]
      have hfunctions : m.get.getD e.getter ≠ none ∨ m.set.getD e.setter ≠ none := by
        cases ha : m.isAccessor with
        | true => exact hm.functions_getD ha _ _
        | false =>
          obtain ⟨hget, hset⟩ : m.get = none ∧ m.set = none := by simpa [isAccessor] using ha
          rw [hget, hset]
          exact hf
      have hmerged := mergedOnto_accessor hkind
      rw [haccessor] at hmerged
      exact hmerged hfunctions

end Fields

/-! ## Definitions -/

variable {σ : Type} {w : World σ} {r : Ref} {o : Object} {name : PropertyName}

/-- A run in which the algorithm rejects the definition: nothing changes, and the refusal names the
property, unless its name cannot be quoted. -/
structure Rejected (w : World σ) (name : PropertyName) (run : Except Fault Unit × World σ) :
    Prop where
  unchanged : run.2 = w
  refused : w.heap.Quotable name.value → ∃ reason : Refusal, run.1 =
    .error (.refused (.defineProperty (w.heap.view name.value).note reason.message))
  unquotable : ∀ f, w.heap.quotingFault? name.value = some f → run.1 = .error f

/-- A run in which the algorithm applies the definition: the property is the one that comes out, a
known one in its place and a new one last, and nothing changes besides. Only the record of the
definition, which quotes the name once the property is there, can still fail. -/
structure Accepted (w : World σ) (r : Ref) (o : Object) (name : PropertyName) (p : Property)
    (run : Except Fault Unit × World σ) : Prop where
  applied : ∃ o' d, run.2.heap.object? r = some o' ∧
    o'.own? name = some d ∧ Property.of? d = some p ∧
    (∀ other, other ≠ name → o'.own? other = o.own? other) ∧
    o'.ownNames = (if (o.own? name).isSome then o.ownNames else o.ownNames ++ [name]) ∧
    o'.log = o.log ++ [name]
  others : ∀ s, s ≠ r → run.2.heap.object? s = w.heap.object? s
  descriptors : run.2.heap.descriptors = w.heap.descriptors
  host : run.2.host = w.host
  returns : run.2.heap.Quotable name.value → run.1 = .ok ()
  unquotable : ∀ f, run.2.heap.quotingFault? name.value = some f → run.1 = .error f
  notRefused : ∀ diagnostic, run.1 ≠ .error (.refused diagnostic)

/-- Quoting fails by a fault that is no diagnostic. -/
theorem quotingFault?_ne_refused {h : Heap} {v : Value} {f : Fault}
    (hf : h.quotingFault? v = some f) (diagnostic : Diagnostic) : f ≠ .refused diagnostic := by
  obtain ⟨obstacle, -, rfl⟩ := Option.map_eq_some_iff.1 hf
  cases obstacle <;> nofun

theorem rejected_defineBy {d : Descriptor Value} {reason : Refusal} (ho : w.heap.object? r = some o)
    (hr : o.refusal? name d = some reason) :
    Rejected w name ((Act.defineBy r name d).runIn w) := by
  rw [Act.runIn_defineBy, Heap.define_eq_refused ho hr]
  dsimp only
  refine ⟨rfl, ?_, ?_⟩
  · intro hquotable
    refine ⟨reason, ?_⟩
    rw [Heap.quotingFault?_eq_none.2 hquotable]
    rfl
  · intro f hf
    rw [hf]
    rfl

theorem accepted_defineBy {d merged : Descriptor Value} {p : Property}
    (ho : w.heap.object? r = some o) (hr : o.refusal? name d = none)
    (hm : d.mergedOnto (o.own? name) = .ok merged) (hp : Property.of? merged = some p) :
    Accepted w r o name p ((Act.defineBy r name d).runIn w) := by
  have hdefine := Object.define_eq_holding hr hm
  rw [Act.runIn_defineBy, Heap.define_snd ho, hdefine]
  dsimp only
  refine ⟨⟨o.holding name merged, merged, ?_, ?_, hp, ?_, Object.ownNames_holding, rfl⟩, ?_,
    Heap.descriptors_define, rfl, ?_, ?_, ?_⟩
  · rw [Heap.object?_define, if_pos rfl, ho, Option.map_some, hdefine]
  · simp
  · intro other hother
    simp [hother]
  · intro s hs
    rw [Heap.object?_define, if_neg hs]
  · intro hquotable
    rw [Heap.quotingFault?_eq_none.2 hquotable]
    rfl
  · intro f hf
    rw [hf]
    rfl
  · intro diagnostic
    cases hq : (w.heap.define r name d).1.quotingFault? name.value with
    | none => nofun
    | some f =>
      rintro ⟨⟩
      exact quotingFault?_ne_refused hq diagnostic rfl

/-- An object refuses what the algorithm rejects, and nothing else. -/
theorem refused_iff_rejected {m : Fields} {e : Descriptor Value} {p : Property}
    (he : o.own? name = some e) (hcomplete : e.Complete) (hp : Property.of? e = some p) :
    o.refusal? name m.descriptor = none ↔ (!p.configurable && m.rejectedBy p) = false := by
  unfold Object.refusal?
  rw [he, Property.configurable_of? hcomplete hp, Bool.and_eq_false_iff,
    ← Fields.refusal?_eq_none_iff hcomplete hp]
  dsimp only
  cases hc : e.configurable <;> simp

/-- Given as a mapping, a definition of a property goes as the algorithm says. -/
theorem defineBy_follows {d : Descriptor Value} {given : List (String × Value)}
    {isCallable : Value → Bool} (ho : w.heap.object? r = some o)
    (hcomplete : ∀ e, o.own? name = some e → e.Complete)
    (hgiven : Descriptor.ofMapping isCallable given = .ok d) :
    match (Fields.ofMapping given).validateAndApply ((o.own? name).bind Property.of?) with
    | none => Rejected w name ((Act.defineBy r name d).runIn w)
    | some p => Accepted w r o name p ((Act.defineBy r name d).runIn w) := by
  obtain ⟨rfl, hregular⟩ := Fields.ofMapping_eq_ok hgiven
  generalize Fields.ofMapping given = m at hregular ⊢
  cases he : o.own? name with
  | none =>
    obtain ⟨merged, hmerged, hp⟩ := Fields.mergedOnto_none hregular
    refine accepted_defineBy ho ?_ (by rw [he]; exact hmerged) hp
    unfold Object.refusal?
    rw [he]
  | some e =>
    have hstored := hcomplete e he
    obtain ⟨p, hp⟩ := Option.isSome_iff_exists.1 (Property.isSome_of? hstored)
    have hrefusal := refused_iff_rejected (m := m) he hstored hp
    rw [Option.bind_some, hp, Fields.validateAndApply]
    cases hrejected : !p.configurable && m.rejectedBy p with
    | true =>
      cases hr : o.refusal? name m.descriptor with
      | none => exact absurd (hrefusal.1 hr) (by simp [hrejected])
      | some reason => exact rejected_defineBy ho hr
    | false =>
      obtain ⟨merged, hmerged, happlied⟩ := Fields.mergedOnto_some hregular hstored hp
      rw [← he] at hmerged
      exact accepted_defineBy ho (hrefusal.2 hrejected) hmerged happlied

end Standard

open Standard in
/-- Wherever a history leads, a definition by a descriptor that a mapping has given goes as the
algorithm says with the fields of the mapping. A value that names no property is told so, and
nothing changes. -/
theorem definitions_follow_the_standard {σ : Type} (ops : List Operation) (host : σ) (key : Value)
    {r q : Ref} {o : Object} {d : Descriptor Value} {given : List (String × Value)}
    {isCallable : Value → Bool} (ho : (Heap.after {} ops).object? r = some o)
    (hd : (Heap.after {} ops).descriptor? q = some d)
    (hgiven : Descriptor.ofMapping isCallable given = .ok d) :
    let w : World σ := { heap := Heap.after {} ops, host }
    let run := (Act.define (.object r) key (.descriptor q)).runIn w
    match key.propertyName with
    | .error f => run.2 = w ∧ run.1 = .error (match f with
      | .digits => .tooLong
      | .container => .unhashable (w.heap.view key).typeName)
    | .ok name =>
      ((o.own? name).bind Property.of?).isSome = (o.own? name).isSome ∧
      match (Fields.ofMapping given).validateAndApply ((o.own? name).bind Property.of?) with
      | none => Rejected w name run
      | some p => Accepted w r o name p run := by
  intro w run
  have hrun : run = _ := Act.runIn_define ho hd
  cases hname : key.propertyName with
  | error f =>
    rw [hname] at hrun
    cases f <;> exact ⟨congrArg Prod.snd hrun, congrArg Prod.fst hrun⟩
  | ok name =>
    rw [hname] at hrun
    have hcomplete : ∀ e, o.own? name = some e → e.Complete := fun e he =>
      ((Heap.sound_after ops).stored r o ho _ (Object.mem_of_own? he)).complete
    constructor
    · cases he : o.own? name with
      | none => rfl
      | some e => exact Property.isSome_of? (hcomplete e he)
    · rw [hrun]
      exact defineBy_follows ho hcomplete hgiven

open Standard in
/-- The theorem at a read-only property that holds a list and is given an equal one: the algorithm
rejects that, but not the list that is there. -/
theorem definitions_follow_the_standard_of_sample :
    let one (copy : Nat) : Value := .list [.int 1 .shared] (.kept copy)
    let given (copy : Nat) := [("value", one copy)]
    let x : Value := .text "x" .shared
    let ops : List Operation := [.newObject none none, .mapping (given 0),
      .define (.object 0) x (.descriptor 0), .mapping (given 1)]
    let w : World Unit := { heap := Heap.after {} ops, host := () }
    let o : Object := {
      properties := [(.text "x", { Descriptor.frozenSample with value := some (one 0) })],
      log := [.text "x"] }
    let p : Property := .data (some (one 0)) false false false
    let d (copy : Nat) := (Fields.ofMapping (given copy)).descriptor
    w.heap.object? 0 = some o ∧ w.heap.descriptor? 0 = some (d 0) ∧
      w.heap.descriptor? 1 = some (d 1) ∧
      Descriptor.ofMapping w.heap.isCallable (given 0) = .ok (d 0) ∧
      Descriptor.ofMapping w.heap.isCallable (given 1) = .ok (d 1) ∧
      w.heap.equal (one 0) (one 1) = true ∧
      Accepted w 0 o (.text "x") p ((Act.define (.object 0) x (.descriptor 0)).runIn w) ∧
      Rejected w (.text "x") ((Act.define (.object 0) x (.descriptor 1)).runIn w) := by
  intro one given x ops w o p d
  -- the history is run once
  have hheap : Heap.after {} ops = { objects := #[o], descriptors := #[d 0, d 1] } := rfl
  have ho : (Heap.after {} ops).object? 0 = some o := by rw [hheap]; rfl
  have hd₀ : (Heap.after {} ops).descriptor? 0 = some (d 0) := by rw [hheap]; rfl
  have hd₁ : (Heap.after {} ops).descriptor? 1 = some (d 1) := by rw [hheap]; rfl
  have hgiven (copy : Nat) :
      Descriptor.ofMapping w.heap.isCallable (given copy) = .ok (d copy) := rfl
  have hkept := definitions_follow_the_standard ops () x ho hd₀ (hgiven 0)
  have hother := definitions_follow_the_standard ops () x ho hd₁ (hgiven 1)
  have hequal : w.heap.equal (one 0) (one 1) = true := rfl
  exact ⟨ho, hd₀, hd₁, hgiven 0, hgiven 1, hequal, hkept.2, hother.2⟩

end Undecorate
