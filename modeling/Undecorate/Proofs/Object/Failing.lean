import Undecorate.Proofs.Object.Standard

/-! # Definitions that fail

A definition fails for one of four reasons, and each of them leaves the object in a state of its
own. What a property refuses changes nothing. What merges to no descriptor has been logged by then,
and a property whose name cannot be quoted is there by then.

* `Descriptor.invariant_settled`: what was not given to a descriptor is as it is by default;
* `Descriptor.Settled.mergedOnto`: so only a descriptor whose fields do not fit together fails to
  merge;
* `failing_definitions_leave`: what every definition that fails leaves behind.
-/

namespace Undecorate

namespace Descriptor

variable {d d' e merged : Descriptor Value} {existing : Option (Descriptor Value)}

/-! ## What was not given -/

/-- What was not given is as it is by default. -/
structure Settled (d : Descriptor Value) : Prop where
  kind : d.explicit.kind = false → d.kind = .data
  value : d.explicit.value = false → d.value = none
  getter : d.explicit.getter = false → d.getter = none
  setter : d.explicit.setter = false → d.setter = none
  enumerable : d.explicit.enumerable = false → d.enumerable = false
  configurable : d.explicit.configurable = false → d.configurable = false
  writable : d.explicit.writable = false → d.writable = none

/-- Nothing has to be shown of a field that counts as given. -/
theorem of_given {p : Prop} (h : true = false) : p := by
  cases h

theorem settled_of_withField {f : Field} {v : Value} (hd : d.Settled)
    (h : d.withField f v = .ok d') : d'.Settled := by
  obtain ⟨hkind, hvalue, hgetter, hsetter, henumerable, hconfigurable, hwritable⟩ := hd
  unfold withField at h
  cases f with
  | value =>
    obtain rfl := Except.ok.inj h
    exact ⟨hkind, of_given, hgetter, hsetter, henumerable, hconfigurable, hwritable⟩
  | getter =>
    obtain rfl := Except.ok.inj h
    exact ⟨hkind, hvalue, of_given, hsetter, henumerable, hconfigurable, hwritable⟩
  | setter =>
    obtain rfl := Except.ok.inj h
    exact ⟨hkind, hvalue, hgetter, of_given, henumerable, hconfigurable, hwritable⟩
  | kind =>
    simp only [bind_eq_ok, pure_eq_ok] at h
    obtain ⟨_, -, _, rfl, rfl⟩ := h
    exact ⟨of_given, hvalue, hgetter, hsetter, henumerable, hconfigurable, hwritable⟩
  | enumerable =>
    simp only [bind_eq_ok, pure_eq_ok] at h
    obtain ⟨_, -, _, rfl, rfl⟩ := h
    exact ⟨hkind, hvalue, hgetter, hsetter, of_given, hconfigurable, hwritable⟩
  | configurable =>
    simp only [bind_eq_ok, pure_eq_ok] at h
    obtain ⟨_, -, _, rfl, rfl⟩ := h
    exact ⟨hkind, hvalue, hgetter, hsetter, henumerable, of_given, hwritable⟩
  | writable =>
    dsimp only at h
    split at h
    · obtain rfl := Except.ok.inj h
      exact ⟨hkind, hvalue, hgetter, hsetter, henumerable, hconfigurable, of_given⟩
    · simp only [bind_eq_ok, pure_eq_ok] at h
      obtain ⟨_, -, _, rfl, rfl⟩ := h
      exact ⟨hkind, hvalue, hgetter, hsetter, henumerable, hconfigurable, of_given⟩

theorem settled_of_mapping {isCallable : Value → Bool} {given : List (String × Value)}
    (h : ofMapping isCallable given = .ok d) : d.Settled := by
  obtain ⟨rfl, -⟩ := Standard.Fields.ofMapping_eq_ok h
  generalize Standard.Fields.ofMapping given = m
  have hnone : ∀ {α : Type} {x : Option α}, x.isSome = false → x = none := fun h => by simpa using h
  refine ⟨?_, ?_, ?_, ?_, ?_, ?_, hnone⟩
  · intro hgeneric
    have haccessor : m.isAccessor = false := by
      cases ha : m.isAccessor <;> simp_all [Standard.Fields.descriptor, Standard.Fields.isGeneric]
    simp [Standard.Fields.descriptor, haccessor]
  all_goals
    intro hmissing
    rw [Standard.Fields.descriptor, hnone hmissing]
    rfl

theorem settled_of_mergedOnto (h : d.mergedOnto existing = .ok merged) (hd : d.Settled) :
    merged.Settled := by
  -- a field that is neither given nor kept is absent
  have hfield : ∀ {given : Bool} {own : Option Value} {kept : Option (Descriptor Value)}
      {field : Descriptor Value → Option Value}, (given = false → own = none) →
      (given || kept.isSome) = false → mergedField given own kept field = none := by
    intro given own kept field hown hnot
    obtain ⟨rfl, hkept⟩ := Bool.or_eq_false_iff.1 hnot
    cases kept with
    | none => rfl
    | some e => cases hkept
  cases hk : d.mergedShape existing with
  | data =>
    rw [mergedOnto_data hk] at h
    obtain rfl := Except.ok.inj h
    exact ⟨of_given, hfield hd.value, fun _ => rfl, fun _ => rfl, of_given, of_given, of_given⟩
  | accessor =>
    rw [mergedOnto_accessor hk] at h
    dsimp only at h
    split at h
    · cases h
    · obtain rfl := Except.ok.inj h
      exact ⟨of_given, fun _ => rfl, hfield hd.getter, hfield hd.setter, of_given, of_given,
        fun _ => rfl⟩

theorem invariant_settled : Invariant Settled Settled where
  empty := by constructor <;> intro _ <;> rfl
  field := fun _ _ _ _ => settled_of_withField
  mapping := fun _ _ _ => settled_of_mapping
  link := fun _ => ⟨of_given, of_given, fun _ => rfl, fun _ => rfl, of_given, of_given, of_given⟩
  merge := fun _ _ _ hd _ hmerged => settled_of_mergedOnto hmerged hd
  copy := fun _ => id

/-! ## Merging that fails -/

/-- What a definition merges to can only lack its functions. -/
theorem mergedOnto_eq_error {f : ShapeFault} (h : d.mergedOnto existing = .error f) :
    f = .accessorWithoutFunction := by
  cases hk : d.mergedShape existing with
  | data =>
    rw [mergedOnto_data hk] at h
    cases h
  | accessor =>
    rw [mergedOnto_accessor hk] at h
    dsimp only at h
    split at h
    · exact (Except.error.inj h).symm
    · cases h

/-- A function that is there was given, so it is there afterwards. -/
theorem mergedField_ne_none {given : Bool} {own : Option Value} {kept : Option (Descriptor Value)}
    {field : Descriptor Value → Option Value} (hsettled : given = false → own = none)
    (hown : own ≠ none) : mergedField given own kept field ≠ none := by
  cases given with
  | false => exact absurd (hsettled rfl) hown
  | true => exact hown

/-- A descriptor whose fields fit together merges onto every property that can be stored. -/
theorem Settled.mergedOnto (hd : d.Settled) (hshape : d.shapeFault? = none)
    (he : ∀ e, existing = some e → e.Complete) : ∃ merged, d.mergedOnto existing = .ok merged := by
  cases hk : d.mergedShape existing with
  | data => exact ⟨_, mergedOnto_data hk⟩
  | accessor =>
    suffices hfunctions :
        mergedField d.explicit.getter d.getter (existing.filter (·.kind = .accessor)) (·.getter) ≠
          none ∨
        mergedField d.explicit.setter d.setter (existing.filter (·.kind = .accessor)) (·.setter) ≠
          none by
      have hmerged := mergedOnto_accessor hk
      dsimp only at hmerged
      rw [if_neg] at hmerged
      · exact ⟨_, hmerged⟩
      · rw [Bool.and_eq_true, Option.isNone_iff_eq_none, Option.isNone_iff_eq_none]
        exact Decidable.not_and_iff_not_or_not.2 hfunctions
    unfold mergedShape at hk
    split at hk
    · -- the property that is there is an accessor, and keeps its functions
      rename_i hgeneric
      cases existing with
      | none => cases hk
      | some e =>
        obtain ⟨hgetter, hsetter⟩ : d.explicit.getter = false ∧ d.explicit.setter = false := by
          simp only [isGeneric, Bool.not_eq_true', Bool.or_eq_false_iff] at hgeneric
          exact ⟨hgeneric.1.2, hgeneric.2⟩
        rw [hgetter, hsetter, Option.filter_some, if_pos (by simpa using hk)]
        cases he e rfl with
        | data hdata => cases hk.symm.trans hdata
        | accessor _ hf => exact hf
    · -- the definition brings a function of its own
      simp only [shapeFault?, hk] at hshape
      split at hshape
      · cases hshape
      · split at hshape
        · cases hshape
        · rename_i hnone
          rw [Bool.and_eq_true, Option.isNone_iff_eq_none, Option.isNone_iff_eq_none] at hnone
          rcases Decidable.not_and_iff_not_or_not.1 hnone with hgetter | hsetter
          · exact .inl (mergedField_ne_none hd.getter hgetter)
          · exact .inr (mergedField_ne_none hd.setter hsetter)

end Descriptor

/-! ## Definitions that fail -/

section

variable {σ : Type}

/-- The fault of a value that names no property, which shows its type. -/
def Value.NameFault.fault (shown : View) : Value.NameFault → Fault
  | .digits => .tooLong
  | .container => .unhashable shown.typeName

/-- The world with another object in the place of one. -/
def World.putting (w : World σ) (r : Ref) (o : Object) : World σ :=
  { w with heap := { w.heap with objects := w.heap.objects.setIfInBounds r o } }

/-- How a definition by a descriptor fails, and the world that it leaves. -/
inductive FailedDefinition (w : World σ) (r : Ref) (o : Object) (key : Value)
    (d : Descriptor Value) : Fault → World σ → Prop
  /-- The value names no property. Nothing changes. -/
  | nameless (f : Value.NameFault) (hname : key.propertyName = .error f) :
      FailedDefinition w r o key d (f.fault (w.heap.view key)) w
  /-- The property refuses the definition. Nothing changes. -/
  | refused (name : PropertyName) (reason : Refusal) (hname : key.propertyName = .ok name)
      (hrefusal : o.refusal? name d = some reason) :
      FailedDefinition w r o key d ((w.heap.quotingFault? name.value).getD
        (.refused (.defineProperty (w.heap.view name.value).note reason.message))) w
  /-- What the definition would leave behind is an accessor without a function. It has been logged,
  and nothing else changes. -/
  | misshapen (name : PropertyName) (hname : key.propertyName = .ok name)
      (hrefusal : o.refusal? name d = none)
      (hmerged : d.mergedOnto (o.own? name) = .error .accessorWithoutFunction) :
      FailedDefinition w r o key d (.invalid [ShapeFault.accessorWithoutFunction.issue])
        (w.putting r (o.logged name))
  /-- The property is there, and its name cannot be quoted for the record. -/
  | unrecorded (name : PropertyName) (merged : Descriptor Value) (f : Fault)
      (hname : key.propertyName = .ok name) (hrefusal : o.refusal? name d = none)
      (hmerged : d.mergedOnto (o.own? name) = .ok merged)
      (hquoting : (w.putting r (o.holding name merged)).heap.quotingFault? name.value = some f) :
      FailedDefinition w r o key d f (w.putting r (o.holding name merged))

variable {w w' : World σ} {r q : Ref} {o : Object} {key : Value} {name : PropertyName}
  {d merged : Descriptor Value} {f : Fault}

theorem Heap.define_putting (ho : w.heap.object? r = some o) :
    w.heap.define r name d =
      ((w.putting r (o.define name d).1).heap, (o.define name d).2) := by
  unfold define
  rw [ho]
  rfl

/-- A definition fails in one of the four ways, and whatever fails in one of them fails so. -/
theorem Act.fails_define (ho : w.heap.object? r = some o) (hd : w.heap.descriptor? q = some d) :
    (define (.object r) key (.descriptor q)).Fails w f w' ↔ FailedDefinition w r o key d f w' := by
  rw [Fails, runIn_define ho hd]
  constructor
  · intro h
    cases hname : key.propertyName with
    | error e =>
      rw [hname] at h
      cases e <;> cases h <;> exact .nameless _ hname
    | ok name =>
      rw [hname] at h
      dsimp only at h
      rw [runIn_defineBy] at h
      have hdefined := o.defined name d
      generalize hresult : o.define name d = result at hdefined
      cases hdefined with
      | refused reason hrefusal =>
        rw [Heap.define_eq_refused ho hrefusal] at h
        cases h
        exact .refused name reason hname hrefusal
      | misshapen fault hrefusal hmerged =>
        obtain rfl := Descriptor.mergedOnto_eq_error hmerged
        rw [Heap.define_putting ho, hresult] at h
        cases h
        exact .misshapen name hname hrefusal hmerged
      | stored merged hrefusal hmerged =>
        rw [Heap.define_putting ho, hresult] at h
        dsimp only [defineResult] at h
        split at h
        · rename_i hquoting
          cases h
          exact .unrecorded name merged f hname hrefusal hmerged hquoting
        · cases h
  · intro h
    cases h with
    | nameless e hname =>
      rw [hname]
      cases e <;> rfl
    | refused name reason hname hrefusal =>
      rw [hname]
      dsimp only
      rw [runIn_defineBy, Heap.define_eq_refused ho hrefusal]
      rfl
    | misshapen name hname hrefusal hmerged =>
      rw [hname]
      dsimp only
      rw [runIn_defineBy, Heap.define_putting ho, Object.define_eq_logged hrefusal hmerged]
      rfl
    | unrecorded name merged f hname hrefusal hmerged hquoting =>
      rw [hname]
      dsimp only
      rw [runIn_defineBy, Heap.define_putting ho, Object.define_eq_holding hrefusal hmerged]
      dsimp only [defineResult]
      rw [hquoting]
      rfl

theorem World.object?_putting (ho : w.heap.object? r = some o) (o' : Object) :
    (w.putting r o').heap.object? r = some o' := by
  have hlt : r < w.heap.objects.size := (Array.getElem?_eq_some_iff.1 ho).1
  simp [World.putting, Heap.object?, hlt]

/-- A world in which the log of an object has grown is another one. -/
theorem World.putting_ne (ho : w.heap.object? r = some o) {o' : Object}
    (hlog : o'.log = o.log ++ [name]) : w.putting r o' ≠ w := by
  intro hsame
  have ho' := object?_putting ho o'
  rw [hsame, ho, Option.some.injEq] at ho'
  rw [← ho'] at hlog
  exact List.cons_ne_nil name [] (List.self_eq_append_right.1 hlog)

end

/-- Wherever a history leads, a definition by a descriptor fails in one of four ways. One that fails
leaves everything as it was exactly if the value names no property, or the property refuses the
definition. That is so for every descriptor whose fields fit together, if the name can be quoted. -/
theorem failing_definitions_leave {σ : Type} (ops : List Operation) (host : σ) (key : Value)
    {r q : Ref} {o : Object} {d : Descriptor Value} (ho : (Heap.after {} ops).object? r = some o)
    (hd : (Heap.after {} ops).descriptor? q = some d) :
    let w : World σ := { heap := Heap.after {} ops, host }
    let run := Act.define (.object r) key (.descriptor q)
    (∀ f w', run.Fails w f w' ↔ FailedDefinition w r o key d f w') ∧
    ∀ f w', run.Fails w f w' →
      (w' = w ↔ ∀ name, key.propertyName = .ok name → o.refusal? name d ≠ none) ∧
      (d.shapeFault? = none → (∀ name, key.propertyName = .ok name → w'.heap.Quotable name.value) →
        w' = w) := by
  intro w run
  have hfails : ∀ f w', run.Fails w f w' ↔ FailedDefinition w r o key d f w' :=
    fun f w' => Act.fails_define ho hd
  refine ⟨hfails, ?_⟩
  intro f w' hrun
  have hsettled : d.Settled := (Descriptor.invariant_settled.holds_after ops).outstanding q d hd
  have hcomplete : ∀ name e, o.own? name = some e → e.Complete := fun name e he =>
    ((Heap.sound_after ops).stored r o ho _ (Object.mem_of_own? he)).complete
  cases (hfails f w').1 hrun with
  | nameless e hname =>
    refine ⟨⟨?_, fun _ => rfl⟩, fun _ _ => rfl⟩
    intro _ name hname'
    rw [hname] at hname'
    cases hname'
  | refused name reason hname hrefusal =>
    refine ⟨⟨?_, fun _ => rfl⟩, fun _ _ => rfl⟩
    intro _ name' hname'
    rw [hname] at hname'
    obtain rfl := Except.ok.inj hname'
    simp [hrefusal]
  | misshapen name hname hrefusal hmerged =>
    refine ⟨⟨?_, ?_⟩, ?_⟩
    · intro hsame
      exact absurd hsame (World.putting_ne ho rfl)
    · intro hrefused
      exact absurd hrefusal (hrefused name hname)
    · intro hshape _
      obtain ⟨merged, hok⟩ := hsettled.mergedOnto hshape (hcomplete name)
      rw [hok] at hmerged
      cases hmerged
  | unrecorded name merged f hname hrefusal hmerged hquoting =>
    refine ⟨⟨?_, ?_⟩, ?_⟩
    · intro hsame
      exact absurd hsame (World.putting_ne ho rfl)
    · intro hrefused
      exact absurd hrefusal (hrefused name hname)
    · intro _ hquotable
      rw [Heap.quotingFault?_eq_none.2 (hquotable name hname)] at hquoting
      cases hquoting

/-- The theorem at a descriptor of a value that an assignment has turned into an accessor: nothing
is defined, and the log says otherwise. And at a read-only list, which an equal one is to replace:
that is refused, and nothing has changed. -/
theorem failing_definitions_leave_of_sample :
    (let ops : List Operation := [.newObject none none, .mapping [("value", .int 1 .shared)],
      .assign (.descriptor 0) "kind" (.text "accessor" .shared)]
    let w : World Unit := { heap := Heap.after {} ops, host := () }
    let d : Descriptor Value := {
      kind := .accessor, value := some (.int 1 .shared), explicit := .ofList [.kind, .value] }
    let k : Value := .text "k" .shared
    let run : Act Unit Unit := Act.define (.object 0) k (.descriptor 0)
    w.heap.object? 0 = some {} ∧ w.heap.descriptor? 0 = some d ∧
      ∃ f w', run.Fails w f w' ∧ FailedDefinition w 0 {} k d f w' ∧
        w'.heap.object? 0 = some { log := [.text "k"] } ∧ w' ≠ w) ∧
    let one (copy : Nat) : Value := .list [.int 1 .shared] (.kept copy)
    let x : Value := .text "x" .shared
    let ops : List Operation := [.newObject none none, .mapping [("value", one 0)],
      .define (.object 0) x (.descriptor 0), .mapping [("value", one 1)]]
    let w : World Unit := { heap := Heap.after {} ops, host := () }
    let o : Object := {
      properties := [(.text "x", { Descriptor.frozenSample with value := some (one 0) })],
      log := [.text "x"] }
    let d (copy : Nat) : Descriptor Value := {
      value := some (one copy), explicit := .ofList [.kind, .value] }
    let run : Act Unit Unit := Act.define (.object 0) x (.descriptor 1)
    w.heap.object? 0 = some o ∧ w.heap.descriptor? 1 = some (d 1) ∧
      ∃ f, FailedDefinition w 0 o x (d 1) f w ∧ run.Fails w f w := by
  constructor
  · intro ops w d k run
    obtain ⟨hfails, hchange⟩ :=
      failing_definitions_leave (o := {}) (d := d) (r := 0) (q := 0) ops () k rfl rfl
    have hmisshapen : FailedDefinition w 0 {} k d _ _ := .misshapen (.text "k") rfl rfl rfl
    have hrun := (hfails _ _).2 hmisshapen
    refine ⟨rfl, rfl, _, _, hrun, hmisshapen, rfl, ?_⟩
    intro hsame
    exact (hchange _ _ hrun).1.1 hsame (.text "k") rfl rfl
  · intro one x ops w o d run
    -- the history is run once
    have hheap : Heap.after {} ops = { objects := #[o], descriptors := #[d 0, d 1] } := rfl
    have ho : (Heap.after {} ops).object? 0 = some o := by rw [hheap]; rfl
    have hd : (Heap.after {} ops).descriptor? 1 = some (d 1) := by rw [hheap]; rfl
    have hrefused : FailedDefinition w 0 o x (d 1) _ w := .refused (.text "x") .readOnly rfl rfl
    have hrun := ((failing_definitions_leave ops () x ho hd).1 _ _).2 hrefused
    exact ⟨ho, hd, _, hrefused, hrun⟩

end Undecorate
