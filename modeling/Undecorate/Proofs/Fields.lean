import Undecorate.Data
import Undecorate.Proofs.Lookup

/-! # Fields

Setting a field changes this field only, and names no field twice. A value in which no record names
a field twice is a mapping of mappings: what it holds does not depend on the order of its fields.
-/

namespace Undecorate

section

variable {κ α : Type} [DecidableEq κ] {key : κ} {value : α} {fields : List (κ × α)}

/-- The first field is found by its name, and every other name is looked up behind it. -/
theorem lookup_field_cons (key : κ) (f : κ × α) (fields : List (κ × α)) :
    (f :: fields).lookup key = if key = f.1 then some f.2 else fields.lookup key := by
  rw [List.lookup_cons]
  by_cases h : key = f.1
  · rw [if_pos h, h, beq_self_eq_true]
  · rw [if_neg h, beq_eq_false_iff_ne.2 h]

theorem lookup_eq_none_of_not_mem (h : key ∉ fields.map (·.1)) : fields.lookup key = none :=
  Option.not_isSome_iff_eq_none.1 (mt isSome_lookup_iff_mem.1 h)

theorem lookup_setField (key key' : κ) (value : α) (fields : List (κ × α)) :
    (setField key value fields).lookup key' =
      if key' = key then some value else fields.lookup key' := by
  induction fields with
  | nil => simp [setField, lookup_field_cons]
  | cons f fields ih =>
    by_cases hfirst : f.1 = key
    · rw [setField, if_pos hfirst, lookup_field_cons, lookup_field_cons, hfirst]
      by_cases hkey : key' = key <;> simp [hkey]
    · rw [setField, if_neg hfirst, lookup_field_cons, lookup_field_cons, ih]
      by_cases hkey : key' = f.1
      · rw [if_pos hkey, if_pos hkey, if_neg fun h => hfirst (hkey.symm.trans h)]
      · rw [if_neg hkey, if_neg hkey]

/-- A field that has the value already is left as it is, and so are all others. -/
theorem setField_eq_self (h : fields.lookup key = some value) :
    setField key value fields = fields := by
  induction fields with
  | nil => cases h
  | cons f fields ih =>
    rw [lookup_field_cons] at h
    by_cases hfirst : f.1 = key
    · rw [if_pos hfirst.symm, Option.some.injEq] at h
      rw [setField, if_pos hfirst, ← h]
    · rw [if_neg fun heq => hfirst heq.symm] at h
      rw [setField, if_neg hfirst, ih h]

theorem mem_of_mem_setField {f : κ × α} (h : f ∈ setField key value fields) :
    f = (key, value) ∨ f ∈ fields := by
  induction fields with
  | nil => exact .inl (List.mem_singleton.1 h)
  | cons g fields ih =>
    by_cases hfirst : g.1 = key
    · rw [setField, if_pos hfirst, List.mem_cons] at h
      rcases h with rfl | h
      · exact .inl (by rw [hfirst])
      · exact .inr (List.mem_cons_of_mem g h)
    · rw [setField, if_neg hfirst, List.mem_cons] at h
      rcases h with rfl | h
      · exact .inr List.mem_cons_self
      · exact (ih h).imp_right (List.mem_cons_of_mem g)

theorem nodup_setField (h : (fields.map (·.1)).Nodup) :
    ((setField key value fields).map (·.1)).Nodup := by
  induction fields with
  | nil => exact List.nodup_singleton key
  | cons f fields ih =>
    rw [List.map_cons, List.nodup_cons] at h
    by_cases hfirst : f.1 = key
    · rw [setField, if_pos hfirst, List.map_cons, List.nodup_cons]
      exact h
    · rw [setField, if_neg hfirst, List.map_cons, List.nodup_cons]
      refine ⟨fun hmem => ?_, ih h.2⟩
      obtain ⟨g, hg, hname⟩ := List.mem_map.1 hmem
      rcases mem_of_mem_setField hg with rfl | hg
      · exact hfirst hname.symm
      · exact h.1 (List.mem_map.2 ⟨g, hg, hname⟩)

end

namespace Data

theorem isWritable_list {items : List Data} :
    (Data.list items).isWritable = true ↔ ∀ item ∈ items, item.isWritable = true := by
  change areItemsWritable items = true ↔ _
  induction items with
  | nil => simp [areItemsWritable]
  | cons item items ih => simp [areItemsWritable, ih]

theorem isWritable_record {fields : List (Text × Data)} :
    (Data.record fields).isWritable = true ↔ ∀ field ∈ fields, field.2.isWritable = true := by
  change areFieldsWritable fields = true ↔ _
  induction fields with
  | nil => simp [areFieldsWritable]
  | cons field fields ih => simp [areFieldsWritable, ih]

/-- No record in the value names a field twice. -/
inductive Distinct : Data → Prop where
  | null : Distinct .null
  | bool (b : Bool) : Distinct (.bool b)
  | int (n : Int) : Distinct (.int n)
  | float (x : Double) : Distinct (.float x)
  | text (t : Text) : Distinct (.text t)
  | list {items : List Data} (items_distinct : ∀ item ∈ items, Distinct item) :
      Distinct (.list items)
  | record {fields : List (Text × Data)} (names : (fields.map (·.1)).Nodup)
      (values : ∀ field ∈ fields, Distinct field.2) : Distinct (.record fields)

theorem Distinct.names {fields : List (Text × Data)} (h : Distinct (.record fields)) :
    (fields.map (·.1)).Nodup := by
  cases h with
  | record names values => exact names

theorem Distinct.field {fields : List (Text × Data)} (h : Distinct (.record fields))
    {name : Text} {d : Data} (hfield : (name, d) ∈ fields) : Distinct d := by
  cases h with
  | record names values => exact values (name, d) hfield

theorem Distinct.no_fields : Distinct (.record []) :=
  .record List.nodup_nil (List.forall_mem_nil _)

/-- Part of a record's fields are distinct fields too. -/
theorem Distinct.sublist {fields fields' : List (Text × Data)} (h : Distinct (.record fields))
    (hsub : fields'.Sublist fields) : Distinct (.record fields') :=
  .record (h.names.sublist (hsub.map _)) fun _ hfield => h.field (hsub.mem hfield)

theorem Distinct.setField {fields : List (Text × Data)} (h : Distinct (.record fields))
    {key : Text} {value : Data} (hvalue : Distinct value) :
    Distinct (.record (setField key value fields)) := by
  refine .record (nodup_setField h.names) fun field hfield => ?_
  rcases mem_of_mem_setField hfield with rfl | hfield
  · exact hvalue
  · exact h.field hfield

end Data

end Undecorate
