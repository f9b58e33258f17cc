import Undecorate.Object.Value

/-! # Identity of values

Two values are the same one iff they have the same form and hold the same, down to which copies they
are. So identity is equality of values as they stand here, where equal numbers, texts and containers
of a program are different values if they are different copies; and it decides equality, also of
descriptors of values.
-/

namespace Undecorate.Value

mutual

theorem same_iff : ∀ a b : Value, a.same b = true ↔ a = b
  | .list xs c, b => by
    cases b with
    | list ys d => rw [same, Bool.and_eq_true, beq_iff_eq, sameItems_iff xs ys, list.injEq]
    | _ => simp [same]
  | .record fs c, b => by
    cases b with
    | record gs d => rw [same, Bool.and_eq_true, beq_iff_eq, sameFields_iff fs gs, record.injEq]
    | _ => simp [same]
  | .absent, b | .bool _, b | .int _ _, b | .float _ _, b | .text _ _, b | .function _, b
  | .foreign _, b | .object _, b | .descriptor _, b | .source _ _, b | .member _ _, b => by
    cases b <;> simp [same]

theorem sameItems_iff : ∀ xs ys : List Value, sameItems xs ys = true ↔ xs = ys
  | [], ys => by cases ys <;> simp [sameItems]
  | x :: xs, ys => by
    cases ys with
    | nil => simp [sameItems]
    | cons y ys =>
      rw [sameItems, Bool.and_eq_true, same_iff x y, sameItems_iff xs ys, List.cons.injEq]

theorem sameFields_iff : ∀ fs gs : List (String × Value), sameFields fs gs = true ↔ fs = gs
  | [], gs => by cases gs <;> simp [sameFields]
  | (j, x) :: fs, gs => by
    cases gs with
    | nil => simp [sameFields]
    | cons g gs =>
      rcases g with ⟨k, y⟩
      rw [sameFields, Bool.and_eq_true, Bool.and_eq_true, beq_iff_eq, same_iff x y,
        sameFields_iff fs gs, List.cons.injEq, Prod.mk.injEq]

end

instance : DecidableEq Value := fun a b => decidable_of_iff _ (same_iff a b)

@[simp] theorem sameOption_iff (a b : Option Value) : sameOption a b = true ↔ a = b := by
  cases a <;> cases b <;> simp [sameOption, same_iff]

theorem propertyName_int (n : Int) (c : Copy) : (Value.int n c).propertyName =
    match Number.text? n with
    | some s => .ok (.text s)
    | none => .error .digits := by
  generalize hv : Value.int n c = v
  -- the bound on digits is never computed
  fun_cases Value.propertyName v with
  | case3 m _ s h =>
    cases hv
    rw [h]
  | case4 m _ h =>
    cases hv
    rw [h]
  | _ => cases hv

end Undecorate.Value
