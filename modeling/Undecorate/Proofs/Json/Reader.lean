import Undecorate.Json.Reader
import Undecorate.Proofs.Except
import Undecorate.Proofs.Fields

/-! # What documents are read as

A document is read piece by piece, so what all pieces have and every putting together keeps, the
value that is read has. A field that is written twice is one field; so no record names a field
twice, at any depth. The digits of a whole number are not too many; so every value that is read can
be written.

* `Hereditary`: what every piece has and every putting together keeps;
* `read_hereditary`: the values that are read have it;
* `read_distinct`, `read_isWritable`: two properties of this kind.
-/

namespace Undecorate

/-! ## Digits -/

theorem Text.digitValue?_lt (c : Char) : (Text.digitValue? c).getD 0 < 10 := by
  unfold Text.digitValue?
  cases hzero : Text.digitZeros.find? fun z => z ≤ c.toNat && c.toNat < z + 10 with
  | none => exact Nat.zero_lt_succ 9
  | some z =>
    have hrange := List.find?_some hzero
    simp only [Bool.and_eq_true, decide_eq_true_eq] at hrange
    simp only [Option.map_some, Option.getD_some]
    omega

/-- A number has no more digits than it is written with. -/
theorem Number.decimalValue_lt (digits : List Char) :
    Number.decimalValue digits < Nat.pow 10 digits.length := by
  have hfold : ∀ n, digits.foldl (fun n c => n * 10 + (Text.digitValue? c).getD 0) n <
      (n + 1) * Nat.pow 10 digits.length := by
    induction digits with
    | nil => exact fun n => by simp
    | cons c digits ih =>
      intro n
      have hdigit := Text.digitValue?_lt c
      calc _ < (n * 10 + (Text.digitValue? c).getD 0 + 1) * Nat.pow 10 digits.length := ih _
        _ ≤ (n + 1) * 10 * Nat.pow 10 digits.length := Nat.mul_le_mul_right _ (by omega)
        _ = (n + 1) * Nat.pow 10 (c :: digits).length := by
          rw [Nat.mul_assoc, Nat.mul_comm 10]
          rfl
  exact Nat.lt_of_lt_of_eq (hfold 0) (Nat.one_mul _)

theorem Number.isWritable_of_digits {n : Int} {digits : List Char}
    (hn : n.natAbs = Number.decimalValue digits) (h : digits.length ≤ Number.digitLimit) :
    Number.isWritable n = true := by
  have hbound : ∀ limit, digits.length ≤ limit → Number.decimalValue digits < Nat.pow 10 limit :=
    fun _ hle => Nat.lt_of_lt_of_le (Number.decimalValue_lt digits)
      (Nat.pow_le_pow_right (Nat.zero_lt_succ 9) hle)
  unfold Number.isWritable Number.digitBound
  rw [decide_eq_true_iff, hn]
  exact hbound Number.digitLimit h

namespace Json

variable {P : Data → Prop}

/-- All pieces that values are put together from have the property, and what is put together from
values that have it has it as well. -/
structure Hereditary (P : Data → Prop) : Prop where
  word : ∀ entry ∈ words, P entry.2
  text : ∀ t, P (.text t)
  float : ∀ x, P (.float x)
  whole : ∀ (n : Int) (digits : List Char), n.natAbs = Number.decimalValue digits →
    digits.length ≤ Number.digitLimit → P (.int n)
  list : ∀ items, (∀ item ∈ items, P item) → P (.list items)
  noFields : P (.record [])
  field : ∀ fields key value, P (.record fields) → P value → P (.record (setField key value fields))

theorem hereditary_distinct : Hereditary Data.Distinct where
  word := by
    intro entry hentry
    simp only [words, List.mem_cons, List.not_mem_nil, or_false] at hentry
    rcases hentry with rfl | rfl | rfl | rfl | rfl | rfl <;> constructor
  text := .text
  float := .float
  whole := fun n _ _ _ => .int n
  list := fun _ => .list
  noFields := Data.Distinct.no_fields
  field := fun _ _ _ hfields hvalue => hfields.setField hvalue

theorem hereditary_isWritable : Hereditary fun d => d.isWritable = true where
  word := by decide
  text := fun _ => rfl
  float := fun _ => rfl
  whole := fun _ _ hn h => Number.isWritable_of_digits hn h
  list := fun _ hitems => Data.isWritable_list.2 hitems
  noFields := rfl
  field := by
    intro fields key value hfields hvalue
    rw [Data.isWritable_record] at hfields ⊢
    intro f hf
    rcases mem_of_mem_setField hf with rfl | hf
    · exact hvalue
    · exact hfields f hf

section

variable (hP : Hereditary P)

include hP

theorem readWord?_hereditary {here : Nat} {cs : List Char} {p : Parsed Data}
    (h : readWord? here cs = some p) : P p.value := by
  obtain ⟨⟨w, d⟩, hword, hp⟩ := List.exists_of_findSome?_eq_some h
  dsimp only at hp
  split at hp
  · cases hp
    exact hP.word _ hword
  · cases hp

theorem readNumber_hereditary {here : Nat} {cs : List Char} {p : Parsed Data}
    (h : readNumber here cs = .ok p) : P p.value := by
  unfold readNumber at h
  dsimp only at h
  split at h
  · cases h
  · split at h
    · cases h
      exact hP.float _
    · split at h
      · cases h
      · rename_i hlimit
        cases h
        refine hP.whole _ _ ?_ (Nat.le_of_not_lt hlimit)
        split_ifs
        · exact Int.natAbs_natCast _
        · rw [Int.natAbs_neg, Int.natAbs_natCast]

/-- What the reader gives has the property if what it has read so far has it. -/
theorem readValue_hereditary (fuel : Nat) :
    (∀ room here cs p, readValue fuel room here cs = .ok p → P p.value) ∧
    (∀ room done here cs p, (∀ item ∈ done, P item) →
      readItems fuel room done here cs = .ok p → P p.value) ∧
    (∀ room done here cs p, P (.record done) →
      readFields fuel room done here cs = .ok p → P p.value) := by
  induction fuel with
  | zero =>
    refine ⟨fun _ _ _ _ h => ?_, fun _ _ _ _ _ _ h => ?_, fun _ _ _ _ _ _ h => ?_⟩
    · simp [readValue] at h
    · simp [readItems] at h
    · simp [readFields] at h
  | succ fuel ih =>
    obtain ⟨ihValue, ihItems, ihFields⟩ := ih
    refine ⟨fun room here cs p h => ?value, fun room done here cs p hdone h => ?items,
      fun room done here cs p hdone h => ?fields⟩
    case value =>
      -- a text, a record, a list, and what is neither of them
      unfold readValue at h
      split at h
      · obtain ⟨s, -, h⟩ := bind_eq_ok.1 h
        cases h
        exact hP.text _
      · split at h
        · cases h
        · cases h
          exact hP.noFields
        · exact ihFields _ _ _ _ _ hP.noFields h
      · split at h
        · cases h
        · cases h
          exact hP.list [] (List.forall_mem_nil _)
        · exact ihItems _ _ _ _ _ (by simp) h
      · split at h
        · rename_i found hword
          cases h
          exact readWord?_hereditary hP hword
        · exact readNumber_hereditary hP h
    case items =>
      unfold readItems at h
      obtain ⟨item, hitem, h⟩ := bind_eq_ok.1 h
      have hmore : ∀ d ∈ item.spaced.value :: done, P d :=
        List.forall_mem_cons.2 ⟨ihValue _ _ _ item hitem, hdone⟩
      dsimp only at h
      split at h
      · cases h
        exact hP.list _ fun d hd => hmore d (List.mem_reverse.1 hd)
      · exact ihItems _ _ _ _ _ hmore h
      · cases h
    case fields =>
      unfold readFields at h
      split at h
      · obtain ⟨key, -, h⟩ := bind_eq_ok.1 h
        dsimp only at h
        split at h
        · obtain ⟨value, hvalue, h⟩ := bind_eq_ok.1 h
          have hmore : P (.record (setField key.text value.spaced.value done)) :=
            hP.field _ _ _ hdone (ihValue _ _ _ value hvalue)
          split at h
          · cases h
            exact hmore
          · exact ihFields _ _ _ _ _ hmore h
          · cases h
        · cases h
      · cases h

/-- What is hereditary holds of every value that is read from a document. -/
theorem read_hereditary {document : List Char} {d : Data} (h : read document = .ok d) : P d := by
  unfold read at h
  dsimp only at h
  split at h
  · cases h
  · obtain ⟨found, hfound, h⟩ := bind_eq_ok.1 h
    split at h
    · cases h
      exact (readValue_hereditary hP _).1 _ _ _ found hfound
    · cases h

end

variable {document : List Char} {d : Data}

/-- No record in a document that was read names a field twice. -/
theorem read_distinct (h : read document = .ok d) : d.Distinct :=
  read_hereditary hereditary_distinct h

/-- A value that was read can be written. -/
theorem read_isWritable (h : read document = .ok d) : d.isWritable = true :=
  read_hereditary hereditary_isWritable h

end Json

end Undecorate
