import Undecorate.Proofs.Declaration.Attachment
import Undecorate.Proofs.Declaration.Reads

/-! # Where keys are written

A member that is built from a tree has its key at the place that it says, so another text can be put
there.

* `declaration_written`: so it is for all members of a declaration with computed keys;
* `Member.sourceWithKey_of_split`: what the source is with another text in place of the key.
-/

namespace Undecorate

theorem Member.place_natCast {length n : Nat} (h : n ≤ length) : Member.place length n = n := by
  unfold Member.place
  rw [if_pos (Int.natCast_nonneg n), Int.toNat_natCast, Nat.min_eq_left h]

/-- A text with a stretch in the middle that is replaced. -/
theorem Member.sourceWithKey_of_split {m : Member} {head text tail : String}
    (hsource : m.source = head ++ text ++ tail)
    (hspan : m.keySpan = some ((head.length : Int), (head.length + text.length : Int)))
    (new : String) : m.sourceWithKey new = head ++ new ++ tail := by
  have hcs : m.source.toList = head.toList ++ text.toList ++ tail.toList := by
    rw [hsource, String.toList_append, String.toList_append]
  have hlength : m.source.toList.length = head.length + text.length + tail.length := by
    simp only [hcs, List.length_append, String.length_toList]
  have htake : m.source.toList.take head.length = head.toList := by
    rw [hcs, List.append_assoc, ← String.length_toList, List.take_left]
  have hdrop : m.source.toList.drop (head.length + text.length) = tail.toList := by
    rw [hcs, ← String.length_toList, ← String.length_toList, ← List.length_append, List.drop_left]
  simp only [Member.sourceWithKey, hspan]
  rw [← Int.natCast_add, Member.place_natCast (by omega), Member.place_natCast (by omega), htake,
    hdrop, String.ofList_toList, String.ofList_toList]

/-- What is known of the computed key of a member: which members have one, and where it stands. -/
structure Member.Written (m : Member) : Prop where
  kind : ∀ k, m.key = some k → k.isComputed = true →
    m.kind.isFunction = true ∨ m.kind = .field ∨ m.kind = .property
  placed : ∀ k, m.key = some k → k.isComputed = true → ∃ head text tail,
    m.source = head ++ text ++ tail ∧
      m.keySpan = some ((head.length : Int), (head.length + text.length : Int))

/-- Nothing is said of a member whose key is no computed one. -/
theorem Member.Written.of_plain {m : Member} (h : ∀ k, m.key = some k → k.isComputed = false) :
    m.Written := by
  refine ⟨fun k hk hc => ?_, fun k hk hc => ?_⟩
  · rw [h k hk] at hc
    cases hc
  · rw [h k hk] at hc
    cases hc

theorem Member.Written.isComputed_eq_false {m : Member} (h : m.Written)
    (hkind : ¬(m.kind.isFunction = true ∨ m.kind = .field ∨ m.kind = .property)) :
    ∀ k, m.key = some k → k.isComputed = false := by
  intro k hk
  rw [← Bool.not_eq_true]
  exact fun hc => hkind (h.kind k hk hc)

section Members

variable {r : Reading} {inClass : Bool} {t : Tree} {m : Member} {preceding : List Tree}

theorem isConstructKey_eq_ok {name : Tree} (h : r.isConstructKey name = .ok true) :
    name.kind ≠ "computed_property_name" := by
  intro hkind
  simp [Reading.isConstructKey, hkind] at h

/-- The parts of a member have no key yet. A node for it is that of a function, a field or a pair,
or the plain name of a constructor. -/
theorem Reading.PartsOf.key_eq_none {parts : Member} {name : Option Tree}
    (h : r.PartsOf t inClass parts name) : parts.key = none ∧
      ∀ node, name = some node → parts.kind.isFunction = true ∨ parts.kind = .field ∨
        parts.kind = .property ∨ node.kind ≠ "computed_property_name" := by
  cases h with
  | @method name _ _ _ isConstruct _ _ _ _ _ hconstruct =>
    refine ⟨rfl, ?_⟩
    rintro node ⟨⟩
    cases isConstruct with
    | true =>
      -- only a plain name makes the method a constructor
      exact .inr (.inr (.inr (isConstructKey_eq_ok (Reading.of_constructs hconstruct).2.1)))
    | false => exact .inl (MemberKind.isFunction_ofModifiers _)
  | field => exact ⟨rfl, fun _ _ => .inr (.inl rfl)⟩
  | pair => exact ⟨rfl, fun _ _ => .inr (.inr (.inl rfl))⟩
  | _ => exact ⟨rfl, by simp⟩

theorem key_isComputed {k : Key} (h : r.key t = .ok k) (hk : k.isComputed = true) :
    t.kind = "computed_property_name" := by
  unfold Reading.key at h
  split at h
  · rename_i hkind
    exact eq_of_beq hkind
  · obtain ⟨text, -, h⟩ := bind_eq_ok.1 h
    cases pure_eq_ok.1 h
    cases hk

theorem member_written (h : r.member preceding inClass t = .ok m) : m.Written := by
  obtain ⟨decorators, parts, name, -, hparts, hsourced⟩ := Reading.member_cases h
  obtain ⟨hnone, hnode⟩ := hparts.key_eq_none
  -- without a node for it, the key of a member is a plain name or there is none
  cases hsourced with
  | shorthand => exact .of_plain (by rintro k ⟨⟩; rfl)
  | plain => exact .of_plain fun k hk => by cases hnone.symm.trans hk
  | keyed _ hname hkey =>
    refine ⟨?_, fun _ _ _ => ⟨_, _, _, rfl, rfl⟩⟩
    rintro k ⟨⟩ hcomputed
    rcases hnode _ hname with hkind | hkind | hkind | hplain
    · exact .inl hkind
    · exact .inr (.inl hkind)
    · exact .inr (.inr hkind)
    · exact absurd (key_isComputed hkey hcomputed) hplain

end Members

section Declarations

variable {r : Reading} {l : Located} {d : Declaration}

theorem declaration_written (h : r.declaration l = .ok d) : ∀ m ∈ d.members, m.Written := by
  intro m hm
  obtain ⟨row, -, hbuilt⟩ := exists_row_of_member h hm
  exact member_written hbuilt

end Declarations

end Undecorate
