import Undecorate.Files.Path
import Undecorate.Proofs.Text.Pieces
import Mathlib.Order.Basic

/-! # Paths and their parts

A path below a folder leads along the parts of the folder and then along the names below it.

* `parts_ofParts`: parts that are written as a path are its parts;
* `steps_tidy`: where the shortest spelling of a path leads along;
* `steps_below`: where a path below a folder leads along.
-/

namespace Undecorate.Path

/-- A text that can stand between slashes. -/
structure IsPart (p : String) : Prop where
  nonempty : p ≠ ""
  noSlash : '/' ∉ p.toList

theorem IsPart.of_mem_parts {path p : String} (h : p ∈ parts path) : IsPart p ∧ p ≠ "." := by
  obtain ⟨hcut, hp⟩ := List.mem_filter.1 h
  obtain ⟨cs, hcs, rfl⟩ := List.mem_map.1 hcut
  simp only [Bool.and_eq_true, bne_iff_ne, ne_eq] at hp
  refine ⟨⟨hp.1, ?_⟩, hp.2⟩
  rw [String.toList_ofList]
  exact Text.not_mem_of_mem_pieces hcs

/-- Parts that are written as a path are found when it is cut at its slashes. -/
theorem cutAt_ofParts {ps : List String} (hne : ps ≠ []) (h : ∀ p ∈ ps, IsPart p) :
    Text.cutAt '/' (ofParts ps) = ps := by
  induction ps with
  | nil => exact absurd rfl hne
  | cons p ps ih =>
    have hp : '/' ∉ p.toList := (h p List.mem_cons_self).noSlash
    cases ps with
    | nil => simp [ofParts, Text.cutAt, Text.pieces_of_not_mem hp]
    | cons q qs =>
      have hrest := ih (List.cons_ne_nil q qs) fun x hx => h x (List.mem_cons_of_mem p hx)
      have htext : (ofParts (p :: q :: qs)).toList =
          p.toList ++ '/' :: (ofParts (q :: qs)).toList := by simp [ofParts]
      rw [Text.cutAt, htext, Text.pieces_append_cons, Text.pieces_of_not_mem hp, List.map_append,
        ← Text.cutAt, hrest]
      simp

theorem cutAt_empty : Text.cutAt '/' "" = [""] := rfl

/-- Written as a path, parts with a text between slashes end in no slash. -/
theorem getLast?_ofParts {ps : List String} (h : ∀ p ∈ ps, IsPart p) :
    (ofParts ps).toList.getLast? ≠ some '/' := by
  rcases List.eq_nil_or_concat ps with rfl | ⟨qs, p, rfl⟩
  · simp [ofParts]
  · rw [List.concat_eq_append] at h ⊢
    have hp : IsPart p := h p (by simp)
    have hne : p.toList ≠ [] := by simpa using hp.nonempty
    have hlast : (ofParts (qs ++ [p])).toList.getLast? = p.toList.getLast? := by
      cases qs with
      | nil => simp [ofParts]
      | cons q qs =>
        rw [ofParts, String.intercalate_append_of_ne_nil (by simp) (by simp)]
        simp [List.getLast?_append, List.getLast?_cons, List.getLast?_eq_some_getLast hne]
    rw [hlast]
    intro hslash
    exact hp.noSlash (List.mem_of_getLast? hslash)

theorem filter_parts {ps : List String} (h : ∀ p ∈ ps, IsPart p) : ps.filter (· != "") = ps := by
  rw [List.filter_eq_self]
  intro p hp
  simpa using (h p hp).nonempty

theorem steps_ofParts {ps : List String} (h : ∀ p ∈ ps, IsPart p) : steps (ofParts ps) = ps := by
  rcases eq_or_ne ps [] with rfl | hne
  · rfl
  · rw [steps, cutAt_ofParts hne h, filter_parts h, if_neg, List.append_nil]
    rw [beq_iff_eq]
    exact getLast?_ofParts h

theorem parts_ofParts {ps : List String} (h : ∀ p ∈ ps, IsPart p) (hdot : ∀ p ∈ ps, p ≠ ".") :
    parts (ofParts ps) = ps := by
  rcases eq_or_ne ps [] with rfl | hne
  · rfl
  · rw [parts, cutAt_ofParts hne h, List.filter_eq_self]
    intro p hp
    simpa using ⟨(h p hp).nonempty, hdot p hp⟩

theorem parts_append_slash (a b : String) : parts (a ++ "/" ++ b) = parts a ++ parts b := by
  have htext : (a ++ "/" ++ b).toList = a.toList ++ '/' :: b.toList := by simp
  rw [parts, Text.cutAt, htext, Text.pieces_append_cons, List.map_append, List.filter_append]
  rfl

theorem isAbsolute_ofParts {ps : List String} (h : ∀ p ∈ ps, IsPart p) :
    isAbsolute (ofParts ps) = false := by
  cases ps with
  | nil => rfl
  | cons p ps =>
    have hp : IsPart p := h p List.mem_cons_self
    have hne : p.toList ≠ [] := by simpa using hp.nonempty
    obtain ⟨c, cs, hcs⟩ := List.exists_cons_of_ne_nil hne
    have hhead : (ofParts (p :: ps)).toList.head? = some c := by
      cases ps with
      | nil => simp [ofParts, hcs]
      | cons q qs => simp [ofParts, hcs]
    have hc : c ≠ '/' := by
      rintro rfl
      exact hp.noSlash (by simp [hcs])
    simp [isAbsolute, hhead, hc]

/-- The shortest spelling of a path that starts where one is. -/
theorem tidy_of_not_isAbsolute {path : String} (h : isAbsolute path = false) :
    tidy path = if parts path = [] then "." else ofParts (parts path) := by
  have hempty : (ofParts (parts path)).isEmpty = true ↔ parts path = [] := by
    constructor
    · intro he
      by_contra hne
      have hcut := cutAt_ofParts hne fun p hp => (IsPart.of_mem_parts hp).1
      rw [String.isEmpty_iff.1 he, cutAt_empty] at hcut
      have hmem : "" ∈ parts path := by
        rw [← hcut]
        exact List.mem_cons_self
      exact (IsPart.of_mem_parts hmem).1.nonempty rfl
    · intro hnil
      rw [hnil]
      rfl
  rw [tidy, h]
  simp only [Bool.false_eq_true, if_false, hempty]

theorem steps_tidy {path : String} (h : isAbsolute path = false) :
    steps (tidy path) = if parts path = [] then ["."] else parts path := by
  rw [tidy_of_not_isAbsolute h]
  split
  · decide +kernel
  · exact steps_ofParts fun p hp => (IsPart.of_mem_parts hp).1

theorem isAbsolute_tidy (path : String) : isAbsolute (tidy path) = isAbsolute path := by
  cases h : isAbsolute path with
  | true =>
    rw [tidy, h]
    simp [isAbsolute]
  | false =>
    rw [tidy_of_not_isAbsolute h]
    split
    · decide +kernel
    · exact isAbsolute_ofParts fun p hp => (IsPart.of_mem_parts hp).1

section Below

variable {folder : String} {relative : List String}

/-- What a path below a folder is made of. -/
private theorem unfold_below (folder : String) (h : ∀ p ∈ relative, IsPart p)
    (hdot : ∀ p ∈ relative, p ≠ ".") :
    ∃ path, below folder relative = tidy path ∧ parts path = parts folder ++ relative ∧
      isAbsolute path = isAbsolute folder := by
  refine ⟨_, rfl, ?_⟩
  split
  · rename_i hempty
    rw [String.isEmpty_iff.1 hempty, parts_ofParts h hdot, isAbsolute_ofParts h]
    exact ⟨rfl, rfl⟩
  · rename_i hne
    rw [parts_append_slash, parts_ofParts h hdot]
    refine ⟨rfl, ?_⟩
    have hcs : folder.toList ≠ [] := by simpa [String.isEmpty_iff] using hne
    obtain ⟨c, cs, hc⟩ := List.exists_cons_of_ne_nil hcs
    simp [isAbsolute, hc]

theorem isAbsolute_below (h : ∀ p ∈ relative, IsPart p) (hdot : ∀ p ∈ relative, p ≠ ".") :
    isAbsolute (below folder relative) = isAbsolute folder := by
  obtain ⟨path, hpath, -, habsolute⟩ := unfold_below folder h hdot
  rw [hpath, isAbsolute_tidy, habsolute]

/-- A path below a folder leads along the folder's parts and then along the names below it. -/
theorem steps_below (h : ∀ p ∈ relative, IsPart p) (hdot : ∀ p ∈ relative, p ≠ ".")
    (hne : relative ≠ []) (hfolder : isAbsolute folder = false) :
    steps (below folder relative) = parts folder ++ relative := by
  obtain ⟨path, hpath, hparts, habsolute⟩ := unfold_below folder h hdot
  rw [hpath, steps_tidy (habsolute.trans hfolder), hparts, if_neg]
  simp [hne]

end Below

theorem tidy_ne_empty (path : String) : tidy path ≠ "" := by
  intro h
  have hempty : (tidy path).isEmpty = true := by rw [h]; rfl
  rw [tidy] at hempty
  split at hempty
  · simp [String.isEmpty_iff] at hempty
  · split at hempty
    · revert hempty
      decide
    · contradiction

theorem below_ne_empty (folder : String) (relative : List String) : below folder relative ≠ "" :=
  tidy_ne_empty _

end Undecorate.Path
