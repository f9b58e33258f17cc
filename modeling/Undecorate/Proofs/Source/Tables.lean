import Mathlib.Data.List.Pairwise
import Undecorate.Proofs.Source.Seams

/-! # Tables of replacements

A buffer is filled by one replacement after the other. When any two of them are apart or one lies
inside the other, the order in which they are made leaves no trace: the buffer reads a stretch as
its outermost replacements tell.

* `filled_eq`: a buffer holds the replacements that were made;
* `read?_of_perm`: what is read does not depend on their order;
* `Buffer.Laid.read?_parts`: a stretch is what its two parts are read as;
* `stretches_read_their_outermost`: all of it for a table that is filled in any order.
-/

namespace Undecorate.Source

variable {source : List Char} {table order rs done : List Replacement} {p q r : Replacement}
  {a b c : Int}

theorem Replacement.Laminar.ne_stretch (h : p.Laminar q) (hn : p.start < p.stop) :
    ¬(p.start = q.start ∧ p.stop = q.stop) := by
  unfold Laminar Ordered Before Nested at h
  omega

namespace Buffer

/-- A text in which replacements are made, one after the other. -/
def filled (source : List Char) (rs : List Replacement) : Buffer := rs.foldl replace { source }

/-- A replacement of a new stretch takes the place of no earlier one. -/
theorem replace_of_new (h : ∀ q ∈ done, q.Laminar r) (hn : ∀ q ∈ done, q.start < q.stop) :
    replace ⟨source, done⟩ r = ⟨source, done ++ [r]⟩ := by
  have hkept : done.filter (fun q => !(q.start == r.start && q.stop == r.stop)) = done := by
    rw [List.filter_eq_self]
    intro q hq
    have hne := (h q hq).ne_stretch (hn q hq)
    simpa only [Bool.not_eq_true', ← Bool.not_eq_true, Bool.and_eq_true, beq_iff_eq] using hne
  unfold replace
  rw [hkept]

theorem foldl_replace (hlam : (done ++ rs).Pairwise Replacement.Laminar)
    (hn : ∀ q ∈ done ++ rs, q.start < q.stop) :
    rs.foldl replace ⟨source, done⟩ = ⟨source, done ++ rs⟩ := by
  induction rs generalizing done with
  | nil => rw [List.append_nil, List.foldl_nil]
  | cons r rs ih =>
    have hnew : ∀ q ∈ done, q.Laminar r := fun q hq =>
      (List.pairwise_append.1 hlam).2.2 q hq r List.mem_cons_self
    have hmove : done ++ r :: rs = done ++ [r] ++ rs := by simp
    rw [List.foldl_cons, replace_of_new hnew fun q hq => hn q (List.mem_append_left _ hq), hmove]
    rw [hmove] at hlam hn
    exact ih hlam hn

theorem filled_eq (h : ({ source, replacements := rs } : Buffer).Laid) :
    filled source rs = { source, replacements := rs } :=
  foldl_replace h.laminar h.nonempty

theorem Laid.perm (h : ({ source, replacements := table } : Buffer).Laid)
    (horder : order.Perm table) : ({ source, replacements := order } : Buffer).Laid where
  cut r hr := h.cut r (horder.subset hr)
  nonempty r hr := h.nonempty r (horder.subset hr)
  laminar := h.laminar.perm horder.symm Replacement.Laminar.symm

/-- Replacements of different stretches are sorted in one way only. -/
theorem mergeSort_of_perm (h : ({ source, replacements := table } : Buffer).Laid)
    (horder : order.Perm table) :
    order.mergeSort outermostFirst = table.mergeSort outermostFirst := by
  have hleft := List.mergeSort_perm order outermostFirst
  have hright := List.mergeSort_perm table outermostFirst
  refine List.Perm.eq_of_pairwise ?_ (pairwise_outermostFirst order)
    (pairwise_outermostFirst table) ((hleft.trans horder).trans hright.symm)
  intro p q hp hq hpq hqp
  have hp : p ∈ table := horder.subset (hleft.subset hp)
  have hq : q ∈ table := hright.subset hq
  by_contra hne
  have hsymm : Std.Symm Replacement.Laminar := ⟨fun _ _ => Replacement.Laminar.symm⟩
  refine (h.laminar.forall hp hq hne).ne_stretch (h.nonempty p hp) ?_
  simp only [outermostFirst, Bool.or_eq_true, decide_eq_true_eq, Bool.and_eq_true,
    beq_iff_eq] at hpq hqp
  omega

theorem read?_of_perm (h : ({ source, replacements := table } : Buffer).Laid)
    (horder : order.Perm table) (a b : Int) :
    (filled source order).read? a b = (filled source table).read? a b := by
  rw [filled_eq h, filled_eq (h.perm horder)]
  unfold read?
  rw [mergeSort_of_perm h horder]

/-- A stretch between characters is read as the source with its outermost replacements in their
places. -/
theorem Laid.read?_taken {buffer : Buffer} (h : buffer.Laid) (ha : Boundary buffer.source a)
    (hb : Boundary buffer.source b) :
    ∃ taken out, taken.Perm (outermost (inside a b buffer.replacements)) ∧
      taken.Pairwise Replacement.Before ∧ splice buffer.source b a taken = some out ∧
      buffer.read? a b = some out := by
  obtain ⟨taken, hperm, hbefore, hread⟩ :=
    buffer.exists_read?_eq_splice a b h.nonempty h.laminar
  obtain ⟨out, hout⟩ := h.exists_read? ha hb
  exact ⟨taken, out, hperm, hbefore, hread.symm.trans hout, hout⟩

/-- A stretch is what its two parts are read as, if no replacement has the seam in its middle. -/
theorem Laid.read?_parts {buffer : Buffer} (h : buffer.Laid) (ha : Boundary buffer.source a)
    (hb : Boundary buffer.source b) (hc : Boundary buffer.source c) (hab : a ≤ b) (hbc : b ≤ c)
    (hseam : ∀ r ∈ buffer.replacements, ¬(r.start < b ∧ b < r.stop)) :
    ∃ x y, buffer.read? a b = some x ∧ buffer.read? b c = some y ∧
      buffer.read? a c = some (x ++ y) := by
  obtain ⟨x, hx⟩ := h.exists_read? ha hb
  obtain ⟨y, hy⟩ := h.exists_read? hb hc
  refine ⟨x, y, hx, hy, ?_⟩
  rw [h.read?_append hb ha.nonneg hab hbc, hx, hy]
  · rfl
  · intro r hr _
    have := hseam r hr
    omega

end Buffer

/-- When a table of replacements, any two of them apart or one inside the other, is filled into a
buffer in any order, a stretch is read as the source with those replacements in their places that
lie in the stretch and inside no other one that does; it is what its two parts are read as, if no
replacement has the seam in its middle; and the order does not matter. -/
theorem stretches_read_their_outermost
    (h : ({ source, replacements := table } : Buffer).Laid) (horder : order.Perm table) :
    (∀ a b, Boundary source a → Boundary source b → a ≤ b →
      ∃ taken out, taken.Perm (outermost (inside a b table)) ∧
        taken.Pairwise Replacement.Before ∧ splice source b a taken = some out ∧
        (Buffer.filled source order).read? a b = some out) ∧
    (∀ a b c, Boundary source a → Boundary source b → Boundary source c → a ≤ b → b ≤ c →
      (∀ r ∈ table, ¬(r.start < b ∧ b < r.stop)) →
      ∃ x y, (Buffer.filled source order).read? a b = some x ∧
        (Buffer.filled source order).read? b c = some y ∧
        (Buffer.filled source order).read? a c = some (x ++ y)) ∧
    ∀ a b, (Buffer.filled source order).read? a b = (Buffer.filled source table).read? a b := by
  have hsame := Buffer.read?_of_perm h horder
  have hfilled := Buffer.filled_eq h
  refine ⟨?_, ?_, hsame⟩
  · intro a b ha hb _
    rw [hsame, hfilled]
    exact h.read?_taken ha hb
  · intro a b c ha hb hc hab hbc hseam
    rw [hsame, hsame, hsame, hfilled]
    exact h.read?_parts ha hb hc hab hbc hseam

/-- A text whose characters have two bytes. -/
def sampleSource : List Char := "αβγδε".toList

/-- Replacements that touch, and some that lie inside another one, from its start or to its end. -/
def sampleTable : List Replacement :=
  [⟨0, 4, "x"⟩, ⟨2, 4, "y"⟩, ⟨0, 2, "z"⟩, ⟨4, 6, "w"⟩, ⟨6, 10, ""⟩]

/-- The theorem at a table that is filled in backwards, read in two parts that meet where two
replacements touch. -/
theorem stretches_read_their_outermost_of_sample :
    ({ source := sampleSource, replacements := sampleTable } : Buffer).Laid ∧
      sampleTable.reverse.Perm sampleTable ∧
      (Buffer.filled sampleSource sampleTable.reverse).read? 0 4 = some ['x'] ∧
      (Buffer.filled sampleSource sampleTable.reverse).read? 4 6 = some ['w'] ∧
      (Buffer.filled sampleSource sampleTable.reverse).read? 0 6 = some ['x', 'w'] := by
  have hlaid : ({ source := sampleSource, replacements := sampleTable } : Buffer).Laid := by
    decide
  have hperm : sampleTable.reverse.Perm sampleTable := List.reverse_perm _
  have hb : ∀ n ∈ [(0 : Int), 4, 6], Boundary sampleSource n := by decide
  obtain ⟨hreads, hparts, -⟩ := stretches_read_their_outermost hlaid hperm
  -- one replacement is taken on either side of the seam
  have hone : ∀ (a b : Int) (r : Replacement) (out : List Char), Boundary sampleSource a →
      Boundary sampleSource b → a ≤ b → outermost (inside a b sampleTable) = [r] →
      splice sampleSource b a [r] = some out →
      (Buffer.filled sampleSource sampleTable.reverse).read? a b = some out := by
    intro a b r out ha hb hab hout hsplice
    obtain ⟨taken, out', htaken, -, hsplice', hread⟩ := hreads a b ha hb hab
    rw [hout, List.perm_singleton] at htaken
    rw [htaken, hsplice] at hsplice'
    rw [hread, hsplice']
  have hleft := hone 0 4 ⟨0, 4, "x"⟩ ['x'] (hb 0 (by simp)) (hb 4 (by simp)) (by decide)
    (by decide) (by decide)
  have hright := hone 4 6 ⟨4, 6, "w"⟩ ['w'] (hb 4 (by simp)) (hb 6 (by simp)) (by decide)
    (by decide) (by decide)
  obtain ⟨x, y, hx, hy, hxy⟩ := hparts 0 4 6 (hb 0 (by simp)) (hb 4 (by simp)) (hb 6 (by simp))
    (by decide) (by decide) (by decide)
  obtain rfl := Option.some.inj (hx.symm.trans hleft)
  obtain rfl := Option.some.inj (hy.symm.trans hright)
  exact ⟨hlaid, hperm, hleft, hright, hxy⟩

end Undecorate.Source
