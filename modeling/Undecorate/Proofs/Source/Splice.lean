import Mathlib.Data.List.Sort
import Undecorate.Source.Splice

/-! # What a buffer reads

A buffer is read by one scan over its replacements, sorted, that passes over what it cannot take.
Here the scan is told by its result:

* `splice`: a text with some replacements in their places, one after the other;
* `read?_eq_splice`: when any two replacements are apart or one lies inside the other, a stretch is
  read as the splice of the outermost replacements inside it;
* `between?_whole`: a text without replacements is read as it is.
-/

namespace Undecorate.Source

/-- The text from `here` to `stop` with replacements in their places, none of them passed over. -/
def splice (source : List Char) (stop : Int) : Int → List Replacement → Option (List Char)
  | here, [] => between? source here stop
  | here, r :: rs => do
    let before ← between? source here r.start
    let after ← splice source stop r.stop rs
    return before ++ r.text.toList ++ after

namespace Replacement

/-- One stretch ends before the other begins. -/
def Before (p q : Replacement) : Prop := p.stop ≤ q.start

/-- One stretch lies inside the other and is not the same. -/
def Nested (p q : Replacement) : Prop :=
  (q.start ≤ p.start ∧ p.stop ≤ q.stop) ∧ ¬(p.start ≤ q.start ∧ q.stop ≤ p.stop)

instance (p q : Replacement) : Decidable (p.Nested q) := inferInstanceAs (Decidable (_ ∧ _))

/-- The stretch lies between two offsets. -/
def Inside (a b : Int) (r : Replacement) : Prop := a ≤ r.start ∧ r.stop ≤ b

instance (a b : Int) (r : Replacement) : Decidable (r.Inside a b) :=
  inferInstanceAs (Decidable (_ ∧ _))

/-- The stretch lies partly between two offsets. -/
def Cut (a b : Int) (r : Replacement) : Prop := (r.start < b ∧ a < r.stop) ∧ ¬r.Inside a b

instance (a b : Int) (r : Replacement) : Decidable (r.Cut a b) :=
  inferInstanceAs (Decidable (_ ∧ _))

/-- Two stretches in the order in which they are replaced: one after the other in the text, or one
inside the other. -/
def Ordered (p q : Replacement) : Prop := p.Before q ∨ p.Nested q ∨ q.Nested p

instance (p q : Replacement) : Decidable (p.Ordered q) :=
  inferInstanceAs (Decidable (p.stop ≤ q.start ∨ p.Nested q ∨ q.Nested p))

/-- Two stretches are apart, or one lies inside the other. -/
def Laminar (p q : Replacement) : Prop := p.Ordered q ∨ q.Before p

instance (p q : Replacement) : Decidable (p.Laminar q) :=
  inferInstanceAs (Decidable (p.Ordered q ∨ q.stop ≤ p.start))

theorem Laminar.symm {p q : Replacement} (h : p.Laminar q) : q.Laminar p := by
  unfold Laminar Ordered at *
  rcases h with (h | h | h) | h
  · exact .inr h
  · exact .inl (.inr (.inr h))
  · exact .inl (.inr (.inl h))
  · exact .inl (.inl h)

end Replacement

/-- The replacements that lie inside no other one. -/
def outermost (rs : List Replacement) : List Replacement :=
  rs.filter fun r => ∀ q ∈ rs, ¬r.Nested q

/-- The replacements between two offsets. -/
def inside (a b : Int) (rs : List Replacement) : List Replacement := rs.filter (·.Inside a b)

section Scan

variable {source : List Char} {a b : Int} {rs : List Replacement} {r q : Replacement}

theorem mem_outermost : r ∈ outermost rs ↔ r ∈ rs ∧ ∀ q ∈ rs, ¬r.Nested q := by
  rw [outermost, List.mem_filter, decide_eq_true_eq]

theorem mem_inside : r ∈ inside a b rs ↔ r ∈ rs ∧ a ≤ r.start ∧ r.stop ≤ b := by
  rw [inside, List.mem_filter, decide_eq_true_eq, Replacement.Inside]

theorem inside_eq_self (h : ∀ r ∈ rs, a ≤ r.start ∧ r.stop ≤ b) : inside a b rs = rs := by
  rw [inside, List.filter_eq_self]
  intro r hr
  exact decide_eq_true (h r hr)

/-- The outermost replacements stand one after the other. -/
theorem pairwise_outermost (h : rs.Pairwise Replacement.Ordered) :
    (outermost rs).Pairwise Replacement.Before := by
  refine List.Pairwise.imp_of_mem ?_ (h.sublist List.filter_sublist)
  intro p q hp hq hpq
  rcases hpq with hpq | hpq | hpq
  · exact hpq
  · exact absurd hpq ((mem_outermost.1 hp).2 q (mem_outermost.1 hq).1)
  · exact absurd hpq ((mem_outermost.1 hq).2 p (mem_outermost.1 hp).1)

/-- The replacements that the scan takes. -/
def pick (stop : Int) : Int → List Replacement → List Replacement
  | _, [] => []
  | here, r :: rs =>
    if r.start < here || stop < r.stop then pick stop here rs else r :: pick stop r.stop rs

theorem readFrom_eq_splice_pick (here : Int) (rs : List Replacement) :
    Buffer.readFrom source b here rs = splice source b here (pick b here rs) := by
  induction rs generalizing here with
  | nil => rfl
  | cons r rs ih =>
    unfold Buffer.readFrom pick
    split
    · exact ih here
    · rw [splice, ih]

/-- The scan goes on where it has stopped: what it takes stands one after the other. -/
theorem pairwise_pick (here : Int) (rs : List Replacement) (hn : ∀ r ∈ rs, r.start < r.stop) :
    (∀ r ∈ pick b here rs, r ∈ rs ∧ here ≤ r.start) ∧
      (pick b here rs).Pairwise Replacement.Before := by
  induction rs generalizing here with
  | nil => exact ⟨fun r hr => absurd hr (by simp [pick]), List.Pairwise.nil⟩
  | cons q rs ih =>
    have hrest := fun r hr => hn r (List.mem_cons_of_mem _ hr)
    have hq := hn q List.mem_cons_self
    -- what is taken moves the start of the scan behind it
    unfold pick
    split
    · rcases ih here hrest with ⟨hmem, hpair⟩
      exact ⟨fun r hr => ⟨List.mem_cons_of_mem _ (hmem r hr).1, (hmem r hr).2⟩, hpair⟩
    · rename_i htake
      simp only [Bool.or_eq_true, decide_eq_true_eq, not_or, Int.not_lt] at htake
      rcases ih q.stop hrest with ⟨hmem, hpair⟩
      constructor
      · intro r hr
        rcases List.mem_cons.1 hr with rfl | hr
        · exact ⟨List.mem_cons_self, htake.1⟩
        · have := (hmem r hr).2
          exact ⟨List.mem_cons_of_mem _ (hmem r hr).1, by omega⟩
      · exact List.pairwise_cons.2 ⟨fun r hr => (hmem r hr).2, hpair⟩

/-- A replacement that comes later in the sorted list than one that was taken lies after it or
inside it. -/
theorem after_or_nested (hq : q.start < q.stop) (hr : r.start < r.stop)
    (hsorted : Buffer.outermostFirst q r) (hlam : q.Laminar r) :
    q.stop ≤ r.start ∨ r.Nested q := by
  simp only [Buffer.outermostFirst, Bool.or_eq_true, decide_eq_true_eq, Bool.and_eq_true,
    beq_iff_eq] at hsorted
  unfold Replacement.Laminar Replacement.Ordered Replacement.Before Replacement.Nested at hlam
  unfold Replacement.Nested
  omega

theorem inside_cons_of_not (h : ¬q.Inside a b) : inside a b (q :: rs) = inside a b rs :=
  List.filter_cons_of_neg (by simpa using h)

/-- A replacement that the others lie behind or inside of is outermost, and all that it leaves of
the others is what lies behind it. -/
theorem mem_outermost_cons (hn : ∀ p ∈ rs, p.start < p.stop) (hin : q.Inside a b)
    (hplace : ∀ p ∈ rs, q.stop ≤ p.start ∨ p.Nested q) (hq : q.start < q.stop) :
    r ∈ outermost (inside a b (q :: rs)) ↔ r = q ∨ r ∈ outermost (inside q.stop b rs) := by
  unfold Replacement.Inside at hin
  simp only [mem_outermost, mem_inside]
  constructor
  · rintro ⟨⟨hmem, hr⟩, hout⟩
    rcases List.mem_cons.1 hmem with rfl | hmem
    · exact .inl rfl
    · -- a later one that does not follow would lie inside the first one
      refine .inr ⟨⟨hmem, ?_, hr.2⟩, ?_⟩
      · rcases hplace r hmem with h | h
        · exact h
        · exact absurd h (hout q ⟨List.mem_cons_self, hin⟩)
      · rintro p ⟨hp, hpin⟩
        exact hout p ⟨List.mem_cons_of_mem _ hp, by omega, hpin.2⟩
  · rintro (rfl | ⟨⟨hmem, hr⟩, hout⟩)
    · -- nothing that comes later is around the first one
      refine ⟨⟨List.mem_cons_self, hin⟩, ?_⟩
      rintro p ⟨hp, -⟩ hnest
      rcases List.mem_cons.1 hp with rfl | hp
      · exact hnest.2 hnest.1
      · rcases hplace p hp with h | h
        · have := hn p hp
          unfold Replacement.Nested at hnest
          omega
        · exact hnest.2 h.1
    · refine ⟨⟨List.mem_cons_of_mem _ hmem, by omega, hr.2⟩, ?_⟩
      have := hn r hmem
      rintro p ⟨hp, hpin⟩ hnest
      rcases List.mem_cons.1 hp with rfl | hp
      · unfold Replacement.Nested at hnest
        omega
      · rcases hplace p hp with h | h
        · exact hout p ⟨hp, h, hpin.2⟩ hnest
        · unfold Replacement.Nested at hnest h
          omega

/-- The scan over sorted replacements takes the outermost ones. -/
theorem mem_pick (here : Int) (hn : ∀ r ∈ rs, r.start < r.stop)
    (hsorted : rs.Pairwise fun p q => Buffer.outermostFirst p q)
    (hlam : rs.Pairwise Replacement.Laminar) :
    r ∈ pick b here rs ↔ r ∈ outermost (inside here b rs) := by
  induction rs generalizing here with
  | nil => simp [pick, inside, outermost]
  | cons q rs ih =>
    rcases List.pairwise_cons.1 hsorted with ⟨hqsorted, hsorted⟩
    rcases List.pairwise_cons.1 hlam with ⟨hqlam, hlam⟩
    have hrest := fun r hr => hn r (List.mem_cons_of_mem _ hr)
    have hq := hn q List.mem_cons_self
    have hplace : ∀ p ∈ rs, q.stop ≤ p.start ∨ p.Nested q := fun p hp =>
      after_or_nested hq (hrest p hp) (hqsorted p hp) (hqlam p hp)
    unfold pick
    split
    · rename_i hskip
      have hout : ¬q.Inside here b := by
        simp only [Bool.or_eq_true, decide_eq_true_eq] at hskip
        unfold Replacement.Inside
        omega
      rw [ih here hrest hsorted hlam, inside_cons_of_not hout]
    · rename_i htake
      have hin : q.Inside here b := by
        simp only [Bool.or_eq_true, decide_eq_true_eq, not_or, Int.not_lt] at htake
        exact htake
      rw [List.mem_cons, ih q.stop hrest hsorted hlam, mem_outermost_cons hrest hin hplace hq]

theorem pairwise_outermostFirst (rs : List Replacement) :
    (rs.mergeSort Buffer.outermostFirst).Pairwise fun p q => Buffer.outermostFirst p q := by
  refine List.pairwise_mergeSort ?_ ?_ rs
  · intro p q r hpq hqr
    simp only [Buffer.outermostFirst, Bool.or_eq_true, decide_eq_true_eq, Bool.and_eq_true,
      beq_iff_eq] at *
    omega
  · intro p q
    simp only [Buffer.outermostFirst, Bool.or_eq_true, decide_eq_true_eq, Bool.and_eq_true,
      beq_iff_eq]
    omega

theorem nodup_of_before (hn : ∀ r ∈ rs, r.start < r.stop) (h : rs.Pairwise Replacement.Before) :
    rs.Nodup := by
  refine List.Pairwise.imp_of_mem ?_ h
  rintro p q hp - hpq rfl
  have := hn p hp
  unfold Replacement.Before at hpq
  omega

end Scan

/-- A buffer whose replacements are nonempty and apart or inside one another reads a stretch as the
source with the outermost replacements of the stretch in their places. -/
theorem Buffer.exists_read?_eq_splice (buffer : Buffer) (a b : Int)
    (hn : ∀ r ∈ buffer.replacements, r.start < r.stop)
    (hlam : buffer.replacements.Pairwise Replacement.Laminar) :
    ∃ taken, taken.Perm (outermost (inside a b buffer.replacements)) ∧
      taken.Pairwise Replacement.Before ∧
      buffer.read? a b = splice buffer.source b a taken := by
  have hperm := List.mergeSort_perm buffer.replacements Buffer.outermostFirst
  have hn' : ∀ r ∈ buffer.replacements.mergeSort Buffer.outermostFirst, r.start < r.stop :=
    fun r hr => hn r (hperm.subset hr)
  have hlam' : (buffer.replacements.mergeSort Buffer.outermostFirst).Pairwise
      Replacement.Laminar := hlam.perm hperm.symm Replacement.Laminar.symm
  obtain ⟨hmem, hpick⟩ := pairwise_pick (b := b) a _ hn'
  refine ⟨_, ?_, hpick, readFrom_eq_splice_pick a _⟩
  -- no replacement is taken twice, and none stands twice in the buffer
  have hnodup : buffer.replacements.Nodup := by
    refine List.Pairwise.imp_of_mem ?_ hlam
    rintro p q hp - hpq rfl
    have := hn p hp
    unfold Replacement.Laminar Replacement.Ordered Replacement.Before Replacement.Nested at hpq
    omega
  have hout : (outermost (inside a b buffer.replacements)).Nodup := (hnodup.filter _).filter _
  refine (List.perm_ext_iff_of_nodup ?_ hout).2 ?_
  · exact nodup_of_before (fun r hr => hn' r (hmem r hr).1) hpick
  · intro r
    rw [mem_pick a hn' (pairwise_outermostFirst _) hlam']
    simp only [mem_outermost, mem_inside, hperm.mem_iff]

/-- If the replacements stand in the order in which they are made, so do those that are taken. -/
theorem Buffer.read?_eq_splice (buffer : Buffer) (a b : Int)
    (hn : ∀ r ∈ buffer.replacements, r.start < r.stop)
    (hord : buffer.replacements.Pairwise Replacement.Ordered) :
    buffer.read? a b = splice buffer.source b a (outermost (inside a b buffer.replacements)) := by
  obtain ⟨taken, hperm, hbefore, hread⟩ :=
    buffer.exists_read?_eq_splice a b hn (hord.imp fun h => .inl h)
  have hout : (outermost (inside a b buffer.replacements)).Pairwise Replacement.Before :=
    pairwise_outermost (hord.sublist List.filter_sublist)
  have hnout : ∀ r ∈ outermost (inside a b buffer.replacements), r.start < r.stop :=
    fun r hr => hn r (mem_inside.1 (mem_outermost.1 hr).1).1
  rw [hread]
  congr 1
  -- both lists stand in the order of the text
  refine List.Perm.eq_of_pairwise ?_ hbefore hout hperm
  intro p q hp hq hpq hqp
  have := hnout p (hperm.subset hp)
  have := hnout q hq
  unfold Replacement.Before at hpq hqp
  omega

/-! ## A text without replacements -/

theorem takeBytes_byteLength (cs : List Char) : takeBytes (byteLength cs) cs = some cs := by
  induction cs with
  | nil => rfl
  | cons c cs ih =>
    have hpos := c.utf8Size_pos
    have hlen : byteLength (c :: cs) = c.utf8Size + byteLength cs := rfl
    obtain ⟨n, hn⟩ : ∃ n, byteLength (c :: cs) = n + 1 := ⟨byteLength (c :: cs) - 1, by omega⟩
    rw [hn, takeBytes, if_pos (by omega)]
    have hrest : n + 1 - c.utf8Size = byteLength cs := by omega
    rw [hrest, ih]
    rfl

theorem between?_whole (cs : List Char) : between? cs 0 (byteLength cs) = some cs := by
  have hstop : offsetIn cs (byteLength cs) = byteLength cs := by simp [offsetIn]
  rw [between?, hstop]
  cases cs with
  | nil => rfl
  | cons c cs =>
    have hpos := c.utf8Size_pos
    have hlen : byteLength (c :: cs) = c.utf8Size + byteLength cs := rfl
    have hstart : offsetIn (c :: cs) 0 = 0 := rfl
    rw [slice?, if_neg (by omega), hstart, dropBytes, Option.bind_some, Nat.sub_zero]
    exact takeBytes_byteLength _

end Undecorate.Source
