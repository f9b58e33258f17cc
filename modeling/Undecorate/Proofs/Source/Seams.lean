import Undecorate.Proofs.Source.Stretches

/-! # Reading a stretch in parts

A stretch can be read in two parts, with a seam between them at which a character begins and that no
replacement inside the stretch has in its middle. The replacements that the scan takes are then
those of the first part and those of the second one.

* `slice?_append`, `splice_append`: a cut or a splice across a seam;
* `pick_append`: what the scan takes across a seam;
* `Buffer.Laid.read?_append`: what a buffer reads across a seam;
* `Buffer.Laid.exists_read?`: a buffer that is cut between characters can be read between them;
* `Buffer.Laid.read?_behind`: what stands before a stretch is not read.
-/

namespace Undecorate.Source

/-! ## Cuts -/

section Cuts

variable {cs before after other : List Char} {i j k n : Nat} {a b c : Int}

/-- A character of the text begins at the offset, or the text ends there. -/
def Boundary (cs : List Char) (a : Int) : Prop :=
  ∃ before after, cs = before ++ after ∧ (byteLength before : Int) = a

/-- The bytes of a first character can be skipped, and those of the other ones are left. -/
theorem exists_byteLength_cons (c : Char) (before : List Char) (n : Nat) :
    ∃ m, byteLength (c :: before) + n = m + 1 ∧ c.utf8Size ≤ m + 1 ∧
      m + 1 - c.utf8Size = byteLength before + n := by
  have hpos := c.utf8Size_pos
  have hlength : byteLength (c :: before) = c.utf8Size + byteLength before := rfl
  exact ⟨byteLength (c :: before) + n - 1, by omega, by omega, by omega⟩

theorem dropBytes_append (before after : List Char) (n : Nat) :
    dropBytes (byteLength before + n) (before ++ after) = dropBytes n after := by
  induction before with
  | nil => rw [byteLength, List.foldr_nil, Nat.zero_add, List.nil_append]
  | cons c before ih =>
    obtain ⟨m, hm, hsize, hrest⟩ := exists_byteLength_cons c before n
    rw [hm, List.cons_append, dropBytes, if_pos hsize, hrest, ih]

theorem takeBytes_append (before after : List Char) (n : Nat) :
    takeBytes (byteLength before + n) (before ++ after) =
      (takeBytes n after).map (before ++ ·) := by
  induction before with
  | nil =>
    rw [byteLength, List.foldr_nil, Nat.zero_add, List.nil_append]
    exact Option.map_id'.symm
  | cons c before ih =>
    obtain ⟨m, hm, hsize, hrest⟩ := exists_byteLength_cons c before n
    rw [hm, List.cons_append, takeBytes, if_pos hsize, hrest, ih, Option.map_map]
    rfl

theorem dropBytes_length (before after : List Char) :
    dropBytes (byteLength before) (before ++ after) = some after := by
  have hdrop := dropBytes_append before after 0
  rwa [Nat.add_zero, dropBytes] at hdrop

theorem takeBytes_length (before after : List Char) :
    takeBytes (byteLength before) (before ++ after) = some before := by
  have htake := takeBytes_append before after 0
  rwa [Nat.add_zero, takeBytes, Option.map_some, List.append_nil] at htake

/-- What is dropped from the first of two texts leaves the second one whole. -/
theorem dropBytes_append_left (after : List Char) (h : n ≤ byteLength before) :
    dropBytes n (before ++ after) = (dropBytes n before).map (· ++ after) := by
  fun_induction dropBytes n before with
  | case1 before => rw [dropBytes, Option.map_some]
  | case2 n => cases h
  | case3 n c before hsize ih =>
    have hlength : byteLength (c :: before) = c.utf8Size + byteLength before := rfl
    rw [List.cons_append, dropBytes, if_pos hsize]
    exact ih (by omega)
  | case4 n c before hsize => rw [List.cons_append, dropBytes, if_neg hsize, Option.map_none]

theorem Boundary.nonneg (h : Boundary cs a) : 0 ≤ a := by
  obtain ⟨before, after, -, rfl⟩ := h
  exact Int.natCast_nonneg _

theorem boundary_iff : Boundary cs a ↔
    0 ≤ a ∧ a.toNat ≤ byteLength cs ∧ (dropBytes a.toNat cs).isSome = true := by
  constructor
  · rintro ⟨before, after, rfl, rfl⟩
    rw [Int.toNat_natCast, byteLength_append, dropBytes_length]
    exact ⟨Int.natCast_nonneg _, Nat.le_add_right _ _, rfl⟩
  · rintro ⟨hpos, hle, hsome⟩
    obtain ⟨after, hafter⟩ := Option.isSome_iff_exists.1 hsome
    obtain ⟨before, rfl, hbefore, hexact⟩ := dropBytes_eq_some hafter
    refine ⟨before, after, rfl, ?_⟩
    rcases hexact with hexact | rfl
    · omega
    · -- all of the text is dropped, and it is no shorter than that
      rw [List.append_nil] at hle
      omega

instance (cs : List Char) (a : Int) : Decidable (Boundary cs a) :=
  decidable_of_iff _ boundary_iff.symm

/-- A cut across a seam is the cut before the seam and the one behind it. -/
theorem slice?_append (hj : Boundary cs j) (hij : i ≤ j) (hjk : j ≤ k) :
    slice? cs i k = (slice? cs i j).bind fun x => (slice? cs j k).map (x ++ ·) := by
  obtain ⟨before, after, rfl, hbefore⟩ := hj
  have hbefore : byteLength before = j := Int.ofNat.inj hbefore
  have hdrop : dropBytes j (before ++ after) = some after := by
    rw [← hbefore, dropBytes_length]
  by_cases hi : i = j
  · have hempty : slice? (before ++ after) i j = some [] := if_pos (by omega)
    rw [hempty, Option.bind_some, hi]
    exact Option.map_id'.symm
  by_cases hk : j = k
  · have hempty : slice? (before ++ after) j k = some [] := if_pos (by omega)
    rw [hempty, ← hk]
    cases slice? (before ++ after) i j <;> simp
  unfold slice?
  rw [if_neg (by omega), if_neg (by omega), if_neg (by omega), hdrop,
    dropBytes_append_left after (by omega)]
  cases hrest : dropBytes i before with
  | none => rfl
  | some rest =>
    -- the first part is what is left before the seam
    obtain ⟨gap, rfl, hgap, hexact⟩ := dropBytes_eq_some hrest
    rw [byteLength_append] at hbefore
    have hlength : byteLength rest = j - i := by
      rcases hexact with hexact | rfl
      · omega
      · have hnil : byteLength [] = 0 := rfl
        omega
    have hwhole : k - i = byteLength rest + (k - j) := by omega
    have hfirst : takeBytes (j - i) (rest ++ after) = some rest := by
      rw [← hlength, takeBytes_length]
    simp only [Option.map_some, Option.bind_some]
    rw [hwhole, takeBytes_append, hfirst, Option.bind_some]

theorem between?_append (hb : Boundary cs b) (ha : 0 ≤ a) (hab : a ≤ b) (hbc : b ≤ c) :
    between? cs a c = (between? cs a b).bind fun x => (between? cs b c).map (x ++ ·) := by
  obtain ⟨i, rfl⟩ := Int.eq_ofNat_of_zero_le ha
  obtain ⟨j, rfl⟩ := Int.eq_ofNat_of_zero_le (Int.le_trans ha hab)
  obtain ⟨k, rfl⟩ := Int.eq_ofNat_of_zero_le (Int.le_trans (Int.le_trans ha hab) hbc)
  simp only [between?_natCast]
  exact slice?_append hb (by omega) (by omega)

theorem exists_between? (ha : Boundary cs a) (hb : Boundary cs b) :
    ∃ out, between? cs a b = some out := by
  obtain ⟨before, after, hcs, rfl⟩ := ha
  obtain ⟨before', after', hcs', rfl⟩ := hb
  rw [between?_natCast]
  by_cases hle : byteLength before' ≤ byteLength before
  · exact ⟨[], if_pos hle⟩
  · obtain ⟨out, rfl⟩ : before <+: before' :=
      prefix_of_byteLength_le ⟨_, hcs.symm⟩ ⟨_, hcs'.symm⟩ (by omega)
    refine ⟨out, ?_⟩
    have hafter : after = out ++ after' := by
      rw [hcs, List.append_assoc] at hcs'
      exact List.append_cancel_left hcs'
    unfold slice?
    rw [if_neg hle, hcs, hafter, dropBytes_length, Option.bind_some, byteLength_append,
      Nat.add_sub_cancel_left, takeBytes_length]

/-- What stands before a cut can be another text of the same length. -/
theorem between?_behind (hlength : byteLength before = byteLength other)
    (ha : (byteLength before : Int) ≤ a) :
    between? (before ++ after) a c = between? (other ++ after) a c := by
  have hoffset : ∀ i, offsetIn (before ++ after) i = offsetIn (other ++ after) i := by
    intro i
    unfold offsetIn
    rw [byteLength_append, byteLength_append, hlength]
  obtain ⟨n, hn⟩ : ∃ n, offsetIn (other ++ after) a = byteLength before + n := by
    refine ⟨a.toNat - byteLength before, ?_⟩
    unfold offsetIn
    rw [if_pos (by omega)]
    omega
  unfold between? slice?
  simp only [hoffset]
  rw [hn, dropBytes_append, hlength, dropBytes_append]

end Cuts

/-! ## Splices -/

section Splices

variable {source : List Char} {rs left right : List Replacement} {r : Replacement}
  {here a b c : Int}

/-- A splice across a seam is the splice before the seam and the one behind it. -/
theorem splice_append (hb : Boundary source b) (hhere : 0 ≤ here ∧ here ≤ b) (hbc : b ≤ c)
    (hleft : ∀ r ∈ left, 0 ≤ r.stop ∧ r.stop ≤ b) (hright : ∀ r ∈ right, b ≤ r.start) :
    splice source c here (left ++ right) =
      (splice source b here left).bind fun x => (splice source c b right).map (x ++ ·) := by
  induction left generalizing here with
  | nil =>
    -- the seam lies in the first stretch that is left as it is
    rw [List.nil_append]
    cases right with
    | nil => exact between?_append hb hhere.1 hhere.2 hbc
    | cons r right =>
      have hseam := between?_append hb hhere.1 hhere.2 (hright r List.mem_cons_self)
      simp only [splice, hseam, Option.bind_eq_bind, Option.pure_def]
      cases between? source here b with
      | none => rfl
      | some x =>
        cases between? source b r.start with
        | none => rfl
        | some y => cases splice source c r.stop right <;> simp
  | cons r left ih =>
    obtain ⟨hr, hleft⟩ := List.forall_mem_cons.1 hleft
    simp only [List.cons_append, splice, ih hr hleft, Option.bind_eq_bind, Option.pure_def]
    cases between? source here r.start with
    | none => rfl
    | some x =>
      cases splice source b r.stop left with
      | none => rfl
      | some y => cases splice source c b right <;> simp

/-- The outermost replacements of a stretch lie before the seam or behind it. -/
theorem mem_outermost_append (hn : ∀ r ∈ rs, r.start < r.stop) (hab : a ≤ b) (hbc : b ≤ c)
    (hseam : ∀ r ∈ rs, r.Inside a c → r.stop ≤ b ∨ b ≤ r.start) :
    r ∈ outermost (inside a c rs) ↔
      r ∈ outermost (inside a b rs) ∨ r ∈ outermost (inside b c rs) := by
  simp only [mem_outermost, mem_inside]
  constructor
  · rintro ⟨⟨hr, hin⟩, hout⟩
    rcases hseam r hr hin with hside | hside
    · refine .inl ⟨⟨hr, hin.1, hside⟩, ?_⟩
      rintro q ⟨hq, hqin⟩
      exact hout q ⟨hq, hqin.1, by omega⟩
    · refine .inr ⟨⟨hr, hside, hin.2⟩, ?_⟩
      rintro q ⟨hq, hqin⟩
      exact hout q ⟨hq, by omega, hqin.2⟩
  · -- what is around a replacement lies on the same side of the seam
    have hsame : ∀ q ∈ rs, q.Inside a c → r ∈ rs → r.Nested q →
        (r.stop ≤ b → q.stop ≤ b) ∧ (b ≤ r.start → b ≤ q.start) := by
      intro q hq hqin hr hnest
      have hrn := hn r hr
      have hside := hseam q hq hqin
      unfold Replacement.Nested at hnest
      omega
    rintro (⟨⟨hr, hin⟩, hout⟩ | ⟨⟨hr, hin⟩, hout⟩)
    · refine ⟨⟨hr, hin.1, by omega⟩, ?_⟩
      rintro q ⟨hq, hqin⟩ hnest
      exact hout q ⟨hq, hqin.1, (hsame q hq hqin hr hnest).1 hin.2⟩ hnest
    · refine ⟨⟨hr, by omega, hin.2⟩, ?_⟩
      rintro q ⟨hq, hqin⟩ hnest
      exact hout q ⟨hq, (hsame q hq hqin hr hnest).2 hin.1, hqin.2⟩ hnest

/-- The scan takes the replacements before the seam, and then those behind it. -/
theorem pick_append (hn : ∀ r ∈ rs, r.start < r.stop)
    (hsorted : rs.Pairwise fun p q => Buffer.outermostFirst p q)
    (hlam : rs.Pairwise Replacement.Laminar) (hab : a ≤ b) (hbc : b ≤ c)
    (hseam : ∀ r ∈ rs, r.Inside a c → r.stop ≤ b ∨ b ≤ r.start) :
    pick c a rs = pick b a rs ++ pick c b rs := by
  have hmem : ∀ {i j : Int} {r : Replacement}, r ∈ pick j i rs →
      r ∈ rs ∧ i ≤ r.start ∧ r.stop ≤ j := by
    intro i j r hr
    exact mem_inside.1 (mem_outermost.1 ((mem_pick i hn hsorted hlam).1 hr)).1
  have hparts : (pick b a rs ++ pick c b rs).Pairwise Replacement.Before := by
    refine List.pairwise_append.2 ⟨(pairwise_pick a rs hn).2, (pairwise_pick b rs hn).2, ?_⟩
    intro p hp q hq
    exact Int.le_trans (hmem hp).2.2 (hmem hq).2.1
  have hpartsn : ∀ r ∈ pick b a rs ++ pick c b rs, r.start < r.stop := by
    intro r hr
    rcases List.mem_append.1 hr with hr | hr
    · exact hn r (hmem hr).1
    · exact hn r (hmem hr).1
  have hwholen : ∀ r ∈ pick c a rs, r.start < r.stop := fun r hr => hn r (hmem hr).1
  have hwhole := (pairwise_pick (b := c) a rs hn).2
  -- both lists stand in the order of the text and have the same replacements
  refine List.Perm.eq_of_pairwise ?_ hwhole hparts ?_
  · intro p q hp hq hpq hqp
    have := hwholen p hp
    have := hpartsn q hq
    unfold Replacement.Before at hpq hqp
    omega
  · refine (List.perm_ext_iff_of_nodup ?_ ?_).2 ?_
    · exact nodup_of_before hwholen hwhole
    · exact nodup_of_before hpartsn hparts
    · intro r
      rw [List.mem_append, mem_pick a hn hsorted hlam, mem_pick a hn hsorted hlam,
        mem_pick b hn hsorted hlam]
      exact mem_outermost_append hn hab hbc hseam

/-- The scan can read between characters if it replaces between characters. -/
theorem exists_readFrom (hhere : Boundary source here) (hc : Boundary source c)
    (hrs : ∀ r ∈ rs, Boundary source r.start ∧ Boundary source r.stop) :
    ∃ out, Buffer.readFrom source c here rs = some out := by
  induction rs generalizing here with
  | nil => exact exists_between? hhere hc
  | cons r rs ih =>
    obtain ⟨hr, hrs⟩ := List.forall_mem_cons.1 hrs
    unfold Buffer.readFrom
    split
    · exact ih hhere hrs
    · obtain ⟨before, hbefore⟩ := exists_between? hhere hr.1
      obtain ⟨after, hafter⟩ := ih hr.2 hrs
      rw [hbefore, hafter]
      exact ⟨_, rfl⟩

theorem readFrom_behind {before after other : List Char} (hn : ∀ r ∈ rs, r.start < r.stop)
    (hlength : byteLength before = byteLength other) (hhere : (byteLength before : Int) ≤ here) :
    Buffer.readFrom (before ++ after) c here rs = Buffer.readFrom (other ++ after) c here rs := by
  induction rs generalizing here with
  | nil => exact between?_behind hlength hhere
  | cons r rs ih =>
    obtain ⟨hr, hn⟩ := List.forall_mem_cons.1 hn
    unfold Buffer.readFrom
    split
    · exact ih hn hhere
    · rename_i htake
      simp only [Bool.or_eq_true, decide_eq_true_eq, not_or, Int.not_lt] at htake
      rw [between?_behind hlength hhere, ih hn (by omega)]

end Splices

/-! ## Buffers -/

namespace Buffer

variable {buffer : Buffer} {a b c : Int}

/-- The replacements of a buffer begin and end between characters and are not empty, and any two of
them are apart or one lies inside the other. -/
structure Laid (buffer : Buffer) : Prop where
  cut : ∀ r ∈ buffer.replacements,
    Boundary buffer.source r.start ∧ Boundary buffer.source r.stop
  nonempty : ∀ r ∈ buffer.replacements, r.start < r.stop
  laminar : buffer.replacements.Pairwise Replacement.Laminar

instance (buffer : Buffer) : Decidable buffer.Laid :=
  decidable_of_iff ((∀ r ∈ buffer.replacements,
        Boundary buffer.source r.start ∧ Boundary buffer.source r.stop) ∧
      (∀ r ∈ buffer.replacements, r.start < r.stop) ∧
      buffer.replacements.Pairwise Replacement.Laminar)
    ⟨fun h => ⟨h.1, h.2.1, h.2.2⟩, fun h => ⟨h.cut, h.nonempty, h.laminar⟩⟩

/-- A stretch is read in two parts, with the seam at a character and in the middle of no replacement
inside the stretch. -/
theorem Laid.read?_append (h : buffer.Laid) (hb : Boundary buffer.source b) (ha : 0 ≤ a)
    (hab : a ≤ b) (hbc : b ≤ c)
    (hseam : ∀ r ∈ buffer.replacements, r.Inside a c → r.stop ≤ b ∨ b ≤ r.start) :
    buffer.read? a c = (buffer.read? a b).bind fun x => (buffer.read? b c).map (x ++ ·) := by
  have hperm := List.mergeSort_perm buffer.replacements outermostFirst
  have hsorted := pairwise_outermostFirst buffer.replacements
  have hlam : (buffer.replacements.mergeSort outermostFirst).Pairwise Replacement.Laminar :=
    h.laminar.perm hperm.symm Replacement.Laminar.symm
  have hn : ∀ r ∈ buffer.replacements.mergeSort outermostFirst, r.start < r.stop :=
    fun r hr => h.nonempty r (hperm.subset hr)
  have hpick := pick_append hn hsorted hlam hab hbc fun r hr => hseam r (hperm.subset hr)
  unfold read?
  simp only [readFrom_eq_splice_pick]
  rw [hpick]
  refine splice_append hb ⟨ha, hab⟩ hbc ?_ ?_
  · intro r hr
    have hin := mem_inside.1 (mem_outermost.1 ((mem_pick a hn hsorted hlam).1 hr)).1
    have hrn := hn r hin.1
    omega
  · intro r hr
    exact (mem_inside.1 (mem_outermost.1 ((mem_pick b hn hsorted hlam).1 hr)).1).2.1

theorem Laid.exists_read? (h : buffer.Laid) (ha : Boundary buffer.source a)
    (hc : Boundary buffer.source c) : ∃ out, buffer.read? a c = some out := by
  refine exists_readFrom ha hc ?_
  intro r hr
  exact h.cut r ((List.mergeSort_perm _ _).subset hr)

/-- What stands before a stretch can be another text of the same length. -/
theorem Laid.read?_behind {before after other : List Char} (h : buffer.Laid)
    (hsource : buffer.source = before ++ after) (hlength : byteLength before = byteLength other)
    (ha : (byteLength before : Int) ≤ a) :
    { buffer with source := other ++ after }.read? a c = buffer.read? a c := by
  unfold read?
  rw [hsource]
  refine (readFrom_behind ?_ hlength ha).symm
  intro r hr
  exact h.nonempty r ((List.mergeSort_perm _ _).subset hr)

end Buffer

end Undecorate.Source
