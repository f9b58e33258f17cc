import Undecorate.Proofs.Source.Splice

/-! # Stretches inside stretches

A text that is cut out of the source is found in every longer cut around it, and in every splice
that does not replace it.

* `dropBytes_eq_some`, `takeBytes_eq_some`: a cut splits the text;
* `isInfix_of_slice?`: a cut inside a cut;
* `isInfix_of_splice`, `text_isInfix_of_splice`: what a splice leaves, and what it puts in.
-/

namespace Undecorate.Source

variable {cs a b t u out rest source : List Char} {n : Nat}

/-! ## Cuts -/

theorem byteLength_append (a b : List Char) :
    byteLength (a ++ b) = byteLength a + byteLength b := by
  induction a with
  | nil => exact (Nat.zero_add _).symm
  | cons c a ih =>
    rw [List.cons_append, byteLength, byteLength, List.foldr_cons, List.foldr_cons, ← byteLength,
      ← byteLength, ih, Nat.add_assoc]

theorem eq_nil_of_byteLength_eq_zero (h : byteLength a = 0) : a = [] := by
  cases a with
  | nil => rfl
  | cons c a =>
    have hpos := c.utf8Size_pos
    have hlength : byteLength (c :: a) = c.utf8Size + byteLength a := rfl
    omega

/-- What is dropped has the bytes that are asked for, or is all there is. -/
theorem dropBytes_eq_some (h : dropBytes n cs = some rest) :
    ∃ a, cs = a ++ rest ∧ byteLength a ≤ n ∧ (byteLength a = n ∨ rest = []) := by
  fun_induction dropBytes n cs with
  | case1 cs =>
    obtain rfl := Option.some.inj h
    exact ⟨[], rfl, Nat.le_refl _, .inl rfl⟩
  | case2 n =>
    obtain rfl := Option.some.inj h
    exact ⟨[], rfl, Nat.zero_le _, .inr rfl⟩
  | case3 n c cs hsize ih =>
    obtain ⟨a, rfl, hle, hall⟩ := ih h
    have hlength : byteLength (c :: a) = c.utf8Size + byteLength a := rfl
    exact ⟨c :: a, rfl, by omega, hall.imp_left fun h => by omega⟩
  | case4 n c cs hsize => cases h

/-- What is kept has the bytes that are asked for, or is all there is. -/
theorem takeBytes_eq_some (h : takeBytes n cs = some out) :
    ∃ rest, cs = out ++ rest ∧ byteLength out ≤ n ∧ (byteLength out = n ∨ rest = []) := by
  fun_induction takeBytes n cs generalizing out with
  | case1 cs =>
    obtain rfl := Option.some.inj h
    exact ⟨cs, rfl, Nat.le_refl _, .inl rfl⟩
  | case2 n =>
    obtain rfl := Option.some.inj h
    exact ⟨[], rfl, Nat.zero_le _, .inr rfl⟩
  | case3 n c cs hsize ih =>
    obtain ⟨out, hout, rfl⟩ := Option.map_eq_some_iff.1 h
    obtain ⟨rest, rfl, hle, hall⟩ := ih hout
    have hlength : byteLength (c :: out) = c.utf8Size + byteLength out := rfl
    exact ⟨rest, rfl, by omega, hall.imp_left fun h => by omega⟩
  | case4 n c cs hsize => cases h

/-- Of two beginnings of a text, the one with fewer bytes is a beginning of the other. -/
theorem prefix_of_byteLength_le (ha : a <+: cs) (hb : b <+: cs)
    (h : byteLength a ≤ byteLength b) : a <+: b := by
  rcases List.prefix_or_prefix_of_prefix ha hb with hab | ⟨rest, rfl⟩
  · exact hab
  · rw [byteLength_append] at h
    have hrest : rest = [] := eq_nil_of_byteLength_eq_zero (by omega)
    exact ⟨[], by rw [hrest, List.append_nil, List.append_nil]⟩

/-- A cut inside a cut is found there. -/
theorem isInfix_of_slice? {s e i j : Nat} (h : slice? cs s e = some out)
    (ht : slice? cs i j = some t) (hs : s ≤ i) (he : j ≤ e) : t <:+: out := by
  by_cases hnil : t = []
  · rw [hnil]
    exact List.nil_infix
  unfold slice? at h ht
  split at ht
  · exact absurd (Option.some.inj ht).symm hnil
  rw [if_neg (by omega)] at h
  obtain ⟨tail, htail, hout⟩ := Option.bind_eq_some_iff.1 h
  obtain ⟨tail', htail', ht⟩ := Option.bind_eq_some_iff.1 ht
  obtain ⟨before, hcs, hbefore, hexact⟩ := dropBytes_eq_some htail
  obtain ⟨before', hcs', hbefore', hexact'⟩ := dropBytes_eq_some htail'
  obtain ⟨after, rfl, hlength, hall⟩ := takeBytes_eq_some hout
  obtain ⟨after', rfl, hlength', -⟩ := takeBytes_eq_some ht
  have hi : byteLength before' = i := by
    refine hexact'.resolve_right fun hempty => hnil (List.append_eq_nil_iff.1 hempty).1
  have hs' : byteLength before = s := by
    refine hexact.resolve_right fun hempty => hnil ?_
    rw [hempty, List.append_nil] at hcs
    have hlonger := congrArg byteLength (hcs.symm.trans hcs')
    rw [byteLength_append, byteLength_append] at hlonger
    exact eq_nil_of_byteLength_eq_zero (by omega)
  -- both cuts begin inside the text, the inner one behind the beginning of the outer one
  obtain ⟨gap, rfl⟩ : before <+: before' :=
    prefix_of_byteLength_le ⟨_, hcs.symm⟩ ⟨_, hcs'.symm⟩ (by omega)
  have hrest : gap ++ (t ++ after') = out ++ after := by
    rw [hcs, List.append_assoc] at hcs'
    exact (List.append_cancel_left hcs').symm
  have hinner : gap ++ t <+: out ++ after := ⟨after', by rw [← hrest, List.append_assoc]⟩
  have hgap : gap ++ t <+: out := by
    rcases hall with hall | rfl
    · refine prefix_of_byteLength_le hinner (List.prefix_append _ _) ?_
      rw [byteLength_append] at hi ⊢
      omega
    · rwa [List.append_nil] at hinner
  exact (List.suffix_append gap t).isInfix.trans hgap.isInfix

/-! ## Splices -/

theorem between?_natCast (cs : List Char) (i j : Nat) : between? cs i j = slice? cs i j := by
  simp [between?, offsetIn]

variable {rs : List Replacement} {r : Replacement} {here stop : Int} {i j : Nat}

/-- What is put in the place of a stretch is found in the splice. -/
theorem text_isInfix_of_splice (h : splice source stop here rs = some out) (hr : r ∈ rs) :
    r.text.toList <:+: out := by
  induction rs generalizing here out with
  | nil => cases hr
  | cons q rs ih =>
    simp only [splice, Option.bind_eq_bind, Option.bind_eq_some_iff, Option.pure_def,
      Option.some.injEq] at h
    obtain ⟨before, -, after, hafter, rfl⟩ := h
    rcases List.mem_cons.1 hr with rfl | hr
    · exact ⟨before, after, rfl⟩
    · exact (ih hafter hr).trans (List.suffix_append _ _).isInfix

/-- A stretch that nothing is put in the place of is found in the splice. -/
theorem isInfix_of_splice (h : splice source stop here rs = some out)
    (ht : slice? source i j = some t) (hhere : 0 ≤ here ∧ here ≤ i) (hstop : j ≤ stop)
    (hrs : ∀ r ∈ rs, 0 ≤ r.stop ∧ (r.stop ≤ i ∨ j ≤ r.start)) : t <:+: out := by
  -- a cut of the source that has the stretch in it
  have hcut : ∀ {e : Int} {cut : List Char} {here : Int}, 0 ≤ here → here ≤ i → j ≤ e →
      between? source here e = some cut → t <:+: cut := by
    intro e cut here hpos hle he hcut
    obtain ⟨s, rfl⟩ := Int.eq_ofNat_of_zero_le hpos
    obtain ⟨e, rfl⟩ := Int.eq_ofNat_of_zero_le (Int.le_trans (Int.natCast_nonneg j) he)
    rw [between?_natCast] at hcut
    exact isInfix_of_slice? hcut ht (by omega) (by omega)
  induction rs generalizing here out with
  | nil => exact hcut hhere.1 hhere.2 hstop h
  | cons q rs ih =>
    simp only [splice, Option.bind_eq_bind, Option.bind_eq_some_iff, Option.pure_def,
      Option.some.injEq] at h
    obtain ⟨before, hbefore, after, hafter, rfl⟩ := h
    obtain ⟨⟨hpos, hside⟩, hrest⟩ := List.forall_mem_cons.1 hrs
    rcases hside with hside | hside
    · exact (ih hafter ⟨hpos, hside⟩ hrest).trans (List.suffix_append _ _).isInfix
    · have hfound := hcut hhere.1 hhere.2 hside hbefore
      rw [List.append_assoc]
      exact hfound.trans (List.prefix_append _ _).isInfix

end Undecorate.Source
