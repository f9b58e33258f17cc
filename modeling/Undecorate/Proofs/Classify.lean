import Undecorate.Classify
import Undecorate.Proofs.Except

/-! # Members and their decorations

Grouping by key moves members around, but it neither loses nor doubles one: every decorated member
ends up in exactly one decoration, and every decoration of a property has the decorators of one
member.

* `groups_perm`: the groups have every function once;
* `memberDecorations_eq_ok`: the decorations of properties have the decorators of every member once.
-/

namespace Undecorate.Classify

variable {isClass : Bool} {binding : String} {s s' : Scope} {members : List Member}

/-! ## Groups -/

theorem addTo_perm (key : GroupKey) (entry : Nat × Member) (gs : List Group) :
    ((addTo key entry gs).flatMap (·.members)).Perm (entry :: gs.flatMap (·.members)) := by
  induction gs with
  | nil => exact .refl _
  | cons g gs ih =>
    unfold addTo
    split
    · rw [List.flatMap_cons, List.flatMap_cons, List.append_assoc]
      exact List.perm_middle
    · rw [List.flatMap_cons, List.flatMap_cons]
      exact (ih.append_left g.members).trans List.perm_middle

/-- The functions under keys, with their places. -/
def keyed (isClass : Bool) (entries : List (Member × Nat)) : List (Nat × Member) :=
  (entries.filter fun e => (groupKey? isClass e.1).isSome).map Prod.swap

/-- What a member changes in the groups before it: a function under a key joins the group of it. -/
def join (isClass : Bool) (gs : List Group) (e : Member × Nat) : List Group :=
  match groupKey? isClass e.1 with
  | some key => addTo key (e.2, e.1) gs
  | none => gs

/-- Joining keeps the functions of the groups that there are already. -/
theorem foldl_join_perm (isClass : Bool) (entries : List (Member × Nat)) (gs : List Group) :
    ((entries.foldl (join isClass) gs).flatMap (·.members)).Perm
      (gs.flatMap (·.members) ++ keyed isClass entries) := by
  induction entries generalizing gs with
  | nil => simp [keyed]
  | cons e entries ih =>
    rcases e with ⟨m, i⟩
    simp only [List.foldl_cons, join]
    cases hk : groupKey? isClass m with
    | none =>
      have hskip : keyed isClass ((m, i) :: entries) = keyed isClass entries := by
        simp [keyed, hk]
      rw [hskip]
      exact ih gs
    | some key =>
      have hadd : keyed isClass ((m, i) :: entries) = (i, m) :: keyed isClass entries := by
        simp [keyed, hk]
      rw [hadd]
      refine (ih _).trans ?_
      refine ((addTo_perm key (i, m) gs).append_right _).trans ?_
      exact List.perm_middle.symm

/-- Grouping puts every function under a key into one group. -/
theorem groups_perm (isClass : Bool) (members : List Member) :
    ((groups isClass members).flatMap (·.members)).Perm (keyed isClass members.zipIdx) :=
  foldl_join_perm isClass members.zipIdx []

/-- A member of a group stands in its place. -/
theorem getElem?_of_mem_groups {g : Group} {i : Nat} {m : Member}
    (hg : g ∈ groups isClass members) (hm : (i, m) ∈ g.members) : members[i]? = some m := by
  have hmem : (i, m) ∈ keyed isClass members.zipIdx :=
    (groups_perm isClass members).subset (List.mem_flatMap.2 ⟨g, hg, hm⟩)
  rcases List.mem_map.1 hmem with ⟨⟨m', i'⟩, hzip, heq⟩
  rcases Prod.mk.inj heq with ⟨rfl, rfl⟩
  exact List.mem_zipIdx_iff_getElem?.1 (List.mem_filter.1 hzip).1

/-! ## One group -/

/-- What the decoration of a group owes to the group: it has the decorators of the only decorated
member, and the places of all. -/
structure OfGroup (g : Group) (place : Nat) (d : Decoration) : Prop where
  owner : ∃ m, g.members.filter (·.2.isDecorated) = [(place, m)] ∧ d.decorators = m.decorators
  subject : ∃ key initial, d.subject = .property key initial (g.members.map (·.1))

theorem groupDecoration_eq_ok {g : Group} {found : Option (Nat × Decoration)}
    (h : groupDecoration isClass binding g s = .ok (found, s')) :
    (found = none ∧ g.members.filter (·.2.isDecorated) = []) ∨
      ∃ place d, found = some (place, d) ∧ OfGroup g place d := by
  unfold groupDecoration at h
  split at h
  · rename_i hnone
    cases h
    exact .inl ⟨rfl, hnone⟩
  · cases h
  · rename_i place owner hone
    dsimp only at h
    split at h
    · cases h
    · rename_i initial hinitial
      cases h
      exact .inr ⟨_, _, rfl, ⟨owner, hone, rfl⟩, _, _, rfl⟩

variable {α : Type} {f : Nat → List α}

/-- Over the members of a group, only those that are decorated count. -/
theorem flatMap_members (entries : List (Nat × Member))
    (hf : ∀ e ∈ entries, e.2.isDecorated = false → f e.1 = []) :
    (entries.map (·.1)).flatMap f = (entries.filter (·.2.isDecorated)).flatMap (f ·.1) := by
  induction entries with
  | nil => rfl
  | cons e entries ih =>
    have hrest := ih fun x hx => hf x (List.mem_cons_of_mem e hx)
    rw [List.map_cons, List.flatMap_cons, hrest]
    cases hd : e.2.isDecorated with
    | true => rw [List.filter_cons_of_pos (by simpa using hd), List.flatMap_cons]
    | false =>
      rw [List.filter_cons_of_neg (by simp [hd]), hf e List.mem_cons_self hd, List.nil_append]

theorem OfGroup.flatMap_members {g : Group} {place : Nat} {d : Decoration} (h : OfGroup g place d)
    (hf : ∀ e ∈ g.members, e.2.isDecorated = false → f e.1 = []) :
    d.members.flatMap f = f place := by
  rcases h.owner with ⟨m, hone, -⟩
  rcases h.subject with ⟨key, initial, hsub⟩
  rw [Decoration.members, hsub]
  dsimp only
  rw [Classify.flatMap_members g.members hf, hone, List.flatMap_singleton]

/-! ## All groups -/

/-- The decorations of groups have what the members of the groups have. -/
theorem groupDecorations_eq_ok {gs : List Group} {found : List (Nat × Decoration)}
    (h : groupDecorations isClass binding gs s = .ok (found, s'))
    (hf : ∀ g ∈ gs, ∀ e ∈ g.members, e.2.isDecorated = false → f e.1 = []) :
    (∀ p ∈ found, ∃ g ∈ gs, OfGroup g p.1 p.2) ∧
      found.flatMap (fun p => p.2.members.flatMap f) =
        gs.flatMap fun g => (g.members.map (·.1)).flatMap f := by
  induction gs generalizing s found with
  | nil =>
    cases h
    exact ⟨by simp, rfl⟩
  | cons g gs ih =>
    simp only [groupDecorations, bind_eq_ok, pure_eq_ok] at h
    rcases h with ⟨⟨head, s₁⟩, hg, ⟨rest, s₂⟩, hgs, heq⟩
    rcases Prod.mk.inj heq with ⟨rfl, rfl⟩
    rcases ih hgs fun x hx => hf x (List.mem_cons_of_mem g hx) with ⟨hrest, hflat⟩
    have hhead := hf g List.mem_cons_self
    have hlater : ∀ p ∈ rest, ∃ x ∈ g :: gs, OfGroup x p.1 p.2 := by
      intro p hp
      rcases hrest p hp with ⟨x, hx, hof⟩
      exact ⟨x, List.mem_cons_of_mem g hx, hof⟩
    -- a group without a decorated member adds no decoration, and has nothing to take up
    rcases groupDecoration_eq_ok hg with ⟨rfl, hnone⟩ | ⟨place, d, rfl, hof⟩
    · refine ⟨hlater, ?_⟩
      rw [List.flatMap_cons, flatMap_members g.members hhead, hnone]
      exact hflat
    · refine ⟨?_, ?_⟩
      · intro p hp
        rcases List.mem_cons.1 hp with rfl | hp
        · exact ⟨g, List.mem_cons_self, hof⟩
        · exact hlater p hp
      · rcases hof.subject with ⟨key, initial, hsub⟩
        have hplaces : d.members = g.members.map (·.1) := by rw [Decoration.members, hsub]
        rw [List.flatMap_cons, ← hplaces, ← hflat]
        rfl

/-- Over the members of a declaration, only functions under keys count. -/
theorem flatMap_keyed (entries : List (Member × Nat))
    (hf : ∀ e ∈ entries, groupKey? isClass e.1 = none → f e.2 = []) :
    ((keyed isClass entries).map (·.1)).flatMap f = (entries.map (·.2)).flatMap f := by
  induction entries with
  | nil => rfl
  | cons e entries ih =>
    have hrest := ih fun x hx => hf x (List.mem_cons_of_mem e hx)
    rw [List.map_cons, List.flatMap_cons, ← hrest]
    cases hk : groupKey? isClass e.1 with
    | none =>
      rw [hf e List.mem_cons_self hk]
      simp [keyed, hk]
    | some key => simp [keyed, hk]

/-- Only functions may be decorated. -/
theorem isFunction_of_firstIneligible?_eq_none (h : firstIneligible? members = none) {m : Member}
    (hm : m ∈ members) (hd : m.isDecorated = true) : m.isFunction = true := by
  unfold firstIneligible? at h
  rw [List.findSome?_eq_none_iff] at h
  have hnone := h m (List.mem_filter.2 ⟨hm, hd⟩)
  unfold ineligible? at hnone
  split at hnone
  · cases hnone
  · rename_i hkind
    rw [Member.isFunction]
    cases hk : m.kind <;> first | rfl | simp [hk, MemberKind.ineligible?] at hkind

/-- Members have decorations iff none of them is ineligible and all their groups have: those of the
groups, in the order of the decorated members. -/
theorem memberDecorations_eq_ok_iff {ds : List Decoration} :
    memberDecorations isClass binding members s = .ok (ds, s') ↔
      firstIneligible? members = none ∧ ∃ found,
        groupDecorations isClass binding (groups isClass members) s = .ok (found, s') ∧
        ds = (found.mergeSort fun p q => p.1 ≤ q.1).map (·.2) := by
  unfold memberDecorations
  cases firstIneligible? members with
  | some f => exact iff_of_false nofun nofun
  | none =>
    simp only [bind_eq_ok, pure_eq_ok, Prod.mk.injEq, true_and]
    constructor
    · rintro ⟨⟨found, s₁⟩, hfound, rfl, rfl⟩
      exact ⟨found, hfound, rfl⟩
    · rintro ⟨found, hfound, rfl⟩
      exact ⟨(found, s'), hfound, rfl, rfl⟩

/-- The decorations of members: each has the decorators of one member and the places of the members
that share its key, and together they have the decorators of all members. What belongs to the places
of members is `f`. -/
theorem memberDecorations_eq_ok {ds : List Decoration}
    (h : memberDecorations isClass binding members s = .ok (ds, s'))
    (hkeys : ∀ m ∈ members, m.isFunction = true → m.key.isSome = true)
    (hf : ∀ i m, members[i]? = some m → m.isDecorated = false → f i = []) :
    (∀ d ∈ ds, ∃ i m, members[i]? = some m ∧ m.isDecorated = true ∧ i ∈ d.members ∧
      d.decorators = m.decorators ∧ d.subject ≠ .whole ∧ d.members.flatMap f = f i) ∧
    (ds.flatMap fun d => d.members.flatMap f).Perm ((List.range members.length).flatMap f) ∧
    ∀ m ∈ members, m.isDecorated = true → m.isFunction = true := by
  obtain ⟨hfirst, found, hfound, rfl⟩ := memberDecorations_eq_ok_iff.1 h
  have hfunction : ∀ m ∈ members, m.isDecorated = true → m.isFunction = true :=
    fun m => isFunction_of_firstIneligible?_eq_none hfirst
  have hentries : ∀ g ∈ groups isClass members, ∀ e ∈ g.members,
      e.2.isDecorated = false → f e.1 = [] := by
    intro g hg e he
    exact hf e.1 e.2 (getElem?_of_mem_groups hg he)
  rcases groupDecorations_eq_ok hfound hentries with ⟨hof, hflat⟩
  refine ⟨?_, ?_, hfunction⟩
  · intro d hd
    rcases List.mem_map.1 hd with ⟨p, hp, rfl⟩
    rcases hof p ((List.mergeSort_perm _ _).subset hp) with ⟨g, hg, hog⟩
    rcases hog.owner with ⟨m, hone, hdecs⟩
    rcases hog.subject with ⟨key, initial, hsub⟩
    have hmem : (p.1, m) ∈ g.members.filter (·.2.isDecorated) := by rw [hone]; simp
    rcases List.mem_filter.1 hmem with ⟨hmg, hmd⟩
    refine ⟨p.1, m, getElem?_of_mem_groups hg hmg, hmd, ?_, hdecs, ?_,
      hog.flatMap_members (hentries g hg)⟩
    · rw [Decoration.members, hsub]
      exact List.mem_map_of_mem hmg
    · simp [hsub]
  · have hplaces : (members.zipIdx.map (·.2)).flatMap f =
        (List.range members.length).flatMap f := by
      rw [List.zipIdx_map_snd, List.range_eq_range']
    have hskipped : ∀ e ∈ members.zipIdx, groupKey? isClass e.1 = none → f e.2 = [] := by
      intro e he hk
      have hget : members[e.2]? = some e.1 := List.mem_zipIdx_iff_getElem?.1 he
      have hmem := List.mem_of_getElem? hget
      refine hf e.2 e.1 hget ?_
      -- a decorated member is a function and has a key, so it is in a group
      by_contra hd
      rw [Bool.not_eq_false] at hd
      have hfun := hfunction e.1 hmem hd
      rcases Option.isSome_iff_exists.1 (hkeys e.1 hmem hfun) with ⟨key, hkey⟩
      simp [groupKey?, hfun, hkey] at hk
    rw [← hplaces, ← flatMap_keyed members.zipIdx hskipped, List.flatMap_map]
    refine ((List.mergeSort_perm _ _).flatMap_right _).trans ?_
    rw [hflat]
    have hgroups := ((groups_perm isClass members).map (·.1)).flatMap_right f
    rw [List.map_flatMap, List.flatMap_assoc] at hgroups
    exact hgroups

end Undecorate.Classify
