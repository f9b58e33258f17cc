import Undecorate.Emit.Statement
import Undecorate.Proofs.Classify.Groups
import Undecorate.Proofs.Lookup
import Undecorate.Realization

/-! # Plans for computed keys

A decorated property with a computed key has a plan: its first member evaluates the key and the
others read what was captured. Which members those are depends on the members only, so whoever
classifies them makes the same plans.

* `Planned`: what the members of a decorated property have in common;
* `Declaration.Units.planned`: every decoration of a property is planned, and plans do not overlap;
* `Declaration.Units.captures_of_mem`: what the plan of a property says about its members;
* `keyExpressions`: the key expressions that are evaluated, whoever evaluates them; by
  `Declaration.Units.keyExpressions_eq` they depend on the members only.
-/

namespace Undecorate

/-! ## Keys -/

/-- Whether the key of a property is computed. -/
def PropertyKey.isComputed (key : PropertyKey) : Bool := key.expression?.isSome

theorem Key.isComputed_eq_of_identity {k k' : Key} (h : k.identity = k'.identity) :
    k.isComputed = k'.isComputed := by
  unfold Key.identity at h
  cases hk : k.isComputed with
  | true =>
    cases hk' : k'.isComputed with
    | true => rfl
    | false =>
      rw [hk, hk', if_pos rfl, if_neg Bool.false_ne_true] at h
      split at h <;> cases h
  | false =>
    cases hk' : k'.isComputed with
    | false => rfl
    | true =>
      rw [hk, hk', if_pos rfl, if_neg Bool.false_ne_true] at h
      split at h <;> cases h

theorem Key.staticName?_eq_none_iff {k : Key} : k.staticName? = none ↔ k.isComputed = true := by
  unfold Key.staticName?
  cases k.isComputed with
  | true => simp
  | false =>
    rcases k.literal with _ | _ | _ <;> simp

/-! ## Planned properties -/

/-- The places of a decorated property: its members are functions in source order, their keys have
one identity and are all computed or all not, and a computed key is captured. -/
structure Planned (members : List Member) (key : PropertyKey) (places : List Nat) : Prop where
  nonempty : places ≠ []
  increasing : places.Pairwise (· < ·)
  alike : ∃ identity, ∀ i ∈ places, ∀ m k, members[i]? = some m → m.key = some k →
    k.identity = identity
  keyed : ∀ i ∈ places, ∃ m k, members[i]? = some m ∧ m.isFunction = true ∧ m.key = some k ∧
    k.isComputed = key.isComputed
  captured : key.isComputed = true → ∃ expression snapshot,
    key = .computed expression (some snapshot)

namespace Classify

variable {isClass : Bool} {binding : String} {s s' : Scope} {members : List Member}

theorem groupKey?_eq_some {m : Member} {key : GroupKey} (h : groupKey? isClass m = some key) :
    m.isFunction = true ∧ ∃ k, m.key = some k ∧ k.identity = key.2 := by
  unfold groupKey? at h
  split at h
  · rename_i hf
    obtain ⟨k, hk, rfl⟩ := Option.map_eq_some_iff.1 h
    exact ⟨hf, k, hk, rfl⟩
  · cases h

theorem isComputed_propertyKey (k : Key) (s : Scope) :
    (propertyKey k s).1.isComputed = k.isComputed ∧
      (k.isComputed = true →
        ∃ snapshot, (propertyKey k s).1 = .computed k.text (some snapshot)) := by
  unfold propertyKey
  cases hk : k.isComputed with
  | true => exact ⟨rfl, fun _ => ⟨_, rfl⟩⟩
  | false => exact ⟨rfl, nofun⟩

/-- The decoration of a group is planned, and its key is computed iff those of the group are. -/
theorem Makes.planned {g : Group} {place : Nat} {d : Decoration}
    (h : Makes isClass binding g s place d s') (hg : g ∈ groups isClass members) :
    ∃ key initial, d.subject = .property key initial (g.members.map (·.1)) ∧
      Planned members key (g.members.map (·.1)) ∧
      ∀ e ∈ g.members, ∀ k, e.2.key = some k → k.isComputed = key.isComputed := by
  have hordered := mem_groups hg
  obtain ⟨m, key, initial, howner, hkey, -, hsub⟩ := h.owner
  have hmem : (place, m) ∈ g.members := by
    have : (place, m) ∈ g.members.filter (·.2.isDecorated) := by rw [howner]; simp
    exact (List.mem_filter.1 this).1
  obtain ⟨-, k, hk, hidentity⟩ := groupKey?_eq_some (hordered.key _ hmem)
  have hcomputed := isComputed_propertyKey k s
  rw [hk, Option.getD_some] at hkey
  rw [hkey] at hcomputed
  -- all keys of the group have the identity of the owner's
  have hall : ∀ e ∈ g.members, ∀ k', e.2.key = some k' → k'.isComputed = key.isComputed := by
    intro e he k' hk'
    obtain ⟨-, k'', hk'', hidentity'⟩ := groupKey?_eq_some (hordered.key e he)
    obtain rfl : k' = k'' := Option.some.inj (hk'.symm.trans hk'')
    rw [hcomputed.1]
    exact Key.isComputed_eq_of_identity (hidentity'.trans hidentity.symm)
  refine ⟨key, initial, hsub, ⟨?_, hordered.increasing, ⟨g.key.2, ?_⟩, ?_, ?_⟩, hall⟩
  · exact fun hnil => hordered.nonempty (List.map_eq_nil_iff.1 hnil)
  · intro i hi m' k' hm' hk'
    obtain ⟨e, he, rfl⟩ := List.mem_map.1 hi
    obtain ⟨-, k'', hk'', hidentity'⟩ := groupKey?_eq_some (hordered.key e he)
    obtain rfl : e.2 = m' := Option.some.inj ((getElem?_of_mem_groups hg he).symm.trans hm')
    obtain rfl : k'' = k' := Option.some.inj (hk''.symm.trans hk')
    exact hidentity'
  · intro i hi
    obtain ⟨e, he, rfl⟩ := List.mem_map.1 hi
    obtain ⟨hf, k', hk', -⟩ := groupKey?_eq_some (hordered.key e he)
    exact ⟨e.2, k', getElem?_of_mem_groups hg he, hf, hk', hall e he k' hk'⟩
  · intro hc
    obtain ⟨snapshot, hsnapshot⟩ := hcomputed.2 (hcomputed.1 ▸ hc)
    exact ⟨k.text, snapshot, hsnapshot⟩

/-- Decorations take their members from the groups, each group once. -/
theorem MakesAll.sublist {gs : List Group} {found : List (Nat × Decoration)}
    (h : MakesAll isClass binding gs s found s') :
    ((found.map (·.2)).flatMap (·.members)).Sublist
      (gs.flatMap fun g => g.members.map (·.1)) := by
  induction h with
  | nil => exact .refl _
  | skip _ _ ih =>
    rw [List.flatMap_cons]
    exact ih.trans (List.sublist_append_right _ _)
  | make hfirst _ ih =>
    obtain ⟨m, key, initial, -, -, -, hsub⟩ := hfirst.owner
    rw [List.map_cons, List.flatMap_cons, List.flatMap_cons, Decoration.members, hsub]
    exact (List.Sublist.refl _).append ih

/-- Every group with a decorated member has its decoration. -/
theorem MakesAll.complete {gs : List Group} {found : List (Nat × Decoration)}
    (h : MakesAll isClass binding gs s found s') {g : Group} (hg : g ∈ gs)
    (hne : g.members.filter (·.2.isDecorated) ≠ []) :
    ∃ p ∈ found, ∃ s₁ s₂, Makes isClass binding g s₁ p.1 p.2 s₂ := by
  induction h with
  | nil => cases hg
  | skip hnone _ ih =>
    rcases List.mem_cons.1 hg with rfl | hg
    · exact absurd hnone hne
    · exact ih hg
  | make hfirst _ ih =>
    rcases List.mem_cons.1 hg with rfl | hg
    · exact ⟨_, List.mem_cons_self, _, _, hfirst⟩
    · obtain ⟨p, hp, hmakes⟩ := ih hg
      exact ⟨p, List.mem_cons_of_mem _ hp, hmakes⟩

theorem nodup_places (isClass : Bool) (members : List Member) :
    ((groups isClass members).flatMap fun g => g.members.map (·.1)).Nodup := by
  have hperm := (groups_perm isClass members).map Prod.fst
  rw [List.map_flatMap] at hperm
  rw [hperm.nodup_iff]
  unfold keyed
  rw [List.map_map]
  -- the places of members are apart
  have hplaces : (members.zipIdx.map Prod.snd).Nodup := by
    rw [List.zipIdx_map_snd]
    exact List.nodup_range'
  exact (List.filter_sublist.map Prod.snd).nodup hplaces

/-- Whether a place belongs to a member of a decorated computed property, other than its first. -/
def Follows (isClass : Bool) (members : List Member) (i : Nat) : Prop :=
  ∃ g ∈ groups isClass members, g.members.filter (·.2.isDecorated) ≠ [] ∧
    (∃ e ∈ g.members, e.2.key.any (·.isComputed) = true) ∧ i ∈ (g.members.map (·.1)).tail

theorem memberDecorations_planned {ds : List Decoration}
    (h : memberDecorations isClass binding members s = .ok (ds, s')) :
    (∀ d ∈ ds, ∃ key initial places, d.subject = .property key initial places ∧
      Planned members key places) ∧
    (ds.flatMap (·.members)).Nodup ∧
    ∀ i, Follows isClass members i ↔ ∃ d ∈ ds, ∃ key initial places,
      d.subject = .property key initial places ∧ key.isComputed = true ∧ i ∈ places.tail := by
  obtain ⟨found, hmade, hperm⟩ := memberDecorations_made h
  refine ⟨?_, ?_, ?_⟩
  · intro d hd
    obtain ⟨p, hp, rfl⟩ := List.mem_map.1 (hperm.subset hd)
    obtain ⟨g, hg, s₁, s₂, hmakes⟩ := hmade.makes p hp
    obtain ⟨key, initial, hsub, hplanned, -⟩ := hmakes.planned hg
    exact ⟨key, initial, _, hsub, hplanned⟩
  · rw [(hperm.flatMap_right _).nodup_iff]
    exact hmade.sublist.nodup (nodup_places isClass members)
  · intro i
    constructor
    · rintro ⟨g, hg, hne, ⟨e, he, hcomputed⟩, hi⟩
      obtain ⟨p, hp, s₁, s₂, hmakes⟩ := hmade.complete hg hne
      obtain ⟨key, initial, hsub, -, hall⟩ := hmakes.planned hg
      obtain ⟨k, hk, hc⟩ := (Option.any_eq_true _ _).1 hcomputed
      refine ⟨p.2, hperm.symm.subset (List.mem_map_of_mem hp), key, initial, _, hsub, ?_, hi⟩
      rw [← hall e he k hk]
      exact hc
    · rintro ⟨d, hd, key, initial, places, hsub, hcomputed, hi⟩
      obtain ⟨p, hp, rfl⟩ := List.mem_map.1 (hperm.subset hd)
      obtain ⟨g, hg, s₁, s₂, hmakes⟩ := hmade.makes p hp
      obtain ⟨key', initial', hsub', -, hall⟩ := hmakes.planned hg
      obtain ⟨rfl, rfl, rfl⟩ : key = key' ∧ initial = initial' ∧ places = _ := by
        rw [hsub, Subject.property.injEq] at hsub'
        exact hsub'
      obtain ⟨m, -, -, howner, -⟩ := hmakes.owner
      have hordered := mem_groups hg
      refine ⟨g, hg, by rw [howner]; simp, ?_, hi⟩
      obtain ⟨e, he⟩ := List.exists_mem_of_ne_nil _ hordered.nonempty
      obtain ⟨-, k, hk, -⟩ := groupKey?_eq_some (hordered.key e he)
      refine ⟨e, he, ?_⟩
      rw [hk, Option.any_some, hall e he k hk]
      exact hcomputed

end Classify

/-! ## Units of a declaration -/

/-- Whether a declaration is a class. -/
def Declaration.isClass : Declaration → Bool
  | .cls _ => true
  | .object _ => false

/-- The decorations of a declaration, whichever scope and binding its members were classified with:
those of its members, and perhaps one of the class. -/
def Declaration.Units (d : Declaration) (ds : List Decoration) : Prop :=
  ∃ binding s s' found own, Classify.memberDecorations d.isClass binding d.members s =
      .ok (found, s') ∧ ds = found ++ own ∧ ∀ u ∈ own, u.subject = .whole

theorem ClassDecl.units {c : ClassDecl} {ds : List Decoration} {s s' : Scope}
    (h : c.decorations s = .ok (ds, s')) : (Declaration.cls c).Units ds := by
  simp only [ClassDecl.decorations, bind_eq_ok, pure_eq_ok, Prod.mk.injEq] at h
  obtain ⟨⟨found, s₁⟩, hfound, rfl, rfl⟩ := h
  refine ⟨_, _, _, found, _, hfound, rfl, ?_⟩
  intro u hu
  split at hu
  · cases hu
  · rw [List.mem_singleton.1 hu]

theorem ObjectLiteral.units {o : ObjectLiteral} {ds : List Decoration} {binding : String}
    {s s' : Scope} (h : o.decorations binding s = .ok (ds, s')) :
    (Declaration.object o).Units ds :=
  ⟨binding, s, s', ds, [], h, (List.append_nil ds).symm, by simp⟩

theorem Declaration.units {d : Declaration} {ds : List Decoration} {s s' : Scope}
    (h : d.decorations s = .ok (ds, s')) : d.Units ds := by
  cases d with
  | cls c => exact ClassDecl.units h
  | object o => exact ObjectLiteral.units h

namespace Declaration.Units

variable {d : Declaration} {ds : List Decoration}

theorem members_whole {own : List Decoration} (h : ∀ u ∈ own, u.subject = .whole) :
    own.flatMap (·.members) = [] := by
  rw [List.flatMap_eq_nil_iff]
  intro u hu
  rw [Decoration.members, h u hu]

/-- Decorations of properties are planned, and no member is in two of them. -/
theorem planned (h : d.Units ds) :
    (∀ u ∈ ds, ∀ key initial places, u.subject = .property key initial places →
      Planned d.members key places) ∧ (ds.flatMap (·.members)).Nodup := by
  obtain ⟨binding, s, s', found, own, hfound, rfl, hown⟩ := h
  obtain ⟨hplanned, hnodup, -⟩ := Classify.memberDecorations_planned hfound
  refine ⟨?_, ?_⟩
  · intro u hu key initial places hsub
    rcases List.mem_append.1 hu with hu | hu
    · obtain ⟨key', initial', places', hsub', hp⟩ := hplanned u hu
      rw [hsub, Subject.property.injEq] at hsub'
      obtain ⟨rfl, rfl, rfl⟩ := hsub'
      exact hp
    · rw [hown u hu] at hsub
      cases hsub
  · rw [List.flatMap_append, members_whole hown, List.append_nil]
    exact hnodup

end Declaration.Units

/-- Whether a place belongs to a later member of a decorated computed property. -/
def follows (ds : List Decoration) (i : Nat) : Bool :=
  ds.any fun u => match u.subject with
    | .property key _ places => key.isComputed && places.tail.contains i
    | .whole => false

/-- The computed keys of members that are not of a later member of a decorated property, by the
places of their members. -/
def ownKeys (ds : List Decoration) (entries : List (Member × Nat)) : List (Nat × String) :=
  entries.flatMap fun (m, i) => match m.key with
    | some k => if k.isComputed && !follows ds i then [(i, k.text)] else []
    | none => []

/-- The expressions of these keys in source order. -/
def keyExpressions (ds : List Decoration) (members : List Member) : List String :=
  (ownKeys ds members.zipIdx).map (·.2)

/-! ## Followers and captures -/

theorem mem_sharedKeys {ds : List Decoration} {i first : Nat} :
    (i, first) ∈ Realization.sharedKeys ds ↔
      ∃ u ∈ ds, ∃ key initial rest, u.subject = .property key initial (first :: rest) ∧
        key.isComputed = true ∧ i ∈ rest := by
  unfold Realization.sharedKeys
  rw [List.mem_flatMap]
  refine exists_congr fun u => and_congr_right fun _ => ?_
  constructor
  · intro hmem
    split at hmem
    · rename_i e snapshot initial f rest hsub
      obtain ⟨j, hj, heq⟩ := List.mem_map.1 hmem
      obtain ⟨rfl, rfl⟩ := Prod.mk.inj heq
      exact ⟨_, initial, rest, hsub, rfl, hj⟩
    · cases hmem
  · rintro ⟨key, initial, rest, hsub, hcomputed, hi⟩
    cases key with
    | static name => cases hcomputed
    | computed e snapshot =>
      rw [hsub]
      exact List.mem_map_of_mem hi

theorem follows_iff {ds : List Decoration} {i : Nat} : follows ds i = true ↔
    ∃ u ∈ ds, ∃ key initial places, u.subject = .property key initial places ∧
      key.isComputed = true ∧ i ∈ places.tail := by
  rw [follows, List.any_eq_true]
  refine exists_congr fun u => and_congr_right fun _ => ?_
  cases u.subject with
  | whole => simp
  | property key initial places =>
    simp only [Bool.and_eq_true, List.contains_iff_mem]
    constructor
    · intro h
      exact ⟨key, initial, places, rfl, h⟩
    · rintro ⟨key', initial', places', heq, h⟩
      rw [Subject.property.injEq] at heq
      obtain ⟨rfl, rfl, rfl⟩ := heq
      exact h

/-- A member follows iff the key of an earlier one is its own. -/
theorem isSome_lookup_sharedKeys {ds : List Decoration} {i : Nat} :
    ((Realization.sharedKeys ds).lookup i).isSome = true ↔ follows ds i = true := by
  rw [isSome_lookup_iff_mem, follows_iff]
  constructor
  · intro hi
    obtain ⟨⟨j, first⟩, hp, rfl⟩ := List.mem_map.1 hi
    obtain ⟨u, hu, key, initial, rest, hsub, hcomputed, hmem⟩ := mem_sharedKeys.1 hp
    exact ⟨u, hu, key, initial, _, hsub, hcomputed, hmem⟩
  · rintro ⟨u, hu, key, initial, places, hsub, hcomputed, hi⟩
    cases places with
    | nil => cases hi
    | cons first rest =>
      exact List.mem_map.2 ⟨(i, first),
        mem_sharedKeys.2 ⟨u, hu, key, initial, rest, hsub, hcomputed, hi⟩, rfl⟩

theorem mem_captures {ds : List Decoration} {i : Nat} {c : Capture} :
    (i, c) ∈ captures ds ↔ ∃ u ∈ ds, ∃ expression initial places,
      u.subject = .property (.computed expression (some c.snapshot)) initial places ∧
        (i, c.assigns) ∈ places.zipIdx.map fun p => (p.1, p.2 == 0) := by
  unfold captures
  rw [List.mem_reverse, List.mem_flatMap]
  refine exists_congr fun u => and_congr_right fun _ => ?_
  unfold Decoration.captures
  constructor
  · intro hmem
    split at hmem
    · rename_i e snapshot initial places hsub
      obtain ⟨p, hp, heq⟩ := List.mem_map.1 hmem
      obtain ⟨rfl, rfl⟩ := Prod.mk.inj heq
      exact ⟨e, initial, places, hsub, List.mem_map.2 ⟨p, hp, rfl⟩⟩
    · cases hmem
  · rintro ⟨e, initial, places, hsub, hmem⟩
    obtain ⟨p, hp, heq⟩ := List.mem_map.1 hmem
    obtain ⟨rfl, hassigns⟩ := Prod.mk.inj heq
    rw [hsub]
    refine List.mem_map.2 ⟨p, hp, ?_⟩
    simp [hassigns]

theorem map_fst_captures_sublist (ds : List Decoration) :
    ((captures ds).reverse.map (·.1)).Sublist (ds.flatMap (·.members)) := by
  unfold captures
  rw [List.reverse_reverse]
  induction ds with
  | nil => exact .refl _
  | cons u ds ih =>
    rw [List.flatMap_cons, List.flatMap_cons, List.map_append]
    refine List.Sublist.append ?_ ih
    unfold Decoration.captures
    split
    · rename_i e snapshot initial places hsub
      have hplaces : u.members = places := by rw [Decoration.members, hsub]
      have hfst : places.zipIdx.map (·.1) = places := List.zipIdx_map_fst 0 places
      rw [hplaces, List.map_map]
      exact (congrArg (List.Sublist · places) hfst).mpr (.refl places)
    · exact List.nil_sublist _

namespace Declaration.Units

variable {d : Declaration} {ds : List Decoration}

/-- No member is in two plans. -/
theorem nodup_captures (h : d.Units ds) : ((captures ds).map (·.1)).Nodup := by
  have hnodup := (map_fst_captures_sublist ds).nodup h.planned.2
  rwa [List.map_reverse, List.nodup_reverse] at hnodup

/-- A member belongs to one decoration only. -/
theorem eq_of_mem_members (h : d.Units ds) {u u' : Decoration} (hu : u ∈ ds) (hu' : u' ∈ ds)
    {i : Nat} (hi : i ∈ u.members) (hi' : i ∈ u'.members) : u = u' :=
  eq_of_nodup_flatMap h.planned.2 hu hu' hi hi'

/-- The first member of a decorated property is no later one, of its own or of another. -/
theorem not_follows_first (h : d.Units ds) {u : Decoration} (hu : u ∈ ds) {key : PropertyKey}
    {initial : Descriptor Nat} {first : Nat} {rest : List Nat}
    (hsub : u.subject = .property key initial (first :: rest)) : follows ds first = false := by
  rw [← Bool.not_eq_true, follows_iff]
  rintro ⟨u', hu', key', initial', places', hsub', -, hlater⟩
  have hmem' : first ∈ u'.members := by
    rw [Decoration.members, hsub']
    exact List.mem_of_mem_tail hlater
  obtain rfl := h.eq_of_mem_members hu hu' (by simp [Decoration.members, hsub]) hmem'
  rw [hsub, Subject.property.injEq] at hsub'
  obtain ⟨-, -, rfl⟩ := hsub'
  have hplanned := h.planned.1 u hu _ _ _ hsub
  exact Nat.lt_irrefl _ ((List.pairwise_cons.1 hplanned.increasing).1 first hlater)

/-- A member with the key of an earlier one: the earlier one stands before it and follows none, and
both keys are computed. -/
theorem leader (h : d.Units ds) {i first : Nat}
    (hshared : (Realization.sharedKeys ds).lookup i = some first) :
    first < i ∧ follows ds first = false ∧
      (∃ m k, d.members[first]? = some m ∧ m.key = some k ∧ k.isComputed = true) ∧
      ∃ m k, d.members[i]? = some m ∧ m.key = some k ∧ k.isComputed = true := by
  obtain ⟨u, hu, key, initial, rest, hsub, hcomputed, hi⟩ :=
    mem_sharedKeys.1 (mem_of_lookup hshared)
  have hplanned := h.planned.1 u hu _ _ _ hsub
  have hkeyed : ∀ j ∈ first :: rest, ∃ m k, d.members[j]? = some m ∧ m.key = some k ∧
      k.isComputed = true := by
    intro j hj
    obtain ⟨m, k, hm, -, hk, hc⟩ := hplanned.keyed j hj
    exact ⟨m, k, hm, hk, hc.trans hcomputed⟩
  exact ⟨(List.pairwise_cons.1 hplanned.increasing).1 i hi, h.not_follows_first hu hsub,
    hkeyed first List.mem_cons_self, hkeyed i (List.mem_cons_of_mem _ hi)⟩

/-- The plan of a decorated computed property: its first member assigns the snapshot, and the others
stand behind that one and read it. -/
theorem captures_of_mem (h : d.Units ds) {u : Decoration} (hu : u ∈ ds) {key : PropertyKey}
    {initial : Descriptor Nat} {places : List Nat}
    (hsub : u.subject = .property key initial places) (hcomputed : key.isComputed = true) :
    ∃ expression snapshot first rest, key = .computed expression (some snapshot) ∧
      places = first :: rest ∧ (captures ds).lookup first = some ⟨snapshot, true⟩ ∧
      ∀ i ∈ rest, first < i ∧ (captures ds).lookup i = some ⟨snapshot, false⟩ := by
  have hplanned := h.planned.1 u hu _ _ _ hsub
  obtain ⟨expression, snapshot, rfl⟩ := hplanned.captured hcomputed
  have hlookup : ∀ i n, places[n]? = some i →
      (captures ds).lookup i = some ⟨snapshot, n == 0⟩ := by
    intro i n hn
    refine lookup_of_mem h.nodup_captures (mem_captures.2 ?_)
    exact ⟨u, hu, expression, initial, places, hsub,
      List.mem_map.2 ⟨(i, n), List.mem_zipIdx_iff_getElem?.2 hn, rfl⟩⟩
  cases places with
  | nil => exact absurd rfl hplanned.nonempty
  | cons first rest =>
    refine ⟨expression, snapshot, first, rest, rfl, rfl, hlookup first 0 rfl, ?_⟩
    intro i hi
    obtain ⟨n, hn⟩ := List.getElem?_of_mem hi
    exact ⟨(List.pairwise_cons.1 hplanned.increasing).1 i hi, hlookup i (n + 1) hn⟩

/-- What the plans say about a place: its member is the first of a decorated computed property and
assigns the snapshot, or a later one and reads it, or is in no such property. -/
theorem lookup_captures (h : d.Units ds) (i : Nat) :
    (∃ snapshot, (captures ds).lookup i = some ⟨snapshot, true⟩ ∧ follows ds i = false) ∨
    (∃ snapshot, (captures ds).lookup i = some ⟨snapshot, false⟩ ∧ follows ds i = true) ∨
    ((captures ds).lookup i = none ∧ follows ds i = false) := by
  by_cases hi : i ∈ (captures ds).map (·.1)
  · obtain ⟨⟨j, c⟩, hmem, rfl⟩ := List.mem_map.1 hi
    obtain ⟨u, hu, e, initial, places, hsub, hplace⟩ := mem_captures.1 hmem
    obtain ⟨⟨i, n⟩, hn, heq⟩ := List.mem_map.1 hplace
    obtain ⟨rfl, -⟩ := Prod.mk.inj heq
    obtain ⟨-, snapshot, first, rest, -, rfl, hfirst, hrest⟩ := h.captures_of_mem hu hsub rfl
    have hi : i ∈ first :: rest := List.mem_of_getElem? (List.mem_zipIdx_iff_getElem?.1 hn)
    rcases List.mem_cons.1 hi with rfl | hi
    · exact .inl ⟨snapshot, hfirst, h.not_follows_first hu hsub⟩
    · exact .inr (.inl ⟨snapshot, (hrest i hi).2,
        follows_iff.2 ⟨u, hu, _, initial, _, hsub, rfl, hi⟩⟩)
  · refine .inr (.inr ⟨?_, ?_⟩)
    · rw [← Option.not_isSome_iff_eq_none, isSome_lookup_iff_mem]
      exact hi
    · -- a later member would be captured
      rw [← Bool.not_eq_true, follows_iff]
      rintro ⟨u, hu, key, initial, places, hsub, hcomputed, hlater⟩
      obtain ⟨-, snapshot, first, rest, -, rfl, -, hrest⟩ := h.captures_of_mem hu hsub hcomputed
      refine hi (isSome_lookup_iff_mem.1 ?_)
      rw [(hrest i hlater).2]
      rfl

/-- A captured member is a function with a computed key. -/
theorem computed_of_captures (h : d.Units ds) {i : Nat} {c : Capture}
    (hlookup : (captures ds).lookup i = some c) :
    ∃ m k, d.members[i]? = some m ∧ m.isFunction = true ∧ m.key = some k ∧
      k.isComputed = true := by
  obtain ⟨u, hu, e, initial, places, hsub, hplace⟩ := mem_captures.1 (mem_of_lookup hlookup)
  obtain ⟨⟨j, n⟩, hn, heq⟩ := List.mem_map.1 hplace
  obtain ⟨rfl, -⟩ := Prod.mk.inj heq
  have hj : j ∈ places := List.mem_of_getElem? (List.mem_zipIdx_iff_getElem?.1 hn)
  exact (h.planned.1 u hu _ _ _ hsub).keyed j hj

/-- The plans depend on the members only. -/
theorem follows_eq (h : d.Units ds) {ds' : List Decoration} (h' : d.Units ds') (i : Nat) :
    follows ds i = follows ds' i := by
  -- a decoration of the class has no members
  have hfollows : ∀ {ds}, d.Units ds →
      (follows ds i = true ↔ Classify.Follows d.isClass d.members i) := by
    rintro ds ⟨binding, s, s', found, own, hfound, rfl, hown⟩
    rw [(Classify.memberDecorations_planned hfound).2.2 i, follows_iff]
    constructor
    · rintro ⟨u, hu, key, initial, places, hsub, hrest⟩
      rcases List.mem_append.1 hu with hu | hu
      · exact ⟨u, hu, key, initial, places, hsub, hrest⟩
      · rw [hown u hu] at hsub
        cases hsub
    · rintro ⟨u, hu, hrest⟩
      exact ⟨u, List.mem_append_left _ hu, hrest⟩
  rw [Bool.eq_iff_iff, hfollows h, hfollows h']

/-- So do the expressions that are evaluated. -/
theorem keyExpressions_eq (h : d.Units ds) {ds' : List Decoration} (h' : d.Units ds') :
    keyExpressions ds d.members = keyExpressions ds' d.members := by
  unfold keyExpressions ownKeys
  simp only [h.follows_eq h']

end Declaration.Units

end Undecorate
