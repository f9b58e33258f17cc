import Undecorate.Proofs.Chain.Law
import Undecorate.Proofs.Realization.Traits
import Undecorate.Proofs.Realization.Undecorated

/-! # What chains start from

A decorated property is described by the members that are written with its key, and lowered source
starts its chain from that descriptor. A run reads the property back from the object instead, where
other members may have come to stand under the same name.

* `Reaches`: a run has come to the chain of a decoration;
* `handed_of_reaches`: the chain is handed a copy of the property as it stands;
* `chains_start_from_what_stands`: where no earlier decoration has replaced the property, the copy
  has the traits of the first descriptor iff the members that are left standing under the name are
  of the kinds of the decorated ones.
-/

namespace Undecorate

/-! ## Decorated properties -/

namespace Classify

variable {isClass : Bool} {binding : String} {s s' : Scope} {members : List Member}

/-- What the decoration of a property owes to its group: the target of its side, its places, the
descriptor of its members, and the decorators of one of them. -/
structure Describes (isClass : Bool) (g : Group) (d : Decoration) : Prop where
  target : ∃ binding, d.target = Classify.target isClass binding g
  subject : ∃ key initial, d.subject = .property key initial (g.members.map (·.1)) ∧
    Descriptor.ofMembers (g.members.map fun (i, m) => (m, some i)) = .ok initial
  owner : ∃ e ∈ g.members, e.2.isDecorated = true ∧ d.decorators = e.2.decorators

theorem groupDecoration_describes {g : Group} {place : Nat} {d : Decoration}
    (h : groupDecoration isClass binding g s = .ok (some (place, d), s')) :
    Describes isClass g d := by
  unfold groupDecoration at h
  split at h
  · cases h
  · cases h
  · rename_i owner hone
    dsimp only at h
    split at h
    · cases h
    · rename_i initial hinitial
      cases h
      have howner : (place, owner) ∈ g.members.filter (·.2.isDecorated) := by
        rw [hone]
        exact List.mem_singleton.2 rfl
      obtain ⟨hmem, hdecorated⟩ := List.mem_filter.1 howner
      exact ⟨⟨binding, rfl⟩, ⟨_, initial, rfl, hinitial⟩, _, hmem, hdecorated, rfl⟩

theorem groupDecorations_describes {gs : List Group} {found : List (Nat × Decoration)}
    (h : groupDecorations isClass binding gs s = .ok (found, s')) :
    ∀ p ∈ found, ∃ g ∈ gs, Describes isClass g p.2 := by
  induction gs generalizing s found with
  | nil =>
    cases h
    simp
  | cons g gs ih =>
    simp only [groupDecorations, bind_eq_ok, pure_eq_ok] at h
    obtain ⟨⟨head, s₁⟩, hg, ⟨rest, s₂⟩, hgs, heq⟩ := h
    obtain ⟨rfl, rfl⟩ := Prod.mk.inj heq
    intro p hp
    rcases List.mem_append.1 hp with hp | hp
    · obtain rfl := Option.mem_toList.1 hp
      exact ⟨g, List.mem_cons_self, groupDecoration_describes hg⟩
    · obtain ⟨g', hg', hdescribes⟩ := ih hgs p hp
      exact ⟨g', List.mem_cons_of_mem g hg', hdescribes⟩

theorem memberDecorations_describes {ds : List Decoration}
    (h : memberDecorations isClass binding members s = .ok (ds, s')) {d : Decoration}
    (hd : d ∈ ds) : ∃ g ∈ groups isClass members, Describes isClass g d := by
  obtain ⟨-, found, hfound, rfl⟩ := memberDecorations_eq_ok_iff.1 h
  obtain ⟨p, hp, rfl⟩ := List.mem_map.1 hd
  exact groupDecorations_describes hfound p ((List.mergeSort_perm _ _).subset hp)

/-- The key of a group with a decorated member is not private. -/
theorem identity_ne_hidden (hfirst : firstIneligible? members = none) {g : Group}
    (hg : g ∈ groups isClass members) {e : Nat × Member} (he : e ∈ g.members)
    (hdecorated : e.2.isDecorated = true) (text : String) : g.key.2 ≠ .hidden text := by
  intro hidden
  obtain ⟨-, k, hk, hidentity⟩ := groupKey?_eq_some ((mem_groups hg).key e he)
  have hmem : e.2 ∈ members := List.mem_of_getElem? (getElem?_of_mem_groups hg he)
  unfold firstIneligible? at hfirst
  rw [List.findSome?_eq_none_iff] at hfirst
  have hnone := hfirst e.2 (List.mem_filter.2 ⟨hmem, hdecorated⟩)
  unfold ineligible? at hnone
  rw [hk] at hnone
  have hprivate : k.isPrivate = false := by
    by_contra h
    rw [Bool.not_eq_false] at h
    split at hnone
    · cases hnone
    · simp [h] at hnone
  rw [hidden] at hidentity
  unfold Key.identity at hidentity
  rw [hprivate] at hidentity
  split at hidentity <;> cases hidentity

end Classify

/-- A decoration of a property describes a group of the members. -/
theorem Declaration.Units.describes {d : Declaration} {ds : List Decoration} (h : d.Units ds)
    {u : Decoration} (hu : u ∈ ds) (hsub : u.subject ≠ .whole) :
    Classify.firstIneligible? d.members = none ∧
      ∃ g ∈ Classify.groups d.isClass d.members, Classify.Describes d.isClass g u := by
  obtain ⟨binding, s, s', found, own, hfound, rfl, hown⟩ := h
  refine ⟨(Classify.memberDecorations_eq_ok_iff.1 hfound).1, ?_⟩
  rcases List.mem_append.1 hu with hu | hu
  · exact Classify.memberDecorations_describes hfound hu
  · exact absurd (hown u hu) hsub

namespace Realization

variable {σ : Type} {host : Host σ} {names : Names} {d : Declaration} {w w' : World σ}
  {ds : List Decoration} {u : Decoration} {built : Ref} {keys : List (Nat × Value)} {key : Value}

/-- Static keys of one identity give one name, unless they are private. -/
theorem staticName?_of_identity {k k' : Key} (h : k.identity = k'.identity)
    (hk : k.isComputed = false) (hidden : ∀ text, k.identity ≠ .hidden text) :
    k.staticName? = k'.staticName? := by
  have hk' : k'.isComputed = false := (Key.isComputed_eq_of_identity h).symm.trans hk
  have hname : ∀ k : Key, k.isComputed = false → (∀ text, k.identity ≠ .hidden text) →
      ∃ name, k.staticName? = some name ∧ k.identity = .name name := by
    intro k hk hidden
    have hsome : k.staticName? ≠ none := by
      rw [Ne, Key.staticName?_eq_none_iff, hk]
      exact Bool.false_ne_true
    obtain ⟨name, hname⟩ := Option.ne_none_iff_exists'.1 hsome
    refine ⟨name, hname, ?_⟩
    unfold Key.identity at hidden ⊢
    rw [hk, hname] at hidden ⊢
    cases hprivate : k.isPrivate with
    | true =>
      rw [hprivate] at hidden
      exact absurd rfl (hidden k.text)
    | false => rfl
  obtain ⟨name, hstatic, hidentity⟩ := hname k hk hidden
  obtain ⟨name', hstatic', hidentity'⟩ := hname k' hk' (by rwa [← h])
  rw [hidentity, hidentity'] at h
  rw [hstatic, hstatic', KeyIdentity.name.inj h]

theorem length_of_mapM {ι α : Type} {k : ι → Act σ α} {items : List ι} {values : List α}
    (h : (items.mapM k).Returns w values w') : values.length = items.length := by
  induction items generalizing w values with
  | nil =>
    obtain ⟨rfl, -⟩ := Act.returns_pure.1 h
    rfl
  | cons i items ih =>
    simp only [List.mapM_cons, Act.returns_bind, Act.returns_pure] at h
    obtain ⟨a, w₁, -, rest, w₂, hrest, rfl, rfl⟩ := h
    rw [List.length_cons, List.length_cons, ih hrest]

/-- A member of a property under a static key is looked up by the name of its key, which has the
identity of the group. -/
theorem exists_lookup_of_static {g : Classify.Group}
    (hg : g ∈ Classify.groups d.isClass d.members) {pkey : PropertyKey}
    (hplanned : Planned d.members pkey (g.members.map (·.1))) (hstatic : pkey.isComputed = false)
    (values : List Value) {i : Nat} (hi : i ∈ g.members.map (·.1)) :
    ∃ (k : Key) (name : Text), k.identity = g.key.2 ∧ k.isComputed = false ∧
      k.staticName? = some name ∧
        (keyTable ds d.members values).lookup i = some (.text name .shared) := by
  obtain ⟨m, k, hm, -, hk, hcomputed⟩ := hplanned.keyed i hi
  rw [hstatic] at hcomputed
  obtain ⟨e, he, rfl⟩ := List.mem_map.1 hi
  obtain rfl : e.2 = m :=
    Option.some.inj ((Classify.getElem?_of_mem_groups hg he).symm.trans hm)
  obtain ⟨-, k', hk', hidentity⟩ := Classify.groupKey?_eq_some ((Classify.mem_groups hg).key e he)
  obtain rfl : k' = k := Option.some.inj (hk'.symm.trans hk)
  have hsome : k'.staticName? ≠ none := by
    rw [Ne, Key.staticName?_eq_none_iff, hcomputed]
    exact Bool.false_ne_true
  obtain ⟨name, hname⟩ := Option.ne_none_iff_exists'.1 hsome
  refine ⟨k', name, hidentity, hcomputed, hname, ?_⟩
  rw [lookup_keyTable ds hm hk, valueOfKey, hname]

/-- All members of a decorated property have the same key. -/
theorem lookup_keys_of_mem (hunits : d.Units ds) {start : World σ}
    (hkeys : (keysOf host names d.members ds).Returns start keys w') (hu : u ∈ ds)
    (hkey : (u.members.head?.bind fun i => keys.lookup i) = some key) :
    ∀ i ∈ u.members, keys.lookup i = some key := by
  rw [keysOf_eq hunits] at hkeys
  obtain ⟨values, w₁, hvalues, hend⟩ := Act.returns_bind.1 hkeys
  obtain ⟨rfl, rfl⟩ := Act.returns_pure.1 hend
  obtain ⟨first, hfirst, hkey⟩ := Option.bind_eq_some_iff.1 hkey
  have hwhole : u.subject ≠ .whole := by
    intro hwhole
    rw [Decoration.members, hwhole] at hfirst
    cases hfirst
  obtain ⟨hineligible, g, hg, hdescribes⟩ := hunits.describes hu hwhole
  obtain ⟨pkey, initial, hsub, -⟩ := hdescribes.subject
  have hmembers : u.members = g.members.map (·.1) := by rw [Decoration.members, hsub]
  have hplanned := hunits.planned.1 u hu _ _ _ hsub
  rw [hmembers] at hfirst ⊢
  cases hcomputed : pkey.isComputed with
  | true =>
    obtain ⟨rest, hplaces⟩ := List.head?_eq_some_iff.1 hfirst
    rw [hplaces] at hsub ⊢
    obtain ⟨v, -, hall⟩ := lookup_keyTable_of_mem hunits (length_of_mapM hvalues) hu hsub hcomputed
    obtain rfl := Option.some.inj ((hall first List.mem_cons_self).symm.trans hkey)
    exact hall
  | false =>
    obtain ⟨owner, howner, hdecorated, -⟩ := hdescribes.owner
    have hidden := Classify.identity_ne_hidden hineligible hg howner hdecorated
    -- members of one identity have one name
    obtain ⟨k, name, hidentity, hk, hname, hlookup⟩ :=
      exists_lookup_of_static hg hplanned hcomputed values (List.mem_of_head? hfirst)
    obtain rfl := Option.some.inj (hlookup.symm.trans hkey)
    intro i hi
    obtain ⟨k', name', hidentity', -, hname', hlookup'⟩ :=
      exists_lookup_of_static hg hplanned hcomputed values hi
    have hsame := staticName?_of_identity (hidentity.trans hidentity'.symm) hk (by rwa [hidentity])
    rw [hname, hname'] at hsame
    rw [hlookup', Option.some.inj hsame]

/-- The members of a decorated property belong to the object that its decoration writes to. -/
theorem home_eq_site {g : Classify.Group} (hg : g ∈ Classify.groups d.isClass d.members)
    (h : Classify.Describes d.isClass g u) {e : Nat × Member} (he : e ∈ g.members) :
    (layout d built).home e.2 = (layout d built).site u := by
  cases d with
  | object o => rfl
  | cls c =>
    obtain ⟨binding, htarget⟩ := h.target
    have hstatic : g.key.1 = e.2.isStatic := by
      have hkey := (Classify.mem_groups hg).key e he
      unfold Classify.groupKey? at hkey
      split at hkey
      · obtain ⟨k, -, hk⟩ := Option.map_eq_some_iff.1 hkey
        rw [← hk]
        exact Bool.and_true _
      · cases hkey
    change (if e.2.isStatic then built else built + 1) =
      if u.target.kind = .construct then built else built + 1
    rw [htarget, ← hstatic]
    cases hside : g.key.1 with
    | true => simp [Classify.target, Declaration.isClass, hside]
    | false => simp [Classify.target, Declaration.isClass, hside]

/-! ## Runs up to a chain -/

/-- Runs one decoration. -/
def decorateOne (host : Host σ) (names : Names) (d : Declaration) (built : Ref)
    (keys : List (Nat × Value)) (r : Realization) (u : Decoration) : Act σ Realization :=
  match d with
  | .cls _ => runDecoration host names (.object built) (.object (built + 1)) keys r u
  | .object _ => do
    return { r with results := r.results ++ [(u, ← runMember host names u (.object built) keys)] }

theorem decorate_eq_foldlM : decorate host names d built keys ds =
    ds.foldlM (decorateOne host names d built keys)
      { value := .object built, decorations := ds } := by
  cases d <;> rfl

/-- A run of a declaration from `w` on comes to the chain of a decoration: everything is built, the
decorations before it have been run, with the results `earlier`, its decorators have been evaluated,
and its property has been read. The chain starts from `handed` in `w'`, however it ends. -/
inductive Reaches (host : Host σ) (names : Names) (d : Declaration) (w : World σ) (u : Decoration)
    (built : Ref) (keys : List (Nat × Value)) (earlier : List (Decoration × ChainResult))
    (key : Value) (decorators : List Value) (handed : Value) (w' : World σ) : Prop
  | intro {before after : List Decoration} {scope : Scope} {start w₁ w₂ w₃ w₄ : World σ}
      {r : Realization}
      (classified : classify d = .ok (before ++ u :: after, scope))
      (created : (create host names d).Returns w (.object built) start)
      (keyed : (keysOf host names d.members (before ++ u :: after)).Returns start keys w₁)
      (installed : (installMembers d.members keys (layout d built).target
        (layout d built).cls).Returns w₁ () w₂)
      (decorated : (before.foldlM (decorateOne host names d built keys)
        { value := .object built, decorations := before ++ u :: after }).Returns w₂ r w₃)
      (results : r.results = earlier)
      (found : (u.members.head?.bind fun i => keys.lookup i) = some key)
      (resolved : (resolveAll host names u).Returns w₃ decorators w₄)
      (copied : (Act.ownDescriptor (.object ((layout d built).site u)) key).Returns w₄ handed w')

/-- One decoration runs the chain of the class, or that of a property on the object that it writes
to. -/
theorem returns_decorateOne {r r' : Realization}
    (h : (decorateOne host names d built keys r u).Returns w r' w') :
    r'.decorations = r.decorations ∧
      ((u.subject = .whole ∧ ∃ decorators w₁ result,
        (resolveAll host names u).Returns w decorators w₁ ∧
        (runClassChain host (chainSite u .absent) decorators (.object built)).Returns w₁ result
          w') ∨
      ∃ result, (runMember host names u (.object ((layout d built).site u)) keys).Returns w result
        w') := by
  cases d with
  | object o =>
    obtain ⟨result, w₁, hmember, hend⟩ := Act.returns_bind.1 h
    obtain ⟨rfl, rfl⟩ := Act.returns_pure.1 hend
    exact ⟨rfl, .inr ⟨result, hmember⟩⟩
  | cls c =>
    unfold decorateOne runDecoration at h
    cases hu : u.subject with
    | whole =>
      rw [hu] at h
      obtain ⟨decorators, w₁, hresolved, hrest⟩ := Act.returns_bind.1 h
      obtain ⟨result, w₂, hchain, hend⟩ := Act.returns_bind.1 hrest
      obtain ⟨rfl, rfl⟩ := Act.returns_pure.1 hend
      exact ⟨rfl, .inl ⟨rfl, decorators, w₁, result, hresolved, hchain⟩⟩
    | property key initial members =>
      rw [hu] at h
      obtain ⟨result, w₁, hmember, hend⟩ := Act.returns_bind.1 h
      obtain ⟨rfl, rfl⟩ := Act.returns_pure.1 hend
      have hsite : (if u.target.kind = .construct then Value.object built
          else .object (built + 1)) = .object ((layout (.cls c) built).site u) :=
        (apply_ite Value.object (u.target.kind = .construct) built (built + 1)).symm
      rw [← hsite]
      exact ⟨rfl, .inr ⟨result, hmember⟩⟩

/-- A run that returns has come to the chain of each of its properties, and the chain has
returned. -/
theorem exists_reaches_of_returns {r : Realization}
    (h : (ofDeclaration host names d).Returns w r w') (hu : u ∈ r.decorations)
    (hsub : u.subject ≠ .whole) :
    ∃ built keys earlier key decorators handed w₁ result w₂,
      Reaches host names d w u built keys earlier key decorators handed w₁ ∧
      (runMemberChain host (chainSite u key) (.object ((layout d built).site u)) decorators
        handed).Returns w₁ result w₂ := by
  obtain ⟨ds, built, keys, start, w₁, w₂, ⟨scope, hclassified⟩, hcreated, hkeyed, hinstalled,
    hdecorated⟩ := stages_of_returns h
  rw [decorate_eq_foldlM] at hdecorated
  have hds : r.decorations = ds :=
    Act.foldlM_induction (P := fun r : Realization => r.decorations = ds)
      (fun _ _ _ _ _ hr hone => (returns_decorateOne hone).1.trans hr) rfl hdecorated
  rw [hds] at hu
  obtain ⟨before, after, rfl⟩ := List.append_of_mem hu
  rw [List.foldlM_append] at hdecorated
  obtain ⟨r₁, w₃, hbefore, hrest⟩ := Act.returns_bind.1 hdecorated
  rw [List.foldlM_cons] at hrest
  obtain ⟨r₂, w₄, hone, -⟩ := Act.returns_bind.1 hrest
  obtain ⟨result, hmember⟩ :=
    (returns_decorateOne hone).2.resolve_left fun hwhole => hsub hwhole.1
  obtain ⟨key, decorators, w₅, handed, w₆, w₇, b, hkey, hresolved, hcopied, hchain, -⟩ :=
    returns_runMember.1 hmember
  exact ⟨built, keys, r₁.results, key, decorators, handed, w₆, result, w₇,
    ⟨hclassified, hcreated, hkeyed, hinstalled, hbefore, rfl, hkey, hresolved, hcopied⟩, hchain⟩

/-! ## Properties that stand -/

/-- The own property of the object at a place. -/
def ownAt? (h : Heap) (r : Ref) (name : PropertyName) : Option (Descriptor Value) :=
  (h.object? r).bind (·.own? name)

section Standing

variable {places : List Ref} {h h' : Heap} {r t : Ref} {name : PropertyName}

theorem ownAt?_of_spares (hs : h.Spares places h') (hr : r ∈ places)
    (hsome : (ownAt? h r name).isSome = true) : ownAt? h' r name = ownAt? h r name := by
  obtain ⟨e, he⟩ := Option.isSome_iff_exists.1 hsome
  obtain ⟨o, ho, -⟩ := Option.bind_eq_some_iff.1 he
  obtain ⟨o', ho', hproperties, -⟩ := hs.object? hr ho
  rw [ownAt?, ownAt?, ho, ho', Option.bind_some, Option.bind_some, Object.own?, Object.own?,
    hproperties]

/-- No definition takes a property away. -/
theorem isSome_ownAt?_define (d : Descriptor Value) (other : PropertyName)
    (hsome : (ownAt? h r name).isSome = true) :
    (ownAt? (h.define t other d).1 r name).isSome = true := by
  unfold ownAt? at hsome ⊢
  rw [Heap.object?_define]
  by_cases hr : r = t
  · subst hr
    rw [if_pos rfl]
    cases ho : h.object? r with
    | none =>
      rw [ho] at hsome
      cases hsome
    | some o =>
      rw [ho, Option.bind_some] at hsome
      rw [Option.map_some, Option.bind_some]
      have hdefined := o.defined other d
      generalize o.define other d = outcome at hdefined
      cases hdefined with
      | refused => exact hsome
      | misshapen => exact hsome
      | stored merged =>
        rw [Object.own?_holding]
        split
        · rfl
        · exact hsome
  · rw [if_neg hr]
    exact hsome

/-- Decorations take no property of the watched objects away. -/
theorem isSome_ownAt?_decorateOne {r₁ r₂ : Realization}
    (hrun : (decorateOne (host.watching places) names d built keys r₁ u).Returns w r₂ w')
    (hr : r ∈ places) (hsome : (ownAt? w.heap r name).isSome = true) :
    (ownAt? w'.heap r name).isSome = true := by
  rcases (returns_decorateOne hrun).2 with ⟨-, decorators, w₁, result, hresolved, hchain⟩ |
    ⟨result, hmember⟩
  · have hwatch := host.shadows_watching places
    have hspares : w.heap.Spares places w'.heap :=
      (shadows_resolveAll hwatch u w decorators w₁ hresolved).2.trans
        (shadows_runClassChain hwatch _ decorators _ w₁ result w' hchain).2
    rw [ownAt?_of_spares hspares hr hsome]
    exact hsome
  · obtain ⟨key, decorators, w₁, initial, w₂, w₃, b, -, hresolved, hcopied, hchain, hinstalled⟩ :=
      returns_runMember.1 hmember
    have hspares := spares_of_runMemberChain hresolved hcopied hchain
    rw [← ownAt?_of_spares hspares hr hsome] at hsome
    unfold install at hinstalled
    split at hinstalled
    · obtain ⟨_, w₄, hdefine, hend⟩ := Act.returns_bind.1 hinstalled
      obtain ⟨-, rfl⟩ := Act.returns_pure.1 hend
      obtain ⟨t', o, other, q, e, -, -, -, -, -, -, rfl, -⟩ := Act.returns_define.1 hdefine
      exact isSome_ownAt?_define e other hsome
    · simp only [Act.returns_bind, Act.returns_checkQuotable, Act.returns_pure] at hinstalled
      obtain ⟨_, _, ⟨-, rfl⟩, -, rfl⟩ := hinstalled
      exact hsome

end Standing

/-! ## What is handed over -/

/-- The members that give the object of a decoration the property with a name, in their order. -/
def namesakes (d : Declaration) (built : Ref) (keys : List (Nat × Value)) (u : Decoration)
    (name : PropertyName) : List Entry :=
  (entriesAt keys (layout d built).home ((layout d built).site u) d.members.zipIdx).filter
    (·.name = name)

/-- The kinds of the members of a decorated property. -/
def kindsOf (d : Declaration) (u : Decoration) : List MemberKind :=
  u.members.filterMap fun i => (d.members[i]?).map (·.kind)

section Handed

variable {name : PropertyName}

theorem kindsOf_eq {g : Classify.Group} (hg : g ∈ Classify.groups d.isClass d.members)
    (hmembers : u.members = g.members.map (·.1)) : kindsOf d u = g.members.map (·.2.kind) := by
  unfold kindsOf
  rw [hmembers, List.filterMap_map, ← List.filterMap_eq_map]
  refine List.filterMap_congr ?_
  intro e he
  change (d.members[e.1]?).map (·.kind) = some e.2.kind
  rw [Classify.getElem?_of_mem_groups hg he]
  rfl

/-- The traits of the first descriptor of a decorated property, by the kinds of its members. -/
theorem traits_of_describes {g : Classify.Group} (hg : g ∈ Classify.groups d.isClass d.members)
    (h : Classify.Describes d.isClass g u) :
    ∃ initial, u.initial? = some initial ∧ initial.traits = .ofKinds (kindsOf d u) ∧
      kindsOf d u ≠ [] ∧
      ((∀ k ∈ kindsOf d u, k = .method) ∨ ∀ k ∈ kindsOf d u, k.isAccessor = true) := by
  obtain ⟨key, initial, hsub, hinitial⟩ := h.subject
  have hmembers : u.members = g.members.map (·.1) := by rw [Decoration.members, hsub]
  have hkinds : (g.members.map fun (i, m) => (m, some i)).map (·.1.kind) =
      g.members.map (·.2.kind) := List.map_map
  have hordered := Classify.mem_groups hg
  obtain ⟨htraits, halike⟩ := traits_of_ofMembers (by
    intro p hp
    obtain ⟨e, he, rfl⟩ := List.mem_map.1 hp
    exact (Classify.groupKey?_eq_some (hordered.key e he)).1) (by
    intro p hp
    obtain ⟨e, he, rfl⟩ := List.mem_map.1 hp
    rfl) hinitial
  rw [hkinds] at htraits halike
  rw [kindsOf_eq hg hmembers]
  refine ⟨initial, by rw [Decoration.initial?, hsub], htraits, ?_, halike⟩
  exact fun hnil => hordered.nonempty (List.map_eq_nil_iff.1 hnil)

/-- The members of a decorated property are among those that give the property. -/
theorem mem_namesakes {g : Classify.Group} (hg : g ∈ Classify.groups d.isClass d.members)
    (h : Classify.Describes d.isClass g u) (hname : key.propertyName = .ok name)
    {e : Nat × Member} (he : e ∈ g.members) (hkey : keys.lookup e.1 = some key) :
    ⟨e.1, e.2, name⟩ ∈ namesakes d built keys u name := by
  have hfunction := (Classify.groupKey?_eq_some ((Classify.mem_groups hg).key e he)).1
  have hinstalled : isInstalled e.2 = true := by
    rw [isInstalled_eq_givesProperty, givesProperty, hfunction]
    rfl
  unfold namesakes entriesAt
  rw [List.mem_filter, List.mem_filter, List.mem_filterMap]
  refine ⟨⟨⟨(e.2, e.1), ?_, entryOf?_of_propertyName hkey hinstalled hname⟩, ?_⟩, ?_⟩
  · exact List.mem_zipIdx_iff_getElem?.2 (Classify.getElem?_of_mem_groups hg he)
  · exact decide_eq_true (home_eq_site hg h he)
  · exact decide_eq_true rfl

theorem site_mem_places (d : Declaration) (built : Ref) (u : Decoration) :
    (layout d built).site u ∈ (layout d built).places := by
  cases d with
  | cls c =>
    change (if u.target.kind = .construct then built else built + 1) ∈ [built, built + 1]
    split
    · exact List.mem_cons_self
    · exact List.mem_cons_of_mem _ List.mem_cons_self
  | object o => exact List.mem_singleton.2 rfl

/-- No object is created with an accessor. -/
theorem filter_isAccessor_first (d : Declaration) (built r : Ref) (name : PropertyName) :
    (((layout d built).first r).lookup name).filter (·.isAccessor) = none := by
  cases d with
  | cls c =>
    change ((if r = built then [] else [(.text "constructor", Heap.constructorLink built)]).lookup
      name).filter (·.isAccessor) = none
    split
    · rfl
    · rw [List.lookup_cons]
      split <;> rfl
  | object o => rfl

/-- A host that spares everything is as it is under watch. -/
theorem watching_eq {places : List Ref} (hspares : host.Spares places) :
    host.watching places = host :=
  guarded_eq hspares

theorem ran_decorateOne {places : List Ref} {r r' : Realization}
    (h : (decorateOne (host.watching places) names d built keys r u).Returns w r' w') :
    ∃ result, r'.results = r.results ++ [(u, result)] ∧ r'.decorations = r.decorations ∧
      Ran places keys (layout d built).site u result w.heap w'.heap := by
  cases d with
  | cls c => exact ran_runDecoration h
  | object o => exact ran_ofObject h

/-- Reading a property that stands gives a new copy of it. -/
theorem copy_of_ownDescriptor {r : Ref} {handed : Value}
    (h : (Act.ownDescriptor (.object r) key).Returns w handed w')
    (hname : key.propertyName = .ok name) (hsome : (ownAt? w.heap r name).isSome = true) :
    ∃ q e, handed = .descriptor q ∧ w'.heap.descriptor? q = some e ∧
      ownAt? w.heap r name = some e ∧ ownAt? w'.heap r name = some e := by
  obtain ⟨r', o, name', htarget, ho, hname', hcopy⟩ := Act.returns_ownDescriptor.1 h
  obtain rfl := Value.object.inj htarget
  obtain rfl := Except.ok.inj (hname.symm.trans hname')
  have hown : ownAt? w.heap r name = o.own? name := by rw [ownAt?, ho, Option.bind_some]
  rw [hown] at hsome
  obtain ⟨e, he⟩ := Option.isSome_iff_exists.1 hsome
  rw [he] at hcopy
  obtain ⟨rfl, rfl⟩ := Act.returns_newDescriptor.1 hcopy
  have hsame : ownAt? (w.heap.newDescriptor e).2 r name = ownAt? w.heap r name := rfl
  refine ⟨_, e, rfl, ?_, hown.trans he, (hsame.trans hown).trans he⟩
  simp [Heap.newDescriptor, Heap.descriptor?]

/-- The property that the members have left stands until a decoration replaces it, and there is one
all the time. -/
theorem stands_of_decorated {start w₁ w₂ : World σ} {before : List Decoration} {r r' : Realization}
    (hspares : ∀ places, host.Spares places) (hresults : r.results = [])
    (created : (create host names d).Returns w (.object built) start)
    (keyed : (keysOf host names d.members ds).Returns start keys w₁)
    (installed : (installMembers d.members keys (layout d built).target
      (layout d built).cls).Returns w₁ () w₂)
    (decorated : (before.foldlM (decorateOne host names d built keys) r).Returns w₂ r' w')
    (hne : namesakes d built keys u name ≠ []) :
    (ownAt? w'.heap ((layout d built).site u) name).isSome = true ∧
      (name ∉ replacedAt keys (layout d built).site ((layout d built).site u) r'.results →
        ∃ e, ownAt? w'.heap ((layout d built).site u) name = some e ∧
          e.traits =
            .ofKinds (standing ((namesakes d built keys u name).map (·.member.kind)))) := by
  have hwatch : host.watching (layout d built).places = host := watching_eq (hspares _)
  have hsite := site_mem_places d built u
  rw [← hwatch] at keyed decorated
  -- what the members have left
  obtain ⟨functions, -, hobjects⟩ := built_of_watched (fresh_of_create created) keyed installed
  obtain ⟨o, ho, -, hown⟩ := hobjects _ hsite
  obtain ⟨e, hleft, htraits⟩ :=
    traits_leave functions (filter_isAccessor_first d built ((layout d built).site u) name) hne
  have hstart : ownAt? w₂.heap ((layout d built).site u) name = some e := by
    rw [ownAt?, ho, Option.bind_some, hown]
    exact hleft
  constructor
  · refine Act.foldlM_invariant
      (P := fun _ w => (ownAt? w.heap ((layout d built).site u) name).isSome = true) ?_ ?_ decorated
    · intro i _ a w b w' hsome hone
      exact isSome_ownAt?_decorateOne hone hsite hsome
    · rw [hstart]
      rfl
  · intro hkept
    obtain ⟨results, heq, -, -, hran⟩ :=
      ranAll_foldlM (fun r d w r' w' h => ran_decorateOne h) decorated
    rw [hresults, List.nil_append] at heq
    obtain ⟨o', ho', -, hown'⟩ := hran.extended _ hsite o [] (extended_refl ho)
    rw [List.nil_append] at hown'
    refine ⟨e, ?_, htraits⟩
    rw [ownAt?, ho', Option.bind_some, hown' name (heq ▸ hkept), hown]
    exact hleft

/-- What a run that comes to a chain has found out about the property: the group of its members and
its name. -/
theorem describes_of_reaches {earlier : List (Decoration × ChainResult)} {decorators : List Value}
    {handed : Value} (h : Reaches host names d w u built keys earlier key decorators handed w') :
    ∃ g ∈ Classify.groups d.isClass d.members, Classify.Describes d.isClass g u ∧
      (∀ e ∈ g.members, keys.lookup e.1 = some key) ∧
      ∃ name, key.propertyName = .ok name := by
  obtain ⟨classified, -, keyed, -, -, -, found, -, copied⟩ := h
  rename_i before after scope start w₁ w₂ w₃ w₄ r
  have hunits := units_of_classify classified
  have hu : u ∈ before ++ u :: after := List.mem_append_right _ List.mem_cons_self
  have hwhole : u.subject ≠ .whole := by
    intro hwhole
    rw [Decoration.members, hwhole] at found
    cases found
  obtain ⟨-, g, hg, hdescribes⟩ := hunits.describes hu hwhole
  obtain ⟨pkey, initial, hsub, -⟩ := hdescribes.subject
  have hmembers : u.members = g.members.map (·.1) := by rw [Decoration.members, hsub]
  have hlookup := lookup_keys_of_mem hunits keyed hu found
  obtain ⟨-, -, name, -, -, hname, -⟩ := Act.returns_ownDescriptor.1 copied
  refine ⟨g, hg, hdescribes, ?_, name, hname⟩
  intro e he
  rw [hmembers] at hlookup
  exact hlookup e.1 (List.mem_map_of_mem he)

/-- The chain is handed a copy of the property as it stands, which is what the members have left
unless an earlier decoration has replaced it. -/
theorem handed_of_reaches {earlier : List (Decoration × ChainResult)} {decorators : List Value}
    {handed : Value} (hspares : ∀ places, host.Spares places)
    (h : Reaches host names d w u built keys earlier key decorators handed w')
    (hname : key.propertyName = .ok name) (hne : namesakes d built keys u name ≠ []) :
    ∃ q e, handed = .descriptor q ∧ w'.heap.descriptor? q = some e ∧
      ownAt? w'.heap ((layout d built).site u) name = some e ∧
      (name ∉ replacedAt keys (layout d built).site ((layout d built).site u) earlier →
        e.traits =
          .ofKinds (standing ((namesakes d built keys u name).map (·.member.kind)))) := by
  obtain ⟨-, created, keyed, installed, decorated, rfl, -, resolved, copied⟩ := h
  rename_i before after scope start w₁ w₂ w₃ w₄ r
  obtain ⟨hsome, hstands⟩ :=
    stands_of_decorated hspares rfl created keyed installed decorated hne
  -- evaluating the decorators spares the property
  rw [← watching_eq (hspares (layout d built).places)] at resolved
  have hspared : w₃.heap.Spares (layout d built).places w₄.heap :=
    (shadows_resolveAll (host.shadows_watching _) u w₃ decorators w₄ resolved).2
  have hsame := ownAt?_of_spares hspared (site_mem_places d built u) hsome
  rw [← hsame] at hsome hstands
  obtain ⟨q, e, hhanded, hq, hread, hstill⟩ := copy_of_ownDescriptor copied hname hsome
  refine ⟨q, e, hhanded, hq, hstill, ?_⟩
  intro hkept
  obtain ⟨e', he', htraits⟩ := hstands hkept
  obtain rfl := Option.some.inj (hread.symm.trans he')
  exact htraits

/-- Where only the members of a decorated property give the property, they all count. -/
theorem mem_standing_iff {g : Classify.Group} (hg : g ∈ Classify.groups d.isClass d.members)
    (h : Classify.Describes d.isClass g u)
    (hmem : ∀ e ∈ g.members, ⟨e.1, e.2, name⟩ ∈ namesakes d built keys u name)
    (hown : ∀ x ∈ namesakes d built keys u name, x.place ∈ u.members) (kind : MemberKind) :
    kind ∈ standing ((namesakes d built keys u name).map (·.member.kind)) ↔ kind ∈ kindsOf d u := by
  obtain ⟨-, -, -, -, halike⟩ := traits_of_describes hg h
  obtain ⟨pkey, initial, hsub, -⟩ := h.subject
  have hmembers : u.members = g.members.map (·.1) := by rw [Decoration.members, hsub]
  have hsame : ∀ k, k ∈ (namesakes d built keys u name).map (·.member.kind) ↔ k ∈ kindsOf d u := by
    intro k
    constructor
    · intro hk
      obtain ⟨x, hx, rfl⟩ := List.mem_map.1 hk
      obtain ⟨p, hp, hentry⟩ :=
        List.mem_filterMap.1 (List.mem_filter.1 (List.mem_filter.1 hx).1).1
      obtain ⟨-, -, hplace, hmember⟩ := entryOf?_eq_some hentry
      refine List.mem_filterMap.2 ⟨x.place, hown x hx, ?_⟩
      rw [hplace, List.mem_zipIdx_iff_getElem?.1 hp, hmember]
      rfl
    · intro hk
      rw [kindsOf_eq hg hmembers] at hk
      obtain ⟨e, he, rfl⟩ := List.mem_map.1 hk
      exact List.mem_map.2 ⟨_, hmem e he, rfl⟩
  rw [← hsame]
  refine mem_standing_of_alike ?_
  simp only [hsame]
  exact halike

/-- A chain that returns has called the innermost decorator first, with what it started from. -/
theorem exists_call_of_reaches {earlier : List (Decoration × ChainResult)} {decorators : List Value}
    {handed : Value} {result : ChainResult} {w₁ : World σ}
    (h : Reaches host names d w u built keys earlier key decorators handed w')
    (hchain : (runMemberChain host (chainSite u key) (.object ((layout d built).site u)) decorators
      handed).Returns w' result w₁) :
    ∃ c calls, Account host ReadAsDescriptor (chainSite u key)
        (fun v => [.object ((layout d built).site u), key, v]) decorators handed w'
        (c :: calls) result w₁ ∧
      c.before = w' ∧ c.arguments = [.object ((layout d built).site u), key, handed] := by
  obtain ⟨g, hg, hdescribes, -⟩ := describes_of_reaches h
  obtain ⟨owner, -, hdecorated, hdecorators⟩ := hdescribes.owner
  have hne : decorators ≠ [] := by
    rintro rfl
    obtain ⟨-, -, -, -, -, -, -, resolved, -⟩ := h
    have hlength := length_of_mapM resolved
    rw [hdecorators, List.length_nil] at hlength
    rw [Member.isDecorated, List.eq_nil_of_length_eq_zero hlength.symm] at hdecorated
    cases hdecorated
  obtain ⟨-, calls, haccount⟩ :=
    (runMemberChain_appliesInnermostFirst host _).accounts _ _ _ _ _ _ hchain
  cases calls with
  | nil => exact absurd (List.reverse_eq_nil_iff.1 haccount.callees.symm) hne
  | cons c calls =>
    exact ⟨c, calls, haccount, haccount.made.1, (handed_cons.1 haccount.handed).1⟩

end Handed

end Realization

open Realization in
/-- A chain starts from the property as it stands. Where no earlier decoration has replaced it, this
has the traits of the first descriptor iff the members that are left standing under the name are of
the same kinds as those of the decorated property, and so if these are the only ones under it. -/
theorem chains_start_from_what_stands {σ : Type} (host : Host σ) (names : Names) (d : Declaration)
    (w : World σ) (hspares : ∀ places, host.Spares places) :
    (∀ r w', (ofDeclaration host names d).Returns w r w' →
      ∀ u ∈ r.decorations, u.subject ≠ .whole →
        ∃ built keys earlier key decorators handed w₁ c calls result w₂,
          Reaches host names d w u built keys earlier key decorators handed w₁ ∧
          Account host ReadAsDescriptor (chainSite u key)
            (fun v => [.object ((layout d built).site u), key, v]) decorators handed w₁
            (c :: calls) result w₂ ∧
          c.before = w₁ ∧ c.arguments = [.object ((layout d built).site u), key, handed]) ∧
    ∀ u built keys earlier key decorators handed w',
      Reaches host names d w u built keys earlier key decorators handed w' →
      ∃ name q e initial, key.propertyName = .ok name ∧ handed = .descriptor q ∧
        w'.heap.descriptor? q = some e ∧ u.initial? = some initial ∧
        ownAt? w'.heap ((layout d built).site u) name = some e ∧
        (name ∉ replacedAt keys (layout d built).site ((layout d built).site u) earlier →
          (e.traits = initial.traits ↔
            ∀ kind, kind ∈ standing ((namesakes d built keys u name).map (·.member.kind)) ↔
              kind ∈ kindsOf d u) ∧
          ((∀ x ∈ namesakes d built keys u name, x.place ∈ u.members) →
            e.traits = initial.traits)) := by
  constructor
  · intro r w' hrun u hu hsub
    obtain ⟨built, keys, earlier, key, decorators, handed, w₁, result, w₂, hreaches, hchain⟩ :=
      exists_reaches_of_returns hrun hu hsub
    obtain ⟨c, calls, haccount⟩ := exists_call_of_reaches hreaches hchain
    exact ⟨built, keys, earlier, key, decorators, handed, w₁, c, calls, result, w₂, hreaches,
      haccount⟩
  · intro u built keys earlier key decorators handed w' hreaches
    obtain ⟨g, hg, hdescribes, hlookup, name, hname⟩ := describes_of_reaches hreaches
    have hordered := Classify.mem_groups hg
    have hmem : ∀ e ∈ g.members, ⟨e.1, e.2, name⟩ ∈ namesakes d built keys u name :=
      fun e he => mem_namesakes hg hdescribes hname he (hlookup e he)
    have hne : namesakes d built keys u name ≠ [] := by
      obtain ⟨e, he⟩ := List.exists_mem_of_ne_nil _ hordered.nonempty
      exact List.ne_nil_of_mem (hmem e he)
    obtain ⟨q, e, hhanded, hq, hstands, htraits⟩ := handed_of_reaches hspares hreaches hname hne
    obtain ⟨initial, hinitial, htraits', hkinds, halike⟩ := traits_of_describes hg hdescribes
    refine ⟨name, q, e, initial, hname, hhanded, hq, hinitial, hstands, ?_⟩
    intro hkept
    rw [htraits hkept, htraits']
    refine ⟨ofKinds_standing_eq_iff (mt List.map_eq_nil_iff.1 hne) hkinds halike, ?_⟩
    intro hown
    exact Traits.ofKinds_congr (mem_standing_iff hg hdescribes hmem hown)

namespace Realization.SampleRun

theorem returns_of_toOption {α : Type} {x : Act Unit α} {w : World Unit} {a : α}
    (h : (x.runIn w).1.toOption = some a) : x.Returns w a (x.runIn w).2 := by
  rcases Act.returns_or_fails x w with ⟨b, w', hrun⟩ | ⟨e, w', hrun⟩
  · rw [hrun] at h ⊢
    cases h
    exact hrun
  · rw [hrun] at h
    cases h

/-- The decoration of the method of an object literal. -/
def keptMethod : Decoration where
  target := ⟨.objectLiteral, "_obj"⟩
  decorators := [{ text := "keep", callee := some "keep" }]
  subject := .property (.static (some "m")) (.method (some 0)) [0]

section Literal

variable (name : String)

/-- A method under a decorator that keeps it, and a value behind it. -/
def methodAndValue : ObjectLiteral where
  members := [method "m" "keep" false, valued .property name false]

theorem classify_methodAndValue :
    classify (.object (methodAndValue name)) = .ok ([] ++ keptMethod :: [], {}) := by
  have hgroups : Classify.groupDecorations false "_obj"
      (Classify.groups false (methodAndValue name).members) {} = .ok ([(0, keptMethod)], {}) := rfl
  exact Classify.memberDecorations_of_pairwise rfl hgroups (List.pairwise_singleton _ _)

/-- The keys of the method and of the value. -/
def keys : List (Nat × Value) := [(0, .text "m" .shared), (1, .text name .shared)]

def evaluateKeys : Act Unit (List (Nat × Value)) :=
  keysOf host names (methodAndValue name).members ([] ++ keptMethod :: [])

def installBoth : Act Unit Unit :=
  installMembers (methodAndValue name).members (keys name) (.object 0) none

def readMethod : Act Unit Value := Act.ownDescriptor (.object 0) (.text "m" .shared)

/-- The worlds in which the object has been created, its keys have been evaluated, its members have
been installed, the decorator has been evaluated, and the method has been read. -/
def created : World Unit := ((create host names (.object (methodAndValue name))).runIn world).2
def keyed : World Unit := ((evaluateKeys name).runIn (created name)).2
def installed : World Unit := ((installBoth name).runIn (keyed name)).2
def resolved : World Unit := ((resolveAll host names keptMethod).runIn (installed name)).2
def copied : World Unit := (readMethod.runIn (resolved name)).2

/-- The run comes to the chain of the method. -/
def StartsChain : Prop :=
  Reaches host names (.object (methodAndValue name)) world keptMethod 0 (keys name) []
    (.text "m" .shared) [.function ⟨1, "keep"⟩] (.descriptor 2) (copied name)

theorem startsChain
    (hkeys : ((evaluateKeys name).runIn (created name)).1.toOption = some (keys name))
    (hinstalled : ((installBoth name).runIn (keyed name)).1.toOption = some ())
    (hresolved : ((resolveAll host names keptMethod).runIn (installed name)).1.toOption =
      some [.function ⟨1, "keep"⟩])
    (hcopied : (readMethod.runIn (resolved name)).1.toOption = some (.descriptor 2)) :
    StartsChain name := by
  have hcreated : (create host names (.object (methodAndValue name))).Returns world (.object 0)
      (created name) := rfl
  have hdecorated : (([] : List Decoration).foldlM
      (decorateOne host names (.object (methodAndValue name)) 0 (keys name))
      { value := .object 0, decorations := [] ++ keptMethod :: [] }).Returns (installed name)
        { value := .object 0, decorations := [keptMethod] } (installed name) := rfl
  exact .intro (classify_methodAndValue name) hcreated (returns_of_toOption hkeys)
    (returns_of_toOption hinstalled) hdecorated rfl rfl (returns_of_toOption hresolved)
    (returns_of_toOption hcopied)

end Literal

theorem startsChain_apart : StartsChain "p" := by
  refine startsChain "p" ?_ ?_ ?_ ?_ <;> decide +kernel

theorem startsChain_clash : StartsChain "m" := by
  refine startsChain "m" ?_ ?_ ?_ ?_ <;> decide +kernel

end Realization.SampleRun

open Realization Realization.SampleRun in
/-- The theorem at an object literal with a method and a value. Under another name the value does
not matter; under the same name it takes the place of the method, and the chain of the method starts
from an enumerable property. -/
theorem chains_start_from_what_stands_of_sample :
    (StartsChain "p" ∧ ∃ e initial, (copied "p").heap.descriptor? 2 = some e ∧
      keptMethod.initial? = some initial ∧ e.traits = initial.traits) ∧
    StartsChain "m" ∧ ∃ e initial, (copied "m").heap.descriptor? 2 = some e ∧
      keptMethod.initial? = some initial ∧ e.traits ≠ initial.traits := by
  refine ⟨⟨startsChain_apart, ?_⟩, startsChain_clash, ?_⟩
  · obtain ⟨-, hstart⟩ :=
      chains_start_from_what_stands host names (.object (methodAndValue "p")) world spares
    obtain ⟨name, q, e, initial, hname, hq, he, hinitial, -, hkept⟩ :=
      hstart _ _ _ _ _ _ _ _ startsChain_apart
    obtain rfl := Value.descriptor.inj hq
    obtain rfl : PropertyName.text "m" = name := Except.ok.inj hname
    refine ⟨e, initial, he, hinitial, (hkept List.not_mem_nil).2 ?_⟩
    have hplaces : (namesakes (.object (methodAndValue "p")) 0 (keys "p") keptMethod
        (.text "m")).map (·.place) = [0] := by decide +kernel
    intro x hx
    have hplace := List.mem_map_of_mem (f := (·.place)) hx
    rw [hplaces] at hplace
    exact hplace
  · obtain ⟨-, hstart⟩ :=
      chains_start_from_what_stands host names (.object (methodAndValue "m")) world spares
    obtain ⟨name, q, e, initial, hname, hq, he, hinitial, -, hkept⟩ :=
      hstart _ _ _ _ _ _ _ _ startsChain_clash
    obtain rfl := Value.descriptor.inj hq
    obtain rfl : PropertyName.text "m" = name := Except.ok.inj hname
    refine ⟨e, initial, he, hinitial, ?_⟩
    rw [Ne, (hkept List.not_mem_nil).1]
    intro hsame
    have hstanding : standing ((namesakes (.object (methodAndValue "m")) 0 (keys "m") keptMethod
        (.text "m")).map (·.member.kind)) = [.property] := by decide +kernel
    have hkinds : kindsOf (.object (methodAndValue "m")) keptMethod = [.method] := by decide +kernel
    rw [hstanding, hkinds] at hsame
    exact absurd ((hsame .property).1 (List.mem_singleton.2 rfl)) (by decide)

end Undecorate
