import Undecorate.Proofs.Object.Define
import Undecorate.Proofs.Realization.Watch

/-! # What decorations write

A decoration of a property writes to its target once, and only if a decorator has replaced the
descriptor. Everything else that happens on the way is up to the host, which is under watch here.

* `returns_runMember`: the parts of the run of one property;
* `ran_runMember`, `ran_runDecoration`: what one decoration does to the watched objects;
* `ranAll_foldlM`: what all decorations do, one after the other.
-/

namespace Undecorate

namespace Realization

variable {σ : Type} {host : Host σ} {names : Names} {places : List Ref} {w w' : World σ}
  {keys : List (Nat × Value)} {d : Decoration} {t : Ref} {result : ChainResult}

/-- The name of the property that a decoration is of. -/
def decoratedName? (keys : List (Nat × Value)) (d : Decoration) : Option PropertyName :=
  (d.members.head?.bind fun i => keys.lookup i).bind (·.propertyName.toOption)

/-- The names of the properties of the object at a place that decorations have replaced, in the
order of the decorations. -/
def replacedAt (keys : List (Nat × Value)) (site : Decoration → Ref) (r : Ref)
    (results : List (Decoration × ChainResult)) : List PropertyName :=
  results.filterMap fun (d, result) =>
    if result.replaced && site d = r then decoratedName? keys d else none

/-- Since `start`, the object at a place has taken one definition of each name, in this order, and
all other properties are as they were. -/
def Extended (start : Object) (names : List PropertyName) (h : Heap) (r : Ref) : Prop :=
  ∃ o, h.object? r = some o ∧ o.log = start.log ++ names ∧
    ∀ name, name ∉ names → o.own? name = start.own? name

section Extended

variable {start : Object} {ns : List PropertyName} {h h' : Heap} {r : Ref}

theorem extended_refl (ho : h.object? r = some start) : Extended start [] h r :=
  ⟨start, ho, by simp, fun _ _ => rfl⟩

/-- Who spares an object keeps what has become of it. -/
theorem Extended.spared (he : Extended start ns h r) (hs : h.Spares places h') (hr : r ∈ places) :
    Extended start ns h' r := by
  obtain ⟨o, ho, hlog, hown⟩ := he
  obtain ⟨o', ho', hproperties, hlog'⟩ := hs.object? hr ho
  refine ⟨o', ho', hlog'.trans hlog, ?_⟩
  intro name hname
  rw [Object.own?, hproperties]
  exact hown name hname

/-- A definition that the object takes extends it. -/
theorem Extended.define {name : PropertyName} {d : Descriptor Value} {o : Object}
    (he : Extended start ns h r) (ho : h.object? r = some o) (hnone : (o.define name d).2 = none) :
    Extended start (ns ++ [name]) (h.define r name d).1 r := by
  obtain ⟨o', ho', hlog, hown⟩ := he
  obtain rfl := Option.some.inj (ho.symm.trans ho')
  have hdefined := o.defined name d
  rw [Extended, Heap.object?_define, if_pos rfl, ho, Option.map_some]
  generalize o.define name d = outcome at hdefined hnone
  cases hdefined with
  | refused reason hrefusal => cases hnone
  | misshapen f hrefusal hmerged => cases hnone
  | stored merged hrefusal hmerged =>
    refine ⟨_, rfl, ?_, ?_⟩
    · change o.log ++ [name] = _
      rw [hlog, List.append_assoc]
    · intro other hother
      rw [List.mem_append, List.mem_singleton, not_or] at hother
      rw [Object.own?_holding, if_neg hother.2]
      exact hown other hother.1

theorem Extended.define_ne {name : PropertyName} {d : Descriptor Value} {t : Ref}
    (he : Extended start ns h r) (hr : r ≠ t) : Extended start ns (h.define t name d).1 r := by
  obtain ⟨o, ho, hlog, hown⟩ := he
  refine ⟨o, ?_, hlog, hown⟩
  rw [Heap.object?_define, if_neg hr]
  exact ho

end Extended

/-- What the run of one decoration does to the watched objects. -/
structure Ran (places : List Ref) (keys : List (Nat × Value)) (site : Decoration → Ref)
    (d : Decoration) (result : ChainResult) (h h' : Heap) : Prop where
  named : d.subject ≠ .whole → (decoratedName? keys d).isSome
  replaced : result.replaced = result.invocations.any (·.replaced)
  extended : ∀ r ∈ places, ∀ start ns, Extended start ns h r →
    Extended start (ns ++ replacedAt keys site r [(d, result)]) h' r

/-- A chain has replaced something iff one of its decorators has. -/
theorem replaced_of_runChain {site : ChainSite} {arguments : Value → List Value}
    {carry : Value → Outcome → Facts → Act σ Value} {decorators : List Value}
    {initial : Value}
    (h : (runChain host site arguments carry decorators initial).Returns w result w') :
    result.replaced = result.invocations.any (·.replaced) := by
  refine Act.foldlM_induction (P := fun r => r.replaced = r.invocations.any (·.replaced)) ?_ rfl h
  intro r s w₁ r' w₂ hr hstep
  obtain ⟨v, w₃, u, -, -, rfl⟩ := returns_applyStep_iff_carry.1 hstep
  simp [ChainResult.record, hr]

/-- Installing writes once if a decorator has replaced the descriptor, and not at all otherwise. -/
theorem extended_install {site : Decoration → Ref} {key : Value} {b : Bool} (hsite : site d = t)
    (hkey : (d.members.head?.bind fun i => keys.lookup i) = some key)
    (h : (install (.object t) key result : Act σ Bool).Returns w b w') {r : Ref} {start : Object}
    {ns : List PropertyName} (he : Extended start ns w.heap r) :
    Extended start (ns ++ replacedAt keys site r [(d, result)]) w'.heap r := by
  unfold install at h
  cases hreplaced : result.replaced with
  | false =>
    have hnone : replacedAt keys site r [(d, result)] = [] := by simp [replacedAt, hreplaced]
    simp only [hreplaced, Bool.false_eq_true, ↓reduceIte, Act.returns_bind,
      Act.returns_checkQuotable, Act.returns_pure] at h
    obtain ⟨_, _, ⟨-, rfl⟩, -, rfl⟩ := h
    rw [hnone, List.append_nil]
    exact he
  | true =>
    simp only [hreplaced, ↓reduceIte, Act.returns_bind, Act.returns_pure] at h
    obtain ⟨_, w₁, hdefine, -, rfl⟩ := h
    obtain ⟨t', o, name, q, e, htarget, ho, hname, -, -, htaken, rfl, -⟩ :=
      Act.returns_define.1 hdefine
    obtain rfl := Value.object.inj htarget
    by_cases hr : r = t
    · have hone : replacedAt keys site r [(d, result)] = [name] := by
        simp [replacedAt, hreplaced, hsite, hr, decoratedName?, hkey, hname, Except.toOption]
      rw [hone]
      subst hr
      exact he.define ho htaken
    · have hnone : replacedAt keys site r [(d, result)] = [] := by
        simp [replacedAt, hsite, Ne.symm hr]
      rw [hnone, List.append_nil]
      exact he.define_ne hr

/-- The parts of the run of one property: its key is looked up, its decorators are evaluated, the
property is read, the chain is run, and its result is installed. -/
theorem returns_runMember {target : Value} :
    (runMember host names d target keys).Returns w result w' ↔
      ∃ key decorators w₁ initial w₂ w₃ b,
        (d.members.head?.bind fun i => keys.lookup i) = some key ∧
        (resolveAll host names d).Returns w decorators w₁ ∧
        (Act.ownDescriptor target key).Returns w₁ initial w₂ ∧
        (runMemberChain host (chainSite d key) target decorators initial).Returns w₂ result w₃ ∧
        (install target key result).Returns w₃ b w' := by
  unfold runMember
  cases d.members.head?.bind fun i => keys.lookup i with
  | none => simp
  | some key =>
    dsimp only
    rw [pure_bind]
    constructor
    · intro h
      obtain ⟨decorators, w₁, hresolved, h₁⟩ := Act.returns_bind.1 h
      obtain ⟨initial, w₂, hcopied, h₂⟩ := Act.returns_bind.1 h₁
      obtain ⟨result', w₃, hchain, h₃⟩ := Act.returns_bind.1 h₂
      obtain ⟨b, w₄, hinstalled, h₄⟩ := Act.returns_bind.1 h₃
      obtain ⟨rfl, rfl⟩ := Act.returns_pure.1 h₄
      exact ⟨key, decorators, w₁, initial, w₂, w₃, b, rfl, hresolved, hcopied, hchain, hinstalled⟩
    · rintro ⟨_, decorators, w₁, initial, w₂, w₃, b, hkey, hresolved, hcopied, hchain, hinstalled⟩
      obtain rfl := Option.some.inj hkey
      exact Act.returns_bind.2 ⟨decorators, w₁, hresolved, Act.returns_bind.2 ⟨initial, w₂, hcopied,
        Act.returns_bind.2 ⟨result, w₃, hchain, Act.returns_bind.2 ⟨b, w', hinstalled, rfl⟩⟩⟩⟩

/-- Up to the installation the host may do what it likes, but spares the places. -/
theorem spares_of_runMemberChain {key target initial : Value} {decorators : List Value}
    {w₁ w₂ w₃ : World σ}
    (hresolved : (resolveAll (host.watching places) names d).Returns w decorators w₁)
    (hcopied : (Act.ownDescriptor target key).Returns w₁ initial w₂)
    (hchain : (runMemberChain (host.watching places) (chainSite d key) target decorators
      initial).Returns w₂ result w₃) : w.heap.Spares places w₃.heap := by
  have hwatch := host.shadows_watching places
  have hF : (Frame.spares places : Frame σ).AllowsDescriptors :=
    Frame.allowsDescriptors_spares places
  exact ((shadows_resolveAll hwatch d w decorators w₁ hresolved).2.trans
    (Act.shadows_ownDescriptor hF _ key w₁ initial w₂ hcopied).2).trans
    (shadows_runMemberChain hwatch hF _ _ decorators initial w₂ result w₃ hchain).2

theorem ran_runMember {site : Decoration → Ref} (hsite : site d = t)
    (h : (runMember (host.watching places) names d (.object t) keys).Returns w result w') :
    Ran places keys site d result w.heap w'.heap := by
  obtain ⟨key, decorators, w₁, initial, w₂, w₃, b, hkey, hresolved, hcopied, hchain, hinstalled⟩ :=
    returns_runMember.1 h
  have hspares := spares_of_runMemberChain hresolved hcopied hchain
  obtain ⟨-, -, name, -, -, hname, -⟩ := Act.returns_ownDescriptor.1 hcopied
  refine ⟨?_, ?_, ?_⟩
  · intro _
    simp [decoratedName?, hkey, hname, Except.toOption]
  · obtain ⟨r, w₅, hrun, hquoted⟩ := Act.returns_bind.1 hchain
    simp only [Act.returns_bind, Act.returns_pure] at hquoted
    obtain ⟨-, -, -, rfl, -⟩ := hquoted
    exact replaced_of_runChain hrun
  · intro r hr start ns he
    exact extended_install hsite hkey hinstalled (he.spared hspares hr)

/-- Decorations of a class write to the class or to its prototype. -/
theorem ran_runDecoration {cls prototype : Ref} {r r' : Realization}
    (h : (runDecoration (host.watching places) names (.object cls) (.object prototype) keys r
      d).Returns w r' w') :
    ∃ result, r'.results = r.results ++ [(d, result)] ∧ r'.decorations = r.decorations ∧
      Ran places keys (fun d => if d.target.kind = .construct then cls else prototype) d result
        w.heap w'.heap := by
  unfold runDecoration at h
  cases hd : d.subject with
  | whole =>
    rw [hd] at h
    obtain ⟨decorators, w₁, hresolved, h₁⟩ := Act.returns_bind.1 h
    obtain ⟨result, w₂, hchain, h₂⟩ := Act.returns_bind.1 h₁
    obtain ⟨rfl, rfl⟩ := Act.returns_pure.1 h₂
    have hwatch := host.shadows_watching places
    have hspares : w.heap.Spares places w'.heap :=
      (shadows_resolveAll hwatch d w decorators w₁ hresolved).2.trans
        (shadows_runClassChain hwatch _ decorators _ w₁ result w' hchain).2
    refine ⟨result, rfl, rfl, fun hne => absurd hd hne, replaced_of_runChain hchain, ?_⟩
    intro p hp start ns he
    have hnone : ∀ site, replacedAt keys site p [(d, result)] = [] := by
      intro site
      simp [replacedAt, decoratedName?, Decoration.members, hd]
    rw [hnone, List.append_nil]
    exact he.spared hspares hp
  | property key initial members =>
    rw [hd] at h
    obtain ⟨result, w₁, hrun, hend⟩ := Act.returns_bind.1 h
    obtain ⟨rfl, rfl⟩ := Act.returns_pure.1 hend
    refine ⟨result, rfl, rfl, ?_⟩
    by_cases hc : d.target.kind = .construct
    · rw [if_pos hc] at hrun
      exact ran_runMember (if_pos hc) hrun
    · rw [if_neg hc] at hrun
      exact ran_runMember (if_neg hc) hrun

/-- Decorations of an object literal write to the object. -/
theorem ran_ofObject {r r' : Realization}
    (h : (do
      return { r with results := r.results ++
        [(d, ← runMember (host.watching places) names d (.object t) keys)] } :
          Act σ Realization).Returns w r' w') :
    ∃ result, r'.results = r.results ++ [(d, result)] ∧ r'.decorations = r.decorations ∧
      Ran places keys (fun _ => t) d result w.heap w'.heap := by
  obtain ⟨result, w₁, hmember, hend⟩ := Act.returns_bind.1 h
  obtain ⟨rfl, rfl⟩ := Act.returns_pure.1 hend
  exact ⟨result, rfl, rfl, ran_runMember rfl hmember⟩

/-- What the runs of decorations do to the watched objects, one after the other. -/
structure RanAll (places : List Ref) (keys : List (Nat × Value)) (site : Decoration → Ref)
    (results : List (Decoration × ChainResult)) (h h' : Heap) : Prop where
  named : ∀ p ∈ results, p.1.subject ≠ .whole → (decoratedName? keys p.1).isSome
  replaced : ∀ p ∈ results, p.2.replaced = p.2.invocations.any (·.replaced)
  extended : ∀ r ∈ places, ∀ start ns, Extended start ns h r →
    Extended start (ns ++ replacedAt keys site r results) h' r

theorem ranAll_foldlM {site : Decoration → Ref} {k : Realization → Decoration → Act σ Realization}
    (hk : ∀ r d w r' w', (k r d).Returns w r' w' →
      ∃ result, r'.results = r.results ++ [(d, result)] ∧ r'.decorations = r.decorations ∧
        Ran places keys site d result w.heap w'.heap)
    {ds : List Decoration} {r r' : Realization} (h : (ds.foldlM k r).Returns w r' w') :
    ∃ results, r'.results = r.results ++ results ∧ r'.decorations = r.decorations ∧
      results.map (·.1) = ds ∧ RanAll places keys site results w.heap w'.heap := by
  induction ds generalizing r w with
  | nil =>
    obtain ⟨rfl, rfl⟩ := Act.returns_pure.1 h
    refine ⟨[], by simp, rfl, rfl, by simp, by simp, ?_⟩
    intro p hp start ns he
    rw [replacedAt, List.filterMap_nil, List.append_nil]
    exact he
  | cons d ds ih =>
    rw [List.foldlM_cons] at h
    obtain ⟨r₁, w₁, hone, hrest⟩ := Act.returns_bind.1 h
    obtain ⟨result, hresults₁, hds₁, hran⟩ := hk r d w r₁ w₁ hone
    obtain ⟨results, hresults, hds, hmap, hall⟩ := ih hrest
    refine ⟨(d, result) :: results, ?_, hds.trans hds₁, by simp [hmap], ?_, ?_, ?_⟩
    · rw [hresults, hresults₁, List.append_assoc]
      rfl
    · intro p hp
      rcases List.mem_cons.1 hp with rfl | hp
      · exact hran.named
      · exact hall.named p hp
    · intro p hp
      rcases List.mem_cons.1 hp with rfl | hp
      · exact hran.replaced
      · exact hall.replaced p hp
    · intro p hp start ns he
      have hsplit : replacedAt keys site p ((d, result) :: results) =
          replacedAt keys site p [(d, result)] ++ replacedAt keys site p results := by
        change replacedAt keys site p ([(d, result)] ++ results) = _
        exact List.filterMap_append
      rw [hsplit, ← List.append_assoc]
      exact hall.extended p hp start _ (hran.extended p hp start ns he)

end Realization

end Undecorate
