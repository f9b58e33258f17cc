import Undecorate.Proofs.Chain.Calls
import Undecorate.Proofs.Object.Actions
import Undecorate.Proofs.Object.Identity
import Undecorate.Realization

/-! # Realizing under watch

A function of the host may do anything, also to the class that is being built. A host under watch
fails as soon as a call has written to one of the watched objects, so a run that comes to its end
under watch has made no such call.

* `Frame`: what an action may not change;
* `Act.Shadows`: what an action under watch returns it returns without the watch as well, and it
  stays within the frame;
* `shadows_eval`, `shadows_runMemberChain`, `shadows_keysOf`: everything that calls the host shadows
  what it is without the watch.
-/

namespace Undecorate

/-- What definitions have made of the object at a place: its properties and its log. -/
def Heap.written? (h : Heap) (r : Ref) :
    Option (List (PropertyName × Descriptor Value) × List PropertyName) :=
  (h.object? r).map fun o => (o.properties, o.log)

/-- Nothing has been written to the objects at the places. -/
def Heap.Spares (places : List Ref) (h h' : Heap) : Prop :=
  ∀ r ∈ places, h.written? r = none ∨ h'.written? r = h.written? r

instance (places : List Ref) (h h' : Heap) : Decidable (Heap.Spares places h h') :=
  inferInstanceAs (Decidable (∀ r ∈ places, _ ∨ _))

/-- An action under guard: it fails if it has changed the heap in another way than allowed. -/
def Act.guarded {σ α : Type} (allowed : Heap → Heap → Prop) [∀ h h', Decidable (allowed h h')]
    (x : Act σ α) : Act σ α := do
  let before ← heap
  let a ← x
  if allowed before (← heap) then return a
  else throw (.badValue "a watched object was written to")

/-- The host under guard: a call or the fetching of an attribute that has changed the heap in
another way than allowed fails. -/
def Host.guarded {σ : Type} (host : Host σ) (allowed : Heap → Heap → Prop)
    [∀ h h', Decidable (allowed h h')] : Host σ where
  call f arguments := (host.call f arguments).guarded allowed
  fetch v name := (host.fetch v name).guarded allowed

/-- The host under watch: a call or the fetching of an attribute that has written to one of the
places fails. -/
def Host.watching {σ : Type} (host : Host σ) (places : List Ref) : Host σ :=
  host.guarded (Heap.Spares places)

/-- The objects at the places stay what they are. -/
def Heap.Retains (places : List Ref) (h h' : Heap) : Prop :=
  ∀ r ∈ places, h.object? r = none ∨ h'.object? r = h.object? r

deriving instance DecidableEq for Object

instance (places : List Ref) (h h' : Heap) : Decidable (Heap.Retains places h h') :=
  inferInstanceAs (Decidable (∀ r ∈ places, _ ∨ _))

/-- A host whose functions cannot be called, and which fetches nothing. -/
def Host.refusing {σ : Type} : Host σ where
  call _ _ := throw (.badValue "a function was called")
  fetch _ _ := throw (.badValue "an attribute was fetched")

/-- Whatever the host does, and comes to its end, changes the heap as allowed. -/
structure Host.Within {σ : Type} (host : Host σ) (allowed : Heap → Heap → Prop) : Prop where
  call : ∀ f arguments w v w', (host.call f arguments).Returns w v w' → allowed w.heap w'.heap
  fetch : ∀ v name w found w', (host.fetch v name).Returns w found w' → allowed w.heap w'.heap

/-- Nothing that the host does writes to one of the places. -/
def Host.Spares {σ : Type} (host : Host σ) (places : List Ref) : Prop :=
  host.Within (Heap.Spares places)

namespace Heap

variable {places : List Ref} {h h₁ h₂ : Heap}

theorem Spares.refl (places : List Ref) (h : Heap) : h.Spares places h := fun _ _ => .inr rfl

/-- What is read at the places stays the same over two changes if it does over each. -/
theorem fixed_trans {α : Type} {read : Heap → Ref → Option α}
    (h₁₂ : ∀ r ∈ places, read h r = none ∨ read h₁ r = read h r)
    (h₂₃ : ∀ r ∈ places, read h₁ r = none ∨ read h₂ r = read h₁ r) :
    ∀ r ∈ places, read h r = none ∨ read h₂ r = read h r := by
  intro r hr
  rcases h₁₂ r hr with hnone | hsame
  · exact .inl hnone
  · rcases h₂₃ r hr with hnone | hsame'
    · exact .inl (hsame.symm.trans hnone)
    · exact .inr (hsame'.trans hsame)

theorem Spares.trans (h₁₂ : h.Spares places h₁) (h₂₃ : h₁.Spares places h₂) :
    h.Spares places h₂ :=
  fixed_trans h₁₂ h₂₃

theorem Retains.trans (h₁₂ : h.Retains places h₁) (h₂₃ : h₁.Retains places h₂) :
    h.Retains places h₂ :=
  fixed_trans h₁₂ h₂₃

/-- An object that is spared keeps its properties and its log. -/
theorem Spares.object? {r : Ref} {o : Object} (hs : h.Spares places h₁) (hr : r ∈ places)
    (ho : h.object? r = some o) :
    ∃ o', h₁.object? r = some o' ∧ o'.properties = o.properties ∧ o'.log = o.log := by
  have hwritten : h.written? r = some (o.properties, o.log) := by rw [written?, ho]; rfl
  rcases hs r hr with hnone | hsame
  · rw [hwritten] at hnone
    cases hnone
  · rw [hwritten] at hsame
    obtain ⟨o', ho', heq⟩ := Option.map_eq_some_iff.1 hsame
    obtain ⟨hproperties, hlog⟩ := Prod.mk.inj heq
    exact ⟨o', ho', hproperties, hlog⟩

theorem spares_of_objects_eq (heq : h₁.objects = h.objects) : h.Spares places h₁ := by
  intro r _
  refine .inr ?_
  rw [written?, object?, heq]
  rfl

end Heap

/-! ## Frames -/

/-- What actions may not change, as a relation between the worlds before and after. -/
structure Frame (σ : Type) where
  Keeps : World σ → World σ → Prop
  refl : ∀ w, Keeps w w
  trans : ∀ {w w₁ w₂}, Keeps w w₁ → Keeps w₁ w₂ → Keeps w w₂

namespace Frame

variable {σ : Type}

/-- Nothing may change. -/
def still : Frame σ := ⟨Eq, fun _ => rfl, Eq.trans⟩

/-- Nothing may be written to the objects at the places. -/
def spares (places : List Ref) : Frame σ where
  Keeps w w' := w.heap.Spares places w'.heap
  refl w := .refl places w.heap
  trans h h' := h.trans h'

/-- Descriptors may be created. -/
def AllowsDescriptors (F : Frame σ) : Prop :=
  ∀ w d, F.Keeps w { w with heap := (w.heap.newDescriptor d).2 }

theorem allowsDescriptors_spares (places : List Ref) :
    (spares places : Frame σ).AllowsDescriptors :=
  fun _ _ => Heap.spares_of_objects_eq rfl

end Frame

namespace Act

variable {σ α β : Type} {F : Frame σ} {x y : Act σ α} {f g : α → Act σ β}

/-! ## Shadows -/

/-- Whatever the first action returns, the second one returns in the same way, within the frame. -/
def Shadows (F : Frame σ) (x y : Act σ α) : Prop :=
  ∀ w a w', x.Returns w a w' → y.Returns w a w' ∧ F.Keeps w w'

theorem Reads.shadows (hx : x.Reads) : Shadows F x x := by
  intro w a w' h
  refine ⟨h, ?_⟩
  rw [hx.of_returns h]
  exact F.refl w

theorem shadows_pure (a : α) : Shadows F (pure a : Act σ α) (pure a) := (reads_pure a).shadows

theorem shadows_throw (e : Fault) : Shadows F (throw e : Act σ α) (throw e) :=
  (reads_throw e).shadows

theorem shadows_heap : Shadows F (heap : Act σ Heap) heap := reads_heap.shadows

theorem shadows_view (v : Value) : Shadows F (view v : Act σ View) (view v) :=
  (reads_view v).shadows

theorem shadows_checkQuotable (v : Value) :
    Shadows F (checkQuotable v : Act σ Unit) (checkQuotable v) :=
  (reads_checkQuotable v).shadows

theorem shadows_newDescriptor (hF : F.AllowsDescriptors) (d : Descriptor Value) :
    Shadows F (newDescriptor d : Act σ Value) (newDescriptor d) := by
  intro w a w' h
  obtain ⟨-, hw⟩ := returns_newDescriptor.1 h
  refine ⟨h, ?_⟩
  rw [hw]
  exact hF w d

theorem shadows_ownDescriptor (hF : F.AllowsDescriptors) (target key : Value) :
    Shadows F (ownDescriptor target key : Act σ Value) (ownDescriptor target key) := by
  intro w v w' h
  refine ⟨h, ?_⟩
  obtain ⟨r, o, name, -, -, -, hcopy⟩ := returns_ownDescriptor.1 h
  cases hd : o.own? name with
  | none =>
    rw [hd] at hcopy
    exact (shadows_pure _ w v w' hcopy).2
  | some d =>
    rw [hd] at hcopy
    exact (shadows_newDescriptor hF d w v w' hcopy).2

theorem Shadows.bind (hx : Shadows F x y) (hf : ∀ a, Shadows F (f a) (g a)) :
    Shadows F (x >>= f) (y >>= g) := by
  intro w b w' h
  obtain ⟨a, w₁, hxa, hfa⟩ := returns_bind.1 h
  obtain ⟨hya, hkept⟩ := hx w a w₁ hxa
  obtain ⟨hga, hkept'⟩ := hf a w₁ b w' hfa
  exact ⟨returns_bind.2 ⟨a, w₁, hya, hga⟩, F.trans hkept hkept'⟩

theorem shadows_foldlM {ι : Type} {k l : α → ι → Act σ α}
    (hk : ∀ a i, Shadows F (k a i) (l a i)) (items : List ι) (a : α) :
    Shadows F (items.foldlM k a) (items.foldlM l a) := by
  induction items generalizing a with
  | nil => exact shadows_pure a
  | cons i items ih =>
    rw [List.foldlM_cons, List.foldlM_cons]
    exact (hk a i).bind ih

theorem shadows_mapM {ι : Type} {k l : ι → Act σ α} (hk : ∀ i, Shadows F (k i) (l i))
    (items : List ι) : Shadows F (items.mapM k) (items.mapM l) := by
  induction items with
  | nil => exact shadows_pure []
  | cons i items ih =>
    rw [List.mapM_cons, List.mapM_cons]
    exact (hk i).bind fun a => ih.bind fun as => shadows_pure (a :: as)

end Act

/-! ## Outcomes -/

section Outcomes

variable {σ : Type} {F : Frame σ}

open Act

theorem shadows_coerceDescriptor (hF : F.AllowsDescriptors) (v : Value)
    (facts : Facts) :
    Shadows F (coerceDescriptor v facts : Act σ Value) (coerceDescriptor v facts) := by
  unfold coerceDescriptor
  refine shadows_heap.bind fun h => ?_
  cases v with
  | descriptor r => exact shadows_pure _
  | record fields =>
    dsimp only
    cases Descriptor.ofMapping h.isCallable fields with
    | ok d => exact shadows_newDescriptor hF d
    | error f =>
      exact (reads_checkEnding f).shadows.bind fun _ => (shadows_checkQuotable _).bind fun _ =>
        shadows_throw _
  | _ => exact (shadows_checkQuotable _).bind fun _ => shadows_throw _

theorem shadows_carryForward (hF : F.AllowsDescriptors) (current : Value) (outcome : Outcome)
    (facts : Facts) : Shadows F (carryForward current outcome facts : Act σ Value)
      (carryForward current outcome facts) := by
  cases outcome with
  | keep => exact shadows_pure current
  | replace v => exact shadows_coerceDescriptor hF v facts

theorem shadows_carryClass (current : Value) (outcome : Outcome) (facts : Facts) :
    Shadows F (carryClass current outcome facts : Act σ Value)
      (carryClass current outcome facts) := by
  cases outcome with
  | keep => exact shadows_pure current
  | replace v =>
    refine shadows_heap.bind fun h => ?_
    split
    · exact shadows_pure v
    · exact (shadows_checkQuotable v).bind fun _ => shadows_throw _

end Outcomes

/-! ## Calls -/

/-- Whatever the first host gives, the second one gives, within the frame. -/
structure Host.Shadows {σ : Type} (F : Frame σ) (host host' : Host σ) : Prop where
  call : ∀ f arguments, Act.Shadows F (host.call f arguments) (host'.call f arguments)
  fetch : ∀ v name, Act.Shadows F (host.fetch v name) (host'.fetch v name)

section Hosts

variable {σ α : Type} {host : Host σ} {places : List Ref} {allowed : Heap → Heap → Prop}
  [∀ h h', Decidable (allowed h h')]

open Act

/-- What returns under guard has returned without it, and has done what is allowed. -/
theorem returns_guarded {x : Act σ α} {w w' : World σ} {a : α} :
    (x.guarded allowed).Returns w a w' ↔ x.Returns w a w' ∧ allowed w.heap w'.heap := by
  simp only [Act.guarded, returns_bind, returns_heap]
  constructor
  · rintro ⟨_, _, ⟨rfl, rfl⟩, a', w₂, hx, _, _, ⟨rfl, rfl⟩, h⟩
    split at h
    · rename_i hallowed
      obtain ⟨rfl, rfl⟩ := returns_pure.1 h
      exact ⟨hx, hallowed⟩
    · exact absurd h (not_returns_throw _)
  · rintro ⟨hx, hallowed⟩
    refine ⟨_, w, ⟨rfl, rfl⟩, a, w', hx, _, w', ⟨rfl, rfl⟩, ?_⟩
    rw [if_pos hallowed]
    exact returns_pure.2 ⟨rfl, rfl⟩

/-- An action that does nothing but what is allowed is as it is under guard. -/
theorem Act.guarded_eq {x : Act σ α}
    (hallowed : ∀ w a w', x.Returns w a w' → allowed w.heap w'.heap) : x.guarded allowed = x := by
  funext w
  change Act.runIn _ w = Act.runIn _ w
  rcases returns_or_fails x w with ⟨a, w', h⟩ | ⟨e, w', h⟩
  · exact Eq.trans (returns_guarded.2 ⟨h, hallowed w a w' h⟩) h.symm
  · refine Eq.trans ?_ h.symm
    exact h.bind _

theorem Host.shadows_watching (host : Host σ) (places : List Ref) :
    (host.watching places).Shadows (.spares places) host :=
  ⟨fun _ _ _ _ _ h => returns_guarded.1 h, fun _ _ _ _ _ h => returns_guarded.1 h⟩

/-- What is evaluated without a call is evaluated by any host, and changes nothing. -/
theorem Host.shadows_refusing (host : Host σ) : Host.refusing.Shadows .still host :=
  ⟨fun _ _ _ _ _ h => absurd h (not_returns_throw _),
    fun _ _ _ _ _ h => absurd h (not_returns_throw _)⟩

/-- A host that does nothing but what is allowed is as it is under guard. -/
theorem guarded_eq (hwithin : host.Within allowed) : host.guarded allowed = host := by
  have hcall : (host.guarded allowed).call = host.call := by
    funext f arguments
    exact Act.guarded_eq (hwithin.call f arguments)
  have hfetch : (host.guarded allowed).fetch = host.fetch := by
    funext v name
    exact Act.guarded_eq (hwithin.fetch v name)
  rcases host with ⟨call, fetch⟩
  exact Host.mk.injEq .. ▸ ⟨hcall, hfetch⟩

end Hosts

section Calls

variable {σ : Type} {F : Frame σ} {watched host : Host σ} (hhost : watched.Shadows F host)

open Act

include hhost

theorem shadows_call (callee : Value) (arguments : List Value) :
    Shadows F (Act.call watched callee arguments)
      (Act.call host callee arguments) := by
  unfold Act.call
  cases callee with
  | function f => exact hhost.call f arguments
  | object r =>
    refine shadows_heap.bind fun h => ?_
    cases h.callable? r with
    | none => exact shadows_throw _
    | some c =>
      dsimp only
      cases c.implementation with
      | none => exact shadows_pure _
      | some f => exact hhost.call f arguments
  | _ => exact (shadows_view _).bind fun _ => shadows_throw _

theorem shadows_getProperty (target key receiver : Value) :
    Shadows F (Act.getProperty watched target key receiver)
      (Act.getProperty host target key receiver) := by
  unfold Act.getProperty
  refine (reads_objectOf _ _).shadows.bind fun p => ?_
  refine (reads_nameOf key).shadows.bind fun name => ?_
  refine shadows_heap.bind fun h => ?_
  cases h.lookup? p.1 name with
  | none =>
    refine shadows_heap.bind fun h => ?_
    cases h.strayParent? p.1 with
    | none => exact shadows_pure _
    | some stray => exact (shadows_view stray).bind fun _ => shadows_throw _
  | some d =>
    dsimp only
    cases d.kind with
    | data => exact shadows_pure _
    | accessor =>
      dsimp only
      cases d.getter with
      | none => exact shadows_pure _
      | some getter => exact shadows_call hhost getter _

theorem shadows_fetch (v : Value) (name : String) :
    Shadows F (Act.fetch watched v name) (Act.fetch host v name) := by
  unfold Act.fetch
  cases v with
  | descriptor r =>
    refine shadows_heap.bind fun h => ?_
    cases (h.descriptor? r).bind (·.part? name) with
    | some part => exact shadows_pure _
    | none => exact hhost.fetch _ name
  | source text =>
    dsimp only
    split
    · exact shadows_pure _
    · exact hhost.fetch _ name
  | _ => exact hhost.fetch _ name

theorem shadows_hasAttribute (v : Value) (name : String) :
    Shadows F (Act.hasAttribute watched v name) (Act.hasAttribute host v name) := by
  unfold Act.hasAttribute
  rw [map_eq_pure_bind, map_eq_pure_bind]
  exact (shadows_fetch hhost v name).bind fun _ => shadows_pure _

theorem shadows_getAttribute (v : Value) (name : String) :
    Shadows F (Act.getAttribute watched v name) (Act.getAttribute host v name) := by
  unfold Act.getAttribute
  refine (shadows_fetch hhost v name).bind fun found => ?_
  cases found with
  | some found => exact shadows_pure found
  | none => exact (shadows_view v).bind fun _ => shadows_throw _

/-! ## Expressions -/

variable {names : Names}

theorem shadows_isObjectLike (v : Value) :
    Shadows F (Names.isObjectLike watched v) (Names.isObjectLike host v) := by
  unfold Names.isObjectLike
  cases v with
  | descriptor | source | member => exact shadows_pure _
  | _ =>
    refine (shadows_hasAttribute hhost _ _).bind fun has => ?_
    split
    · exact shadows_hasAttribute hhost _ _
    · exact shadows_pure _

theorem shadows_member? (v : Value) (name : String) :
    Shadows F (Names.member? watched v name) (Names.member? host v name) := by
  unfold Names.member?
  cases v with
  | record fields => exact shadows_pure _
  | object r => exact (shadows_getProperty hhost _ _ _).bind fun found => shadows_pure _
  | _ =>
    refine (shadows_isObjectLike hhost _).bind fun like => ?_
    split
    · exact (shadows_getAttribute hhost _ _).bind fun get =>
        (shadows_call hhost get _).bind fun found => shadows_pure _
    · refine (shadows_hasAttribute hhost _ _).bind fun has => ?_
      split
      · exact (shadows_getAttribute hhost _ _).bind fun found => shadows_pure _
      · exact shadows_pure _

theorem shadows_member (path : String) (v : Value) (name : String) :
    Shadows F (Names.member watched path v name)
      (Names.member host path v name) := by
  refine (shadows_member? hhost v name).bind fun found? => ?_
  cases found? with
  | none => exact shadows_throw _
  | some found => exact shadows_pure found

theorem shadows_lookup (path : String) :
    Shadows F (names.lookup watched path) (names.lookup host path) := by
  unfold Names.lookup
  cases (Text.cutAt '.' path).map Text.strip with
  | nil => exact shadows_throw _
  | cons first rest =>
    dsimp only
    cases List.lookup first names with
    | none => exact shadows_throw _
    | some v => exact shadows_foldlM (fun v name => shadows_member hhost path v name) rest v

theorem shadows_callee (text path : String) :
    Shadows F (names.callee watched text path)
      (names.callee host text path) := by
  unfold Names.callee
  refine (shadows_lookup hhost path).bind fun v => shadows_heap.bind fun h => ?_
  split
  · exact shadows_pure v
  · exact (shadows_throw _).bind fun _ => shadows_pure v

omit hhost

mutual

theorem shadows_eval (hhost : watched.Shadows F host) : ∀ e : Expression,
    Shadows F (e.eval watched names) (e.eval host names)
  | .constant v => by
    unfold Expression.eval
    exact shadows_pure v
  | .path text => by
    unfold Expression.eval
    exact shadows_lookup hhost text
  | .call text callee arguments => by
    unfold Expression.eval
    exact (shadows_callee hhost text callee).bind fun f =>
      (shadows_evalAll hhost arguments).bind fun vs => shadows_call hhost f vs
  | .unreadable f => by
    unfold Expression.eval
    exact shadows_throw f

theorem shadows_evalAll (hhost : watched.Shadows F host) : ∀ es : List Expression,
    Shadows F (Expression.evalAll watched names es)
      (Expression.evalAll host names es)
  | [] => by
    unfold Expression.evalAll
    exact shadows_pure []
  | e :: es => by
    unfold Expression.evalAll
    exact (shadows_eval hhost e).bind fun v =>
      (shadows_evalAll hhost es).bind fun vs => shadows_pure (v :: vs)

end

include hhost

theorem shadows_evaluate (text : String) :
    Shadows F (names.evaluate watched text) (names.evaluate host text) :=
  shadows_eval hhost _

theorem shadows_resolve (d : Decorator) :
    Shadows F (names.resolve watched d) (names.resolve host d) := by
  unfold Names.resolve
  cases d.callee with
  | none => exact shadows_evaluate hhost d.text
  | some path =>
    dsimp only
    split
    · refine (shadows_callee hhost d.text path).bind fun f => ?_
      exact (shadows_mapM (fun text => shadows_evaluate hhost text) d.arguments).bind fun vs =>
        shadows_call hhost f vs
    · exact shadows_lookup hhost path

/-! ## Chains -/

/-- One application calls the decorator and carries the outcome over. -/
theorem shadows_applyStep {site : ChainSite} {arguments : Value → List Value}
    {carry : Value → Outcome → Facts → Act σ Value}
    (hcarry : ∀ v outcome facts, Shadows F (carry v outcome facts) (carry v outcome facts))
    (r : ChainResult) (s : Step) :
    Shadows F (applyStep watched site arguments carry r s)
      (applyStep host site arguments carry r s) := by
  intro w r' w' h
  rw [returns_applyStep_iff_carry] at h ⊢
  obtain ⟨v, w₁, u, hcalled, hcarried, rfl⟩ := h
  obtain ⟨hcalled', hkept⟩ := shadows_call hhost s.decorator (arguments r.value) w v w₁ hcalled
  obtain ⟨-, hkept'⟩ := hcarry _ _ _ w₁ u w' hcarried
  exact ⟨⟨v, w₁, u, hcalled', hcarried, rfl⟩, F.trans hkept hkept'⟩

theorem shadows_runMemberChain (hF : F.AllowsDescriptors) (site : ChainSite) (target : Value)
    (decorators : List Value) (initial : Value) :
    Shadows F (runMemberChain watched site target decorators initial)
      (runMemberChain host site target decorators initial) :=
  (shadows_foldlM (shadows_applyStep hhost (shadows_carryForward hF)) _ _).bind fun r =>
    (shadows_checkQuotable site.key).bind fun _ => shadows_pure r

theorem shadows_runClassChain (site : ChainSite) (decorators : List Value) (initial : Value) :
    Shadows F (runClassChain watched site decorators initial)
      (runClassChain host site decorators initial) :=
  shadows_foldlM (shadows_applyStep hhost shadows_carryClass) _ _

/-! ## Declarations -/

open Realization

theorem shadows_resolveAll (d : Decoration) :
    Shadows F (resolveAll watched names d) (resolveAll host names d) :=
  shadows_mapM (shadows_resolve hhost) d.decorators

theorem shadows_keyOf (shared : List (Nat × Nat)) (keys : List (Nat × Value)) (place : Nat)
    (key : Key) : Shadows F (keyOf watched names shared keys place key)
      (keyOf host names shared keys place key) := by
  unfold keyOf
  cases shared.lookup place with
  | some first =>
    dsimp only
    cases keys.lookup first with
    | some v => exact shadows_pure v
    | none => exact shadows_throw _
  | none =>
    dsimp only
    cases key.staticName? with
    | some name => exact shadows_pure _
    | none => exact shadows_evaluate hhost key.text

theorem shadows_keysOf (members : List Member) (decorations : List Decoration) :
    Shadows F (keysOf watched names members decorations)
      (keysOf host names members decorations) := by
  refine shadows_foldlM ?_ _ _
  rintro keys ⟨m, i⟩
  dsimp only
  cases m.key with
  | none => exact shadows_pure keys
  | some key => exact (shadows_keyOf hhost _ keys i key).bind fun v => shadows_pure _

end Calls

end Undecorate
