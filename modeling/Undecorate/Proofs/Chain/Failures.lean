import Undecorate.Proofs.Chain.Law
import Undecorate.Proofs.Except
import Undecorate.Proofs.Lookup
import Undecorate.Proofs.Object.Actions
import Undecorate.Realization

/-! # Chains that fail

A chain ends at the first decorator that breaks it: one that cannot be called, fails, or returns a
value that its contract does not accept. The decorators behind it have been called once each and
those before it are not called at all. What the chain fails with is a diagnostic, as long as
everything that it has to quote can be quoted.

* `fails_applyStep`: what one application fails with;
* `fails_foldlM_applyStep`: a run fails at the first step that fails;
* `fails_runMember`, `Stopped.object?`: a decoration whose chain fails installs nothing;
* `chains_fail_fast`: how both kinds of chains fail, and what that means for a decoration.
-/

namespace Undecorate

variable {σ : Type}

/-! ## Runs that fail -/

namespace Act

variable {α β : Type} {x : Act σ α} {k : α → Act σ β} {w w' : World σ} {f : Fault}

/-- An action that is known to fail does so in this way only. -/
theorem Fails.iff_of {e : Fault} {w₁ : World σ} (h : x.Fails w e w₁) :
    x.Fails w f w' ↔ f = e ∧ w' = w₁ := by
  constructor
  · intro h'
    have heq := h'.symm.trans h
    rw [Prod.mk.injEq, Except.error.injEq] at heq
    exact heq
  · rintro ⟨rfl, rfl⟩
    exact h

theorem fails_bind : (x >>= k).Fails w f w' ↔
    x.Fails w f w' ∨ ∃ a w₁, x.Returns w a w₁ ∧ (k a).Fails w₁ f w' := by
  constructor
  · intro h
    rcases returns_or_fails x w with ⟨a, w₁, hx⟩ | ⟨e, w₁, hx⟩
    · refine .inr ⟨a, w₁, hx, ?_⟩
      rw [Fails, ← hx.runIn_bind k]
      exact h
    · obtain ⟨rfl, rfl⟩ := (hx.bind k).iff_of.1 h
      exact .inl hx
  · rintro (hx | ⟨a, w₁, hx, hk⟩)
    · exact hx.bind k
    · exact (hx.runIn_bind k).trans hk

theorem Returns.not_fails {a : α} {w₁ : World σ} (h : x.Returns w a w₁) : ¬ x.Fails w f w' :=
  fun hf => hf.not_returns h

@[simp] theorem not_fails_pure {a : α} : ¬ (pure a : Act σ α).Fails w f w' :=
  Returns.not_fails (returns_pure.2 ⟨rfl, rfl⟩)

@[simp] theorem not_fails_view {v : Value} : ¬ (view v : Act σ View).Fails w f w' :=
  Returns.not_fails (returns_view.2 ⟨rfl, rfl⟩)

@[simp] theorem not_fails_newDescriptor {d : Descriptor Value} :
    ¬ (newDescriptor d : Act σ Value).Fails w f w' :=
  Returns.not_fails (returns_newDescriptor.2 ⟨rfl, rfl⟩)

@[simp] theorem fails_throw_iff {e : Fault} :
    (throw e : Act σ α).Fails w f w' ↔ f = e ∧ w' = w :=
  (fails_throw e).iff_of

@[simp] theorem fails_checkQuotable {v : Value} :
    (checkQuotable v : Act σ Unit).Fails w f w' ↔ w.heap.quotingFault? v = some f ∧ w' = w := by
  rw [Fails, runIn_checkQuotable, Heap.quotingFault?]
  cases (w.heap.view v).obstacle? true with
  | none => simp
  | some o => simp [eq_comm]

/-- Where a handler only turns one fault into another. -/
theorem fails_tryCatch_throw (turn : Heap → Fault → Fault) :
    (tryCatch x fun e => do throw (turn (← heap) e)).Fails w f w' ↔
      ∃ e, x.Fails w e w' ∧ f = turn w'.heap e := by
  rw [Fails, runIn_tryCatch]
  rcases hx : x.runIn w with ⟨r, w₁⟩
  cases r with
  | ok a =>
    constructor
    · intro h
      cases h
    · rintro ⟨e, he, -⟩
      rw [Fails, hx] at he
      cases he
  | error e =>
    dsimp only
    change (throw (turn w₁.heap e) : Act σ α).Fails w₁ f w' ↔ _
    rw [fails_throw_iff]
    constructor
    · rintro ⟨rfl, rfl⟩
      exact ⟨e, hx, rfl⟩
    · rintro ⟨e', he', rfl⟩
      rw [Fails, hx, Prod.mk.injEq, Except.error.injEq] at he'
      obtain ⟨rfl, rfl⟩ := he'
      exact ⟨rfl, rfl⟩

end Act

/-! ## What breaks a chain -/

/-- What a chain holds against a returned value. -/
structure Complaint where
  /-- The diagnostic about a value that the contract does not accept. -/
  diagnostic? : Heap → Value → List (Text × Note) → Option Diagnostic
  /-- What quoting such a value for the diagnostic fails with, if it cannot be quoted. -/
  unquoted? : Heap → Value → Option Fault

/-- What looking for the descriptor in a value fails with at once: the function of an accessor that
cannot be called is a value without end. -/
def endlessAccessor? (h : Heap) : Value → Option Fault
  | .record fields _ => match Descriptor.ofMapping h.isCallable fields with
    | .error (.notCallable v) =>
      if (h.view v).obstacle? true = some .endless then some .endless else none
    | _ => none
  | _ => none

/-- What a member's chain holds against a value: it is neither a descriptor nor a mapping that gives
one. -/
def descriptorComplaint : Complaint where
  diagnostic? h v notes := match v with
    | .descriptor _ => none
    | .record fields _ => match Descriptor.ofMapping h.isCallable fields with
      | .ok _ => none
      | .error f => some { Diagnostic.contract (h.view v)
          ("a valid descriptor (" ++ (f.fault h.view).text ++ ")") notes with
            issues := (f.fault h.view).issues? }
    | _ => some (.contract (h.view v) "a property descriptor or nothing" notes)
  unquoted? h v := (endlessAccessor? h v).or (h.quotingFault? v)

/-- What a class's chain holds against a value: it cannot be called. -/
def classComplaint : Complaint where
  diagnostic? h v notes :=
    if h.isCallable v then none else some (.contract (h.view v) "a constructor or nothing" notes)
  unquoted? h v := h.quotingFault? v

/-- A decorator can be named in a message: its text is known, or it can be quoted. -/
def ChainSite.Names (site : ChainSite) (h : Heap) (s : Step) : Prop :=
  (site.labels[s.position]?).isSome = true ∨ h.Quotable s.decorator

theorem ChainSite.not_names {site : ChainSite} {h : Heap} {s : Step} {f : Fault}
    (hunlabelled : site.labels[s.position]? = none)
    (hfault : h.quotingFault? s.decorator = some f) : ¬ site.Names h s := by
  rintro (hlabel | hquotable)
  · rw [hunlabelled] at hlabel
    cases hlabel
  · rw [← Heap.quotingFault?_eq_none, hfault] at hquotable
    cases hquotable

/-- How one application breaks a chain: with what it fails, and in which world. Apart from what
cannot be quoted or written, that is a diagnostic. -/
inductive Breaks (host : Host σ) (complaint : Complaint) (site : ChainSite) (s : Step)
    (arguments : List Value) (w : World σ) : Fault → World σ → Prop
  /-- A decorator that cannot be called. -/
  | uncallable (named : site.Names w.heap s) (h : w.heap.isCallable s.decorator = false) :
      Breaks host complaint site s arguments w (.refused (.notCallable (site.label w.heap s)
        (site.facts (site.label w.heap s) w.heap))) w
  /-- A decorator that can neither be named nor called. -/
  | unnamed {f : Fault} (unlabelled : site.labels[s.position]? = none)
      (h : w.heap.quotingFault? s.decorator = some f) :
      Breaks host complaint site s arguments w f w
  /-- A decorator that fails with a diagnostic, which is passed on. -/
  | refused {d : Diagnostic} {w' : World σ} (callable : w.heap.isCallable s.decorator = true)
      (h : (Act.call host s.decorator arguments).Fails w (.refused d) w') :
      Breaks host complaint site s arguments w (.refused d) w'
  /-- A decorator that fails with anything else, whose text is told. -/
  | raised {e : Fault} {w' : World σ} (callable : w.heap.isCallable s.decorator = true)
      (h : (Act.call host s.decorator arguments).Fails w e w') (foreign : e.isDiagnostic = false)
      (written : e.writing? = none) :
      Breaks host complaint site s arguments w (.refused (.failedCall (site.label w.heap s) e
        (site.facts (site.label w.heap s) w'.heap))) w'
  /-- A decorator that fails with something else whose text cannot be written. -/
  | unwritten {e f : Fault} {w' : World σ} (callable : w.heap.isCallable s.decorator = true)
      (h : (Act.call host s.decorator arguments).Fails w e w') (foreign : e.isDiagnostic = false)
      (unwritten : e.writing? = some f) :
      Breaks host complaint site s arguments w f w'
  /-- A decorator that returns what the contract does not accept. -/
  | rejected {v : Value} {d : Diagnostic} {w' : World σ}
      (h : (Act.call host s.decorator arguments).Returns w v w') (present : v ≠ .absent)
      (held : complaint.diagnostic? w'.heap v (site.facts (site.label w.heap s) w'.heap) = some d)
      (quotable : w'.heap.Quotable v) :
      Breaks host complaint site s arguments w (.refused d) w'
  /-- A decorator that returns what the contract does not accept and no message can quote. -/
  | unquotable {v : Value} {d : Diagnostic} {f : Fault} {w' : World σ}
      (h : (Act.call host s.decorator arguments).Returns w v w') (present : v ≠ .absent)
      (held : complaint.diagnostic? w'.heap v (site.facts (site.label w.heap s) w'.heap) = some d)
      (unquoted : complaint.unquoted? w'.heap v = some f) :
      Breaks host complaint site s arguments w f w'

/-- A chain that carries its value on by `carry` fails as the complaint says. -/
structure Complains (carry : Value → Outcome → Facts → Act σ Value)
    (complaint : Complaint) : Prop where
  keep : ∀ {current facts w f w'}, ¬ (carry current .keep facts).Fails w f w'
  replace : ∀ {current v facts w f w'}, (carry current (.replace v) facts).Fails w f w' ↔
    w' = w ∧ ∃ d, complaint.diagnostic? w.heap v (facts w.heap) = some d ∧
      f = (complaint.unquoted? w.heap v).getD (.refused d)
  quoted : ∀ {h v}, complaint.unquoted? h v = none ↔ h.Quotable v
  foreign : ∀ {h v f}, complaint.unquoted? h v = some f → f.isDiagnostic = false

section Contracts

variable {facts : Facts} {h : Heap} {w w' : World σ} {v : Value} {f : Fault}

theorem isDiagnostic_of_quotingFault (hfault : h.quotingFault? v = some f) :
    f.isDiagnostic = false := by
  obtain ⟨o, -, rfl⟩ := Option.map_eq_some_iff.1 hfault
  cases o <;> rfl

theorem isDiagnostic_of_endlessAccessor (hendless : endlessAccessor? h v = some f) :
    f.isDiagnostic = false := by
  unfold endlessAccessor? at hendless
  split at hendless
  · split at hendless
    · split at hendless
      · cases hendless
        rfl
      · cases hendless
    · cases hendless
  · cases hendless

/-- A value is rejected with a diagnostic, or with the fault of quoting it for the diagnostic. -/
theorem fails_reject {α : Type} {x : Act σ α} {d : Diagnostic} (hx : x.Fails w (.refused d) w) :
    (do Act.checkQuotable v; x).Fails w f w' ↔
      w' = w ∧ f = (w.heap.quotingFault? v).getD (.refused d) := by
  rw [Act.fails_bind, Act.fails_checkQuotable]
  cases hq : w.heap.quotingFault? v with
  | none =>
    have hreturns : (Act.checkQuotable v : Act σ Unit).Returns w () w :=
      Act.returns_checkQuotable.2 ⟨Heap.quotingFault?_eq_none.1 hq, rfl⟩
    constructor
    · rintro (⟨⟨⟩, -⟩ | ⟨_, w₁, hcheck, hfails⟩)
      obtain ⟨-, rfl⟩ := hcheck.unique hreturns
      exact (hx.iff_of.1 hfails).symm
    · rintro ⟨rfl, rfl⟩
      exact .inr ⟨(), w', hreturns, hx⟩
  | some e =>
    constructor
    · rintro (⟨heq, rfl⟩ | ⟨_, w₁, hcheck, -⟩)
      · exact ⟨rfl, (Option.some.inj heq).symm⟩
      · have hquotable := (Act.returns_checkQuotable.1 hcheck).1
        rw [← Heap.quotingFault?_eq_none, hq] at hquotable
        cases hquotable
    · rintro ⟨rfl, rfl⟩
      exact .inl ⟨rfl, rfl⟩

/-- Checking for an accessor without end changes nothing. -/
theorem runIn_checkEnding (e : MappingFault) (w : World σ) :
    (Act.checkEnding e : Act σ Unit).runIn w = match e with
      | .notCallable v =>
        if (w.heap.view v).obstacle? true = some .endless then (.error .endless, w) else (.ok (), w)
      | _ => (.ok (), w) := by
  cases e with
  | notCallable v =>
    have hview : (Act.view v : Act σ View).Returns w (w.heap.view v) w := rfl
    unfold Act.checkEnding
    rw [hview.runIn_bind]
    by_cases hendless : (w.heap.view v).obstacle? true = some .endless
    · rw [if_pos hendless]
      exact (if_pos hendless).symm
    · rw [if_neg hendless]
      exact (if_neg hendless).symm
  | _ => rfl

/-- What is no descriptor is rejected, with the fault of the accessor if that has no end. -/
theorem fails_rejectMapping {α : Type} {x : Act σ α} {d : Diagnostic} {e : MappingFault}
    {fields : List (String × Value)} {copy : Copy}
    (he : Descriptor.ofMapping w.heap.isCallable fields = .error e)
    (hx : x.Fails w (.refused d) w) :
    (do Act.checkEnding e; Act.checkQuotable (.record fields copy); x).Fails w f w' ↔
      w' = w ∧ f = ((endlessAccessor? w.heap (.record fields copy)).or
        (w.heap.quotingFault? (.record fields copy))).getD (.refused d) := by
  have hgoes (h : (Act.checkEnding e : Act σ Unit).Returns w () w)
      (hnone : endlessAccessor? w.heap (.record fields copy) = none) :
      (do Act.checkEnding e; Act.checkQuotable (.record fields copy); x).Fails w f w' ↔
        w' = w ∧ f = ((endlessAccessor? w.heap (.record fields copy)).or
          (w.heap.quotingFault? (.record fields copy))).getD (.refused d) := by
    rw [Act.Fails, h.runIn_bind, hnone, Option.none_or]
    exact fails_reject hx
  have hrun := runIn_checkEnding e w
  cases e with
  | notCallable v =>
    dsimp only at hrun
    split at hrun
    · rename_i hendless
      have hsome : endlessAccessor? w.heap (.record fields copy) = some .endless := by
        simp [endlessAccessor?, he, hendless]
      have hfails : (Act.checkEnding (.notCallable v) : Act σ Unit).Fails w .endless w := hrun
      rw [(hfails.bind _).iff_of, hsome, Option.some_or, Option.getD_some, and_comm]
    · rename_i hends
      exact hgoes hrun (by simp [endlessAccessor?, he, hends])
  | _ => exact hgoes hrun (by simp [endlessAccessor?, he])

theorem fails_coerceDescriptor :
    (coerceDescriptor v facts : Act σ Value).Fails w f w' ↔
      w' = w ∧ ∃ d, descriptorComplaint.diagnostic? w.heap v (facts w.heap) = some d ∧
        f = (descriptorComplaint.unquoted? w.heap v).getD (.refused d) := by
  have hheap : (Act.heap : Act σ Heap).Returns w w.heap w := rfl
  unfold coerceDescriptor
  rw [Act.Fails, hheap.runIn_bind]
  cases v with
  | descriptor r =>
    constructor
    · intro h
      exact absurd h Act.not_fails_pure
    · rintro ⟨-, d, ⟨⟩, -⟩
  | record fields copy =>
    dsimp only [descriptorComplaint]
    cases he : Descriptor.ofMapping w.heap.isCallable fields with
    | ok d =>
      constructor
      · intro h
        exact absurd h Act.not_fails_newDescriptor
      · rintro ⟨-, d, ⟨⟩, -⟩
    | error e =>
      refine (fails_rejectMapping he (Act.fails_throw _)).trans ?_
      simp
  | _ =>
    refine (fails_reject (Act.fails_throw _)).trans ?_
    simp [descriptorComplaint, endlessAccessor?]

/-- An accessor that cannot be called is a field of its mapping. -/
theorem mem_of_notCallable {isCallable : Value → Bool} {fields : List (String × Value)}
    (h : Descriptor.ofMapping isCallable fields = .error (.notCallable v)) :
    ∃ k, (k, v) ∈ fields := by
  have hpart : ∀ names, Descriptor.accessorPart isCallable (Descriptor.firstOf? fields names) =
      .error (.notCallable v) → ∃ k, (k, v) ∈ fields := by
    intro names hpart
    unfold Descriptor.accessorPart at hpart
    split at hpart
    · cases hpart
    · cases hpart
    · rename_i u _ hfirst
      split at hpart
      · cases hpart
      · cases hpart
        obtain ⟨name, -, hlookup⟩ := List.exists_of_findSome?_eq_some hfirst
        exact ⟨name, mem_of_lookup hlookup⟩
  unfold Descriptor.ofMapping at h
  dsimp only at h
  split at h
  · split at h
    · cases h
    · cases hget : Descriptor.accessorPart isCallable
          (Descriptor.firstOf? fields ["get", "getter"]) with
      | error e =>
        rw [hget] at h
        cases h
        exact hpart _ hget
      | ok get =>
        cases hset : Descriptor.accessorPart isCallable
            (Descriptor.firstOf? fields ["set", "setter"]) with
        | error e =>
          rw [hget, hset] at h
          cases h
          exact hpart _ hset
        | ok set =>
          rw [hget, hset, ok_bind, ok_bind] at h
          split at h <;> cases h
  · split at h <;> cases h

/-- A record can be quoted only if its fields can. -/
theorem quotable_of_mem {fields : List (String × Value)} {copy : Copy} {k : String}
    (hq : h.Quotable (.record fields copy)) (hmem : (k, v) ∈ fields) : h.Quotable v := by
  unfold Heap.Quotable Heap.view Heap.viewTo at hq ⊢
  rw [Value.viewBy, View.obstacle?] at hq
  induction fields with
  | nil => cases hmem
  | cons p fields ih =>
    obtain ⟨j, u⟩ := p
    rw [Value.viewFieldsBy, View.fieldObstacle?, Option.or_eq_none_iff] at hq
    rcases List.mem_cons.1 hmem with heq | hmem
    · cases heq
      exact hq.1
    · exact ih hmem hq.2

/-- Nothing keeps a descriptor from being looked for in a value that can be quoted. -/
theorem endlessAccessor?_eq_none (hq : h.Quotable v) : endlessAccessor? h v = none := by
  cases v with
  | record fields copy =>
    dsimp only [endlessAccessor?]
    split
    · rename_i u he
      obtain ⟨k, hmem⟩ := mem_of_notCallable he
      have hnone : (h.view u).obstacle? true = none := quotable_of_mem hq hmem
      rw [hnone, if_neg nofun]
    · rfl
  | _ => rfl

theorem complains_carryForward : Complains (@carryForward σ) descriptorComplaint where
  keep := Act.not_fails_pure
  replace := fails_coerceDescriptor
  quoted := by
    intro h v
    rw [descriptorComplaint, Option.or_eq_none_iff, Heap.quotingFault?_eq_none]
    exact and_iff_right_of_imp endlessAccessor?_eq_none
  foreign := by
    intro h v f hf
    rcases Option.or_eq_some_iff.1 hf with hendless | ⟨-, hfault⟩
    · exact isDiagnostic_of_endlessAccessor hendless
    · exact isDiagnostic_of_quotingFault hfault

theorem complains_carryClass : Complains (@carryClass σ) classComplaint where
  keep := Act.not_fails_pure
  quoted := Heap.quotingFault?_eq_none
  foreign := isDiagnostic_of_quotingFault
  replace := by
    intro current v facts w f w'
    have hheap : (Act.heap : Act σ Heap).Returns w w.heap w := rfl
    unfold carryClass classComplaint
    rw [Act.Fails, hheap.runIn_bind]
    dsimp only
    by_cases hc : w.heap.isCallable v = true
    · rw [if_pos hc, if_pos hc]
      constructor
      · intro h
        exact absurd h Act.not_fails_pure
      · rintro ⟨-, d, ⟨⟩, -⟩
    · rw [if_neg hc, if_neg hc]
      refine (fails_reject (Act.fails_throw _)).trans ?_
      simp

end Contracts

/-! ## One application -/

section Steps

variable {host : Host σ} {complaint : Complaint} {site : ChainSite}
  {arguments : Value → List Value}
  {carry : Value → Outcome → Facts → Act σ Value}
  {w w' : World σ} {r : ChainResult} {s : Step} {f : Fault}

theorem fails_invoke {decorator : Value} {args : List Value} {label : Text} {facts : Facts} :
    (invoke host decorator args label facts).Fails w f w' ↔
      (w.heap.isCallable decorator = false ∧ f = .refused (.notCallable label (facts w.heap)) ∧
        w' = w) ∨
      (w.heap.isCallable decorator = true ∧
        ∃ e, (Act.call host decorator args).Fails w e w' ∧
          f = e.passedOn label (facts w'.heap)) := by
  have hheap : (Act.heap : Act σ Heap).Returns w w.heap w := rfl
  unfold invoke
  rw [Act.Fails, hheap.runIn_bind]
  by_cases hc : w.heap.isCallable decorator = true
  · simp only [hc, ↓reduceIte]
    change Act.Fails _ w f w' ↔ _
    rw [Act.fails_bind,
      Act.fails_tryCatch_throw fun h e => e.passedOn label (facts h)]
    simp
  · simp only [hc]
    change Act.Fails _ w f w' ↔ _
    simp

/-- What is made of a returned value fails with a complaint about it. -/
theorem Complains.fails_of (hcarry : Complains carry complaint) {current v : Value}
    {facts : Facts} :
    (carry current (.of v) facts).Fails w f w' ↔ v ≠ .absent ∧ w' = w ∧
      ∃ d, complaint.diagnostic? w.heap v (facts w.heap) = some d ∧
        f = (complaint.unquoted? w.heap v).getD (.refused d) := by
  by_cases hv : v = .absent
  · subst hv
    constructor
    · intro h
      exact absurd h hcarry.keep
    · rintro ⟨hne, -⟩
      exact absurd rfl hne
  · have ho : Outcome.of v = .replace v := by
      cases v <;> first | rfl | exact absurd rfl hv
    rw [ho, hcarry.replace]
    exact (and_iff_right hv).symm

/-- An application of a decorator that has its name. -/
def applyNamed (host : Host σ) (site : ChainSite) (arguments : Value → List Value)
    (carry : Value → Outcome → Facts → Act σ Value)
    (r : ChainResult) (s : Step) : Act σ ChainResult := do
  let label := site.label (← Act.heap) s
  let outcome ← invoke host s.decorator (arguments r.value) label (site.facts label)
  let value ← carry r.value outcome (site.facts label)
  return r.record s label outcome value

/-- How a chain passes the fault of a decorator on. -/
theorem breaks_of_passedOn {args : List Value} {e : Fault}
    (hc : w.heap.isCallable s.decorator = true)
    (he : (Act.call host s.decorator args).Fails w e w') :
    Breaks host complaint site s args w (e.passedOn (site.label w.heap s)
      (site.facts (site.label w.heap s) w'.heap)) w' := by
  cases e with
  | refused d => exact .refused hc he
  | unwritable kind f => exact .unwritten hc he rfl rfl
  | _ => exact .raised hc he rfl rfl

theorem fails_applyNamed (hcarry : Complains carry complaint) (hnamed : site.Names w.heap s) :
    (applyNamed host site arguments carry r s).Fails w f w' ↔
      Breaks host complaint site s (arguments r.value) w f w' := by
  have hheap : (Act.heap : Act σ Heap).Returns w w.heap w := rfl
  unfold applyNamed
  rw [Act.Fails, hheap.runIn_bind]
  change Act.Fails _ w f w' ↔ _
  simp only [Act.fails_bind, fails_invoke, returns_invoke, Act.not_fails_pure, and_false,
    exists_false, or_false]
  constructor
  · rintro ((⟨hc, rfl, rfl⟩ | ⟨hc, e, he, rfl⟩) | ⟨_, w₁, ⟨v, hv, rfl⟩, hfails⟩)
    · exact .uncallable hnamed hc
    · exact breaks_of_passedOn hc he
    · obtain ⟨hpresent, rfl, d, hheld, rfl⟩ := hcarry.fails_of.1 hfails
      cases hq : complaint.unquoted? w'.heap v with
      | none => exact .rejected hv hpresent hheld (hcarry.quoted.1 hq)
      | some e => exact .unquotable hv hpresent hheld hq
  · intro h
    cases h with
    | uncallable _ hc => exact .inl (.inl ⟨hc, rfl, rfl⟩)
    | unnamed hunlabelled hfault => exact absurd hnamed (ChainSite.not_names hunlabelled hfault)
    | refused hc he => exact .inl (.inr ⟨hc, _, he, rfl⟩)
    | @raised e _ hc he hforeign hwritten =>
      refine .inl (.inr ⟨hc, e, he, ?_⟩)
      cases e with
      | refused d => cases hforeign
      | unwritable kind e => cases hwritten
      | _ => rfl
    | @unwritten e _ _ hc he hforeign hunwritten =>
      refine .inl (.inr ⟨hc, e, he, ?_⟩)
      cases e with
      | refused d => cases hforeign
      | unwritable kind e => exact (Option.some.inj hunwritten).symm
      | _ => cases hunwritten
    | @rejected v d _ hv hpresent hheld hquotable =>
      refine .inr ⟨_, w', ⟨v, hv, rfl⟩, hcarry.fails_of.2 ⟨hpresent, rfl, d, hheld, ?_⟩⟩
      rw [hcarry.quoted.2 hquotable]
      rfl
    | @unquotable v d _ _ hv hpresent hheld hfault =>
      refine .inr ⟨_, w', ⟨v, hv, rfl⟩, hcarry.fails_of.2 ⟨hpresent, rfl, d, hheld, ?_⟩⟩
      rw [hfault]
      rfl

/-- A decorator that cannot be named breaks the chain before it is called. -/
theorem breaks_unnamed {e : Fault} {args : List Value}
    (hunlabelled : site.labels[s.position]? = none)
    (hfault : w.heap.quotingFault? s.decorator = some e) :
    Breaks host complaint site s args w f w' ↔ f = e ∧ w' = w := by
  have hnamed := ChainSite.not_names hunlabelled hfault
  have hcallable : ¬ w.heap.isCallable s.decorator = true :=
    fun hc => hnamed (.inr (quotable_of_isCallable hc))
  constructor
  · intro h
    cases h with
    | uncallable hname _ => exact absurd hname hnamed
    | unnamed _ hfault' => exact ⟨Option.some.inj (hfault'.symm.trans hfault), rfl⟩
    | refused hc _ => exact absurd hc hcallable
    | raised hc _ _ _ => exact absurd hc hcallable
    | unwritten hc _ _ _ => exact absurd hc hcallable
    | rejected hv _ _ _ => exact absurd (isCallable_of_returns_call hv) hcallable
    | unquotable hv _ _ _ => exact absurd (isCallable_of_returns_call hv) hcallable
  · rintro ⟨rfl, rfl⟩
    exact .unnamed hunlabelled hfault

/-- What one application fails with. -/
theorem fails_applyStep (hcarry : Complains carry complaint) :
    (applyStep host site arguments carry r s).Fails w f w' ↔
      Breaks host complaint site s (arguments r.value) w f w' := by
  cases hlabel : site.labels[s.position]? with
  | some text =>
    have heq : applyStep host site arguments carry r s =
        applyNamed host site arguments carry r s := by
      unfold applyStep applyNamed
      simp [hlabel]
    rw [heq]
    exact fails_applyNamed hcarry (.inl (by simp [hlabel]))
  | none =>
    have heq : applyStep host site arguments carry r s = (do
        Act.checkQuotable s.decorator
        applyNamed host site arguments carry r s) := by
      unfold applyStep applyNamed
      simp [hlabel]
    rw [heq, Act.Fails]
    cases hq : w.heap.quotingFault? s.decorator with
    | none =>
      have hquotable := Heap.quotingFault?_eq_none.1 hq
      rw [(Act.returns_checkQuotable.2 ⟨hquotable, rfl⟩ :
        (Act.checkQuotable s.decorator : Act σ Unit).Returns w () w).runIn_bind]
      exact fails_applyNamed hcarry (.inr hquotable)
    | some e =>
      have hfails := Act.fails_checkQuotable.2 ⟨hq, rfl⟩
      rw [breaks_unnamed hlabel hq]
      exact (hfails.bind _).iff_of

end Steps

/-! ## Whole runs -/

section Runs

variable {host : Host σ} {contract : Contract σ} {complaint : Complaint} {site : ChainSite}
  {arguments : Value → List Value}
  {carry : Value → Outcome → Facts → Act σ Value}
  {w w' : World σ} {r : ChainResult} {f : Fault}

/-- A run fails at the first step that fails: there is a call for each step before it, and none for
the steps behind it. -/
theorem fails_foldlM_applyStep (hf : Follows carry contract) (hcarry : Complains carry complaint)
    {steps : List Step} :
    (steps.foldlM (applyStep host site arguments carry) r).Fails w f w' ↔
      ∃ (calls : List (Call σ)) (s : Step) (rest : List Step) (w₁ : World σ),
        steps = calls.map (·.step) ++ s :: rest ∧ Made host contract w calls w₁ ∧
        Handed arguments r.value calls ∧
        Breaks host complaint site s (arguments (latest r.value calls)) w₁ f w' := by
  -- calls are consed, so the result at hand and the world are generalized
  induction steps generalizing r w with
  | nil =>
    constructor
    · intro h
      exact absurd h Act.not_fails_pure
    · rintro ⟨calls, s, rest, w₁, hsteps, -⟩
      simp at hsteps
  | cons s steps ih =>
    rw [List.foldlM_cons, Act.fails_bind, fails_applyStep hcarry]
    simp only [returns_applyStep hf, ih]
    constructor
    · rintro (hbreaks | ⟨_, _, ⟨c, rfl, rfl, hargs, hc, rfl, rfl⟩, calls, s, rest, w₁, rfl, hmade,
        hhanded, hbreaks⟩)
      · exact ⟨[], s, steps, w, rfl, rfl, Handed.nil, hbreaks⟩
      · refine ⟨c :: calls, s, rest, w₁, rfl, ⟨rfl, hc, hmade⟩, handed_cons.2 ⟨hargs, hhanded⟩, ?_⟩
        rw [latest_cons]
        exact hbreaks
    · rintro ⟨calls, s', rest, w₁, hsteps, hmade, hhanded, hbreaks⟩
      cases calls with
      | nil =>
        obtain ⟨rfl, rfl⟩ := List.cons.inj hsteps
        obtain rfl := hmade
        exact .inl hbreaks
      | cons c calls =>
        obtain ⟨rfl, rfl⟩ := List.cons.inj hsteps
        obtain ⟨hb, hc, hcs⟩ := hmade
        obtain ⟨hargs, hrest⟩ := handed_cons.1 hhanded
        rw [latest_cons] at hbreaks
        exact .inr ⟨_, _, ⟨c, rfl, hb, hargs, hc, rfl, rfl⟩, calls, s', rest, w₁, rfl, hcs, hrest,
          hbreaks⟩

theorem getElem?_evaluationOrder {decorators : List Value} {i : Nat} {s : Step}
    (h : (evaluationOrder decorators)[i]? = some s) : s.position = i := by
  unfold evaluationOrder at h
  rw [List.getElem?_map, Option.map_eq_some_iff] at h
  obtain ⟨⟨d, j⟩, hget, rfl⟩ := h
  rw [List.getElem?_zipIdx, Option.map_eq_some_iff] at hget
  obtain ⟨d', -, heq⟩ := hget
  rw [Prod.mk.injEq] at heq
  simpa using heq.2.symm

/-- The steps before one in the order of application are those behind it in the source. -/
theorem applicationOrder_eq_append_iff {decorators : List Value} {s : Step}
    {before : List Step} :
    (∃ rest, applicationOrder decorators = before ++ s :: rest) ↔
      (evaluationOrder decorators)[s.position]? = some s ∧
        before = ((evaluationOrder decorators).drop (s.position + 1)).reverse := by
  unfold applicationOrder
  constructor
  · rintro ⟨rest, h⟩
    have horder : evaluationOrder decorators = rest.reverse ++ s :: before.reverse := by
      rw [← List.reverse_reverse (evaluationOrder decorators), h]
      simp
    have hget : (evaluationOrder decorators)[rest.length]? = some s := by
      rw [horder]
      simp
    rw [getElem?_evaluationOrder hget]
    refine ⟨hget, ?_⟩
    have hdrop : (evaluationOrder decorators).drop (rest.length + 1) = before.reverse := by
      rw [horder, ← List.length_reverse, List.drop_append]
      simp
    rw [hdrop, List.reverse_reverse]
  · rintro ⟨hget, rfl⟩
    refine ⟨((evaluationOrder decorators).take s.position).reverse, ?_⟩
    obtain ⟨hlt, hs⟩ := List.getElem?_eq_some_iff.1 hget
    have hdrop : (evaluationOrder decorators).drop s.position =
        s :: (evaluationOrder decorators).drop (s.position + 1) := by
      rw [List.drop_eq_getElem_cons hlt, hs]
    calc (evaluationOrder decorators).reverse
        = ((evaluationOrder decorators).take s.position ++
            (evaluationOrder decorators).drop s.position).reverse := by
          rw [List.take_append_drop]
      _ = _ := by rw [hdrop, List.reverse_append, List.reverse_cons, List.append_assoc]; rfl

end Runs

/-! ## Both kinds of chains -/

/-- How far a chain got that was broken by `s`: the decorators behind it in the source were called
once each, the last one first, and none before it was. -/
structure Stopped (host : Host σ) (contract : Contract σ) (complaint : Complaint)
    (site : ChainSite) (arguments : Value → List Value) (decorators : List Value) (initial : Value)
    (w : World σ) (calls : List (Call σ)) (s : Step) (w₁ : World σ) (f : Fault) (w' : World σ) :
    Prop where
  culprit : (evaluationOrder decorators)[s.position]? = some s
  called : calls.map (·.step) = ((evaluationOrder decorators).drop (s.position + 1)).reverse
  made : Made host contract w calls w₁
  handed : Handed arguments initial calls
  breaks : Breaks host complaint site s (arguments (latest initial calls)) w₁ f w'

/-- How a kind of chains fails. The arguments of a call are made of the value at hand, the contract
says what a call may return and the complaint what is reported otherwise, and `fault?` is what the
record of the chain fails with when all calls are done. -/
structure FailsFast (host : Host σ) (contract : Contract σ) (complaint : Complaint)
    (arguments : ChainSite → Value → List Value) (fault? : ChainSite → World σ → Option Fault)
    (run : ChainSite → List Value → Value → Act σ ChainResult) : Prop where
  /-- A chain fails iff a decorator breaks it, or its record fails when all calls are done. -/
  fails_iff : ∀ site decorators initial w f w', (run site decorators initial).Fails w f w' ↔
    (∃ calls s w₁,
      Stopped host contract complaint site (arguments site) decorators initial w calls s w₁ f w') ∨
    ∃ calls r, Account host contract site (arguments site) decorators initial w calls r w' ∧
      fault? site w' = some f
  /-- Whatever breaks a chain ends in a diagnostic iff what it has to quote can be quoted, and the
  text of what a decorator raises can be written, or ends in a diagnostic itself. -/
  typed : ∀ site s args w f w', Breaks host complaint site s args w f w' →
    (f.isDiagnostic = true ↔ site.Names w.heap s ∧
      (∀ v, (Act.call host s.decorator args).Returns w v w' → w'.heap.Quotable v) ∧
      ∀ e f', (Act.call host s.decorator args).Fails w e w' → e.isDiagnostic = false →
        e.writing? = some f' → f'.isDiagnostic = true)
  /-- A returned value is rejected iff the contract does not accept it. -/
  rejects : ∀ (w : World σ) v notes,
    complaint.diagnostic? w.heap v notes = none ↔ ∃ u w', contract w v u w'
  /-- A rejection is a contract violation that tells the decorator, the key and the place. -/
  told : ∀ (site : ChainSite) h v h' label d,
    complaint.diagnostic? h v (site.facts label h') = some d →
    d.kind = .contract ∧ d.context = Diagnostic.addNotes [] (site.facts label h')

section Kinds

variable {host : Host σ} {contract : Contract σ} {complaint : Complaint} {site : ChainSite}
  {arguments : Value → List Value}
  {carry : Value → Outcome → Facts → Act σ Value}
  {decorators : List Value} {initial : Value} {w w' : World σ} {f : Fault}

/-- What cannot be called fails with a fault that is known in full. -/
theorem fails_call_of_not_callable {callee : Value} {args : List Value} {e : Fault}
    (hc : w.heap.isCallable callee = false) (h : (Act.call host callee args).Fails w e w') :
    e.writing? = none := by
  cases callee with
  | function g => cases hc
  | object r =>
    have hheap : (Act.heap : Act σ Heap).Returns w w.heap w := rfl
    have hnone : w.heap.callable? r = none := by simpa [Heap.isCallable] using hc
    unfold Act.call at h
    rw [Act.Fails, hheap.runIn_bind, hnone] at h
    obtain ⟨rfl, -⟩ := Act.fails_throw_iff.1 h
    rfl
  | _ =>
    unfold Act.call at h
    simp only [Act.fails_bind, Act.not_fails_view, Act.returns_view, Act.fails_throw_iff,
      false_or] at h
    obtain ⟨_, _, -, rfl, -⟩ := h
    rfl

theorem Breaks.isDiagnostic_iff (hcarry : Complains carry complaint) {s : Step} {args : List Value}
    (h : Breaks host complaint site s args w f w') :
    f.isDiagnostic = true ↔ site.Names w.heap s ∧
      (∀ v, (Act.call host s.decorator args).Returns w v w' → w'.heap.Quotable v) ∧
      ∀ e f', (Act.call host s.decorator args).Fails w e w' → e.isDiagnostic = false →
        e.writing? = some f' → f'.isDiagnostic = true := by
  have hnames : w.heap.isCallable s.decorator = true → site.Names w.heap s :=
    fun hc => .inr (quotable_of_isCallable hc)
  -- a call ends in one way only
  have hsame : ∀ {e e' : Fault}, (Act.call host s.decorator args).Fails w e w' →
      (Act.call host s.decorator args).Fails w e' w' → e' = e :=
    fun he he' => (he.iff_of.1 he').1
  cases h with
  | uncallable hnamed hc =>
    refine ⟨fun _ => ⟨hnamed, fun v hv => ?_, fun e f' he _ hf' => ?_⟩, fun _ => rfl⟩
    · rw [isCallable_of_returns_call hv] at hc
      cases hc
    · rw [fails_call_of_not_callable hc he] at hf'
      cases hf'
  | unnamed hunlabelled hfault =>
    rw [isDiagnostic_of_quotingFault hfault]
    exact ⟨nofun, fun h => absurd h.1 (ChainSite.not_names hunlabelled hfault)⟩
  | refused hc hfails =>
    refine ⟨fun _ => ⟨hnames hc, fun v hv => absurd hv hfails.not_returns, ?_⟩, fun _ => rfl⟩
    intro e f' he hforeign
    rw [hsame hfails he] at hforeign
    cases hforeign
  | raised hc hfails _ hwritten =>
    refine ⟨fun _ => ⟨hnames hc, fun v hv => absurd hv hfails.not_returns, ?_⟩, fun _ => rfl⟩
    intro e f' he _ hf'
    rw [hsame hfails he, hwritten] at hf'
    cases hf'
  | unwritten hc hfails hforeign hunwritten =>
    constructor
    · intro hdiagnostic
      refine ⟨hnames hc, fun v hv => absurd hv hfails.not_returns, ?_⟩
      intro e f' he _ hf'
      rw [hsame hfails he, hunwritten] at hf'
      rwa [← Option.some.inj hf']
    · exact fun h => h.2.2 _ f hfails hforeign hunwritten
  | rejected hv _ _ hquotable =>
    refine ⟨fun _ => ⟨hnames (isCallable_of_returns_call hv), fun u hu => ?_, ?_⟩, fun _ => rfl⟩
    · obtain ⟨rfl, -⟩ := hu.unique hv
      exact hquotable
    · exact fun e f' he => absurd hv he.not_returns
  | unquotable hv _ _ hfault =>
    rw [hcarry.foreign hfault]
    refine ⟨nofun, ?_⟩
    rintro ⟨-, hquotable, -⟩
    have hq := hcarry.quoted.2 (hquotable _ hv)
    rw [hfault] at hq
    cases hq

theorem fails_runChain (hf : Follows carry contract) (hcarry : Complains carry complaint) :
    (runChain host site arguments carry decorators initial).Fails w f w' ↔
      ∃ calls s w₁, Stopped host contract complaint site arguments decorators initial w calls s w₁ f
        w' := by
  unfold runChain
  rw [fails_foldlM_applyStep hf hcarry]
  constructor
  · rintro ⟨calls, s, rest, w₁, horder, hmade, hhanded, hbreaks⟩
    obtain ⟨hculprit, hcalled⟩ := applicationOrder_eq_append_iff.1 ⟨rest, horder⟩
    exact ⟨calls, s, w₁, hculprit, hcalled, hmade, hhanded, hbreaks⟩
  · rintro ⟨calls, s, w₁, hstopped⟩
    obtain ⟨rest, horder⟩ := applicationOrder_eq_append_iff.2 ⟨hstopped.culprit, hstopped.called⟩
    exact ⟨calls, s, rest, w₁, horder, hstopped.made, hstopped.handed, hstopped.breaks⟩

theorem eq_of_map_eq {steps steps' : List Step}
    (hdecorators : steps.map (·.decorator) = steps'.map (·.decorator))
    (hpositions : steps.map (·.position) = steps'.map (·.position)) : steps = steps' := by
  induction steps generalizing steps' with
  | nil => simpa using hdecorators
  | cons s steps ih =>
    cases steps' with
    | nil => cases hdecorators
    | cons s' steps' =>
      obtain ⟨hdecorator, hdecorators⟩ := List.cons.inj hdecorators
      obtain ⟨hposition, hpositions⟩ := List.cons.inj hpositions
      rw [ih hdecorators hpositions]
      obtain ⟨position, decorator⟩ := s
      obtain rfl : position = s'.position := hposition
      obtain rfl : decorator = s'.decorator := hdecorator
      rfl

/-- A chain returns the result that its calls account for. -/
theorem Account.returns_runChain (hf : Follows carry contract) {calls : List (Call σ)}
    {r : ChainResult} (h : Account host contract site arguments decorators initial w calls r w') :
    (runChain host site arguments carry decorators initial).Returns w r w' := by
  have hsteps : calls.map (·.step) = applicationOrder decorators := by
    refine eq_of_map_eq ?_ ?_
    · rw [map_decorator_applicationOrder, ← h.callees, List.map_map]
      rfl
    · rw [map_position_applicationOrder, ← h.positions, List.map_map]
      rfl
  refine (returns_foldlM_applyStep hf).2 ⟨calls, hsteps, h.made, h.handed, ?_⟩
  -- the calls leave only one result to account for
  have haccount : Account host contract site arguments decorators initial w calls _ w' :=
    account_of_made hsteps h.made h.handed
  have hreplaced := Bool.eq_iff_iff.2 (h.replaced.trans haccount.replaced.symm)
  obtain ⟨value, replaced, invocations⟩ := r
  exact ChainResult.mk.injEq .. ▸ ⟨h.value.trans haccount.value.symm, hreplaced,
    h.invocations.trans haccount.invocations.symm⟩

theorem chainNotes_facts (site : ChainSite) (h : Heap) (label : Text) :
    Diagnostic.chainNotes (site.facts label h) = site.facts label h := by
  rfl

theorem context_contract {returned : View} {expected label : Text} {h : Heap} :
    (Diagnostic.contract returned expected (site.facts label h)).context =
      Diagnostic.addNotes [] (site.facts label h) := by
  unfold Diagnostic.contract
  rw [chainNotes_facts]
  rfl

theorem descriptorComplaint_eq_none {notes : List (Text × Note)} {v : Value} :
    descriptorComplaint.diagnostic? w.heap v notes = none ↔
      ∃ u w', ReadAsDescriptor w v u w' := by
  unfold descriptorComplaint
  cases v with
  | descriptor r => exact ⟨fun _ => ⟨_, _, .descriptor w r⟩, fun _ => rfl⟩
  | record fields copy =>
    dsimp only
    cases hd : Descriptor.ofMapping w.heap.isCallable fields with
    | ok d => exact ⟨fun _ => ⟨_, _, .mapping w fields copy d hd⟩, fun _ => rfl⟩
    | error e =>
      constructor
      · rintro ⟨⟩
      · rintro ⟨_, _, hread⟩
        cases hread with
        | mapping _ _ d hd' => rw [hd] at hd'; cases hd'
  | _ =>
    constructor
    · rintro ⟨⟩
    · rintro ⟨_, _, ⟨⟩⟩

theorem classComplaint_eq_none {notes : List (Text × Note)} {v : Value} :
    classComplaint.diagnostic? w.heap v notes = none ↔ ∃ u w', ReadAsClass w v u w' := by
  unfold classComplaint
  dsimp only
  constructor
  · intro h
    split at h
    · rename_i hc
      exact ⟨v, w, .callable w v hc⟩
    · cases h
  · rintro ⟨u, w', hread⟩
    cases hread with
    | callable hc => exact if_pos hc

theorem told_descriptorComplaint {h h' : Heap} {v : Value} {label : Text} {d : Diagnostic}
    (hd : descriptorComplaint.diagnostic? h v (site.facts label h') = some d) :
    d.kind = .contract ∧ d.context = Diagnostic.addNotes [] (site.facts label h') := by
  unfold descriptorComplaint at hd
  dsimp only at hd
  split at hd
  · cases hd
  · split at hd
    · cases hd
    · obtain rfl := Option.some.inj hd
      dsimp only
      exact ⟨rfl, context_contract⟩
  · obtain rfl := Option.some.inj hd
    exact ⟨rfl, context_contract⟩

theorem told_classComplaint {h h' : Heap} {v : Value} {label : Text} {d : Diagnostic}
    (hd : classComplaint.diagnostic? h v (site.facts label h') = some d) :
    d.kind = .contract ∧ d.context = Diagnostic.addNotes [] (site.facts label h') := by
  unfold classComplaint at hd
  dsimp only at hd
  split at hd
  · cases hd
  · obtain rfl := Option.some.inj hd
    exact ⟨rfl, context_contract⟩

end Kinds

theorem runClassChain_failsFast (host : Host σ) :
    FailsFast host ReadAsClass classComplaint (fun _ current => [current]) (fun _ _ => none)
      (runClassChain host) where
  fails_iff := by
    intro site decorators initial w f w'
    simp only [reduceCtorEq, and_false, exists_false, or_false]
    exact fails_runChain follows_carryClass complains_carryClass
  typed := fun _ _ _ _ _ _ => Breaks.isDiagnostic_iff complains_carryClass
  rejects := fun _ _ _ => classComplaint_eq_none
  told := fun _ _ _ _ _ _ => told_classComplaint

theorem runMemberChain_failsFast (host : Host σ) (target : Value) :
    FailsFast host ReadAsDescriptor descriptorComplaint
      (fun site current => [target, site.key, current])
      (fun site w => w.heap.quotingFault? site.key)
      (fun site => runMemberChain host site target) where
  fails_iff := by
    intro site decorators initial w f w'
    rw [← fails_runChain follows_carryForward complains_carryForward]
    unfold runMemberChain
    simp only [Act.fails_bind, Act.fails_checkQuotable, Act.not_fails_pure, and_false, exists_false,
      or_false]
    constructor
    · rintro (hfails | ⟨r, w₁, hr, hfault, rfl⟩)
      · exact .inl hfails
      · obtain ⟨calls, haccount⟩ := exists_account_of_returns_runChain follows_carryForward hr
        exact .inr ⟨calls, r, haccount, hfault⟩
    · rintro (hfails | ⟨calls, r, haccount, hfault⟩)
      · exact .inl hfails
      · exact .inr ⟨r, w', haccount.returns_runChain follows_carryForward, hfault, rfl⟩
  typed := fun _ _ _ _ _ _ => Breaks.isDiagnostic_iff complains_carryForward
  rejects := fun _ _ _ => descriptorComplaint_eq_none
  told := fun _ _ _ _ _ _ => told_descriptorComplaint

/-! ## Decorations whose chain fails -/

/-- The call left the object at a place as it was. -/
def Call.Spares (c : Call σ) (p : Ref) : Prop := c.between.heap.object? p = c.before.heap.object? p

/-- From `w` to `w'`, in a run that made the calls and then got from `w₁` to `w'`, only calls have
written: an object that they all spared is as it was. -/
def OnlyCallsWrite (calls : List (Call σ)) (w w₁ w' : World σ) : Prop :=
  ∀ p, (∀ c ∈ calls, c.Spares p) → w'.heap.object? p = w₁.heap.object? p →
    w'.heap.object? p = w.heap.object? p

section Decorations

variable {host : Host σ} {names : Names} {d : Decoration} {target key initial : Value}
  {keys : List (Nat × Value)} {decorators : List Value} {calls : List (Call σ)}
  {w w' w₁ w₂ w₃ : World σ} {f : Fault}

theorem objects_of_readAsDescriptor {v u : Value} (h : ReadAsDescriptor w v u w') :
    w'.heap.objects = w.heap.objects := by
  cases h <;> rfl

/-- A run of calls writes to no object on its own: what it makes of the returned values are new
descriptors. -/
theorem Made.object? {p : Ref} (h : Made host ReadAsDescriptor w calls w')
    (hspares : ∀ c ∈ calls, c.Spares p) : w'.heap.object? p = w.heap.object? p := by
  induction calls generalizing w with
  | nil => rw [h]
  | cons c calls ih =>
    obtain ⟨rfl, hc, hrest⟩ := h
    have hafter : c.after.heap.objects = c.between.heap.objects := by
      have hsettled := hc.settled
      cases hr : c.replacement with
      | none =>
        rw [hr] at hsettled
        rw [hsettled.2]
      | some v =>
        rw [hr] at hsettled
        exact objects_of_readAsDescriptor hsettled.2
    calc w'.heap.object? p = c.after.heap.object? p :=
          ih hrest fun x hx => hspares x (List.mem_cons_of_mem c hx)
      _ = c.between.heap.object? p := by rw [Heap.object?, Heap.object?, hafter]
      _ = c.before.heap.object? p := hspares c List.mem_cons_self

theorem objects_of_ownDescriptor {v : Value}
    (h : (Act.ownDescriptor target key : Act σ Value).Returns w v w') :
    w'.heap.objects = w.heap.objects := by
  obtain ⟨r, o, name, -, -, -, hcopy⟩ := Act.returns_ownDescriptor.1 h
  cases hown : o.own? name with
  | none =>
    rw [hown] at hcopy
    rw [(Act.returns_pure.1 hcopy).2]
  | some e =>
    rw [hown] at hcopy
    rw [(Act.returns_newDescriptor.1 hcopy).2]
    rfl

theorem Made.onlyCallsWrite (hcopied : (Act.ownDescriptor target key).Returns w initial w₁)
    (h : Made host ReadAsDescriptor w₁ calls w₂) : OnlyCallsWrite calls w w₂ w' := by
  intro p hspares hlast
  calc w'.heap.object? p = w₂.heap.object? p := hlast
    _ = w₁.heap.object? p := h.object? hspares
    _ = w.heap.object? p := by rw [Heap.object?, Heap.object?, objects_of_ownDescriptor hcopied]

/-- A decoration whose chain fails ends there. -/
theorem fails_runMember (hkey : (d.members.head?.bind fun i => keys.lookup i) = some key)
    (hresolved : (Realization.resolveAll host names d).Returns w decorators w₁)
    (hcopied : (Act.ownDescriptor target key).Returns w₁ initial w₂)
    (hchain : (runMemberChain host (Realization.chainSite d key) target decorators initial).Fails
      w₂ f w₃) :
    (Realization.runMember host names d target keys).Fails w f w₃ := by
  unfold Realization.runMember
  rw [hkey, Act.Fails]
  dsimp only
  rw [pure_bind, hresolved.runIn_bind, hcopied.runIn_bind]
  exact hchain.bind _

end Decorations

/-- How chains fail. The first decorator in the order of application that cannot be called, fails or
returns what its contract does not accept ends the chain, and so does a member's key that cannot be
quoted when all calls are done; a decoration whose chain fails defines nothing, so an object changes
only if a decorator changed it. -/
theorem chains_fail_fast (host : Host σ) :
    (∀ target, FailsFast host ReadAsDescriptor descriptorComplaint
      (fun site current => [target, site.key, current])
      (fun site w => w.heap.quotingFault? site.key)
      (fun site => runMemberChain host site target)) ∧
    FailsFast host ReadAsClass classComplaint (fun _ current => [current]) (fun _ _ => none)
      (runClassChain host) ∧
    ∀ names d target keys key decorators initial w w₁ w₂ f w₃,
      (d.members.head?.bind fun i => keys.lookup i) = some key →
      (Realization.resolveAll host names d).Returns w decorators w₁ →
      (Act.ownDescriptor target key).Returns w₁ initial w₂ →
      (runMemberChain host (Realization.chainSite d key) target decorators initial).Fails w₂ f w₃ →
      (Realization.runMember host names d target keys).Fails w f w₃ ∧
      ((∃ calls s w',
          Stopped host ReadAsDescriptor descriptorComplaint (Realization.chainSite d key)
            (fun current => [target, key, current]) decorators initial w₂ calls s w' f w₃ ∧
          OnlyCallsWrite calls w₁ w' w₃) ∨
        ∃ calls r, Account host ReadAsDescriptor (Realization.chainSite d key)
          (fun current => [target, key, current]) decorators initial w₂ calls r w₃ ∧
          w₃.heap.quotingFault? key = some f ∧ OnlyCallsWrite calls w₁ w₃ w₃) := by
  refine ⟨runMemberChain_failsFast host, runClassChain_failsFast host, ?_⟩
  intro names d target keys key decorators initial w w₁ w₂ f w₃ hkey hresolved hcopied hchain
  refine ⟨fails_runMember hkey hresolved hcopied hchain, ?_⟩
  rcases ((runMemberChain_failsFast host target).fails_iff _ _ _ _ _ _).1 hchain with
    ⟨calls, s, w', hstopped⟩ | ⟨calls, r, haccount, hfault⟩
  · exact .inl ⟨calls, s, w', hstopped, hstopped.made.onlyCallsWrite hcopied⟩
  · exact .inr ⟨calls, r, haccount, hfault, haccount.made.onlyCallsWrite hcopied⟩

/-! A property under a decorator that fails, before one that keeps what it is handed. -/

namespace Chain.Sample

/-- A host whose functions keep what they are handed, except for one that fails. -/
def host : Host Unit where
  call f _ := if f.name = "fail" then throw (.raised "ValueError" "boom") else return .absent

def names : Names := [("fail", .function ⟨0, "fail"⟩), ("keep", .function ⟨1, "keep"⟩)]

def world : World Unit := { heap := ({} : Heap).newObject {} |>.2, host := () }

def decoration : Decoration where
  target := ⟨.objectLiteral, "_obj"⟩
  decorators :=
    [{ text := "fail", callee := some "fail" }, { text := "keep", callee := some "keep" }]
  subject := .property (.static (some "m")) (.method (some 0)) [0]

theorem resolved : (Realization.resolveAll host names decoration).Returns world
    [.function ⟨0, "fail"⟩, .function ⟨1, "keep"⟩] world := rfl

theorem copied :
    (Act.ownDescriptor (.object 0) (.text "m" .shared)).Returns world .absent world := rfl

/-- What the decorator that fails is reported as. -/
def fault : Fault := .refused (.failedCall "fail" (.raised "ValueError" "boom")
  ((Realization.chainSite decoration (.text "m" .shared)).facts "fail" world.heap))

theorem failed :
    (runMemberChain host (Realization.chainSite decoration (.text "m" .shared)) (.object 0)
      [.function ⟨0, "fail"⟩, .function ⟨1, "keep"⟩] .absent).Fails world fault world := rfl

end Chain.Sample

open Chain.Sample in
/-- The object stays as it is, and the failure is a diagnostic. -/
theorem chains_fail_fast_of_sample : fault.isDiagnostic = true ∧
    (Realization.runMember host names decoration (.object 0) [(0, .text "m" .shared)]).Fails world
      fault world :=
  ⟨rfl, ((chains_fail_fast host).2.2 names decoration (.object 0) [(0, .text "m" .shared)]
    (.text "m" .shared) _ _ _ _ _ _ _ rfl resolved copied failed).1⟩

end Undecorate
