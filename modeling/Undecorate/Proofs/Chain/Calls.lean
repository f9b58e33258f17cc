import Undecorate.Chain.Run
import Undecorate.Proofs.Act

/-! # The calls of a chain

A chain is a fold of one application after the other. Here its run is told as the list of the calls
that it makes, each with the worlds around it, and a result is compared with that list:

* `returns_applyStep`: one application is one call whose outcome is taken over;
* `returns_foldlM_applyStep`: a run is a list of such calls, each made in the world that the one
  before it left;
* `exists_calls_of_noCallFails`: a run in which no call fails gets to its end.

Together they give `exists_account_of_returns_runChain` and `exists_returns_runChain`: a chain
returns a result iff it has made its calls, and the result is what the calls add up to.
-/

namespace Undecorate

variable {σ : Type}

/-- One application in a run of a chain: who was called with what and in which world, what came
back, and what took the place of the value at hand, if anything did. -/
structure Call (σ : Type) where
  step : Step
  arguments : List Value
  before : World σ
  returned : Value
  between : World σ
  replacement : Option Value
  after : World σ

/-- How a chain takes over what a decorator returned: in a world it makes of the returned value
another one, and leaves a world behind. -/
abbrev Contract (σ : Type) := World σ → Value → Value → World σ → Prop

/-- The contract of a member's decorators: a descriptor is taken as it is, also if it is the one
that was handed over, and a mapping becomes a new descriptor. -/
inductive ReadAsDescriptor : World σ → Value → Value → World σ → Prop
  | descriptor (w : World σ) (r : Ref) : ReadAsDescriptor w (.descriptor r) (.descriptor r) w
  | mapping (w : World σ) (fields : List (String × Value)) (copy : Copy) (d : Descriptor Value)
      (h : Descriptor.ofMapping w.heap.isCallable fields = .ok d) :
      ReadAsDescriptor w (.record fields copy) (.descriptor w.heap.descriptors.size)
        { w with heap := (w.heap.newDescriptor d).2 }

/-- The contract of a class's decorators: what can be called is taken as it is. -/
inductive ReadAsClass : World σ → Value → Value → World σ → Prop
  | callable (w : World σ) (v : Value) (h : w.heap.isCallable v = true) : ReadAsClass w v v w

/-- The call came back, and what it returned was taken over: nothing keeps the value at hand, and
everything else replaces it as the contract says. -/
structure Call.Made (host : Host σ) (contract : Contract σ) (c : Call σ) : Prop where
  called : (Act.call host c.step.decorator c.arguments).Returns c.before c.returned c.between
  settled : match c.replacement with
    | none => c.returned = .absent ∧ c.after = c.between
    | some v => c.returned ≠ .absent ∧ contract c.between c.returned v c.after

/-- The calls were made one after the other, the first in `w` and each other one in the world that
the one before it left. -/
def Made (host : Host σ) (contract : Contract σ) : World σ → List (Call σ) → World σ → Prop
  | w, [], w' => w' = w
  | w, c :: cs, w' => c.before = w ∧ c.Made host contract ∧ Made host contract c.after cs w'

/-- The value at hand after some calls: the latest replacement, or else the initial value. -/
def latest (initial : Value) (calls : List (Call σ)) : Value :=
  (calls.filterMap (·.replacement)).getLastD initial

/-- Every call was handed what `arguments` makes of the value that was at hand. -/
def Handed (arguments : Value → List Value) (initial : Value) (calls : List (Call σ)) : Prop :=
  ∀ earlier c later, calls = earlier ++ c :: later →
    c.arguments = arguments (latest initial earlier)

/-- The record of a call. -/
def Call.invocation (site : ChainSite) (c : Call σ) : Invocation :=
  ⟨c.step.position, site.label c.before.heap c.step, c.replacement.isSome⟩

/-- What the result of a chain owes to the calls that were made: every decorator was called once and
the last one first, each with the latest replacement; the result is what was at hand at the end. -/
structure Account (host : Host σ) (contract : Contract σ) (site : ChainSite)
    (arguments : Value → List Value) (decorators : List Value) (initial : Value) (w : World σ)
    (calls : List (Call σ)) (r : ChainResult) (w' : World σ) : Prop where
  made : Made host contract w calls w'
  callees : calls.map (·.step.decorator) = decorators.reverse
  positions : calls.map (·.step.position) = (List.range decorators.length).reverse
  handed : Handed arguments initial calls
  value : r.value = latest initial calls
  replaced : r.replaced = true ↔ ∃ c ∈ calls, c.returned ≠ .absent
  invocations : r.invocations = calls.map (·.invocation site)

/-- Wherever a run gets to, the next call comes back and is taken over. -/
def NoCallFails (host : Host σ) (contract : Contract σ) (arguments : Value → List Value)
    (steps : List Step) (initial : Value) (w : World σ) : Prop :=
  ∀ earlier s later w₁, steps = earlier.map (·.step) ++ s :: later →
    Made host contract w earlier w₁ → Handed arguments initial earlier →
    ∃ c : Call σ, c.step = s ∧ c.before = w₁ ∧ c.arguments = arguments (latest initial earlier) ∧
      c.Made host contract

/-! ## Lists of calls -/

section Lists

variable {host : Host σ} {contract : Contract σ} {arguments : Value → List Value}
  {initial : Value} {w w' : World σ} {c : Call σ} {calls : List (Call σ)}

@[simp] theorem latest_nil : latest initial ([] : List (Call σ)) = initial := rfl

theorem latest_cons : latest initial (c :: calls) = latest (c.replacement.getD initial) calls := by
  unfold latest
  cases h : c.replacement with
  | none => rw [List.filterMap_cons_none h]; rfl
  | some v => rw [List.filterMap_cons_some h, List.getLastD_cons]; rfl

theorem Handed.nil : Handed arguments initial ([] : List (Call σ)) := by
  intro earlier c later h
  simp at h

theorem handed_cons : Handed arguments initial (c :: calls) ↔
    c.arguments = arguments initial ∧ Handed arguments (c.replacement.getD initial) calls := by
  constructor
  · intro h
    refine ⟨h [] c calls rfl, ?_⟩
    intro earlier d later hsplit
    rw [h (c :: earlier) d later (by rw [hsplit]; rfl), latest_cons]
  · rintro ⟨hc, hcs⟩ earlier d later hsplit
    cases earlier with
    | nil =>
      rcases List.cons.inj hsplit with ⟨rfl, rfl⟩
      exact hc
    | cons e earlier =>
      rcases List.cons.inj hsplit with ⟨rfl, htail⟩
      rw [latest_cons]
      exact hcs earlier d later htail

theorem Handed.concat (h : Handed arguments initial calls)
    (hc : c.arguments = arguments (latest initial calls)) :
    Handed arguments initial (calls ++ [c]) := by
  induction calls generalizing initial with
  | nil => exact handed_cons.2 ⟨hc, Handed.nil⟩
  | cons d ds ih =>
    rw [handed_cons] at h
    rw [latest_cons] at hc
    exact handed_cons.2 ⟨h.1, ih h.2 hc⟩

theorem made_append {cs ds : List (Call σ)} :
    Made host contract w (cs ++ ds) w' ↔
      ∃ w₁, Made host contract w cs w₁ ∧ Made host contract w₁ ds w' := by
  induction cs generalizing w with
  | nil => simp [Made]
  | cons c cs ih =>
    simp only [List.cons_append, Made, ih]
    constructor
    · rintro ⟨hb, hc, w₁, hcs, hds⟩
      exact ⟨w₁, ⟨hb, hc, hcs⟩, hds⟩
    · rintro ⟨w₁, ⟨hb, hc, hcs⟩, hds⟩
      exact ⟨hb, hc, w₁, hcs, hds⟩

/-- A call put something in the place of the value at hand iff it returned something. -/
theorem Call.Made.isSome_replacement_iff (h : c.Made host contract) :
    c.replacement.isSome = true ↔ c.returned ≠ .absent := by
  have hs := h.settled
  cases hr : c.replacement with
  | none =>
    rw [hr] at hs
    simp [hs.1]
  | some v =>
    rw [hr] at hs
    simp [hs.1]

theorem Made.mem (h : Made host contract w calls w') (hc : c ∈ calls) : c.Made host contract := by
  induction calls generalizing w with
  | nil => simp at hc
  | cons d ds ih =>
    rcases List.mem_cons.1 hc with rfl | hc
    · exact h.2.1
    · exact ih h.2.2 hc

end Lists

/-! ## What is taken over -/

section Contracts

variable {facts : Facts} {w w' : World σ} {u v current : Value}

/-- A chain that carries its value on by `carry` follows the contract. -/
structure Follows (carry : Value → Outcome → Facts → Act σ Value)
    (contract : Contract σ) : Prop where
  keep : ∀ {current facts w u w'},
    (carry current .keep facts).Returns w u w' ↔ u = current ∧ w' = w
  replace : ∀ {current v facts w u w'},
    (carry current (.replace v) facts).Returns w u w' ↔ contract w v u w'

theorem returns_coerceDescriptor :
    (coerceDescriptor v facts : Act σ Value).Returns w u w' ↔ ReadAsDescriptor w v u w' := by
  have hheap : (Act.heap : Act σ Heap).Returns w w.heap w := rfl
  unfold coerceDescriptor
  rw [Act.Returns, hheap.runIn_bind]
  -- only descriptors and records are read; every other value ends in a fault
  cases v with
  | descriptor r =>
    constructor
    · intro h
      rcases Act.returns_pure.1 h with ⟨rfl, rfl⟩
      exact .descriptor w' r
    · rintro ⟨⟩
      rfl
  | record fields copy =>
    dsimp only
    cases hd : Descriptor.ofMapping w.heap.isCallable fields with
    | ok d =>
      constructor
      · intro h
        rcases Act.returns_newDescriptor.1 h with ⟨rfl, rfl⟩
        exact .mapping w fields copy d hd
      · intro h
        cases h with
        | mapping _ _ d' hd' =>
          rw [hd, Except.ok.injEq] at hd'
          subst hd'
          rfl
    | error f =>
      constructor
      · intro h
        change Act.Returns _ w u w' at h
        simp at h
      · intro h
        cases h with
        | mapping _ _ d' hd' => simp [hd] at hd'
  | _ =>
    constructor
    · intro h
      change Act.Returns _ w u w' at h
      simp at h
    · rintro ⟨⟩

/-- A member's chain follows the contract of descriptors. -/
theorem follows_carryForward : Follows carryForward (@ReadAsDescriptor σ) where
  keep := Act.returns_pure
  replace := returns_coerceDescriptor

/-- A class's chain follows the contract of classes. -/
theorem follows_carryClass : Follows carryClass (@ReadAsClass σ) where
  keep := Act.returns_pure
  replace := by
    intro current v facts w u w'
    have hheap : (Act.heap : Act σ Heap).Returns w w.heap w := rfl
    unfold carryClass
    rw [Act.Returns, hheap.runIn_bind]
    by_cases hc : w.heap.isCallable v = true
    · rw [if_pos hc]
      constructor
      · intro h
        rcases Act.returns_pure.1 h with ⟨rfl, rfl⟩
        exact .callable w' u hc
      · rintro ⟨⟩
        rfl
    · rw [if_neg hc]
      constructor
      · intro h
        change Act.Returns _ w u w' at h
        simp at h
      · rintro ⟨⟩
        contradiction

end Contracts

/-! ## One application -/

section Steps

variable {host : Host σ} {contract : Contract σ} {site : ChainSite}
  {arguments : Value → List Value}
  {carry : Value → Outcome → Facts → Act σ Value}
  {w w' : World σ} {r r' : ChainResult} {s : Step}

/-- Only what can be called returns from a call. -/
theorem isCallable_of_returns_call {callee v : Value} {args : List Value}
    (h : (Act.call host callee args).Returns w v w') : w.heap.isCallable callee = true := by
  have hheap : (Act.heap : Act σ Heap).Returns w w.heap w := rfl
  cases callee with
  | function f => rfl
  | object o =>
    unfold Act.call at h
    rw [Act.Returns, hheap.runIn_bind] at h
    cases hc : w.heap.callable? o with
    | none =>
      rw [hc] at h
      exact absurd h (Act.not_returns_throw _)
    | some c => simp [Heap.isCallable, hc]
  | _ =>
    unfold Act.call at h
    simp at h

theorem returns_invoke {decorator : Value} {args : List Value} {label : Text}
    {facts : Facts} {o : Outcome} :
    (invoke host decorator args label facts).Returns w o w' ↔
      ∃ v, (Act.call host decorator args).Returns w v w' ∧ o = .of v := by
  have hheap : (Act.heap : Act σ Heap).Returns w w.heap w := rfl
  unfold invoke
  rw [Act.Returns, hheap.runIn_bind]
  by_cases hc : w.heap.isCallable decorator = true
  · simp only [hc, ↓reduceIte]
    change Act.Returns _ w o w' ↔ _
    -- the handler turns a failure into another one, so it is not seen in a run that returns
    rw [Act.returns_bind]
    constructor
    · rintro ⟨v, w₁, hv, ho⟩
      rw [Act.returns_tryCatch_throw fun h e => e.passedOn label (facts h)] at hv
      rcases Act.returns_pure.1 ho with ⟨rfl, rfl⟩
      exact ⟨v, hv, rfl⟩
    · rintro ⟨v, hv, rfl⟩
      refine ⟨v, w', ?_, rfl⟩
      rw [Act.returns_tryCatch_throw fun h e => e.passedOn label (facts h)]
      exact hv
  · constructor
    · intro h
      simp only [hc] at h
      change Act.Returns _ w o w' at h
      simp at h
    · rintro ⟨v, hv, -⟩
      exact absurd (isCallable_of_returns_call hv) hc

/-- What can be called can be quoted: it goes by a name. -/
theorem quotable_of_isCallable {h : Heap} {v : Value} (hc : h.isCallable v = true) :
    h.Quotable v := by
  unfold Heap.Quotable Heap.view Heap.viewTo
  cases v with
  | function f => simp [Value.viewBy, View.obstacle?]
  | object o =>
    rcases Option.isSome_iff_exists.1 hc with ⟨c, hc⟩
    rcases Option.bind_eq_some_iff.1 hc with ⟨obj, hobj, hcall⟩
    simp [Value.viewBy, hobj, hcall, View.obstacle?]
  | _ => simp [Heap.isCallable] at hc

/-- The result after one more call. -/
def ChainResult.add (site : ChainSite) (r : ChainResult) (c : Call σ) : ChainResult where
  value := c.replacement.getD r.value
  replaced := r.replaced || c.replacement.isSome
  invocations := r.invocations ++ [c.invocation site]

/-- An application calls its decorator and carries the outcome over; a missing label does not stop
it, since what can be called can be quoted. -/
theorem returns_applyStep_iff_carry :
    (applyStep host site arguments carry r s).Returns w r' w' ↔
      ∃ v w₁ u, (Act.call host s.decorator (arguments r.value)).Returns w v w₁ ∧
        (carry r.value (.of v) (site.facts (site.label w.heap s))).Returns w₁ u w' ∧
        r' = r.record s (site.label w.heap s) (.of v) u := by
  unfold applyStep
  constructor
  · intro h
    -- a decorator without a label of its own is quoted first
    split at h
    · simp only [Act.returns_bind, Act.returns_checkQuotable, Act.returns_heap, returns_invoke,
        Act.returns_pure] at h
      obtain ⟨-, _, ⟨-, rfl⟩, _, _, ⟨rfl, rfl⟩, _, w₁, ⟨v, hv, rfl⟩, u, _, hu, rfl, rfl⟩ := h
      exact ⟨v, w₁, u, hv, hu, rfl⟩
    · simp only [Act.returns_bind, Act.returns_heap, returns_invoke, Act.returns_pure] at h
      rcases h with ⟨_, _, ⟨rfl, rfl⟩, _, w₁, ⟨v, hv, rfl⟩, u, _, hu, rfl, rfl⟩
      exact ⟨v, w₁, u, hv, hu, rfl⟩
  · rintro ⟨v, w₁, u, hv, hu, rfl⟩
    have hq : w.heap.Quotable s.decorator := quotable_of_isCallable (isCallable_of_returns_call hv)
    split
    · simp only [Act.returns_bind, Act.returns_checkQuotable, Act.returns_heap, returns_invoke,
        Act.returns_pure]
      exact ⟨(), w, ⟨hq, rfl⟩, _, w, ⟨rfl, rfl⟩, _, w₁, ⟨v, hv, rfl⟩, u, w', hu, rfl, rfl⟩
    · simp only [Act.returns_bind, Act.returns_heap, returns_invoke, Act.returns_pure]
      exact ⟨_, w, ⟨rfl, rfl⟩, _, w₁, ⟨v, hv, rfl⟩, u, w', hu, rfl, rfl⟩

/-- The result takes the outcome of a call over as the call itself does. -/
theorem ChainResult.record_eq_add {label : Text} {c : Call σ}
    (hc : c.Made host contract) (hl : label = site.label c.before.heap c.step) :
    r.record c.step label (.of c.returned) (c.replacement.getD r.value) = r.add site c := by
  have hflag : (Outcome.of c.returned).isReplacement = c.replacement.isSome := by
    rw [Bool.eq_iff_iff, hc.isSome_replacement_iff]
    cases c.returned <;> simp [Outcome.of, Outcome.isReplacement]
  simp [ChainResult.record, ChainResult.add, Call.invocation, hflag, hl]

/-- What is carried over from a call. -/
theorem Follows.returns_of (hf : Follows carry contract) {facts : Facts}
    {current v u : Value} :
    (carry current (.of v) facts).Returns w u w' ↔
      ∃ replacement : Option Value, u = replacement.getD current ∧
        match replacement with
        | none => v = .absent ∧ w' = w
        | some x => v ≠ .absent ∧ contract w v x w' := by
  -- nothing returned keeps the value at hand, anything else is held to the contract
  by_cases hv : v = .absent
  · subst hv
    rw [Outcome.of, hf.keep]
    constructor
    · rintro ⟨rfl, rfl⟩
      exact ⟨none, rfl, rfl, rfl⟩
    · rintro ⟨replacement, hu, hr⟩
      cases replacement with
      | none => exact ⟨hu, hr.2⟩
      | some x => exact absurd rfl hr.1
  · have ho : Outcome.of v = .replace v := by
      cases v <;> first | rfl | exact absurd rfl hv
    rw [ho, hf.replace]
    constructor
    · intro h
      exact ⟨some u, rfl, hv, h⟩
    · rintro ⟨replacement, hu, hr⟩
      cases replacement with
      | none => exact absurd hr.1 hv
      | some x =>
        rw [hu]
        exact hr.2

/-- One application is one call, which is handed what is made of the value at hand. -/
theorem returns_applyStep (hf : Follows carry contract) :
    (applyStep host site arguments carry r s).Returns w r' w' ↔
      ∃ c : Call σ, c.step = s ∧ c.before = w ∧ c.arguments = arguments r.value ∧
        c.Made host contract ∧ c.after = w' ∧ r' = r.add site c := by
  rw [returns_applyStep_iff_carry]
  constructor
  · rintro ⟨v, w₁, u, hv, hu, rfl⟩
    rcases hf.returns_of.1 hu with ⟨replacement, rfl, hr⟩
    let c : Call σ := ⟨s, arguments r.value, w, v, w₁, replacement, w'⟩
    have hc : c.Made host contract := ⟨hv, hr⟩
    exact ⟨c, rfl, rfl, rfl, hc, rfl, ChainResult.record_eq_add hc rfl⟩
  · rintro ⟨c, rfl, rfl, hargs, hc, rfl, rfl⟩
    have hv := hc.called
    rw [hargs] at hv
    exact ⟨c.returned, c.between, c.replacement.getD r.value, hv,
      hf.returns_of.2 ⟨c.replacement, rfl, hc.settled⟩, (ChainResult.record_eq_add hc rfl).symm⟩

end Steps

/-! ## Whole runs -/

section Runs

variable {host : Host σ} {contract : Contract σ} {site : ChainSite}
  {arguments : Value → List Value}
  {carry : Value → Outcome → Facts → Act σ Value}
  {w w' : World σ} {r r' : ChainResult} {steps : List Step} {calls : List (Call σ)}

/-- A run over some steps is a list of calls, one for each step. -/
theorem returns_foldlM_applyStep (hf : Follows carry contract) :
    (steps.foldlM (applyStep host site arguments carry) r).Returns w r' w' ↔
      ∃ calls : List (Call σ), calls.map (·.step) = steps ∧ Made host contract w calls w' ∧
        Handed arguments r.value calls ∧ r' = calls.foldl (ChainResult.add site) r := by
  -- the result is added to at the front and calls are consed, so the result at hand is generalized
  induction steps generalizing r w with
  | nil =>
    simp only [List.foldlM_nil, Act.returns_pure, List.map_eq_nil_iff]
    constructor
    · rintro ⟨rfl, rfl⟩
      exact ⟨[], rfl, rfl, Handed.nil, rfl⟩
    · rintro ⟨_, rfl, hw, -, hr⟩
      exact ⟨hr, hw⟩
  | cons s steps ih =>
    simp only [List.foldlM_cons, Act.returns_bind, returns_applyStep hf, ih]
    constructor
    · rintro ⟨_, _, ⟨c, rfl, rfl, hargs, hc, rfl, rfl⟩, cs, rfl, hmade, hhanded, rfl⟩
      exact ⟨c :: cs, rfl, ⟨rfl, hc, hmade⟩, handed_cons.2 ⟨hargs, hhanded⟩, rfl⟩
    · rintro ⟨calls, hsteps, hmade, hhanded, rfl⟩
      cases calls with
      | nil => simp at hsteps
      | cons c cs =>
        rcases List.cons.inj hsteps with ⟨rfl, rfl⟩
        rcases hmade with ⟨hb, hc, hcs⟩
        rcases handed_cons.1 hhanded with ⟨hargs, hrest⟩
        exact ⟨_, _, ⟨c, rfl, hb, hargs, hc, rfl, rfl⟩, cs, rfl, hcs, hrest, rfl⟩

theorem foldl_add_value (r : ChainResult) (calls : List (Call σ)) :
    (calls.foldl (ChainResult.add site) r).value = latest r.value calls := by
  induction calls generalizing r with
  | nil => rfl
  | cons c cs ih => rw [List.foldl_cons, ih, latest_cons]; rfl

theorem foldl_add_replaced (r : ChainResult) (calls : List (Call σ)) :
    (calls.foldl (ChainResult.add site) r).replaced =
      (r.replaced || calls.any (·.replacement.isSome)) := by
  induction calls generalizing r with
  | nil => simp
  | cons c cs ih => rw [List.foldl_cons, ih]; simp [ChainResult.add, Bool.or_assoc]

theorem foldl_add_invocations (r : ChainResult) (calls : List (Call σ)) :
    (calls.foldl (ChainResult.add site) r).invocations =
      r.invocations ++ calls.map (·.invocation site) := by
  induction calls generalizing r with
  | nil => simp
  | cons c cs ih => rw [List.foldl_cons, ih]; simp [ChainResult.add]

theorem map_decorator_applicationOrder (decorators : List Value) :
    (applicationOrder decorators).map (·.decorator) = decorators.reverse := by
  unfold applicationOrder evaluationOrder
  rw [List.map_reverse, List.map_map]
  congr 1
  exact List.zipIdx_map_fst 0 decorators

theorem map_position_applicationOrder (decorators : List Value) :
    (applicationOrder decorators).map (·.position) = (List.range decorators.length).reverse := by
  unfold applicationOrder evaluationOrder
  rw [List.map_reverse, List.map_map, List.range_eq_range']
  congr 1
  exact List.zipIdx_map_snd 0 decorators

/-- Calls that were made for the steps of a chain account for the result that they add up to. -/
theorem account_of_made {decorators : List Value} {initial : Value}
    (hsteps : calls.map (·.step) = applicationOrder decorators)
    (hmade : Made host contract w calls w') (hhanded : Handed arguments initial calls) :
    Account host contract site arguments decorators initial w calls
      (calls.foldl (ChainResult.add site) { value := initial }) w' where
  made := hmade
  callees := by
    rw [← map_decorator_applicationOrder, ← hsteps, List.map_map]
    rfl
  positions := by
    rw [← map_position_applicationOrder, ← hsteps, List.map_map]
    rfl
  handed := hhanded
  value := foldl_add_value _ calls
  replaced := by
    -- a call has a replacement iff it returned something
    rw [foldl_add_replaced, Bool.false_or, List.any_eq_true]
    constructor
    · rintro ⟨c, hc, hs⟩
      exact ⟨c, hc, (hmade.mem hc).isSome_replacement_iff.1 hs⟩
    · rintro ⟨c, hc, hs⟩
      exact ⟨c, hc, (hmade.mem hc).isSome_replacement_iff.2 hs⟩
  invocations := foldl_add_invocations _ calls

/-- A chain that returns has made its calls. -/
theorem exists_account_of_returns_runChain (hf : Follows carry contract)
    {decorators : List Value} {initial : Value}
    (h : (runChain host site arguments carry decorators initial).Returns w r w') :
    ∃ calls, Account host contract site arguments decorators initial w calls r w' := by
  rcases (returns_foldlM_applyStep hf).1 h with ⟨calls, hsteps, hmade, hhanded, rfl⟩
  exact ⟨calls, account_of_made hsteps hmade hhanded⟩

/-- A run in which no call fails gets to its end. The calls that are still to come are added to
those that have been made, one after the other. -/
theorem exists_calls_of_noCallFails {initial : Value}
    (h : NoCallFails host contract arguments steps initial w) :
    ∃ calls w', calls.map (·.step) = steps ∧ Made host contract w calls w' ∧
      Handed arguments initial calls := by
  -- the hypothesis speaks of calls from the start of the run, so the induction carries them along
  suffices hgoal : ∀ (later : List Step) (earlier : List (Call σ)) (w₁ : World σ),
      steps = earlier.map (·.step) ++ later → Made host contract w earlier w₁ →
      Handed arguments initial earlier →
      ∃ calls w', calls.map (·.step) = steps ∧ Made host contract w calls w' ∧
        Handed arguments initial calls from hgoal steps [] w rfl rfl Handed.nil
  intro later
  induction later with
  | nil =>
    intro earlier w₁ hsteps hmade hhanded
    rw [List.append_nil] at hsteps
    exact ⟨earlier, w₁, hsteps.symm, hmade, hhanded⟩
  | cons s later ih =>
    intro earlier w₁ hsteps hmade hhanded
    rcases h earlier s later w₁ hsteps hmade hhanded with ⟨c, rfl, rfl, hargs, hc⟩
    refine ih (earlier ++ [c]) c.after ?_ ?_ (hhanded.concat hargs)
    · rw [hsteps, List.map_append]
      simp
    · exact made_append.2 ⟨c.before, hmade, rfl, hc, rfl⟩

/-- A chain in which no call fails returns. -/
theorem exists_returns_runChain (hf : Follows carry contract) {decorators : List Value}
    {initial : Value}
    (h : NoCallFails host contract arguments (applicationOrder decorators) initial w) :
    ∃ calls r w', Account host contract site arguments decorators initial w calls r w' ∧
      (runChain host site arguments carry decorators initial).Returns w r w' := by
  rcases exists_calls_of_noCallFails h with ⟨calls, w', hsteps, hmade, hhanded⟩
  exact ⟨calls, _, w', account_of_made hsteps hmade hhanded,
    (returns_foldlM_applyStep hf).2 ⟨calls, hsteps, hmade, hhanded, rfl⟩⟩

end Runs

end Undecorate
