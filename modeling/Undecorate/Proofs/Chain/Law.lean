import Undecorate.Proofs.Chain.Calls

/-! # The law of chains

Both kinds of chains obey one law, `AppliesInnermostFirst`: every decorator is called once, the last
one first, each with the latest replacement, and a chain of two parts is the inner part followed by
the outer part. They differ in what a decorator is handed and what it may return, and in the record
that a member's chain makes of its key when all calls are done: a key that cannot be quoted makes
the chain fail there.

* `runChain_append`: a chain of two parts, for runs that fail as well;
* `chains_apply_innermost_first`: the law of both kinds of chains.
-/

namespace Undecorate

variable {σ : Type}

/-! ## Chains of two parts -/

/-- Where the decorators behind the first `n` run. -/
def ChainSite.behind (site : ChainSite) (n : Nat) : ChainSite :=
  { site with labels := site.labels.drop n }

/-- A step of a chain in a longer one, with `n` decorators before those of the chain. -/
def Step.shifted (n : Nat) (s : Step) : Step := { s with position := s.position + n }

/-- The result of a chain in a longer one, with `n` decorators before those of the chain. -/
def ChainResult.shifted (n : Nat) (r : ChainResult) : ChainResult :=
  { r with invocations := r.invocations.map fun i => { i with position := i.position + n } }

/-- The result of an inner chain and then an outer one. -/
def ChainResult.followedBy (inner outer : ChainResult) : ChainResult where
  value := outer.value
  replaced := inner.replaced || outer.replaced
  invocations := inner.invocations ++ outer.invocations

section Append

variable (host : Host σ) (site : ChainSite) (arguments : Value → List Value)
  (carry : Value → Outcome → Facts → Act σ Value)

theorem applicationOrder_append (outer inner : List Value) :
    applicationOrder (outer ++ inner) =
      (applicationOrder inner).map (Step.shifted outer.length) ++ applicationOrder outer := by
  unfold applicationOrder evaluationOrder
  rw [List.zipIdx_append, List.map_append, List.reverse_append, List.map_reverse, List.map_map,
    Nat.zero_add, List.zipIdx_eq_map_add, List.map_map]
  congr 3
  funext p
  simp [Step.shifted, Nat.add_comm]

/-- A longer chain labels a decorator as the part of it does. -/
theorem label_shifted (n : Nat) (h : Heap) (s : Step) :
    site.label h (s.shifted n) = (site.behind n).label h s := by
  simp [ChainSite.label, ChainSite.behind, Step.shifted, List.getElem?_drop, Nat.add_comm n]

theorem applyStep_shifted (n : Nat) (r : ChainResult) (s : Step) :
    applyStep host site arguments carry (r.shifted n) (s.shifted n) =
      ChainResult.shifted n <$> applyStep host (site.behind n) arguments carry r s := by
  have hlabels : site.labels[(s.shifted n).position]? = (site.behind n).labels[s.position]? := by
    simp [Step.shifted, ChainSite.behind, List.getElem?_drop, Nat.add_comm n]
  have hdecorator : (s.shifted n).decorator = s.decorator := rfl
  have hvalue : (r.shifted n).value = r.value := rfl
  have hfacts : site.facts = (site.behind n).facts := rfl
  have hrecord : ∀ label outcome value,
      (r.shifted n).record (s.shifted n) label outcome value =
        (r.record s label outcome value).shifted n := by
    intro label outcome value
    simp [ChainResult.record, ChainResult.shifted, Step.shifted]
  unfold applyStep
  simp only [label_shifted, hrecord, hlabels, hdecorator, hvalue, hfacts]
  split <;> simp

theorem applyStep_followedBy (a b : ChainResult) (s : Step) :
    applyStep host site arguments carry (a.followedBy b) s =
      a.followedBy <$> applyStep host site arguments carry b s := by
  have hrecord : ∀ label outcome value,
      (a.followedBy b).record s label outcome value =
        a.followedBy (b.record s label outcome value) := by
    intro label outcome value
    simp [ChainResult.record, ChainResult.followedBy, Bool.or_assoc]
  have hvalue : (a.followedBy b).value = b.value := rfl
  unfold applyStep
  simp only [hrecord, hvalue]
  split <;> simp

/-- What every step makes of results, a run makes of its result. -/
theorem foldlM_map_result {f g : ChainResult → Step → Act σ ChainResult} {move : Step → Step}
    {change : ChainResult → ChainResult}
    (h : ∀ r s, f (change r) (move s) = change <$> g r s) (steps : List Step) (r : ChainResult) :
    (steps.map move).foldlM f (change r) = change <$> steps.foldlM g r := by
  induction steps generalizing r with
  | nil => simp
  | cons s steps ih => simp [h, ih]

/-- The decorators behind others run as they do on their own. -/
theorem foldlM_shifted (n : Nat) (decorators : List Value) (initial : Value) :
    ((applicationOrder decorators).map (Step.shifted n)).foldlM
        (applyStep host site arguments carry) { value := initial } =
      ChainResult.shifted n <$> runChain host (site.behind n) arguments carry decorators initial :=
  foldlM_map_result (applyStep_shifted host site arguments carry n) _ { value := initial }

/-- A chain that goes on from a result adds to it what it does on its own. -/
theorem foldlM_followedBy (decorators : List Value) (r : ChainResult) :
    (applicationOrder decorators).foldlM (applyStep host site arguments carry) r =
      r.followedBy <$> runChain host site arguments carry decorators r.value := by
  have hstart : r.followedBy { value := r.value } = r := by
    simp [ChainResult.followedBy]
  have h := foldlM_map_result (applyStep_followedBy host site arguments carry r)
    (applicationOrder decorators) { value := r.value }
  rw [hstart, List.map_id'] at h
  exact h

/-- A chain of two parts is the inner part, and then the outer part from where the inner one
ended. -/
theorem runChain_append (outer inner : List Value) (initial : Value) :
    runChain host site arguments carry (outer ++ inner) initial = do
      let r ← runChain host (site.behind outer.length) arguments carry inner initial
      let r' ← runChain host site arguments carry outer r.value
      return (r.shifted outer.length).followedBy r' := by
  have hvalue : ∀ r : ChainResult, (r.shifted outer.length).value = r.value := fun _ => rfl
  calc runChain host site arguments carry (outer ++ inner) initial
      = ((applicationOrder inner).map (Step.shifted outer.length) ++
          applicationOrder outer).foldlM (applyStep host site arguments carry)
            { value := initial } := by
        rw [runChain, applicationOrder_append]
    _ = _ := by
        rw [List.foldlM_append, foldlM_shifted]
        simp [foldlM_followedBy, hvalue]

end Append

/-! ## Both kinds of chains -/

/-- The law of a kind of chains. The arguments of a call are made of the value at hand, what the
call returns is taken over by a contract, and `fault?` is what the record of the chain fails with
when all calls are done. -/
structure AppliesInnermostFirst (host : Host σ) (contract : Contract σ)
    (arguments : ChainSite → Value → List Value) (fault? : ChainSite → World σ → Option Fault)
    (run : ChainSite → List Value → Value → Act σ ChainResult) : Prop where
  /-- If no call fails, the chain makes all its calls and ends with the result that accounts for
  them, or with the fault of its record. -/
  ends : ∀ site decorators initial w,
    NoCallFails host contract (arguments site) (applicationOrder decorators) initial w →
    ∃ calls r w', Account host contract site (arguments site) decorators initial w calls r w' ∧
      (run site decorators initial).runIn w =
        (match fault? site w' with
          | none => .ok r
          | some f => .error f, w')
  /-- There is no result without the calls that account for it. -/
  accounts : ∀ site decorators initial w r w',
    (run site decorators initial).Returns w r w' →
    fault? site w' = none ∧
      ∃ calls, Account host contract site (arguments site) decorators initial w calls r w'
  /-- After its inner part a chain goes on with its outer part, and the results are put
  together. -/
  append : ∀ site outer inner initial w r w₁,
    (run (site.behind outer.length) inner initial).Returns w r w₁ →
    (run site (outer ++ inner) initial).runIn w =
      (do
        let r' ← run site outer r.value
        return (r.shifted outer.length).followedBy r').runIn w₁

/-- A class's chain, which makes no record of anything that could fail. -/
theorem runClassChain_appliesInnermostFirst (host : Host σ) :
    AppliesInnermostFirst host ReadAsClass (fun _ current => [current]) (fun _ _ => none)
      (runClassChain host) where
  ends := by
    intro site decorators initial w h
    exact exists_returns_runChain follows_carryClass h
  accounts := by
    intro site decorators initial w r w' h
    exact ⟨rfl, exists_account_of_returns_runChain follows_carryClass h⟩
  append := by
    intro site outer inner initial w r w₁ h
    unfold runClassChain at h ⊢
    rw [runChain_append, h.runIn_bind]

section Members

variable {host : Host σ} {site : ChainSite} {target initial : Value} {decorators : List Value}
  {w w' : World σ} {r : ChainResult}

/-- The chain of a member before its record. -/
abbrev memberCalls (host : Host σ) (site : ChainSite) (target : Value) (decorators : List Value)
    (initial : Value) : Act σ ChainResult :=
  runChain host site (fun current => [target, site.key, current]) carryForward decorators initial

/-- When all calls are done, a member's chain stands or falls with the record of its key. -/
theorem runIn_runMemberChain
    (h : (memberCalls host site target decorators initial).Returns w r w') :
    (runMemberChain host site target decorators initial).runIn w =
      (match w'.heap.quotingFault? site.key with
        | none => .ok r
        | some f => .error f, w') := by
  unfold runMemberChain
  rw [h.runIn_bind, Act.runIn_bind, Act.runIn_checkQuotable, Heap.quotingFault?]
  cases (w'.heap.view site.key).obstacle? true <;> rfl

theorem returns_runMemberChain :
    (runMemberChain host site target decorators initial).Returns w r w' ↔
      (memberCalls host site target decorators initial).Returns w r w' ∧
        w'.heap.quotingFault? site.key = none := by
  unfold runMemberChain
  simp only [Act.returns_bind, Act.returns_checkQuotable, Act.returns_pure,
    Heap.quotingFault?_eq_none]
  constructor
  · rintro ⟨_, _, hr, -, _, ⟨hk, rfl⟩, rfl, rfl⟩
    exact ⟨hr, hk⟩
  · rintro ⟨hr, hk⟩
    exact ⟨r, w', hr, (), w', ⟨hk, rfl⟩, rfl, rfl⟩

end Members

/-- A member's chain. The record of its key is made at the end of the whole chain only, so a chain
of two parts does not need that of its inner part. -/
theorem runMemberChain_appliesInnermostFirst (host : Host σ) (target : Value) :
    AppliesInnermostFirst host ReadAsDescriptor
      (fun site current => [target, site.key, current])
      (fun site w => w.heap.quotingFault? site.key)
      (fun site => runMemberChain host site target) where
  ends := by
    intro site decorators initial w h
    rcases exists_returns_runChain follows_carryForward h with ⟨calls, r, w', haccount, hr⟩
    exact ⟨calls, r, w', haccount, runIn_runMemberChain hr⟩
  accounts := by
    intro site decorators initial w r w' h
    rcases returns_runMemberChain.1 h with ⟨hr, hk⟩
    exact ⟨hk, exists_account_of_returns_runChain follows_carryForward hr⟩
  append := by
    intro site outer inner initial w r w₁ h
    rcases returns_runMemberChain.1 h with ⟨hr, -⟩
    -- standing behind other decorators changes labels only
    have hkey : (site.behind outer.length).key = site.key := rfl
    unfold memberCalls at hr
    rw [hkey] at hr
    unfold runMemberChain
    rw [runChain_append, bind_assoc, hr.runIn_bind]
    simp only [bind_assoc, pure_bind]

/-- Both kinds of chains obey the law. A class's chain ends with a result whenever no call fails; a
member's does iff its key can be quoted when all calls are done. -/
theorem chains_apply_innermost_first (host : Host σ) :
    (∀ target, AppliesInnermostFirst host ReadAsDescriptor
      (fun site current => [target, site.key, current])
      (fun site w => w.heap.quotingFault? site.key)
      (fun site => runMemberChain host site target)) ∧
    AppliesInnermostFirst host ReadAsClass (fun _ current => [current]) (fun _ _ => none)
      (runClassChain host) :=
  ⟨runMemberChain_appliesInnermostFirst host, runClassChain_appliesInnermostFirst host⟩

end Undecorate
