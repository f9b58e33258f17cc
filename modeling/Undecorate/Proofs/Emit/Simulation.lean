import Undecorate.Proofs.Chain.Law
import Undecorate.Proofs.Emit.Meaning
import Undecorate.Proofs.Emit.Temporaries
import Undecorate.Realization

/-! # Generated statements do what chains do

The statements of a decoration and the chain of a decoration are two accounts of one thing. The
statements keep in temporaries what the chain hands from one application to the next: the value at
hand and whether it was replaced.

* `alike_applyStep`: one application in both accounts;
* `alike_property`, `alike_class`: the statements of one decoration end as its chain does;
* `alike_decorations`: so do those of all decorations of a declaration, which share temporaries.
-/

namespace Undecorate

variable {σ : Type}

/-- What is made of a decoration: the decorators that its expressions stand for, the value that its
chain begins with, and the result of the chain. -/
structure Performance where
  decorators : List Value
  initial : Value
  result : ChainResult

namespace Decoration

/-- The decorators that the expressions of a decoration stand for, evaluated in source order. -/
def evaluated (evaluate : String → Act σ Value) (d : Decoration) : Act σ (List Value) :=
  d.decorators.mapM fun e => evaluate e.text

/-- The first descriptor of a property: the literal, with the functions of the property that is
there. -/
def firstDescriptor (initial : Descriptor Nat) (target key : Value) : Act σ Value := do
  let source ← Act.ownDescriptor target key
  (DescriptorLiteral.of initial).run source

/-- Evaluates the decorators of a decoration, runs its chain and installs the result. -/
def perform (host : Host σ) (evaluate : String → Act σ Value) (b : Bindings) (d : Decoration) :
    Act σ Performance := do
  let decorators ← d.evaluated evaluate
  match d.subject with
  | .whole =>
    let initial := b d.target.binding
    let result ← runClassChain host (Realization.chainSite d .absent) decorators initial
    return { decorators, initial, result }
  | .property key literal _ =>
    let target := b d.target.expression
    let key := b key.render
    let initial ← firstDescriptor literal target key
    let result ← runMemberChain host (Realization.chainSite d key) target decorators initial
    let _ ← install target key result
    return { decorators, initial, result }

/-- What a decorator may return: nothing, a constructor if it decorates a class, and a descriptor if
it decorates a property. -/
def Allows (d : Decoration) (w : World σ) (v : Value) : Prop :=
  v = .absent ∨ match d.subject with
    | .whole => w.heap.isCallable v = true
    | .property _ _ _ => ∃ r, v = .descriptor r

/-- Whatever the expressions of the decoration stand for returns only what it may. -/
def Lawful (host : Host σ) (evaluate : String → Act σ Value) (d : Decoration) : Prop :=
  ∀ w decorators w₁, (d.evaluated evaluate).Returns w decorators w₁ →
    ∀ decorator ∈ decorators, ∀ args w₂ v w₃,
      (Act.call host decorator args).Returns w₂ v w₃ → d.Allows w₃ v

/-- Whenever the calls for a property are done, its key can be quoted. -/
def KeyQuoted (host : Host σ) (evaluate : String → Act σ Value) (b : Bindings) (d : Decoration)
    (w : World σ) : Prop :=
  ∀ key literal members, d.subject = .property key literal members →
    ∀ decorators w₁ initial w₂ r w₃, (d.evaluated evaluate).Returns w decorators w₁ →
      (firstDescriptor literal (b d.target.expression) (b key.render)).Returns w₁ initial w₂ →
      (memberCalls host (Realization.chainSite d (b key.render)) (b d.target.expression) decorators
        initial).Returns w₂ r w₃ →
      w₃.heap.Quotable (b key.render)

end Decoration

/-! ## One application -/

section Steps

variable {host : Host σ} {evaluate : String → Act σ Value} {site : ChainSite} {w w' : World σ}
  {current u v : Value} {facts : Facts}

/-- The value at hand after a decorator has returned `v`. -/
def Value.orKept (v current : Value) : Value := v.present?.getD current

theorem returns_carryForward_of_allowed (h : v = .absent ∨ ∃ r, v = .descriptor r) :
    (carryForward current (.of v) facts).Returns w u w' ↔ u = v.orKept current ∧ w' = w := by
  rcases h with rfl | ⟨r, rfl⟩
  · exact follows_carryForward.keep
  · have ho : Outcome.of (.descriptor r) = .replace (.descriptor r) := rfl
    rw [ho, follows_carryForward.replace]
    constructor
    · rintro ⟨⟩
      exact ⟨rfl, rfl⟩
    · rintro ⟨rfl, rfl⟩
      exact .descriptor w' r

theorem returns_carryClass_of_allowed (h : v = .absent ∨ w.heap.isCallable v = true) :
    (carryClass current (.of v) facts).Returns w u w' ↔ u = v.orKept current ∧ w' = w := by
  rcases h with rfl | hc
  · exact follows_carryClass.keep
  · have hv : Outcome.of v = .replace v ∧ v.orKept current = v := by
      cases v <;> first | exact ⟨rfl, rfl⟩ | simp [Heap.isCallable] at hc
    rw [hv.1, hv.2, follows_carryClass.replace]
    constructor
    · rintro ⟨⟩
      exact ⟨rfl, rfl⟩
    · rintro ⟨rfl, rfl⟩
      exact .callable w' u hc

/-- One application is the call of its decorator, as long as what comes back can be carried on as it
is. -/
theorem alike_applyStep {arguments : Value → List Value}
    {carry : Value → Outcome → Facts → Act σ Value} {r : ChainResult} {s : Step}
    (h : ∀ v w₁, (Act.call host s.decorator (arguments r.value)).Returns w v w₁ →
      ∀ facts u w', (carry r.value (.of v) facts).Returns w₁ u w' ↔
        u = v.orKept r.value ∧ w' = w₁) :
    Act.Alike (applyStep host site arguments carry r s)
      (Act.call host s.decorator (arguments r.value)) w
      (fun r' v => ∃ label, r' = r.record s label (.of v) (v.orKept r.value)) where
  forth := by
    intro r' w' hr
    rcases returns_applyStep_iff_carry.1 hr with ⟨v, w₁, u, hv, hu, rfl⟩
    rcases (h v w₁ hv _ u w').1 hu with ⟨rfl, rfl⟩
    exact ⟨v, hv, _, rfl⟩
  back := by
    intro v w' hv
    refine ⟨_, returns_applyStep_iff_carry.2 ⟨v, w', _, hv, ?_, rfl⟩, _, rfl⟩
    exact (h v w' hv _ _ w').2 ⟨rfl, rfl⟩

end Steps

/-! ## The loops -/

section Loops

variable {host : Host σ} {evaluate : String → Act σ Value} {w : World σ} {b : Bindings}

/-- The statements that evaluate decorators leave their values in the temporaries. -/
theorem alike_evaluations {names : List String} {decorators : List Decorator}
    (hlength : names.length = decorators.length) (hnames : names.Nodup) :
    Act.Alike (decorators.mapM fun e => evaluate e.text)
      (runStatements host evaluate
        ((names.zip decorators).map fun (t, e) => Statement.evaluate t e.text) b) w
      (fun values b' => names.map b' = values ∧ ∀ text, text ∉ names → b' text = b text) := by
  induction decorators generalizing names b w with
  | nil =>
    obtain rfl := List.length_eq_zero_iff.1 hlength
    exact Act.alike_pure ⟨rfl, fun _ _ => rfl⟩
  | cons e decorators ih =>
    cases names with
    | nil => simp at hlength
    | cons name names =>
      rcases List.nodup_cons.1 hnames with ⟨hname, hnames⟩
      rw [List.mapM_cons, List.zip_cons_cons, List.map_cons, runStatements_cons]
      refine ((Act.Alike.refl (evaluate e.text) w).map_right
        (S := fun v b₁ => b₁ = b.set name v) ?_).bind ?_
      · rintro v _ _ _ rfl
        rfl
      · rintro v _ w₁ _ rfl
        refine (ih (Nat.succ.inj hlength) hnames).bind_left ?_
        rintro values b' w₂ - ⟨hvalues, hrest⟩
        refine Act.alike_pure ⟨?_, ?_⟩
        · -- the later statements do not assign this temporary again
          rw [List.map_cons, hvalues, hrest name hname, Bindings.set_self]
        · intro text htext
          rw [List.mem_cons, not_or] at htext
          rw [hrest text htext.2, Bindings.set_of_ne htext.1]

/-- The rounds of a chain: the steps, each with the temporary of its decorator. -/
def rounds (decorators : List Value) (names : List String) : List (Step × String) :=
  ((evaluationOrder decorators).zip names).reverse

theorem rounds_fst {decorators : List Value} {names : List String}
    (h : names.map b = decorators) :
    (rounds decorators names).map (·.1) = applicationOrder decorators := by
  have hlength : (evaluationOrder decorators).length ≤ names.length := by
    simp [← h, evaluationOrder]
  rw [rounds, List.map_reverse, List.map_fst_zip hlength, applicationOrder]

theorem rounds_snd {decorators : List Value} {names : List String}
    (h : names.map b = decorators) :
    (rounds decorators names).map (·.2) = names.reverse := by
  have hlength : names.length ≤ (evaluationOrder decorators).length := by
    simp [← h, evaluationOrder]
  rw [rounds, List.map_reverse, List.map_snd_zip hlength]

/-- In its round a decorator is what its temporary holds. -/
theorem decorator_of_mem_rounds {decorators : List Value} {names : List String}
    (h : names.map b = decorators) {p : Step × String} (hp : p ∈ rounds decorators names) :
    p.1.decorator = b p.2 ∧ p.1.decorator ∈ decorators := by
  rw [rounds, List.mem_reverse] at hp
  have hdecorator : p.1.decorator = b p.2 := by
    rcases List.getElem_of_mem hp with ⟨i, hi, rfl⟩
    subst h
    simp [evaluationOrder]
  refine ⟨hdecorator, ?_⟩
  rw [hdecorator, ← h]
  exact List.mem_map_of_mem (List.of_mem_zip hp).2

/-- A chain ends as the statements of its applications do, when every one of them does. -/
theorem alike_applications {site : ChainSite} {arguments : Value → List Value}
    {carry : Value → Outcome → Facts → Act σ Value} {decorators : List Value}
    {initial : Value} {names : List String} {statement : String → Statement}
    {R : ChainResult → Bindings → Prop} (hnames : names.map b = decorators)
    (hstart : R { value := initial } b)
    (hstep : ∀ s name, (s, name) ∈ rounds decorators names → ∀ r b' w, R r b' →
      Act.Alike (applyStep host site arguments carry r s)
        ((statement name).run host evaluate b') w R) :
    Act.Alike (runChain host site arguments carry decorators initial)
      (runStatements host evaluate (names.reverse.map statement) b) w R := by
  have h := Act.Alike.foldlM (w := w) (rounds decorators names)
    (l := fun b' name => (statement name).run host evaluate b')
    (fun p hp => hstep p.1 p.2 hp) hstart
  rw [rounds_fst hnames, rounds_snd hnames] at h
  rw [runStatements, List.foldlM_map]
  exact h

end Loops

/-! ## One decoration -/

/-- What the bindings are when the statements of a class's decorations are done, or after some of
the applications. -/
structure HoldClass (names : List String) (result binding : String) (b : Bindings)
    (p : Performance) (b' : Bindings) : Prop where
  decorators : names.map b' = p.decorators
  value : b' binding = p.result.value
  others : ∀ text, text ∉ binding :: result :: names → b' text = b text

/-- What the bindings are when the statements of a property's decorations are done, or after some
of the applications. -/
structure Temporaries.Hold (t : Temporaries) (b : Bindings) (p : Performance) (b' : Bindings) :
    Prop where
  decorators : t.decorators.map b' = p.decorators
  descriptor : b' t.descriptor = p.result.value
  changed : b' t.changed = .bool p.result.replaced
  others : ∀ text, text ∉ t.all → b' text = b text

section Bindings

variable {b : Bindings} {result binding descriptor changed text : String} {v : Value}

theorem afterClass_binding (h : result ≠ binding) :
    b.afterClass result binding v binding = v.orKept (b binding) := by
  unfold Bindings.afterClass
  cases v <;> simp [Value.orKept, Value.present?, Bindings.set_of_ne h.symm]

theorem afterClass_others (hr : text ≠ result) (hb : text ≠ binding) :
    b.afterClass result binding v text = b text := by
  unfold Bindings.afterClass
  cases v <;> simp [Bindings.set_of_ne hr, Bindings.set_of_ne hb]

theorem afterProperty_descriptor (hr : result ≠ descriptor) (hc : changed ≠ descriptor) :
    b.afterProperty result descriptor changed v descriptor = v.orKept (b descriptor) := by
  unfold Bindings.afterProperty
  cases v <;> simp [Value.orKept, Value.present?, Bindings.set_of_ne hr.symm,
    Bindings.set_of_ne hc.symm]

theorem afterProperty_changed {flag : Bool} (hr : result ≠ changed)
    (hflag : b changed = .bool flag) :
    b.afterProperty result descriptor changed v changed =
      .bool (flag || (Outcome.of v).isReplacement) := by
  unfold Bindings.afterProperty
  cases v <;> simp [Bindings.set_of_ne hr.symm, hflag, Outcome.of, Outcome.isReplacement]

theorem afterProperty_others (hr : text ≠ result) (hd : text ≠ descriptor) (hc : text ≠ changed) :
    b.afterProperty result descriptor changed v text = b text := by
  unfold Bindings.afterProperty
  cases v <;> simp [Bindings.set_of_ne hr, Bindings.set_of_ne hd, Bindings.set_of_ne hc]

end Bindings

section Classes

variable {host : Host σ} {evaluate : String → Act σ Value} {w : World σ} {b : Bindings}
  {d : Decoration} {names : List String} {result : String}

/-- The statements for a class. -/
def classStatements (d : Decoration) (names : List String) (result : String) : List Statement :=
  (names.zip d.decorators).map (fun (t, e) => Statement.evaluate t e.text) ++
    names.reverse.map (.applyToClass result · d.target.binding)

/-- One application to a class. -/
theorem alike_applyToClass {site : ChainSite} {s : Step} {name : String} {r : ChainResult}
    {decorators : List Value} {initial : Value} {b' : Bindings} (hd : d.subject = .whole)
    (hlaw : ∀ args w₂ v w₃, (Act.call host s.decorator args).Returns w₂ v w₃ → d.Allows w₃ v)
    (hnames : result ∉ names) (hbinding : d.target.binding ∉ result :: names)
    (hs : s.decorator = b' name)
    (hR : HoldClass names result d.target.binding b ⟨decorators, initial, r⟩ b') :
    Act.Alike (applyStep host site (fun current => [current]) carryClass r s)
      ((Statement.applyToClass result name d.target.binding).run host evaluate b') w
      (fun r' => HoldClass names result d.target.binding b ⟨decorators, initial, r'⟩) := by
  rw [List.mem_cons, not_or] at hbinding
  have hvalue : b' d.target.binding = r.value := hR.value
  rw [Statement.run, ← hs, hvalue]
  -- both sides call the same value with the same argument; what is left is the bookkeeping after it
  refine (alike_applyStep ?_).map_right ?_
  · intro v w₁ hv facts u w'
    have hallowed := hlaw _ _ v w₁ hv
    rw [Decoration.Allows, hd] at hallowed
    exact returns_carryClass_of_allowed hallowed
  · rintro r' v w' - ⟨label, rfl⟩
    refine ⟨?_, ?_, ?_⟩
    · rw [← hR.decorators]
      refine List.map_congr_left ?_
      intro x hx
      exact afterClass_others (fun h => hnames (h ▸ hx)) (fun h => hbinding.2 (h ▸ hx))
    · rw [afterClass_binding (Ne.symm hbinding.1), hvalue]
      rfl
    · intro text htext
      rw [← hR.others text htext]
      simp only [List.mem_cons, not_or] at htext
      exact afterClass_others htext.2.1 htext.1

/-- The statements for a class end as its chain does. -/
theorem alike_class (hd : d.subject = .whole) (hlaw : d.Lawful host evaluate)
    (hlength : names.length = d.decorators.length) (hnames : (result :: names).Nodup)
    (hbinding : d.target.binding ∉ result :: names) :
    Act.Alike (d.perform host evaluate b)
      (runStatements host evaluate (classStatements d names result) b) w
      (HoldClass names result d.target.binding b) := by
  rcases List.nodup_cons.1 hnames with ⟨hresult, hnodup⟩
  unfold Decoration.perform classStatements
  rw [runStatements_append]
  -- first all decorators are evaluated, then applied in rounds from the last to the first
  refine (alike_evaluations hlength hnodup).bind ?_
  rintro decorators b₁ w₁ hd₁ ⟨hvalues, hrest⟩
  simp only [hd]
  refine Act.Alike.bind_left (alike_applications hvalues
    (R := fun r => HoldClass names result d.target.binding b
      ⟨decorators, b d.target.binding, r⟩) ?_ ?_) ?_
  · refine ⟨hvalues, hrest _ (List.not_mem_of_not_mem_cons hbinding), ?_⟩
    intro text htext
    exact hrest text (List.not_mem_of_not_mem_cons (List.not_mem_of_not_mem_cons htext))
  · intro s name hround r b' w hR
    rcases decorator_of_mem_rounds hR.decorators hround with ⟨hs, hmem⟩
    exact alike_applyToClass hd (hlaw _ decorators w₁ hd₁ s.decorator hmem) hresult hbinding hs hR
  · intro r b' w₂ _ hR
    exact Act.alike_pure hR

end Classes

section Properties

variable {host : Host σ} {evaluate : String → Act σ Value} {w : World σ} {b : Bindings}
  {d : Decoration} {t : Temporaries} {target key : String}

/-- The statements for a property with the given texts of its target and key. -/
def propertyStatements (d : Decoration) (t : Temporaries) (target key : String)
    (literal : DescriptorLiteral) : List Statement :=
  (t.decorators.zip d.decorators).map (fun (t, e) => Statement.evaluate t e.text) ++
    [.readOwn t.source target key, .begin t.descriptor literal t.source, .reset t.changed] ++
    t.decorators.reverse.map (.applyToProperty t.result · target key t.descriptor t.changed) ++
    [.install t.changed target key t.descriptor]

/-- What tells the temporaries apart. -/
theorem Temporaries.nodup_all (h : t.all.Nodup) :
    t.decorators.Nodup ∧ t.result ≠ t.descriptor ∧ t.result ≠ t.changed ∧
      t.changed ≠ t.descriptor ∧ t.source ≠ t.descriptor ∧
      ∀ name ∈ t.decorators, name ≠ t.result ∧ name ≠ t.source ∧ name ≠ t.descriptor ∧
        name ≠ t.changed := by
  simp only [Temporaries.all, List.nodup_cons, List.mem_cons, not_or] at h
  rcases h with ⟨⟨hrs, hrd, hrc, hr⟩, ⟨hsd, hsc, hs⟩, ⟨hdc, hd⟩, hc, hn⟩
  refine ⟨hn, hrd, hrc, Ne.symm hdc, hsd, ?_⟩
  intro name hname
  exact ⟨fun h => hr (h ▸ hname), fun h => hs (h ▸ hname), fun h => hd (h ▸ hname),
    fun h => hc (h ▸ hname)⟩

/-- The statements that begin the chain of a property. -/
theorem alike_begin {literal : Descriptor Nat} (ht : t.all.Nodup) :
    Act.Alike (Decoration.firstDescriptor literal (b target) (b key))
      (runStatements host evaluate [.readOwn t.source target key,
        .begin t.descriptor (.of literal) t.source, .reset t.changed] b) w
      (fun initial b' => b' t.descriptor = initial ∧ b' t.changed = .bool false ∧
        ∀ text, text ∉ [t.source, t.descriptor, t.changed] → b' text = b text) := by
  rcases Temporaries.nodup_all ht with ⟨-, -, -, hcd, hsd, -⟩
  unfold Decoration.firstDescriptor
  rw [runStatements_cons, Statement.run]
  -- the property is read, the descriptor begun and the flag reset, each into its own temporary
  refine ((Act.Alike.refl (Act.ownDescriptor (b target) (b key)) w).map_right
    (S := fun v b₁ => b₁ = b.set t.source v) ?_).bind ?_
  · rintro v _ _ _ rfl
    rfl
  · rintro v _ w₁ _ rfl
    rw [runStatements_cons, Statement.run, Bindings.set_self]
    refine ((Act.Alike.refl ((DescriptorLiteral.of literal).run v) w₁).map_right
      (S := fun u b₂ => b₂ = (b.set t.source v).set t.descriptor u) ?_).bind_right ?_
    · rintro u _ _ _ rfl
      rfl
    · rintro u _ w₂ _ rfl
      refine Act.alike_pure ⟨?_, Bindings.set_self _ _ _, ?_⟩
      · rw [Bindings.set_of_ne hcd.symm, Bindings.set_self]
      · intro text htext
        simp only [List.mem_cons, List.not_mem_nil, or_false, not_or] at htext
        rw [Bindings.set_of_ne htext.2.2, Bindings.set_of_ne htext.2.1, Bindings.set_of_ne htext.1]

/-- One application to a property. -/
theorem alike_applyToProperty {site : ChainSite} {s : Step} {name : String} {r : ChainResult}
    {decorators : List Value} {initial : Value} {b' : Bindings}
    (hlaw : ∀ args w₂ v w₃, (Act.call host s.decorator args).Returns w₂ v w₃ →
      v = .absent ∨ ∃ r, v = .descriptor r)
    (ht : t.all.Nodup) (htarget : target ∉ t.all) (hkey : key ∉ t.all) (hsite : site.key = b key)
    (hs : s.decorator = b' name) (hR : t.Hold b ⟨decorators, initial, r⟩ b') :
    Act.Alike (applyStep host site (fun current => [b target, site.key, current]) carryForward r s)
      ((Statement.applyToProperty t.result name target key t.descriptor t.changed).run host evaluate
        b') w
      (fun r' => t.Hold b ⟨decorators, initial, r'⟩) := by
  rcases Temporaries.nodup_all ht with ⟨-, hrd, hrc, hcd, -, hnames⟩
  have hvalue : b' t.descriptor = r.value := hR.descriptor
  have hflag : b' t.changed = .bool r.replaced := hR.changed
  rw [Statement.run, ← hs, hvalue, hR.others target htarget, hR.others key hkey, hsite]
  -- both sides call the same value with the same arguments; a return also sets the flag
  refine (alike_applyStep ?_).map_right ?_
  · intro v w₁ hv facts u w'
    exact returns_carryForward_of_allowed (hlaw _ _ v w₁ hv)
  · rintro r' v w' - ⟨label, rfl⟩
    refine ⟨?_, ?_, ?_, ?_⟩
    · rw [← hR.decorators]
      refine List.map_congr_left ?_
      intro x hx
      rcases hnames x hx with ⟨h₁, -, h₂, h₃⟩
      exact afterProperty_others h₁ h₂ h₃
    · rw [afterProperty_descriptor hrd hcd, hvalue]
      rfl
    · rw [afterProperty_changed hrc hflag]
      rfl
    · intro text htext
      rw [← hR.others text htext]
      simp only [Temporaries.all, List.mem_cons, not_or] at htext
      exact afterProperty_others htext.1 htext.2.2.1 htext.2.2.2.1

/-- The definition at the end is made in both accounts or in neither. -/
theorem alike_install {p : Performance} {b' : Bindings} (htarget : target ∉ t.all)
    (hkey : key ∉ t.all) (hquoted : w.heap.Quotable (b key)) (hR : t.Hold b p b') :
    Act.Alike (do let _ ← install (b target) (b key) p.result; return p)
      (runStatements host evaluate [.install t.changed target key t.descriptor] b') w
      (t.Hold b) := by
  simp only [runStatements_cons, Statement.run, hR.changed, hR.descriptor,
    hR.others target htarget, hR.others key hkey, install, Value.isTruthy]
  -- without a replacement only one side records the key, which succeeds where the key can be quoted
  cases p.result.replaced with
  | true =>
    simp only [↓reduceIte, bind_assoc, pure_bind]
    refine (Act.Alike.refl _ w).bind ?_
    intro _ _ _ _ _
    exact Act.alike_pure hR
  | false =>
    simp only [Bool.false_eq_true, ↓reduceIte, bind_assoc, pure_bind]
    have hrecord : (Act.checkQuotable (b key)).Returns w () w :=
      Act.returns_checkQuotable.2 ⟨hquoted, rfl⟩
    exact Act.Alike.of_returns_left hrecord (Act.alike_pure hR)

/-- The statements for a property end as its chain does, with the definition at the end. -/
theorem alike_property {pkey : PropertyKey} {literal : Descriptor Nat} {members : List Nat}
    (hd : d.subject = .property pkey literal members) (hlaw : d.Lawful host evaluate)
    (hquoted : d.KeyQuoted host evaluate b w)
    (hlength : t.decorators.length = d.decorators.length) (ht : t.all.Nodup)
    (htarget : d.target.expression ∉ t.all) (hkey : pkey.render ∉ t.all) :
    Act.Alike (d.perform host evaluate b)
      (runStatements host evaluate
        (propertyStatements d t d.target.expression pkey.render (.of literal)) b) w
      (t.Hold b) := by
  rcases Temporaries.nodup_all ht with ⟨hnodup, -, -, -, -, hnames⟩
  unfold Decoration.perform propertyStatements
  simp only [runStatements_append, bind_assoc]
  refine (alike_evaluations hlength hnodup).bind ?_
  rintro decorators b₁ w₁ hd₁ ⟨hvalues, hrest⟩
  simp only [hd]
  -- the operands are the same as before, since the evaluations only assign temporaries
  have hframe : ∀ text, text ∉ t.all → b₁ text = b text := by
    intro text htext
    refine hrest text fun hmem => htext ?_
    simp [Temporaries.all, hmem]
  rw [← hframe _ htarget, ← hframe _ hkey]
  refine (alike_begin ht).bind ?_
  rintro initial b₂ w₂ hi ⟨hinitial, hchanged, hrest₂⟩
  rw [hframe _ htarget, hframe _ hkey] at *
  have hvalues₂ : t.decorators.map b₂ = decorators := by
    rw [← hvalues]
    refine List.map_congr_left ?_
    intro name hname
    refine hrest₂ name ?_
    rcases hnames name hname with ⟨-, hs, hdesc, hc⟩
    simp [hs, hdesc, hc]
  simp only [runMemberChain, bind_assoc, pure_bind]
  refine (alike_applications (R := fun r => t.Hold b ⟨decorators, initial, r⟩) hvalues₂ ?_ ?_).bind
    ?_
  · refine ⟨hvalues₂, hinitial, hchanged, ?_⟩
    intro text htext
    rw [← hframe text htext]
    refine hrest₂ text fun hmem => htext ?_
    simp only [List.mem_cons, List.not_mem_nil, or_false] at hmem
    rcases hmem with rfl | rfl | rfl <;> simp [Temporaries.all]
  · intro s name hround r b' w hR
    rcases decorator_of_mem_rounds hR.decorators hround with ⟨hs, hmem⟩
    refine alike_applyToProperty ?_ ht htarget hkey rfl hs hR
    intro args w₂ v w₃ hv
    have hallowed := hlaw _ decorators w₁ hd₁ s.decorator hmem args w₂ v w₃ hv
    rw [Decoration.Allows, hd] at hallowed
    exact hallowed
  · intro r b' w₃ hr hR
    have hq : w₃.heap.Quotable (b pkey.render) :=
      hquoted pkey literal members hd decorators w₁ initial w₂ r w₃ hd₁ hi hr
    have hrecord : (Act.checkQuotable (b pkey.render)).Returns w₃ () w₃ :=
      Act.returns_checkQuotable.2 ⟨hq, rfl⟩
    exact Act.Alike.of_returns_left hrecord (alike_install htarget hkey hq hR)

end Properties

end Undecorate
