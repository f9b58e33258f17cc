import Undecorate.Proofs.Object.Lasting
import Undecorate.Realization

/-! # Realizations keep what lasts

A realization evaluates expressions, runs chains and installs what comes out of them, and does
nothing else to the heap. So it keeps what lasts as long as the functions of the host do, whatever
the declaration is and however the realization ends.

* `Host.Keeps`: nothing that the host does destroys a property of the heap;
* `lasting_ofDeclaration`: with such a host a realization keeps what lasts;
* `Heap.Leads`: the heaps to which constructions, definitions and realizations lead, with functions
  of the host that do such things themselves;
* `Heap.Lasting.leads`: what lasts holds of them all.
-/

namespace Undecorate

variable {σ : Type} {P : Heap → Prop} {host : Host σ} {names : Names}

/-- Whatever the host does keeps the property of the heap. -/
structure Host.Keeps (P : Heap → Prop) (host : Host σ) : Prop where
  call : ∀ f arguments, (host.call f arguments).Keeps P
  fetch : ∀ v name, (host.fetch v name).Keeps P

open Act

/-! ## Expressions -/

section Expressions

variable (hhost : host.Keeps P)

include hhost

theorem keeps_call (callee : Value) (arguments : List Value) :
    (Act.call host callee arguments).Keeps P := by
  unfold Act.call
  cases callee with
  | function f => exact hhost.call f arguments
  | object r =>
    refine reads_heap.keeps.bind fun h => ?_
    cases h.callable? r with
    | none => exact keeps_throw _
    | some c =>
      dsimp only
      cases c.implementation with
      | none => exact keeps_pure _
      | some f => exact hhost.call f arguments
  | _ => exact (reads_view _).keeps.bind fun _ => keeps_throw _

theorem keeps_getProperty (target key receiver : Value) :
    (Act.getProperty host target key receiver).Keeps P := by
  unfold Act.getProperty
  refine (reads_objectOf _ _).keeps.bind fun p => ?_
  refine (reads_nameOf key).keeps.bind fun name => ?_
  refine reads_heap.keeps.bind fun h => ?_
  cases h.lookup? p.1 name with
  | none =>
    refine reads_heap.keeps.bind fun h => ?_
    cases h.strayParent? p.1 with
    | none => exact keeps_pure _
    | some stray => exact (reads_view stray).keeps.bind fun _ => keeps_throw _
  | some d =>
    dsimp only
    cases d.kind with
    | data => exact keeps_pure _
    | accessor =>
      dsimp only
      cases d.getter with
      | none => exact keeps_pure _
      | some getter => exact keeps_call hhost getter _

theorem keeps_fetch (v : Value) (name : String) : (Act.fetch host v name).Keeps P := by
  unfold Act.fetch
  cases v with
  | descriptor r =>
    refine reads_heap.keeps.bind fun h => ?_
    cases (h.descriptor? r).bind (·.part? name) with
    | some part => exact keeps_pure _
    | none => exact hhost.fetch _ name
  | source text =>
    dsimp only
    split
    · exact keeps_pure _
    · exact hhost.fetch _ name
  | _ => exact hhost.fetch _ name

theorem keeps_hasAttribute (v : Value) (name : String) :
    (Act.hasAttribute host v name).Keeps P := by
  unfold Act.hasAttribute
  rw [map_eq_pure_bind]
  exact (keeps_fetch hhost v name).bind fun _ => keeps_pure _

theorem keeps_getAttribute (v : Value) (name : String) :
    (Act.getAttribute host v name).Keeps P := by
  unfold Act.getAttribute
  refine (keeps_fetch hhost v name).bind fun found => ?_
  cases found with
  | some found => exact keeps_pure found
  | none => exact (reads_view v).keeps.bind fun _ => keeps_throw _

theorem keeps_isObjectLike (v : Value) : (Names.isObjectLike host v).Keeps P := by
  unfold Names.isObjectLike
  cases v with
  | descriptor | source | member => exact keeps_pure _
  | _ =>
    refine (keeps_hasAttribute hhost _ _).bind fun has => ?_
    split
    · exact keeps_hasAttribute hhost _ _
    · exact keeps_pure _

theorem keeps_member? (v : Value) (name : String) : (Names.member? host v name).Keeps P := by
  unfold Names.member?
  cases v with
  | record fields => exact keeps_pure _
  | object r => exact (keeps_getProperty hhost _ _ _).bind fun found => keeps_pure _
  | _ =>
    refine (keeps_isObjectLike hhost _).bind fun like => ?_
    split
    · exact (keeps_getAttribute hhost _ _).bind fun get =>
        (keeps_call hhost get _).bind fun found => keeps_pure _
    · refine (keeps_hasAttribute hhost _ _).bind fun has => ?_
      split
      · exact (keeps_getAttribute hhost _ _).bind fun found => keeps_pure _
      · exact keeps_pure _

theorem keeps_member (path : String) (v : Value) (name : String) :
    (Names.member host path v name).Keeps P := by
  refine (keeps_member? hhost v name).bind fun found? => ?_
  cases found? with
  | none => exact keeps_throw _
  | some found => exact keeps_pure found

theorem keeps_lookup (path : String) : (names.lookup host path).Keeps P := by
  unfold Names.lookup
  cases (Text.cutAt '.' path).map Text.strip with
  | nil => exact keeps_throw _
  | cons first rest =>
    dsimp only
    cases List.lookup first names with
    | none => exact keeps_throw _
    | some v => exact keeps_foldlM (fun v name => keeps_member hhost path v name) rest v

theorem keeps_callee (text path : String) : (names.callee host text path).Keeps P := by
  unfold Names.callee
  refine (keeps_lookup hhost path).bind fun v => reads_heap.keeps.bind fun h => ?_
  split
  · exact keeps_pure v
  · exact (keeps_throw _).bind fun _ => keeps_pure v

omit hhost

mutual

theorem keeps_eval (hhost : host.Keeps P) : ∀ e : Expression, (e.eval host names).Keeps P
  | .constant v => by
    unfold Expression.eval
    exact keeps_pure v
  | .path text => by
    unfold Expression.eval
    exact keeps_lookup hhost text
  | .call text callee arguments => by
    unfold Expression.eval
    exact (keeps_callee hhost text callee).bind fun f =>
      (keeps_evalAll hhost arguments).bind fun vs => keeps_call hhost f vs
  | .unreadable f => by
    unfold Expression.eval
    exact keeps_throw f

theorem keeps_evalAll (hhost : host.Keeps P) :
    ∀ es : List Expression, (Expression.evalAll host names es).Keeps P
  | [] => by
    unfold Expression.evalAll
    exact keeps_pure []
  | e :: es => by
    unfold Expression.evalAll
    exact (keeps_eval hhost e).bind fun v =>
      (keeps_evalAll hhost es).bind fun vs => keeps_pure (v :: vs)

end

include hhost

theorem keeps_evaluate (text : String) : (names.evaluate host text).Keeps P :=
  keeps_eval hhost _

theorem keeps_resolve (d : Decorator) : (names.resolve host d).Keeps P := by
  unfold Names.resolve
  cases d.callee with
  | none => exact keeps_evaluate hhost d.text
  | some path =>
    dsimp only
    split
    · refine (keeps_callee hhost d.text path).bind fun f => ?_
      exact (keeps_mapM (keeps_evaluate hhost) d.arguments).bind fun vs => keeps_call hhost f vs
    · exact keeps_lookup hhost path

end Expressions

/-! ## Chains -/

section Chains

theorem keeps_carryClass (current : Value) (outcome : Outcome) (facts : Facts) :
    (carryClass current outcome facts : Act σ Value).Keeps P := by
  cases outcome with
  | keep => exact keeps_pure current
  | replace v =>
    refine reads_heap.keeps.bind fun h => ?_
    split
    · exact keeps_pure v
    · exact (reads_checkQuotable v).keeps.bind fun _ => keeps_throw _

theorem keeps_carryForward (hP : Heap.Lasting P) (current : Value) (outcome : Outcome)
    (facts : Facts) : (carryForward current outcome facts : Act σ Value).Keeps P := by
  cases outcome with
  | keep => exact keeps_pure current
  | replace v =>
    refine reads_heap.keeps.bind fun h => ?_
    cases v with
    | descriptor r => exact keeps_pure _
    | record fields =>
      dsimp only
      cases Descriptor.ofMapping h.isCallable fields with
      | ok d => exact keeps_newDescriptor hP d
      | error f =>
        exact (reads_checkEnding f).keeps.bind fun _ => (reads_checkQuotable _).keeps.bind fun _ =>
          keeps_throw _
    | _ => exact (reads_checkQuotable _).keeps.bind fun _ => keeps_throw _

variable (hhost : host.Keeps P)

include hhost

theorem keeps_invoke (decorator : Value) (arguments : List Value) (label : Text)
    (facts : Facts) : (invoke host decorator arguments label facts).Keeps P := by
  have hcall : ∀ handler : Fault → Act σ Value, (∀ f, (handler f).Keeps P) →
      (do return Outcome.of (← tryCatch (Act.call host decorator arguments) handler)).Keeps P :=
    fun handler hhandler => ((keeps_call hhost decorator arguments).tryCatch hhandler).bind fun _ =>
      keeps_pure _
  unfold invoke
  refine reads_heap.keeps.bind fun h => ?_
  -- what is not callable is refused before it is called
  split
  · exact hcall _ fun f => reads_heap.keeps.bind fun _ => keeps_throw _
  · exact (keeps_throw _).bind fun _ => hcall _ fun f => reads_heap.keeps.bind fun _ =>
      keeps_throw _

theorem keeps_applyStep {site : ChainSite} {arguments : Value → List Value}
    {carry : Value → Outcome → Facts → Act σ Value}
    (hcarry : ∀ v outcome facts, (carry v outcome facts).Keeps P) (r : ChainResult) (s : Step) :
    (applyStep host site arguments carry r s).Keeps P := by
  have hrest : ∀ label facts, (do
      let outcome ← invoke host s.decorator (arguments r.value) label facts
      let value ← carry r.value outcome facts
      return r.record s label outcome value).Keeps P := fun label facts =>
    (keeps_invoke hhost _ _ label facts).bind fun o => (hcarry r.value o facts).bind fun v =>
      keeps_pure _
  unfold applyStep
  split
  · exact (reads_checkQuotable _).keeps.bind fun _ => reads_heap.keeps.bind fun h => hrest _ _
  · exact reads_heap.keeps.bind fun h => hrest _ _

theorem keeps_runMemberChain (hP : Heap.Lasting P) (site : ChainSite) (target : Value)
    (decorators : List Value) (initial : Value) :
    (runMemberChain host site target decorators initial).Keeps P :=
  (keeps_foldlM (keeps_applyStep hhost (keeps_carryForward hP)) _ _).bind fun r =>
    (reads_checkQuotable site.key).keeps.bind fun _ => keeps_pure r

theorem keeps_runClassChain (site : ChainSite) (decorators : List Value) (initial : Value) :
    (runClassChain host site decorators initial).Keeps P :=
  keeps_foldlM (keeps_applyStep hhost keeps_carryClass) _ _

end Chains

/-! ## Bare declarations -/

namespace Realization

section Bare

variable (hP : Heap.Lasting P)

include hP

theorem lasting_install (target key : Value) (r : ChainResult) :
    (install target key r : Act σ Bool).Keeps P := by
  unfold install
  split
  · exact (keeps_define hP _ _ _).bind fun _ => keeps_pure _
  · exact (reads_checkQuotable _).keeps.bind fun _ => keeps_pure _

theorem lasting_memberFunction (key : Value) (m : Member) :
    (memberFunction key m : Act σ Value).Keeps P :=
  (reads_checkQuotable key).keeps.bind fun _ => (reads_view key).keeps.bind fun _ =>
    keeps_newFunction hP _ _ _ _

theorem lasting_defineNew (target key : Value) (d : Descriptor Value) :
    (do define target key (← newDescriptor d) : Act σ Unit).Keeps P :=
  (keeps_newDescriptor hP d).bind fun v => keeps_define hP target key v

theorem lasting_installAccessor (target key : Value) (m : Member) (function : Value) :
    (installAccessor target key m function : Act σ Unit).Keeps P := by
  have hhalf : (if m.kind = .getter
      then (do define target key (← newDescriptor (.accessor (some function) none)) : Act σ Unit)
      else (do define target key (← newDescriptor (.accessor none (some function))))).Keeps P := by
    split <;> exact lasting_defineNew hP _ _ _
  unfold installAccessor
  -- the half goes beside the other one if there is one, and otherwise on its own
  refine (keeps_ownDescriptor hP target key).bind fun existing => ?_
  cases existing with
  | descriptor r =>
    refine reads_heap.keeps.bind fun h => ?_
    split
    · exact (keeps_assign hP _ _ _).bind fun _ => keeps_define hP _ _ _
    · exact hhalf
  | _ => exact hhalf

theorem lasting_newPlain (value : Option String) : (newPlain value : Act σ Value).Keeps P :=
  (keeps_onHeap fun _ hh => hP.newDescriptor hh _).bind fun _ => keeps_pure _

theorem lasting_installMember (target key : Value) (m : Member) :
    (installMember target key m : Act σ Unit).Keeps P := by
  unfold installMember
  cases m.kind with
  | method => exact (lasting_memberFunction hP key m).bind fun v => lasting_defineNew hP _ _ _
  | getter | setter =>
    exact (lasting_memberFunction hP key m).bind fun v => lasting_installAccessor hP _ _ m v
  | _ =>
    exact (lasting_newPlain hP m.value).bind fun v => keeps_define hP target key v

theorem lasting_installMembers (members : List Member) (keys : List (Nat × Value)) (home : Value)
    (cls : Option Value) : (installMembers members keys home cls : Act σ Unit).Keeps P := by
  refine keeps_forM ?_ _
  rintro ⟨m, i⟩
  dsimp only
  cases keys.lookup i with
  | none => exact keeps_pure _
  | some key =>
    dsimp only
    split
    · exact lasting_installMember hP _ key m
    · exact keeps_pure _

end Bare

/-! ## Whole declarations -/

section Declarations

variable (hhost : host.Keeps P)

include hhost

theorem lasting_keysOf (members : List Member) (decorations : List Decoration) :
    (keysOf host names members decorations).Keeps P := by
  refine keeps_foldlM ?_ _ _
  rintro keys ⟨m, i⟩
  dsimp only
  cases m.key with
  | none => exact keeps_pure _
  | some key =>
    refine Keeps.bind ?_ fun v => keeps_pure _
    unfold keyOf
    cases (sharedKeys decorations).lookup i with
    | some first =>
      dsimp only
      cases keys.lookup first with
      | some v => exact keeps_pure v
      | none => exact keeps_throw _
    | none =>
      dsimp only
      cases key.staticName? with
      | some name => exact keeps_pure _
      | none => exact keeps_evaluate hhost key.text

theorem lasting_parentOf (c : ClassDecl) : (parentOf host names c).Keeps P := by
  unfold parentOf
  cases c.parent? with
  | none => exact keeps_pure _
  | some text =>
    refine (keeps_evaluate hhost text).bind fun parent => ?_
    cases parent with
    | object r =>
      refine reads_heap.keeps.bind fun h => ?_
      split
      · exact keeps_pure _
      · exact keeps_throw _
    | _ => exact keeps_throw _

variable (hP : Heap.Lasting P)

include hP

theorem lasting_runMember (d : Decoration) (target : Value) (keys : List (Nat × Value)) :
    (runMember host names d target keys).Keeps P := by
  unfold runMember
  cases d.members.head?.bind fun i => keys.lookup i with
  | none => exact keeps_throw _
  | some key =>
    refine (keeps_mapM (keeps_resolve hhost) d.decorators).bind fun decorators => ?_
    refine (keeps_ownDescriptor hP target key).bind fun initial => ?_
    refine (keeps_runMemberChain hhost hP _ target decorators initial).bind fun result => ?_
    exact (lasting_install hP target key result).bind fun _ => keeps_pure result

theorem lasting_runDecoration (cls prototype : Value) (keys : List (Nat × Value)) (r : Realization)
    (d : Decoration) : (runDecoration host names cls prototype keys r d).Keeps P := by
  unfold runDecoration
  cases d.subject with
  | whole =>
    exact (keeps_mapM (keeps_resolve hhost) d.decorators).bind fun decorators =>
      (keeps_runClassChain hhost _ decorators cls).bind fun result => keeps_pure _
  | property _ _ _ => exact (lasting_runMember hhost hP d _ keys).bind fun result => keeps_pure _

theorem lasting_ofClass (c : ClassDecl) : (ofClass host names c).Keeps P := by
  unfold ofClass
  cases c.decorations {} with
  | error f => exact keeps_throw _
  | ok p =>
    refine (lasting_parentOf hhost c).bind fun parent => ?_
    refine (keeps_newFunction hP c.bindingName none c.construct? parent).bind fun cls => ?_
    refine (reads_objectOf cls "prototype").keeps.bind fun q => ?_
    refine (lasting_keysOf hhost c.members p.1).bind fun keys => ?_
    refine (lasting_installMembers hP c.members keys _ (some cls)).bind fun _ => ?_
    exact keeps_foldlM (lasting_runDecoration hhost hP cls _ keys) p.1 _

theorem lasting_ofObject (o : ObjectLiteral) : (ofObject host names o).Keeps P := by
  unfold ofObject
  cases o.decorations "_obj" {} with
  | error f => exact keeps_throw _
  | ok p =>
    obtain ⟨decorations, scope⟩ := p
    have hnew : (onHeap (·.newObject { label := some "_obj" }) : Act σ Ref).Keeps P :=
      keeps_onHeap fun h hh => hP.newObject hh none (some "_obj") (.inl rfl)
    simp only [pure_bind]
    refine hnew.bind fun r => ?_
    refine (lasting_keysOf hhost o.members decorations).bind fun keys => ?_
    refine (lasting_installMembers hP o.members keys (.object r) none).bind fun _ => ?_
    refine keeps_foldlM (fun a d => ?_) decorations _
    exact (lasting_runMember hhost hP d (.object r) keys).bind fun _ => keeps_pure _

/-- A realization keeps what lasts, whether it returns or fails. -/
theorem lasting_ofDeclaration (names : Names) (d : Declaration) :
    (ofDeclaration host names d).Keeps P := by
  cases d with
  | cls c => exact lasting_ofClass hhost hP c
  | object o => exact lasting_ofObject hhost hP o

end Declarations

end Realization

/-! ## Runs -/

/-- The heaps to which operations and realizations lead. A realization may call functions of the
host and fetch attributes from it, and what this does leads on in the same way. -/
inductive Heap.Leads : Heap → Heap → Prop where
  | refl (h : Heap) : Leads h h
  | trans {h h₁ h₂ : Heap} (first : Leads h h₁) (second : Leads h₁ h₂) : Leads h h₂
  | operation {h : Heap} {op : Operation} (grounded : op.Grounded h) : Leads h (op.perform h)
  | realization {σ : Type} {host : Host σ}
      (calls : ∀ f arguments w, Leads w.heap ((host.call f arguments).runIn w).2.heap)
      (fetches : ∀ v name w, Leads w.heap ((host.fetch v name).runIn w).2.heap)
      (names : Names) (d : Declaration) (w : World σ) :
      Leads w.heap ((Realization.ofDeclaration host names d).runIn w).2.heap

/-- A history of operations that are grounded in every heap leads on. -/
theorem Heap.Leads.after {ops : List Operation} (hops : ∀ op ∈ ops, ∀ h, Operation.Grounded h op)
    (h : Heap) : Leads h (h.after ops) := by
  induction ops generalizing h with
  | nil => exact .refl h
  | cons op ops ih =>
    obtain ⟨hop, hrest⟩ := List.forall_mem_cons.1 hops
    exact .trans (.operation (hop h)) (ih hrest _)

/-- What lasts holds wherever operations and realizations lead. -/
theorem Heap.Lasting.leads (hP : Heap.Lasting P) {h h' : Heap} (hleads : h.Leads h') :
    P h → P h' := by
  induction hleads with
  | refl h => exact id
  | trans _ _ ihFirst ihSecond => exact ihSecond ∘ ihFirst
  | operation grounded => exact hP.perform grounded
  | realization _ _ names d w ihCalls ihFetches =>
    exact Realization.lasting_ofDeclaration ⟨ihCalls, ihFetches⟩ hP names d w

end Undecorate
