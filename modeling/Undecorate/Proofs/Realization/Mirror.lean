import Undecorate.Proofs.Object.Mirror
import Undecorate.Realization

/-! # Realizations in displaced worlds

A declaration that is realized in a displaced world comes to the displaced realization: keys,
parents and decorators are evaluated, members installed and chains run as they are at home, as long
as the functions of the host and the values of the names do not tell the two worlds apart.

* `mirrors_evaluate`: expressions have the displaced values;
* `mirrors_runMemberChain`, `mirrors_runClassChain`: chains end alike;
* `mirrors_ofDeclaration`: so do declarations.
-/

namespace Undecorate

variable {σ : Type} {T : Displacement} {room : Heap} {alike : σ → σ → Prop}

/-! ## Constants -/

namespace Expression

mutual

/-- Every constant in the expression has the property. -/
def Constants (P : Value → Prop) : Expression → Prop
  | .constant v => P v
  | .call _ _ arguments => ConstantsOfAll P arguments
  | .path _ | .unreadable _ => True

/-- Every constant in the expressions has the property. -/
def ConstantsOfAll (P : Value → Prop) : List Expression → Prop
  | [] => True
  | e :: es => Constants P e ∧ ConstantsOfAll P es

end

theorem constantsOfAll_iff {P : Value → Prop} {es : List Expression} :
    ConstantsOfAll P es ↔ ∀ e ∈ es, Constants P e := by
  induction es with
  | nil => simp [ConstantsOfAll]
  | cons e es ih => rw [ConstantsOfAll, ih, List.forall_mem_cons]

theorem value_of_keyword? {cs : List Char} {v : Value} (h : keyword? cs = some v) :
    T.value v = v := by
  have hmem := mem_of_lookup h
  simp only [List.mem_cons, Prod.mk.injEq, List.not_mem_nil, or_false] at hmem
  rcases hmem with ⟨-, rfl⟩ | ⟨-, rfl⟩ | ⟨-, rfl⟩ | ⟨-, rfl⟩ <;> rfl

theorem constants_readNumber (cs : List Char) :
    Constants (fun v => T.value v = v) (ofReading (readNumber cs)) := by
  unfold readNumber
  dsimp only
  split
  · cases Number.readMarked (cs.filter (· != '_')) with
    | ok n => exact (rfl : T.value (.int n .shared) = .int n .shared)
    | error f => trivial
  · cases Number.readDouble (cs.filter (· != '_')) with
    | ok x =>
      dsimp only [Except.map, ofReading, Constants]
      split <;> rfl
    | error f => trivial

theorem constants_readQuoted (quote : Char) (body : List Char) :
    Constants (fun v => T.value v = v) (ofReading (readQuoted quote body)) := by
  unfold readQuoted
  dsimp only
  split
  · exact rfl
  · trivial

/-- What an expression says itself refers to no place. -/
theorem constants_parseTo (depth : Nat) (text : String) :
    Constants (fun v => T.value v = v) (parseTo depth text) := by
  induction depth generalizing text with
  | zero => trivial
  | succ depth ih =>
    unfold parseTo
    dsimp only
    split
    · rename_i v hv
      exact value_of_keyword? hv
    · split
      · exact constants_readNumber _
      · split
        · exact constants_readQuoted _ _
        · split
          · trivial
          · split
            · refine constantsOfAll_iff.2 fun e he => ?_
              obtain ⟨a, -, rfl⟩ := List.mem_map.1 he
              exact ih _
            · trivial

end Expression

/-! ## Expressions -/

section Expressions

open Act

variable {host : Host σ} {names : Names}

/-- The values of the names are where they were. -/
def Names.Fixed (names : Names) (T : Displacement) : Prop := ∀ p ∈ names, T.value p.2 = p.2

variable (hhost : host.Mirrored T room alike) (hnames : names.Fixed T)

include hhost

theorem mirrors_isObjectLike (v : Value) :
    Mirrors T room alike id (Names.isObjectLike host v) (Names.isObjectLike host (T.value v)) := by
  unfold Names.isObjectLike
  cases v with
  | descriptor | source | member => exact mirrors_pure _
  | _ =>
    refine (mirrors_hasAttribute hhost _ _).bind fun has => ?_
    rw [id]
    split
    · exact mirrors_hasAttribute hhost _ _
    · exact mirrors_pure _

theorem mirrors_member? (v : Value) (name : String) :
    Mirrors T room alike (Option.map T.value) (Names.member? host v name)
      (Names.member? host (T.value v) name) := by
  have hread {x y : Act σ Value} (h : Mirrors T room alike T.value x y) :
      Mirrors T room alike (Option.map T.value) (x >>= fun v => pure v.present?)
        (y >>= fun v => pure v.present?) := by
    refine h.bind fun found => ?_
    rw [Displacement.present?_value]
    exact mirrors_pure _
  unfold Names.member?
  cases v with
  | record fields =>
    dsimp only [Displacement.value]
    rw [Displacement.lookup_fields]
    exact mirrors_pure _
  | object r => exact hread (mirrors_getProperty hhost (.object r) (.text name .shared) .absent)
  | _ =>
    refine (mirrors_isObjectLike hhost _).bind fun like => ?_
    rw [id]
    split
    · refine (mirrors_getAttribute hhost _ _).bind fun get => hread ?_
      exact mirrors_call hhost get [.text name .shared]
    · refine (mirrors_hasAttribute hhost _ _).bind fun has => ?_
      rw [id]
      split
      · exact (mirrors_getAttribute hhost _ _).bind fun found => mirrors_pure _
      · exact mirrors_pure _

theorem mirrors_member (path : String) (v : Value) (name : String) :
    Mirrors T room alike T.value (Names.member host path v name)
      (Names.member host path (T.value v) name) := by
  refine (mirrors_member? hhost v name).bind fun found? => ?_
  cases found? with
  | none => exact mirrors_throw _
  | some found => exact mirrors_pure found

include hnames

theorem mirrors_lookup (path : String) :
    Mirrors T room alike T.value (names.lookup host path) (names.lookup host path) := by
  unfold Names.lookup
  cases (Text.cutAt '.' path).map Text.strip with
  | nil => exact mirrors_throw _
  | cons first rest =>
    dsimp only
    cases hfirst : List.lookup first names with
    | none => exact mirrors_throw _
    | some v =>
      have hfixed : T.value v = v := hnames _ (mem_of_lookup hfirst)
      have hrest : Mirrors T room alike T.value (rest.foldlM (Names.member host path) v)
          (rest.foldlM (Names.member host path) (T.value v)) :=
        mirrors_foldlM (mirrors_member hhost path) v
      rwa [hfixed] at hrest

theorem mirrors_callee (text path : String) :
    Mirrors T room alike T.value (names.callee host text path) (names.callee host text path) := by
  unfold Names.callee
  refine (mirrors_lookup hhost hnames path).bind fun v => mirrors_heap_bind fun h h' hm => ?_
  rw [hm.isCallable]
  cases h.isCallable v with
  | true => exact mirrors_pure v
  | false => exact mirrors_throw _

omit hhost hnames

mutual

theorem mirrors_eval (hhost : host.Mirrored T room alike) (hnames : names.Fixed T) :
    ∀ e : Expression, e.Constants (fun v => T.value v = v) →
    Mirrors T room alike T.value (e.eval host names) (e.eval host names)
  | .constant v, h => by
    have hpure : Mirrors T room alike T.value (pure v : Act σ Value) (pure (T.value v)) :=
      mirrors_pure v
    rw [Expression.Constants] at h
    rw [Expression.eval]
    rwa [h] at hpure
  | .path text, _ => by
    rw [Expression.eval]
    exact mirrors_lookup hhost hnames text
  | .call text callee arguments, h => by
    rw [Expression.Constants] at h
    rw [Expression.eval]
    exact (mirrors_callee hhost hnames text callee).bind fun f =>
      (mirrors_evalAll hhost hnames arguments h).bind fun vs => mirrors_call hhost f vs
  | .unreadable f, _ => by
    rw [Expression.eval]
    exact mirrors_throw _

theorem mirrors_evalAll (hhost : host.Mirrored T room alike) (hnames : names.Fixed T) :
    ∀ es : List Expression,
    Expression.ConstantsOfAll (fun v => T.value v = v) es →
    Mirrors T room alike (List.map T.value) (Expression.evalAll host names es)
      (Expression.evalAll host names es)
  | [], _ => by
    rw [Expression.evalAll]
    exact mirrors_pure []
  | e :: es, h => by
    rw [Expression.ConstantsOfAll] at h
    rw [Expression.evalAll]
    refine (mirrors_eval hhost hnames e h.1).bind fun v => ?_
    exact (mirrors_evalAll hhost hnames es h.2).bind fun vs => mirrors_pure (v :: vs)

end

include hhost hnames

theorem mirrors_evaluate (text : String) :
    Mirrors T room alike T.value (names.evaluate host text) (names.evaluate host text) :=
  mirrors_eval hhost hnames _ (Expression.constants_parseTo _ text)

theorem mirrors_resolve (d : Decorator) :
    Mirrors T room alike T.value (names.resolve host d) (names.resolve host d) := by
  unfold Names.resolve
  cases d.callee with
  | none => exact mirrors_evaluate hhost hnames d.text
  | some path =>
    dsimp only
    split
    · refine (mirrors_callee hhost hnames d.text path).bind fun f => ?_
      refine (mirrors_mapM fun text => mirrors_evaluate hhost hnames text).bind fun vs => ?_
      exact mirrors_call hhost f vs
    · exact mirrors_lookup hhost hnames path

end Expressions

/-! ## Chains -/

namespace Displacement

/-- The displaced outcome. -/
def outcome (T : Displacement) : Outcome → Outcome
  | .keep => .keep
  | .replace v => .replace (T.value v)

/-- The displaced step. -/
def step (T : Displacement) (s : Step) : Step := { s with decorator := T.value s.decorator }

/-- The displaced place of a chain. -/
def site (T : Displacement) (site : ChainSite) : ChainSite :=
  { site with key := T.value site.key }

/-- The displaced result of a chain. -/
def chainResult (T : Displacement) (r : ChainResult) : ChainResult :=
  { r with value := T.value r.value }

theorem outcome_of (v : Value) : Outcome.of (T.value v) = T.outcome (.of v) := by
  cases v <;> rfl

theorem isReplacement_outcome (o : Outcome) : (T.outcome o).isReplacement = o.isReplacement := by
  cases o <;> rfl

theorem record_chainResult (r : ChainResult) (s : Step) (label : Text) (o : Outcome) (v : Value) :
    (T.chainResult r).record (T.step s) label (T.outcome o) (T.value v) =
      T.chainResult (r.record s label o v) := by
  unfold ChainResult.record
  rw [isReplacement_outcome]
  rfl

theorem applicationOrder_map (decorators : List Value) :
    applicationOrder (decorators.map T.value) = (applicationOrder decorators).map T.step := by
  unfold applicationOrder evaluationOrder
  rw [List.zipIdx_map, List.map_map, List.map_reverse, List.map_map]
  rfl

variable {h h' : Heap} (hm : Heap.Moved T room h h')

include hm

theorem fault_mappingFault (f : MappingFault) :
    (T.mappingFault f).fault h'.view = f.fault h.view := by
  cases f with
  | notCallable v => simp only [mappingFault, MappingFault.fault, hm.view]
  | _ => rfl

theorem label_site (site : ChainSite) (s : Step) :
    (T.site site).label h' (T.step s) = site.label h s := by
  unfold ChainSite.label
  dsimp only [Displacement.site, step]
  cases site.labels[s.position]? with
  | some text => rfl
  | none =>
    have hview := hm.view s.decorator
    cases hd : s.decorator with
    | function f => rfl
    | foreign x =>
      rw [hd] at hview
      exact congrArg (fun u => x.name?.elim u.quoted Text.ofString) hview
    | _ =>
      rw [hd] at hview
      exact congrArg View.quoted hview

theorem facts_site (site : ChainSite) (label : Text) :
    (T.site site).facts label h' = site.facts label h := by
  unfold ChainSite.facts
  dsimp only [Displacement.site]
  rw [hm.view]

end Displacement

/-- The facts that are told in the displaced world are those that are told at home. -/
def Facts.Mirrored (T : Displacement) (room : Heap) (facts facts' : Facts) : Prop :=
  ∀ h h', Heap.Moved T room h h' → facts' h' = facts h

section Chains

open Act

theorem mirrors_checkEnding (f : MappingFault) :
    Mirrors T room alike id (checkEnding f : Act σ Unit) (checkEnding (T.mappingFault f)) := by
  unfold checkEnding
  cases f with
  | notCallable v =>
    refine (mirrors_view v).bind fun u => ?_
    rw [id]
    split
    · exact mirrors_throw _
    · exact mirrors_pure _
  | _ => exact mirrors_pure _

variable {facts facts' : Facts} (hfacts : Facts.Mirrored T room facts facts')

include hfacts

theorem mirrors_coerceDescriptor (returned : Value) :
    Mirrors T room alike T.value (coerceDescriptor returned facts : Act σ Value)
      (coerceDescriptor (T.value returned) facts') := by
  unfold coerceDescriptor
  refine mirrors_heap_bind fun h h' hm => ?_
  rw [hm.view, hfacts h h' hm]
  cases returned with
  | descriptor r => exact mirrors_pure (Value.descriptor r)
  | record fields copy =>
    dsimp only [Displacement.value]
    rw [Displacement.ofMapping_fields hm.isCallable]
    cases Descriptor.ofMapping h.isCallable fields with
    | ok d => exact mirrors_newDescriptor d
    | error f =>
      refine (mirrors_checkEnding f).bind fun _ => ?_
      refine (mirrors_checkQuotable (.record fields copy)).bind fun _ => ?_
      rw [Displacement.fault_mappingFault hm]
      exact mirrors_throw _
  | _ => exact (mirrors_checkQuotable _).bind fun _ => mirrors_throw _

theorem mirrors_carryForward (current : Value) (outcome : Outcome) :
    Mirrors T room alike T.value (carryForward current outcome facts : Act σ Value)
      (carryForward (T.value current) (T.outcome outcome) facts') := by
  cases outcome with
  | keep => exact mirrors_pure current
  | replace v => exact mirrors_coerceDescriptor hfacts v

theorem mirrors_carryClass (current : Value) (outcome : Outcome) :
    Mirrors T room alike T.value (carryClass current outcome facts : Act σ Value)
      (carryClass (T.value current) (T.outcome outcome) facts') := by
  unfold carryClass
  cases outcome with
  | keep => exact mirrors_pure current
  | replace v =>
    refine mirrors_heap_bind fun h h' hm => ?_
    rw [hm.isCallable, hm.view, hfacts h h' hm]
    cases h.isCallable v with
    | true => exact mirrors_pure v
    | false => exact (mirrors_checkQuotable v).bind fun _ => mirrors_throw _

variable {host : Host σ} (hhost : host.Mirrored T room alike)

include hhost

theorem mirrors_invoke (decorator : Value) (arguments : List Value) (label : Text) :
    Mirrors T room alike T.outcome (invoke host decorator arguments label facts)
      (invoke host (T.value decorator) (arguments.map T.value) label facts') := by
  unfold invoke
  refine mirrors_heap_bind fun h h' hm => ?_
  rw [hm.isCallable, hfacts h h' hm]
  cases h.isCallable decorator with
  | false => exact mirrors_throw _
  | true =>
    refine Mirrors.bind (e := T.value) ?_ fun returned => ?_
    · refine (mirrors_call hhost decorator arguments).tryCatch fun fault => ?_
      refine mirrors_heap_bind fun h h' hm => ?_
      rw [hfacts h h' hm]
      exact mirrors_throw _
    · rw [Displacement.outcome_of]
      exact mirrors_pure _

omit hfacts

section Runs

variable {site : ChainSite} {arguments arguments' : Value → List Value}
  {carry : Value → Outcome → Facts → Act σ Value}
  (harguments : ∀ v, arguments' (T.value v) = (arguments v).map T.value)
  (hcarry : ∀ {facts facts'}, Facts.Mirrored T room facts facts' → ∀ v o,
    Mirrors T room alike T.value (carry v o facts) (carry (T.value v) (T.outcome o) facts'))

include harguments hcarry

theorem mirrors_applyStep (r : ChainResult) (s : Step) :
    Mirrors T room alike T.chainResult (applyStep host site arguments carry r s)
      (applyStep host (T.site site) arguments' carry (T.chainResult r) (T.step s)) := by
  have hrest : Mirrors T room alike T.chainResult (do
      let label := site.label (← heap) s
      let outcome ← invoke host s.decorator (arguments r.value) label (site.facts label)
      let value ← carry r.value outcome (site.facts label)
      return r.record s label outcome value) (do
      let label := (T.site site).label (← heap) (T.step s)
      let outcome ← invoke host (T.step s).decorator (arguments' (T.chainResult r).value) label
        ((T.site site).facts label)
      let value ← carry (T.chainResult r).value outcome ((T.site site).facts label)
      return (T.chainResult r).record (T.step s) label outcome value) := by
    refine mirrors_heap_bind fun h h' hm => ?_
    rw [Displacement.label_site hm]
    have hfacts : Facts.Mirrored T room (site.facts (site.label h s))
        ((T.site site).facts (site.label h s)) := fun _ _ hi => Displacement.facts_site hi site _
    have hinvoke := mirrors_invoke hfacts hhost s.decorator (arguments r.value) (site.label h s)
    rw [← harguments] at hinvoke
    refine hinvoke.bind fun o => (hcarry hfacts r.value o).bind fun v => ?_
    rw [Displacement.record_chainResult]
    exact mirrors_pure _
  unfold applyStep
  cases hlabel : (site.labels[s.position]?).isNone with
  | true =>
    have hlabel' : ((T.site site).labels[(T.step s).position]?).isNone = true := hlabel
    rw [if_pos rfl, if_pos hlabel']
    exact (mirrors_checkQuotable s.decorator).bind fun _ => hrest
  | false =>
    have hlabel' : ((T.site site).labels[(T.step s).position]?).isNone = false := hlabel
    rw [if_neg Bool.false_ne_true, if_neg (by rw [hlabel']; exact Bool.false_ne_true)]
    exact hrest

theorem mirrors_runChain (decorators : List Value) (initial : Value) :
    Mirrors T room alike T.chainResult (runChain host site arguments carry decorators initial)
      (runChain host (T.site site) arguments' carry (decorators.map T.value)
        (T.value initial)) := by
  unfold runChain
  rw [Displacement.applicationOrder_map, List.foldlM_map]
  exact mirrors_foldlM (mirrors_applyStep hhost harguments hcarry) _

end Runs

theorem mirrors_runMemberChain (site : ChainSite) (target : Value) (decorators : List Value)
    (initial : Value) :
    Mirrors T room alike T.chainResult (runMemberChain host site target decorators initial)
      (runMemberChain host (T.site site) (T.value target) (decorators.map T.value)
        (T.value initial)) := by
  unfold runMemberChain
  refine (mirrors_runChain hhost (fun _ => rfl) mirrors_carryForward decorators
    initial).bind fun r => ?_
  exact (mirrors_checkQuotable site.key).bind fun _ => mirrors_pure r

theorem mirrors_runClassChain (site : ChainSite) (decorators : List Value) (initial : Value) :
    Mirrors T room alike T.chainResult (runClassChain host site decorators initial)
      (runClassChain host (T.site site) (decorators.map T.value) (T.value initial)) :=
  mirrors_runChain hhost (fun _ => rfl) mirrors_carryClass decorators initial

omit hhost

theorem mirrors_install (target key : Value) (r : ChainResult) :
    Mirrors T room alike id (install target key r : Act σ Bool)
      (install (T.value target) (T.value key) (T.chainResult r)) := by
  obtain ⟨value, replaced, invocations⟩ := r
  unfold install
  cases replaced with
  | true => exact (mirrors_define target key value).bind fun _ => mirrors_pure true
  | false => exact (mirrors_checkQuotable key).bind fun _ => mirrors_pure false

end Chains

/-- The displaced realization. -/
def Displacement.realization (T : Displacement) (r : Realization) : Realization where
  value := T.value r.value
  decorations := r.decorations
  results := r.results.map fun p => (p.1, T.chainResult p.2)

/-! ## Members -/

namespace Realization

open Act

/-- The displaced keys of members. -/
def movedKeys (T : Displacement) (keys : List (Nat × Value)) : List (Nat × Value) :=
  keys.map fun p => (p.1, T.value p.2)

theorem lookup_movedKeys (keys : List (Nat × Value)) (i : Nat) :
    (movedKeys T keys).lookup i = (keys.lookup i).map T.value :=
  lookup_map_snd T.value keys i

theorem mirrors_memberFunction (key : Value) (m : Member) :
    Mirrors T room alike T.value (memberFunction key m : Act σ Value)
      (memberFunction (T.value key) m) :=
  (mirrors_checkQuotable key).bind fun _ => (mirrors_view key).bind fun u =>
    mirrors_newFunction u.shown none (some m) .absent

/-- A property is defined by a new descriptor. -/
theorem mirrors_defineNew (target key : Value) (d : Descriptor Value) :
    Mirrors T room alike id (newDescriptor d >>= define target key : Act σ Unit)
      (newDescriptor (T.descriptor d) >>= define (T.value target) (T.value key)) :=
  (mirrors_newDescriptor d).bind fun v => mirrors_define target key v

theorem mirrors_installAccessor (target key : Value) (m : Member) (function : Value) :
    Mirrors T room alike id (installAccessor target key m function : Act σ Unit)
      (installAccessor (T.value target) (T.value key) m (T.value function)) := by
  have hfirst : Mirrors T room alike id (if m.kind = .getter
        then newDescriptor (.accessor (some function) none) >>= define target key
        else newDescriptor (.accessor none (some function)) >>= define target key : Act σ Unit)
      (if m.kind = .getter
        then newDescriptor (.accessor (some (T.value function)) none) >>=
          define (T.value target) (T.value key)
        else newDescriptor (.accessor none (some (T.value function))) >>=
          define (T.value target) (T.value key)) := by
    split
    · exact mirrors_defineNew target key (.accessor (some function) none)
    · exact mirrors_defineNew target key (.accessor none (some function))
  unfold installAccessor
  refine (mirrors_ownDescriptor target key).bind fun existing => ?_
  cases existing with
  | descriptor r =>
    refine mirrors_heap_bind fun h h' hm => ?_
    have haccessor : (h'.descriptor? (T.descriptors.move r)).any (·.isAccessor) =
        (h.descriptor? r).any (·.isAccessor) := by
      rw [hm.descriptor?]
      cases h.descriptor? r <;> rfl
    rw [haccessor]
    cases (h.descriptor? r).any (·.isAccessor) with
    | true =>
      exact (mirrors_assign (.descriptor r) _ function).bind fun _ =>
        mirrors_define target key (.descriptor r)
    | false => exact hfirst
  | _ => exact hfirst

/-- The value that is known by its text only is the copy of the displaced descriptor. -/
theorem mirrors_newPlain (value : Option String) :
    Mirrors T room alike T.value (newPlain value : Act σ Value) (newPlain value) := by
  unfold newPlain
  refine Mirrors.bind (e := T.descriptors.move) (mirrors_onHeap fun h h' hm => ?_)
    fun r => mirrors_pure (Value.descriptor r)
  have hsource (n : Nat) : T.descriptor (.plain (value.map (.source · (.made n)))) =
      .plain (value.map (.source · (.made (T.descriptors.move n)))) := by
    cases value <;> rfl
  rw [← hm.descriptors.move_size, ← hsource]
  exact hm.newDescriptor _

theorem mirrors_installMember (target key : Value) (m : Member) :
    Mirrors T room alike id (installMember target key m : Act σ Unit)
      (installMember (T.value target) (T.value key) m) := by
  unfold installMember
  have hplain : Mirrors T room alike id (newPlain m.value >>= define target key : Act σ Unit)
      (newPlain m.value >>= define (T.value target) (T.value key)) :=
    (mirrors_newPlain m.value).bind fun v => mirrors_define target key v
  cases m.kind with
  | method =>
    exact (mirrors_memberFunction key m).bind fun f =>
      mirrors_defineNew target key (.method (some f))
  | getter | setter =>
    exact (mirrors_memberFunction key m).bind fun f => mirrors_installAccessor target key m f
  | _ => exact hplain

theorem mirrors_installMembers (members : List Member) (keys : List (Nat × Value)) (home : Value)
    (cls : Option Value) :
    Mirrors T room alike id (installMembers members keys home cls : Act σ Unit)
      (installMembers members (movedKeys T keys) (T.value home) (cls.map T.value)) := by
  unfold installMembers
  generalize members.zipIdx = items
  induction items with
  | nil => exact mirrors_pure ()
  | cons p items ih =>
    obtain ⟨m, i⟩ := p
    refine Mirrors.bind (e := id) ?_ fun _ => ih
    dsimp only
    rw [lookup_movedKeys]
    cases keys.lookup i with
    | none => exact mirrors_pure ()
    | some key =>
      have htarget : (if m.isStatic then (cls.map T.value).getD (T.value home) else T.value home) =
          T.value (if m.isStatic then cls.getD home else home) := by
        split
        · cases cls <;> rfl
        · rfl
      dsimp only [Option.map_some]
      rw [htarget]
      split
      · exact mirrors_installMember _ key m
      · exact mirrors_pure ()

/-! ## Keys and decorations -/

section Names

variable {host : Host σ} {names : Names} (hhost : host.Mirrored T room alike)
  (hnames : names.Fixed T)

include hhost hnames

theorem mirrors_keyOf (shared : List (Nat × Nat)) (keys : List (Nat × Value)) (place : Nat)
    (key : Key) :
    Mirrors T room alike T.value (keyOf host names shared keys place key)
      (keyOf host names shared (movedKeys T keys) place key) := by
  unfold keyOf
  cases shared.lookup place with
  | some first =>
    dsimp only
    rw [lookup_movedKeys]
    cases keys.lookup first with
    | some v => exact mirrors_pure v
    | none => exact mirrors_throw _
  | none =>
    cases key.staticName? with
    | some name => exact mirrors_pure (Value.text name .shared)
    | none => exact mirrors_evaluate hhost hnames key.text

theorem mirrors_keysOf (members : List Member) (decorations : List Decoration) :
    Mirrors T room alike (movedKeys T) (keysOf host names members decorations)
      (keysOf host names members decorations) := by
  unfold keysOf
  refine mirrors_foldlM (fun keys p => ?_) []
  obtain ⟨m, i⟩ := p
  dsimp only
  cases m.key with
  | none => exact mirrors_pure keys
  | some key =>
    refine (mirrors_keyOf hhost hnames _ keys i key).bind fun v => ?_
    have hkeys : movedKeys T (keys ++ [(i, v)]) = movedKeys T keys ++ [(i, T.value v)] := by
      rw [movedKeys, List.map_append]
      rfl
    rw [← hkeys]
    exact mirrors_pure _

theorem mirrors_resolveAll (d : Decoration) :
    Mirrors T room alike (List.map T.value) (resolveAll host names d) (resolveAll host names d) :=
  mirrors_mapM fun decorator => mirrors_resolve hhost hnames decorator

theorem mirrors_runMember (d : Decoration) (target : Value) (keys : List (Nat × Value)) :
    Mirrors T room alike T.chainResult (runMember host names d target keys)
      (runMember host names d (T.value target) (movedKeys T keys)) := by
  unfold runMember
  have hkey : (d.members.head?.bind fun i => (movedKeys T keys).lookup i) =
      (d.members.head?.bind fun i => keys.lookup i).map T.value := by
    cases d.members.head? with
    | none => rfl
    | some i => exact lookup_movedKeys keys i
  rw [hkey]
  cases d.members.head?.bind fun i => keys.lookup i with
  | none => exact mirrors_throw _
  | some key =>
    refine (mirrors_resolveAll hhost hnames d).bind fun decorators => ?_
    refine (mirrors_ownDescriptor target key).bind fun initial => ?_
    refine (mirrors_runMemberChain hhost (chainSite d key) target decorators initial).bind
      fun result => ?_
    exact (mirrors_install target key result).bind fun _ => mirrors_pure result

/-! ## Declarations -/

omit hhost hnames in
/-- One more result is displaced with the others. -/
theorem moved_addResult (r : Realization) (d : Decoration) (result : ChainResult) :
    T.realization { r with results := r.results ++ [(d, result)] } =
      { T.realization r with
        results := (T.realization r).results ++ [(d, T.chainResult result)] } := by
  simp [Displacement.realization]

theorem mirrors_runDecoration (cls prototype : Value) (keys : List (Nat × Value)) (r : Realization)
    (d : Decoration) :
    Mirrors T room alike T.realization (runDecoration host names cls prototype keys r d)
      (runDecoration host names (T.value cls) (T.value prototype) (movedKeys T keys)
        (T.realization r) d) := by
  unfold runDecoration
  cases d.subject with
  | whole =>
    refine (mirrors_resolveAll hhost hnames d).bind fun decorators => ?_
    refine (mirrors_runClassChain hhost (chainSite d .absent) decorators cls).bind
      fun result => ?_
    have hmoved := moved_addResult (T := T) { r with value := result.value } d result
    exact hmoved ▸ mirrors_pure _
  | property key isStatic members =>
    have htarget : (if d.target.kind = .construct then T.value cls else T.value prototype) =
        T.value (if d.target.kind = .construct then cls else prototype) := by
      split <;> rfl
    dsimp only
    rw [htarget]
    refine (mirrors_runMember hhost hnames d _ keys).bind fun result => ?_
    rw [← moved_addResult]
    exact mirrors_pure _

theorem mirrors_parentOf (c : ClassDecl) :
    Mirrors T room alike T.value (parentOf host names c) (parentOf host names c) := by
  unfold parentOf
  cases c.parent? with
  | none => exact mirrors_pure Value.absent
  | some text =>
    refine (mirrors_evaluate hhost hnames text).bind fun parent => ?_
    cases parent with
    | object r =>
      refine mirrors_heap_bind fun h h' hm => ?_
      rw [hm.callable?, Option.isSome_map]
      cases (h.callable? r).isSome with
      | true => exact mirrors_pure (Value.object r)
      | false => exact mirrors_throw _
    | _ => exact mirrors_throw _

theorem mirrors_ofClass (c : ClassDecl) :
    Mirrors T room alike T.realization (ofClass host names c) (ofClass host names c) := by
  unfold ofClass
  cases c.decorations {} with
  | error f => exact mirrors_throw _
  | ok p =>
    obtain ⟨decorations, scope⟩ := p
    refine (mirrors_parentOf hhost hnames c).bind fun parent => ?_
    refine (mirrors_newFunction c.bindingName none c.construct? parent).bind fun cls => ?_
    refine (mirrors_objectOf cls "prototype").bind fun q => ?_
    have hprototype : Value.ofOption ((T.object q.2).callable.map fun f => .object f.prototype) =
        T.value (.ofOption (q.2.callable.map fun f => .object f.prototype)) := by
      rw [← Displacement.ofOption_value]
      dsimp only [Displacement.object]
      cases q.2.callable <;> rfl
    dsimp only [Prod.map]
    rw [hprototype]
    refine (mirrors_keysOf hhost hnames c.members decorations).bind fun keys => ?_
    refine (mirrors_installMembers c.members keys _ (some cls)).bind fun _ => ?_
    exact mirrors_foldlM (mirrors_runDecoration hhost hnames cls _ keys)
      { value := cls, decorations }

theorem mirrors_ofObject (o : ObjectLiteral) :
    Mirrors T room alike T.realization (ofObject host names o) (ofObject host names o) := by
  unfold ofObject
  cases o.decorations "_obj" {} with
  | error f => exact mirrors_throw _
  | ok p =>
    obtain ⟨decorations, scope⟩ := p
    have hnew : Mirrors T room alike T.objects.move
        (onHeap (·.newObject { label := some "_obj" }) : Act σ Ref)
        (onHeap (·.newObject { label := some "_obj" })) :=
      mirrors_onHeap fun _ _ hm => hm.newObject { label := some "_obj" }
    simp only [pure_bind]
    refine hnew.bind fun r => ?_
    refine (mirrors_keysOf hhost hnames o.members decorations).bind fun keys => ?_
    refine (mirrors_installMembers o.members keys (.object r) none).bind fun _ => ?_
    refine mirrors_foldlM (fun a d => ?_) ({ value := .object r, decorations } : Realization)
    refine (mirrors_runMember hhost hnames d (.object r) keys).bind fun result => ?_
    rw [← moved_addResult]
    exact mirrors_pure _

/-- A declaration comes in a displaced world to the displaced realization, or to the same fault. -/
theorem mirrors_ofDeclaration (d : Declaration) :
    Mirrors T room alike T.realization (ofDeclaration host names d)
      (ofDeclaration host names d) := by
  cases d with
  | cls c => exact mirrors_ofClass hhost hnames c
  | object o => exact mirrors_ofObject hhost hnames o

end Names

end Realization

end Undecorate
