import Undecorate.Engine.Lower
import Undecorate.Fault.Batch
import Undecorate.Proofs.Declaration.Failures
import Undecorate.Proofs.Engine.Locality
import Undecorate.Proofs.Fields

/-! # Faults that a batch recovers from

In a document with a complete tree nothing is missing when its sites are built and emitted, so
lowering it ends with a text, with an error of the engine or with a cut inside a character, and a
batch goes on after each of these.

* `member_whole`: a member that is built from a complete node has the parts of its kind;
* `emit_failsOnly`: emitting such members fails with errors of the engine only;
* `lower_failsOnly`: every fault of a lowering can be recovered from.
-/

namespace Undecorate

/-- A batch records the fault and goes on: it can be recovered from, and its text can be written. -/
def Fault.Recoverable (e : Fault) : Prop := e.ending? Fault.isRecoverable = none

namespace Diagnostic

theorem mem_of_mem_toldNotes {base notes : List (Text × Note)} {n : Text × Note}
    (h : n ∈ toldNotes base notes) : n ∈ base ∨ n ∈ notes := by
  induction notes generalizing base with
  | nil => exact .inl h
  | cons first notes ih =>
    rcases ih h with hbase | hnotes
    · dsimp only at hbase
      split at hbase
      · exact .inl hbase
      · rcases mem_of_mem_setField hbase with rfl | hbase
        · exact .inr List.mem_cons_self
        · exact .inl hbase
    · exact .inr (List.mem_cons_of_mem first hnotes)

/-- A diagnostic can be written if all of its facts can. -/
theorem obstacle_make {kind : Kind} {message : Text} {notes : List (Text × Note)}
    (h : ∀ n ∈ notes, n.2.obstacle? = none) : (make kind message notes).obstacle = none := by
  refine List.findSome?_eq_none_iff.2 fun n hn => ?_
  rcases mem_of_mem_toldNotes hn with hbase | hnotes
  · cases hbase
  · exact h n hnotes

end Diagnostic

theorem Note.obstacle?_range? (location : Option SourceRange) :
    (Note.range? location).obstacle? = none := by
  cases location <;> rfl

namespace Fault

theorem recoverable_of_obstacle {d : Diagnostic} (h : d.obstacle = none) :
    (Fault.refused d).Recoverable := by
  change d.obstacle.map Obstacle.fault = none
  rw [h]
  rfl

/-- A diagnostic whose facts can be written is recorded. -/
theorem recoverable_make {kind : Kind} {message : Text} {notes : List (Text × Note)}
    (h : ∀ n ∈ notes, n.2.obstacle? = none) :
    (Fault.refused (.make kind message notes)).Recoverable :=
  recoverable_of_obstacle (Diagnostic.obstacle_make h)

theorem recoverable_classification (message : Text) (location : Option SourceRange) :
    (Fault.refused (.classification message location)).Recoverable :=
  recoverable_make (List.forall_mem_singleton.2 (Note.obstacle?_range? location))

theorem recoverable_emission (message : Text) (form : String) (location : Option SourceRange) :
    (Fault.refused (.emission message form location)).Recoverable :=
  recoverable_make (List.forall_mem_cons.2
    ⟨rfl, List.forall_mem_singleton.2 (Note.obstacle?_range? location)⟩)

theorem recoverable_cutText : Fault.cutText.Recoverable := by
  unfold Recoverable
  decide

end Fault

/-- The member has the parts of its kind. -/
structure Member.Whole (m : Member) : Prop where
  body : m.kind.isFunction = true ∨ m.kind = .construct ∨ m.kind = .staticBlock →
    m.body.isSome = true
  value : m.kind = .property ∨ m.kind = .shorthand ∨ m.kind = .spread → m.value.isSome = true
  key : m.kind.isFunction = true ∨ m.kind = .field ∨ m.kind = .property ∨ m.kind = .shorthand →
    m.key.isSome = true

/-! ## Building -/

namespace Reading

variable {r : Reading} {t : Tree}

/-- Reading a stretch fails in a way that can be recovered from. -/
def Recovers (r : Reading) : Prop := ∀ a b, FailsOnly Fault.Recoverable (r.textOf a b)

theorem recovers_plain (source : List Char) : (plain source).Recovers := by
  intro a b
  simp only [plain]
  split
  · exact failsOnly_ok _
  · exact failsOnly_error Fault.recoverable_cutText

theorem recovers_bufferReading (b : Source.Buffer) : (Document.bufferReading b).Recovers := by
  intro a c
  simp only [Document.bufferReading]
  split
  · exact failsOnly_ok _
  · exact failsOnly_error Fault.recoverable_cutText

theorem Recovers.faults (h : r.Recovers) : r.Faults Fault.Recoverable fun _ => True where
  text a b _ _ := h a b
  below _ _ _ _ := trivial

theorem Recovers.text (h : r.Recovers) (t : Tree) : FailsOnly Fault.Recoverable (r.text t) :=
  h.faults.node trivial

theorem Recovers.declaration (h : r.Recovers) {l : Located} (hl : l.node.Complete) :
    FailsOnly Fault.Recoverable (r.declaration l) :=
  h.faults.declaration Fault.recoverable_classification hl trivial fun _ _ => trivial

end Reading

/-! ## Members with their parts -/

section Whole

variable {r : Reading} {t : Tree} {m : Member} {inClass : Bool} {preceding : List Tree}

/-- The parts of a member that depend on its kind, with the node that its key is read from. -/
structure Member.HasParts (m : Member) (name : Option Tree) : Prop where
  body : m.kind.isFunction = true ∨ m.kind = .construct ∨ m.kind = .staticBlock →
    m.body.isSome = true
  value : m.kind = .property ∨ m.kind = .shorthand ∨ m.kind = .spread → m.value.isSome = true
  name : m.kind.isFunction = true ∨ m.kind = .field ∨ m.kind = .property → name.isSome = true

theorem Reading.PartsOf.hasParts (ht : t.HasParts) {parts : Member} {name : Option Tree}
    (h : r.PartsOf t inClass parts name) : parts.HasParts name := by
  cases h with
  | method =>
    refine ⟨fun _ => rfl, ?_, fun _ => rfl⟩
    -- whatever its kind comes to be, a method has no value
    intro hkind
    dsimp only [MemberKind.ofModifiers] at hkind
    split_ifs at hkind <;> simp at hkind
  | field hkind =>
    exact ⟨by simp [MemberKind.isFunction], by simp, fun _ => ht.field hkind⟩
  | staticBlock => exact ⟨fun _ => rfl, by simp, by simp [MemberKind.isFunction]⟩
  | pair hkind =>
    exact ⟨by simp [MemberKind.isFunction], fun _ => rfl, fun _ => (ht.pair hkind).1⟩
  | shorthand =>
    exact ⟨by simp [MemberKind.isFunction], fun _ => rfl, by simp [MemberKind.isFunction]⟩
  | spread =>
    exact ⟨by simp [MemberKind.isFunction], fun _ => rfl, by simp [MemberKind.isFunction]⟩
  | other _ _ hother =>
    rcases hother with rfl | rfl
    · exact ⟨by simp [MemberKind.isFunction], by simp, by simp [MemberKind.isFunction]⟩
    · exact ⟨by simp [MemberKind.isFunction], by simp, by simp [MemberKind.isFunction]⟩

theorem member_whole (ht : t.HasParts) (h : r.member preceding inClass t = .ok m) : m.Whole := by
  obtain ⟨decorators, parts, name, -, hparts, hsourced⟩ := Reading.member_cases h
  have hwhole := hparts.hasParts ht
  cases hsourced with
  | shorthand => exact ⟨hwhole.body, hwhole.value, fun _ => rfl⟩
  | plain hshort hname =>
    refine ⟨hwhole.body, hwhole.value, fun hkind => ?_⟩
    -- all but shorthands have a node for their key
    have hsome : name.isSome = true := by
      refine hwhole.name ?_
      rcases hkind with hkind | hkind | hkind | hkind
      · exact .inl hkind
      · exact .inr (.inl hkind)
      · exact .inr (.inr hkind)
      · exact absurd hkind hshort
    rw [hname] at hsome
    cases hsome
  | keyed => exact ⟨hwhole.body, hwhole.value, fun _ => rfl⟩

theorem declaration_whole {l : Located} {d : Declaration} (hl : l.node.Complete)
    (h : r.declaration l = .ok d) : ∀ m ∈ d.members, m.Whole := by
  intro m hm
  obtain ⟨row, hrow, hbuilt⟩ := exists_row_of_member h hm
  exact member_whole (hl row.node (Located.row_mem_preorder hrow).1) hbuilt

end Whole

/-! ## Classifying -/

section Classify

/-- Members that come with their functions are no accessor without functions. -/
theorem Descriptor.ofMembers_failsOnly {members : List (Nat × Member)} :
    FailsOnly (fun f : GroupFault => f.fault.Recoverable)
      (Descriptor.ofMembers (members.map fun (i, m) => (m, some i))) := by
  generalize hpairs : (members.map fun (i, m) => (m, some i)) = pairs
  have hsome : ∀ p ∈ pairs, p.2.isSome = true := by
    rw [← hpairs]
    intro p hp
    obtain ⟨_, -, rfl⟩ := List.mem_map.1 hp
    rfl
  have hhead : ∀ (q : Member × Option Nat → Bool), pairs.filter q ≠ [] →
      (((pairs.filter q).head?).bind (·.2)).isSome = true := by
    intro q hne
    obtain ⟨p, ps, hp⟩ := List.exists_cons_of_ne_nil hne
    rw [hp]
    exact hsome p (List.mem_of_mem_filter (hp ▸ List.mem_cons_self))
  unfold Descriptor.ofMembers
  dsimp only
  refine failsOnly_ite (fun _ => failsOnly_error (Fault.recoverable_classification _ _)) fun _ => ?_
  split
  · exact failsOnly_ok _
  · exact failsOnly_error (Fault.recoverable_classification _ _)
  · rename_i hnone
    have hfound : ((((pairs.filter (·.1.kind = .getter)).head?).bind (·.2)).isNone &&
        (((pairs.filter (·.1.kind = .setter)).head?).bind (·.2)).isNone) = false := by
      by_cases hg : pairs.filter (·.1.kind = .getter) = []
      · have hs : pairs.filter (·.1.kind = .setter) ≠ [] := fun hs => hnone hg hs
        rw [← Option.not_isSome, ← Option.not_isSome, hhead _ hs]
        simp
      · rw [← Option.not_isSome, hhead _ hg]
        simp
    rw [Descriptor.accessor?, hfound]
    exact failsOnly_ok _

namespace Classify

theorem failsOnly_groupDecoration (isClass : Bool) (binding : String) (g : Group) (s : Scope) :
    FailsOnly (fun f : ClassifyFault => f.fault.Recoverable)
      (groupDecoration isClass binding g s) := by
  unfold groupDecoration
  split
  · exact failsOnly_ok _
  · exact failsOnly_error (Fault.recoverable_classification _ _)
  · dsimp only
    split
    · rename_i f hf
      exact failsOnly_error (Descriptor.ofMembers_failsOnly f hf)
    · exact failsOnly_ok _

theorem failsOnly_groupDecorations (isClass : Bool) (binding : String) (gs : List Group)
    (s : Scope) : FailsOnly (fun f : ClassifyFault => f.fault.Recoverable)
      (groupDecorations isClass binding gs s) := by
  induction gs generalizing s with
  | nil => exact failsOnly_ok _
  | cons g gs ih =>
    refine (failsOnly_groupDecoration isClass binding g s).bind fun _ _ => ?_
    exact (ih _).bind fun _ _ => failsOnly_ok _

theorem failsOnly_firstIneligible {members : List Member} {f : ClassifyFault}
    (h : firstIneligible? members = some f) : f.fault.Recoverable := by
  obtain ⟨m, -, hm⟩ := List.exists_of_findSome?_eq_some h
  unfold ineligible? at hm
  split at hm
  · cases hm
    exact Fault.recoverable_classification _ _
  · split at hm
    · split at hm
      · cases hm
        exact Fault.recoverable_classification _ _
      · cases hm
    · cases hm

theorem failsOnly_memberDecorations (isClass : Bool) (binding : String) (members : List Member)
    (s : Scope) : FailsOnly (fun f : ClassifyFault => f.fault.Recoverable)
      (memberDecorations isClass binding members s) := by
  unfold memberDecorations
  split
  · rename_i f hf
    exact failsOnly_error (failsOnly_firstIneligible hf)
  · exact (failsOnly_groupDecorations _ _ _ _).bind fun _ _ => failsOnly_ok _

end Classify

theorem Declaration.failsOnly_decorations (d : Declaration) (s : Scope) :
    FailsOnly (fun f : ClassifyFault => f.fault.Recoverable) (d.decorations s) := by
  cases d with
  | cls c =>
    simp only [Declaration.decorations, ClassDecl.decorations]
    exact (Classify.failsOnly_memberDecorations _ _ _ _).bind fun _ _ => failsOnly_ok _
  | object o => exact Classify.failsOnly_memberDecorations _ _ _ _

end Classify

/-! ## Emitting -/

namespace FunctionForm

variable {m : Member} {captures : List (Nat × Capture)} {place : Nat}

/-- The fault is an error of the engine. -/
def Refuses (f : FunctionFault) : Prop := f.fault.Recoverable

theorem refuses_inexpressible {members : List Member} {f : FunctionFault}
    (h : inexpressible? members = some f) : Refuses f := by
  obtain ⟨m, -, hm⟩ := List.exists_of_findSome?_eq_some h
  split at hm
  · cases hm
    exact Fault.recoverable_emission _ _ _
  · split at hm
    · cases hm
      exact Fault.recoverable_emission _ _ _
    · cases hm

theorem failsOnly_need {text : Option String} (h : text.isSome = true) :
    FailsOnly Refuses (need text) := by
  obtain ⟨s, rfl⟩ := Option.isSome_iff_exists.1 h
  exact failsOnly_ok _

theorem failsOnly_needKey (h : m.key.isSome = true) : FailsOnly Refuses (needKey m) := by
  obtain ⟨k, hk⟩ := Option.isSome_iff_exists.1 h
  rw [needKey, hk]
  exact failsOnly_ok _

theorem failsOnly_memberKey (h : m.key.isSome = true) :
    FailsOnly Refuses (memberKey captures place m) := by
  unfold memberKey
  split
  · exact failsOnly_ok _
  · exact (failsOnly_needKey h).bind fun _ _ => failsOnly_ok _

theorem failsOnly_functionProperty {target key : String} {enumerable : Bool}
    (h : m.body.isSome = true) :
    FailsOnly Refuses (functionProperty target key m enumerable) :=
  ((failsOnly_need h).bind fun _ _ => failsOnly_ok _).bind fun _ _ => failsOnly_ok _

/-- A fault of a lowering that hands out names is an error of the engine. -/
def HaltRefuses (e : Halt) : Prop := Refuses e.fault

theorem failsOnly_during {α : Type} {part : Except FunctionFault α} (s : Scope)
    (h : FailsOnly Refuses part) : FailsOnly HaltRefuses (s.during part) :=
  h.mapError fun _ he => he

theorem failsOnly_addMember (hm : m.Whole) (cls : String) (p : Pieces) (s : Scope) :
    FailsOnly HaltRefuses (addMember cls captures place m p s) := by
  have hfunction : m.kind.isFunction = true →
      FailsOnly HaltRefuses (do
        let key ← s.during (memberKey captures place m)
        let definition ← s.during
          (functionProperty (if m.isStatic then cls else cls ++ ".prototype") key m false)
        return ({ p with definitions := p.definitions ++ [definition] }, s)) := by
    intro hkind
    refine (failsOnly_during s (failsOnly_memberKey (hm.key (.inl hkind)))).bind fun key _ => ?_
    exact (failsOnly_during s (failsOnly_functionProperty (hm.body (.inl hkind)))).bind
      fun _ _ => failsOnly_ok _
  unfold addMember
  cases hkind : m.kind with
  | field =>
    unfold addField
    refine (failsOnly_during s (failsOnly_needKey (hm.key (.inr (.inl hkind))))).bind fun k _ => ?_
    dsimp only
    split <;> exact failsOnly_ok _
  | staticBlock =>
    exact (failsOnly_during s (failsOnly_need (hm.body (.inr (.inr hkind))))).bind
      fun _ _ => failsOnly_ok _
  | method => exact hfunction (by rw [hkind]; rfl)
  | getter => exact hfunction (by rw [hkind]; rfl)
  | setter => exact hfunction (by rw [hkind]; rfl)
  | _ => exact failsOnly_ok _

theorem failsOnly_pieces {members : List Member} (hm : ∀ m ∈ members, m.Whole) (cls : String)
    (s : Scope) : FailsOnly HaltRefuses (pieces cls captures members s) := by
  refine FailsOnly.foldlM ?_ _
  rintro ⟨p, s⟩ ⟨m, i⟩ hmem
  exact failsOnly_addMember (hm m (List.fst_mem_of_mem_zipIdx hmem)) cls p s

theorem failsOnly_classDefinition {c : ClassDecl} (hc : ∀ m ∈ c.members, m.Whole) (size : Nat)
    (ds : List Decoration) (cls : String) (s : Scope) :
    FailsOnly HaltRefuses (classDefinition size c ds cls s) := by
  unfold classDefinition
  cases hinex : inexpressible? c.members with
  | some f => exact failsOnly_error (refuses_inexpressible hinex)
  | none =>
    cases c.parent? with
    | none =>
      refine (failsOnly_pieces hc cls s).bind fun _ _ => ?_
      refine (failsOnly_during _ ?_).bind fun _ _ => failsOnly_ok _
      unfold baseConstruct
      cases hconstruct : c.construct? with
      | none => exact failsOnly_ok _
      | some m =>
        have hm := hc m (List.mem_of_find?_eq_some hconstruct)
        have hkind : m.kind = .construct := by simpa using List.find?_some hconstruct
        obtain ⟨b, hb⟩ := Option.isSome_iff_exists.1 (hm.body (.inr (.inl hkind)))
        simp only [hb]
        exact failsOnly_ok _
    | some heritage =>
      cases c.construct? with
      | some m => exact failsOnly_error (Fault.recoverable_emission _ _ _)
      | none => exact (failsOnly_pieces hc cls _).bind fun _ _ => failsOnly_ok _

theorem failsOnly_objectMember (hm : m.Whole) (binding : String) :
    FailsOnly Refuses (objectMember binding captures place m) := by
  have hfunction : m.kind.isFunction = true → FailsOnly Refuses (do
      return [← functionProperty binding (← memberKey captures place m) m true]) := by
    intro hkind
    refine (failsOnly_memberKey (hm.key (.inl hkind))).bind fun key _ => ?_
    exact (failsOnly_functionProperty (hm.body (.inl hkind))).bind fun _ _ => failsOnly_ok _
  unfold objectMember
  cases hkind : m.kind with
  | spread =>
    exact (failsOnly_need (hm.value (.inr (.inr hkind)))).bind fun _ _ => failsOnly_ok _
  | property =>
    have hkey := hm.key (.inr (.inr (.inl hkind)))
    refine (failsOnly_need (hm.value (.inl hkind))).bind fun value _ => ?_
    refine (failsOnly_needKey hkey).bind fun k _ => ?_
    refine failsOnly_ite (fun _ => failsOnly_ok _) fun _ => ?_
    exact (failsOnly_memberKey hkey).bind fun _ _ => failsOnly_ok _
  | shorthand =>
    have hkey := hm.key (.inr (.inr (.inr hkind)))
    refine (failsOnly_need (hm.value (.inr (.inl hkind)))).bind fun value _ => ?_
    exact (failsOnly_memberKey hkey).bind fun _ _ => failsOnly_ok _
  | method => exact hfunction (by rw [hkind]; rfl)
  | getter => exact hfunction (by rw [hkind]; rfl)
  | setter => exact hfunction (by rw [hkind]; rfl)
  | _ => exact failsOnly_ok _

theorem failsOnly_objectDefinition {o : ObjectLiteral} (ho : ∀ m ∈ o.members, m.Whole)
    (ds : List Decoration) (binding : String) :
    FailsOnly Refuses (objectDefinition o ds binding) := by
  unfold objectDefinition
  split
  · rename_i f hf
    exact failsOnly_error (refuses_inexpressible hf)
  · refine (FailsOnly.mapM ?_).bind fun _ _ => failsOnly_ok _
    rintro ⟨m, i⟩ hmem
    exact failsOnly_objectMember (ho m (List.fst_mem_of_mem_zipIdx hmem)) binding

end FunctionForm

/-- Members with their parts are emitted, or refused with an error of the engine. -/
theorem emit_failsOnly {d : Declaration} (hd : ∀ m ∈ d.members, m.Whole) (o : EmitOptions)
    (ds : List Decoration) (s : Scope) :
    FailsOnly FunctionForm.HaltRefuses (d.emit o ds s) := by
  unfold Declaration.emit
  cases d with
  | cls c =>
    refine FailsOnly.bind ?_ fun _ _ => failsOnly_ok _
    unfold ClassDecl.lower
    dsimp only
    cases o.form with
    | classBased => exact failsOnly_ok _
    | constructorFunction =>
      exact (FunctionForm.failsOnly_classDefinition hd _ _ _ _).bind fun _ _ => failsOnly_ok _
  | object l =>
    refine FailsOnly.bind ?_ fun _ _ => failsOnly_ok _
    unfold ObjectLiteral.lower
    dsimp only
    cases o.form with
    | classBased => exact failsOnly_ok _
    | constructorFunction =>
      exact (FunctionForm.failsOnly_during _ (FunctionForm.failsOnly_objectDefinition hd _ _)).bind
        fun _ _ => failsOnly_ok _

/-! ## Lowering -/

namespace Document

variable {doc : Document}

/-- A document that its grammar accepts has a complete tree. -/
def Complete (doc : Document) : Prop := doc.isDamaged = false → doc.tree.Complete

theorem recoverable_brokenSource {bad : Option Tree} {d : Diagnostic}
    (h : doc.brokenSource bad = .ok d) : (Fault.refused d).Recoverable := by
  have hlanguage : (Note.text doc.language.name).obstacle? = none := rfl
  unfold brokenSource at h
  cases bad with
  | none =>
    cases h
    exact Fault.recoverable_make (List.forall_mem_singleton.2 hlanguage)
  | some t =>
    obtain ⟨text, -, h⟩ := bind_eq_ok.1 h
    cases h
    exact Fault.recoverable_make (List.forall_mem_cons.2 ⟨rfl, List.forall_mem_cons.2
      ⟨rfl, List.forall_mem_singleton.2 hlanguage⟩⟩)

theorem failsOnly_check (doc : Document) : FailsOnly Fault.Recoverable doc.check := by
  have hparsed : FailsOnly Fault.Recoverable doc.checkParsed := by
    unfold checkParsed
    refine failsOnly_ite (fun _ => ?_) fun _ => failsOnly_ok _
    refine FailsOnly.bind ?_ fun _ hd => failsOnly_error (recoverable_brokenSource hd)
    unfold brokenSource
    split
    · exact failsOnly_ok _
    · exact ((Reading.recovers_plain _).text _).bind fun _ _ => failsOnly_ok _
  unfold check
  refine failsOnly_ite (fun _ => ?_) fun _ => hparsed
  split
  · refine failsOnly_ite (fun _ => ?_) fun _ => hparsed
    exact failsOnly_error (Fault.recoverable_classification _ _)
  · exact hparsed

theorem isDamaged_of_check {u : Unit} (h : doc.check = .ok u) : doc.isDamaged = false := by
  by_contra hne
  have hd : doc.isDamaged = true := by simpa using hne
  have hparsed : ∀ v, doc.checkParsed ≠ .ok v := by
    intro v hv
    rw [checkParsed, if_pos hd] at hv
    obtain ⟨_, -, hv⟩ := bind_eq_ok.1 hv
    cases hv
  rw [check, if_pos hd] at h
  split at h
  · split at h
    · cases h
    · exact hparsed _ h
  · exact hparsed _ h

theorem failsOnly_lowerSite {l : Located} (hl : l.node.Complete) (o : EmitOptions)
    (taken : List String) (b : Source.Buffer) :
    FailsOnly Fault.Recoverable (doc.lowerSite o taken b l) := by
  unfold lowerSite
  refine ((Reading.recovers_bufferReading b).declaration hl).bind fun d hd => ?_
  refine ((d.failsOnly_decorations _).mapError fun _ he => he).bind fun ds _ => ?_
  have hemit := emit_failsOnly (declaration_whole hl hd) o ds.1 ds.2
  refine (hemit.mapError (Q := Fault.Recoverable) fun _ he => he).bind fun _ _ => ?_
  refine FailsOnly.bind ?_ fun _ _ => failsOnly_ok _
  exact (Reading.recovers_plain doc.source _ _).bind fun _ _ => failsOnly_ok _

/-- Every fault of lowering a document with a complete tree can be recovered from. -/
theorem lower_failsOnly (h : doc.Complete) (o : EmitOptions) :
    FailsOnly Fault.Recoverable (doc.lower o) := by
  unfold lower
  refine doc.failsOnly_check.bind fun _ hcheck => ?_
  have hcomplete := h (isDamaged_of_check hcheck)
  refine (FailsOnly.mapM fun t _ => (Reading.recovers_plain _).text t).bind fun taken _ => ?_
  refine (FailsOnly.foldlM ?_ _).bind fun b _ => ?_
  · intro b l hl
    have hmem := Tree.node_mem_preorder_of_mem_walk (mem_sites.1 hl).1
    exact failsOnly_lowerSite (fun u hu => hcomplete u (Tree.mem_preorder_trans hu hmem)) o taken b
  refine FailsOnly.bind ?_ fun _ _ => ?_
  · unfold checkClaimed
    dsimp only
    split
    · exact failsOnly_error (Fault.recoverable_classification _ _)
    · exact failsOnly_ok _
  · exact failsOnly_ite (fun _ => failsOnly_ok _) fun _ => Reading.recovers_bufferReading b _ _

end Document

end Undecorate
