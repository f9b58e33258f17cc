import Undecorate.Emit.Basic
import Undecorate.Proofs.Emit.Temporaries
import Undecorate.Proofs.Except

/-! # Lines of a constructor function

The definition of a class or object as a constructor function is text. Here it is told as lines,
each of which knows how it writes the key of its member and which temporary it assigns; `render`
gives the text back.

* `pieces_eq_ok`: the pieces of a class are the lines of its members, with a new temporary for the
  computed key of every field;
* `classDefinition_eq_ok`, `objectDefinition_eq_ok`: a definition has these lines and no others.
-/

namespace Undecorate.FunctionForm

/-! ## Lines -/

/-- How the key of a member is written: as a literal, as an expression, as an expression whose value
is kept, or as the temporary that has it. -/
inductive KeyUse where
  | named (literal : String)
  | evaluated (expression : String)
  | captured (temporary expression : String)
  | recalled (temporary : String)
deriving DecidableEq, Repr

namespace KeyUse

/-- The text of a key. -/
@[simp] def render : KeyUse → String
  | .named literal => literal
  | .evaluated expression => "(" ++ expression ++ ")"
  | .captured temporary expression => temporary ++ " = (" ++ expression ++ ")"
  | .recalled temporary => temporary

/-- The key expressions that are evaluated. -/
def evaluates : KeyUse → List String
  | .evaluated expression | .captured _ expression => [expression]
  | .named _ | .recalled _ => []

/-- The temporaries that are assigned. -/
def assigns : KeyUse → List String
  | .captured temporary _ => [temporary]
  | .named _ | .evaluated _ | .recalled _ => []

end KeyUse

/-- A line of a definition. -/
inductive Line where
  /-- A text without keys. -/
  | written (text : String)
  /-- Assigns a temporary that has no key. -/
  | set (temporary expression : String)
  /-- Evaluates the key of a field. -/
  | hold (key : KeyUse)
  /-- Defines a property. -/
  | define (target : String) (key : KeyUse) (fields : String)
  /-- Sets a field of an instance. -/
  | assign (source : Key) (key : KeyUse) (value : String)
deriving DecidableEq, Repr

namespace Line

/-- The text of a line. -/
@[simp] def render : Line → String
  | .written text => text
  | .set temporary expression => temporary ++ " = " ++ expression ++ ";"
  | .hold key => key.render ++ ";"
  | .define target key fields => defineCall target key.render fields
  | .assign source key value => "this" ++ fieldAccess source key.render ++ " = " ++ value ++ ";"

/-- How a line writes the key of its member. -/
def key? : Line → Option KeyUse
  | .written _ | .set _ _ => none
  | .hold key | .define _ key _ | .assign _ key _ => some key

/-- The key expressions that a line evaluates. -/
def evaluates (l : Line) : List String := l.key?.elim [] KeyUse.evaluates

/-- The temporaries that a line assigns. -/
def assigns : Line → List String
  | .written _ => []
  | .set temporary _ => [temporary]
  | .hold key | .define _ key _ | .assign _ key _ => key.assigns

end Line

/-- The lines of the members of a class: fields of each instance, definitions, and static elements
that follow them. -/
structure Outline where
  fields : List Line := []
  definitions : List Line := []
  statics : List Line := []
deriving DecidableEq, Repr

/-- The lines of more members. -/
def Outline.append (o o' : Outline) : Outline where
  fields := o.fields ++ o'.fields
  definitions := o.definitions ++ o'.definitions
  statics := o.statics ++ o'.statics

/-- The texts of the lines. -/
def Outline.pieces (o : Outline) : Pieces where
  instanceFields := o.fields.map (·.render)
  definitions := o.definitions.map (·.render)
  statics := o.statics.map (·.render)

/-- The pieces of more members. -/
def Pieces.append (p p' : Pieces) : Pieces where
  instanceFields := p.instanceFields ++ p'.instanceFields
  definitions := p.definitions ++ p'.definitions
  statics := p.statics ++ p'.statics

theorem pieces_append (o o' : Outline) : (o.append o').pieces = o.pieces.append o'.pieces := by
  simp [Outline.append, Outline.pieces, Pieces.append]

theorem Pieces.append_assoc (p p' p'' : Pieces) :
    (p.append p').append p'' = p.append (p'.append p'') := by
  simp [Pieces.append]

theorem Pieces.append_empty (p : Pieces) : p.append {} = p := by
  simp [Pieces.append]

theorem Pieces.empty_append (p : Pieces) : Pieces.append {} p = p := by
  simp [Pieces.append]

/-! ## One member -/

/-- How the key of a function or property is written. -/
def keyUse (captures : List (Nat × Capture)) (place : Nat) (m : Member) : KeyUse :=
  match captures.lookup place with
  | some c =>
    if c.assigns then .captured c.snapshot ((m.key.map (·.text)).getD "") else .recalled c.snapshot
  | none =>
    let k := m.key.getD default
    if k.isComputed then .evaluated k.text else .named (nameLiteral k.staticName?)

/-- A member as a function expression, with the body that it has. -/
def functionText (m : Member) : String :=
  (if m.isAsync then "async " else "") ++ "function" ++ (if m.isGenerator then "*" else "") ++
    " " ++ signature m ++ " " ++ Layout.rebaseText (m.body.getD "")

/-- The fields of the descriptor of a method or one half of an accessor. -/
def functionFields (m : Member) (enumerable : Bool) : String :=
  let attributes := "enumerable: " ++ boolLiteral enumerable ++ ", configurable: true"
  match m.kind with
  | .getter => "get: " ++ functionText m ++ ", " ++ attributes
  | .setter => "set: " ++ functionText m ++ ", " ++ attributes
  | _ => "value: " ++ functionText m ++ ", " ++ attributes ++ ", writable: true"

/-- The fields of the descriptor of a property with a value. -/
def dataFields (value : String) : String :=
  "value: " ++ value ++ ", enumerable: true, configurable: true, writable: true"

/-- Whether the member is a field whose computed key is kept in a temporary. -/
def holdsKey (m : Member) : Bool := m.kind = .field && m.key.any (·.isComputed)

/-- The lines of one member of a class; `temporary` is for the computed key of a field. -/
def memberOutline (cls : String) (captures : List (Nat × Capture)) (place : Nat) (m : Member)
    (temporary : String) : Outline :=
  match m.kind with
  | .comment => { definitions := [.written (Layout.rebaseText m.source)] }
  | .field =>
    let k := m.key.getD default
    let key := if k.isComputed then .recalled temporary else .named (nameLiteral k.staticName?)
    let held := if k.isComputed then [.hold (.captured temporary k.text)] else []
    let value := (m.value.map Layout.rebaseText).getD "void 0"
    if m.isStatic then { definitions := held, statics := [.define cls key (dataFields value)] }
    else { definitions := held, fields := [.assign k key value] }
  | .staticBlock =>
    { statics := [.written ("(function () " ++ Layout.rebaseText (m.body.getD "") ++ ").call(" ++
        cls ++ ");")] }
  | .method | .getter | .setter =>
    { definitions := [.define (if m.isStatic then cls else cls ++ ".prototype")
        (keyUse captures place m) (functionFields m false)] }
  | _ => {}

/-- The lines of several members, and the scope after them. -/
def outline (cls : String) (captures : List (Nat × Capture)) :
    List (Member × Nat) → Scope → Outline × Scope
  | [], s => ({}, s)
  | (m, i) :: rest, s =>
    let (temporary, s) := if holdsKey m then s.fresh "field" else ("", s)
    let (o, s) := outline cls captures rest s
    ((memberOutline cls captures i m temporary).append o, s)

variable {cls binding key text : String} {captures : List (Nat × Capture)} {place : Nat}
  {m : Member} {p p' : Pieces} {s s' : Scope}

theorem during_eq_ok {α : Type} {part : Except FunctionFault α} {a : α} :
    s.during part = .ok a ↔ part = .ok a :=
  mapError_eq_ok

theorem need_eq_ok {t : Option String} (h : need t = .ok text) :
    t.isSome = true ∧ text = Layout.rebaseText (t.getD "") := by
  cases t with
  | none => cases h
  | some s => exact ⟨rfl, (Except.ok.inj h).symm⟩

theorem needKey_eq_ok {k : Key} (h : needKey m = .ok k) : m.key = some k := by
  unfold needKey at h
  split at h
  · rw [← Except.ok.inj h]
    assumption
  · cases h

theorem memberKey_eq_ok (h : memberKey captures place m = .ok key) :
    key = (keyUse captures place m).render := by
  unfold memberKey at h
  unfold keyUse
  cases hc : captures.lookup place with
  | some c =>
    rw [hc] at h
    rw [← Except.ok.inj h]
    cases hassigns : c.assigns with
    | true => simp [hassigns]
    | false => simp [hassigns]
  | none =>
    rw [hc] at h
    simp only [bind_eq_ok, pure_eq_ok] at h
    obtain ⟨k, hk, rfl⟩ := h
    rw [needKey_eq_ok hk, Option.getD_some]
    cases hcomputed : k.isComputed with
    | true => simp [hcomputed]
    | false => simp [hcomputed]

theorem functionProperty_eq_ok {target : String} {enumerable : Bool}
    (h : functionProperty target key m enumerable = .ok text) :
    text = defineCall target key (functionFields m enumerable) := by
  simp only [functionProperty, functionExpression, bind_eq_ok, pure_eq_ok] at h
  obtain ⟨function, ⟨body, hbody, rfl⟩, rfl⟩ := h
  rw [(need_eq_ok hbody).2]
  rfl

/-- A field adds its lines, and takes a new temporary when its key is computed. -/
theorem addField_eq_ok (hm : m.kind = .field) (h : addField cls m p s = .ok (p', s')) :
    ∃ temporary, (if holdsKey m then s.fresh "field" else ("", s)) = (temporary, s') ∧
      p' = p.append (memberOutline cls captures place m temporary).pieces := by
  simp only [addField, bind_eq_ok, during_eq_ok] at h
  obtain ⟨k, hk, h⟩ := h
  have hkey := needKey_eq_ok hk
  have hholds : holdsKey m = k.isComputed := by simp [holdsKey, hm, hkey]
  rw [hholds]
  cases hcomputed : k.isComputed with
  | true =>
    rw [hcomputed] at h
    cases hstatic : m.isStatic with
    | true =>
      obtain ⟨rfl, rfl⟩ : _ = p' ∧ _ = s' := by simpa [hstatic] using h
      refine ⟨(s.fresh "field").1, rfl, ?_⟩
      simp [memberOutline, hm, hkey, hcomputed, hstatic, Outline.pieces, Pieces.append,
        dataProperty, dataFields, String.append_assoc]
    | false =>
      obtain ⟨rfl, rfl⟩ : _ = p' ∧ _ = s' := by simpa [hstatic] using h
      refine ⟨(s.fresh "field").1, rfl, ?_⟩
      simp [memberOutline, hm, hkey, hcomputed, hstatic, Outline.pieces, Pieces.append,
        String.append_assoc]
  | false =>
    rw [hcomputed] at h
    cases hstatic : m.isStatic with
    | true =>
      obtain ⟨rfl, rfl⟩ : _ = p' ∧ _ = s' := by simpa [hstatic] using h
      refine ⟨_, rfl, ?_⟩
      simp [memberOutline, hm, hkey, hcomputed, hstatic, Outline.pieces, Pieces.append,
        dataProperty, dataFields]
    | false =>
      obtain ⟨rfl, rfl⟩ : _ = p' ∧ _ = s' := by simpa [hstatic] using h
      refine ⟨_, rfl, ?_⟩
      simp [memberOutline, hm, hkey, hcomputed, hstatic, Outline.pieces, Pieces.append]

/-- A member adds its lines. -/
theorem addMember_eq_ok (h : addMember cls captures place m p s = .ok (p', s')) :
    ∃ temporary, (if holdsKey m then s.fresh "field" else ("", s)) = (temporary, s') ∧
      p' = p.append (memberOutline cls captures place m temporary).pieces := by
  unfold addMember at h
  by_cases hfield : m.kind = .field
  · rw [hfield] at h
    exact addField_eq_ok hfield h
  · have hholds : holdsKey m = false := by simp [holdsKey, hfield]
    rw [hholds, if_neg Bool.false_ne_true]
    cases hkind : m.kind with
    | comment =>
      rw [hkind] at h
      obtain ⟨rfl, rfl⟩ : _ = p' ∧ s = s' := by simpa using h
      exact ⟨"", rfl, by simp [memberOutline, hkind, Outline.pieces, Pieces.append]⟩
    | field => exact absurd hkind hfield
    | staticBlock =>
      rw [hkind] at h
      simp only [bind_eq_ok, during_eq_ok, pure_eq_ok, Prod.mk.injEq] at h
      obtain ⟨body, hbody, rfl, rfl⟩ := h
      refine ⟨"", rfl, ?_⟩
      rw [(need_eq_ok hbody).2]
      simp [memberOutline, hkind, Outline.pieces, Pieces.append]
    | method | getter | setter =>
      rw [hkind] at h
      simp only [bind_eq_ok, during_eq_ok, pure_eq_ok, Prod.mk.injEq] at h
      obtain ⟨key, hkey, definition, hdefinition, rfl, rfl⟩ := h
      refine ⟨"", rfl, ?_⟩
      rw [functionProperty_eq_ok hdefinition, memberKey_eq_ok hkey]
      simp [memberOutline, hkind, Outline.pieces, Pieces.append]
    | construct | property | shorthand | spread | other =>
      rw [hkind] at h
      obtain ⟨rfl, rfl⟩ : p = p' ∧ s = s' := by simpa using h
      exact ⟨"", rfl, by simp [memberOutline, hkind, Outline.pieces, Pieces.append]⟩

/-- The members add their lines to the pieces that there are already. -/
theorem foldlM_addMember_eq_ok {entries : List (Member × Nat)} {p₀ : Pieces}
    (h : entries.foldlM (fun (p, s) (m, i) => addMember cls captures i m p s) (p₀, s) =
      .ok (p, s')) :
    ∃ o, outline cls captures entries s = (o, s') ∧ p = p₀.append o.pieces := by
  induction entries generalizing p₀ s with
  | nil =>
    obtain ⟨rfl, rfl⟩ : p₀ = p ∧ s = s' := by simpa using h
    exact ⟨{}, rfl, p₀.append_empty.symm⟩
  | cons e entries ih =>
    obtain ⟨m, i⟩ := e
    rw [List.foldlM_cons, bind_eq_ok] at h
    obtain ⟨⟨p₁, s₁⟩, hone, hrest⟩ := h
    obtain ⟨temporary, hscope, rfl⟩ := addMember_eq_ok hone
    obtain ⟨o, ho, rfl⟩ := ih hrest
    refine ⟨(memberOutline cls captures i m temporary).append o, ?_, ?_⟩
    · simp only [outline, hscope, ho]
    · rw [pieces_append, Pieces.append_assoc]

/-- All members add their lines. -/
theorem pieces_eq_ok {members : List Member} (h : pieces cls captures members s = .ok (p, s')) :
    ∃ o, outline cls captures members.zipIdx s = (o, s') ∧ p = o.pieces := by
  obtain ⟨o, ho, hp⟩ := foldlM_addMember_eq_ok h
  exact ⟨o, ho, hp.trans o.pieces.empty_append⟩

/-! ## Classes -/

/-- The lines of a class that has been defined, the scope before them and the scope after them. A
derived class has its parent in a temporary of its own, and a name for the instance. -/
inductive ClassLines (size : Nat) (c : ClassDecl) (captures : List (Nat × Capture)) (cls : String)
    (s : Scope) : List Line → Outline → Scope → Prop
  | base (params : String) (body : List String) {o : Outline} {s' : Scope}
      (parent : c.parent? = none) (members : outline cls captures c.members.zipIdx s = (o, s')) :
      ClassLines size c captures cls s
        [.written (Layout.blockText size ("function " ++ cls ++ params)
          (o.fields.map (·.render) ++ body))] o s'
  | derived {heritage parent this : String} {o : Outline} {s₁ s₂ s' : Scope}
      (extended : c.parent? = some heritage) (shared : s.shared "super" = (parent, s₁))
      (members : outline cls captures c.members.zipIdx s₁ = (o, s₂))
      (reserved : s₂.reserve "this" = (this, s')) :
      ClassLines size c captures cls s
        [.set parent heritage,
          .written (derivedConstruct size cls parent this (o.fields.map (·.render))),
          .written (cls ++ ".prototype = Object.create(" ++ parent ++
            ".prototype, \x7b constructor: \x7b value: " ++ cls ++
            ", writable: true, configurable: true \x7d \x7d);"),
          .written ("Object.setPrototypeOf(" ++ cls ++ ", " ++ parent ++ ");")] o s'

theorem baseConstruct_eq_ok {size : Nat} {construct : Option Member} {fields : List String}
    (h : baseConstruct size cls construct fields = .ok text) :
    ∃ params body,
      text = Layout.blockText size ("function " ++ cls ++ params) (fields ++ body) := by
  unfold baseConstruct at h
  cases construct with
  | none => exact ⟨_, _, (Except.ok.inj h).symm⟩
  | some m =>
    cases hbody : m.body with
    | none => simp [hbody, throw, throwThe, MonadExceptOf.throw] at h
    | some b =>
      simp only [hbody] at h
      exact ⟨_, _, (Except.ok.inj h).symm⟩

/-- The definition of a class is its opening, then the definitions of its members, then the static
elements. -/
theorem classDefinition_eq_ok {size : Nat} {c : ClassDecl} {ds : List Decoration}
    {texts : List String} (h : classDefinition size c ds cls s = .ok (texts, s')) :
    ∃ opening o, ClassLines size c (Undecorate.captures ds) cls s opening o s' ∧
      texts = (opening ++ o.definitions ++ o.statics).map (·.render) := by
  unfold classDefinition at h
  cases hbad : inexpressible? c.members with
  | some f => simp [hbad, bind_eq_ok, throw, throwThe, MonadExceptOf.throw] at h
  | none =>
    simp only [hbad] at h
    cases hparent : c.parent? with
    | none =>
      simp only [hparent, bind_eq_ok, during_eq_ok, pure_eq_ok, Prod.mk.injEq] at h
      obtain ⟨⟨p, s₁⟩, hpieces, function, hfunction, rfl, rfl⟩ := h
      obtain ⟨o, ho, rfl⟩ := pieces_eq_ok hpieces
      obtain ⟨params, body, rfl⟩ := baseConstruct_eq_ok hfunction
      exact ⟨_, o, .base params body hparent ho, by simp [Outline.pieces]⟩
    | some heritage =>
      rcases hshared : s.shared "super" with ⟨parent, s₁⟩
      simp only [hparent, hshared] at h
      cases hconstruct : c.construct? with
      | some m => simp [hconstruct, bind_eq_ok, throw, throwThe, MonadExceptOf.throw] at h
      | none =>
        simp only [hconstruct, bind_eq_ok, pure_eq_ok, Prod.mk.injEq] at h
        obtain ⟨⟨p, s₂⟩, hpieces, rfl, rfl⟩ := h
        obtain ⟨o, ho, rfl⟩ := pieces_eq_ok hpieces
        rcases hreserved : s₂.reserve "this" with ⟨this, s₃⟩
        exact ⟨_, o, .derived hparent hshared ho hreserved, by simp [Outline.pieces]⟩

/-! ## Objects -/

/-- The lines of one member of an object literal. -/
def objectOutline (binding : String) (captures : List (Nat × Capture)) (place : Nat) (m : Member) :
    List Line :=
  let value := Layout.rebaseText (m.value.getD "")
  match m.kind with
  | .comment => [.written (Layout.rebaseText m.source)]
  | .spread => [.written ("Object.assign(" ++ binding ++ ", " ++ value ++ ");")]
  | .property =>
    if m.key.any fun k => k.staticName? = some (.ofString "__proto__") then
      [.written ("Object.setPrototypeOf(" ++ binding ++ ", " ++ value ++ ");")]
    else [.define binding (keyUse captures place m) (dataFields value)]
  | .shorthand => [.define binding (keyUse captures place m) (dataFields value)]
  | .method | .getter | .setter =>
    [.define binding (keyUse captures place m) (functionFields m true)]
  | _ => []

theorem objectMember_eq_ok {texts : List String}
    (h : objectMember binding captures place m = .ok texts) :
    texts = (objectOutline binding captures place m).map (·.render) := by
  unfold objectMember at h
  unfold objectOutline
  cases hkind : m.kind with
  | comment =>
    rw [hkind] at h
    rw [pure_eq_ok] at h
    simp [← h]
  | spread =>
    rw [hkind] at h
    simp only [bind_eq_ok, pure_eq_ok] at h
    obtain ⟨value, hvalue, rfl⟩ := h
    simp [(need_eq_ok hvalue).2]
  | property =>
    rw [hkind] at h
    simp only [bind_eq_ok] at h
    obtain ⟨value, hvalue, k, hk, h⟩ := h
    rw [(need_eq_ok hvalue).2] at h
    by_cases hproto : k.staticName? = some "__proto__"
    · rw [if_pos hproto, pure_eq_ok] at h
      simp [needKey_eq_ok hk, hproto, ← h]
    · simp only [if_neg hproto, bind_eq_ok, pure_eq_ok] at h
      obtain ⟨key, hkey, rfl⟩ := h
      have hother : k.staticName? ≠ some (.ofString "__proto__") := hproto
      simp [needKey_eq_ok hk, hother, memberKey_eq_ok hkey, dataProperty, dataFields]
  | shorthand =>
    rw [hkind] at h
    simp only [bind_eq_ok, pure_eq_ok] at h
    obtain ⟨value, hvalue, key, hkey, rfl⟩ := h
    simp [(need_eq_ok hvalue).2, memberKey_eq_ok hkey, dataProperty, dataFields]
  | method | getter | setter =>
    rw [hkind] at h
    simp only [bind_eq_ok, pure_eq_ok] at h
    obtain ⟨key, hkey, definition, hdefinition, rfl⟩ := h
    simp [functionProperty_eq_ok hdefinition, memberKey_eq_ok hkey]
  | construct | field | staticBlock | other =>
    rw [hkind] at h
    rw [pure_eq_ok] at h
    simp [← h]

/-- The definition of an object is an empty object and then the lines of its members. -/
theorem objectDefinition_eq_ok {o : ObjectLiteral} {ds : List Decoration} {texts : List String}
    (h : objectDefinition o ds binding = .ok texts) :
    texts = (Line.set binding "\x7b\x7d" :: o.members.zipIdx.flatMap fun (m, i) =>
      objectOutline binding (Undecorate.captures ds) i m).map (·.render) := by
  unfold objectDefinition at h
  cases hbad : inexpressible? o.members with
  | some f => simp [hbad, bind_eq_ok, throw, throwThe, MonadExceptOf.throw] at h
  | none =>
    simp only [hbad, bind_eq_ok, pure_eq_ok] at h
    obtain ⟨parts, hparts, rfl⟩ := h
    have hlines : parts.flatten = (o.members.zipIdx.flatMap fun (m, i) =>
        objectOutline binding (Undecorate.captures ds) i m).map (·.render) := by
      have hall := mapM_eq_ok.1 hparts
      generalize o.members.zipIdx = entries at hall ⊢
      clear hparts
      induction hall with
      | nil => rfl
      | cons hone _ ih =>
        rw [List.flatten_cons, ih, objectMember_eq_ok hone, List.flatMap_cons, List.map_append]
    rw [List.map_cons, ← hlines]
    simp [String.append_assoc]

end Undecorate.FunctionForm
