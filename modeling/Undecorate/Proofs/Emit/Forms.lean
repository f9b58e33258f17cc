import Undecorate.Proofs.Emit.Outline
import Undecorate.Proofs.Scope.Requests

/-! # Both forms apply decorators alike

A class as a constructor function needs temporaries that the class itself does not: for the parent,
for the computed keys of fields and for the instance. They are on bases of their own, so all other
names stay as they are, and with them the statements that apply the decorators.

* `Scope.AgreesOn`: two scopes that hand out the same names on some bases;
* `statements_of_agreesOn`: such scopes give a decoration the same statements;
* `agreesOn_outline`: the members of a constructor function leave the other bases alone.
-/

namespace Undecorate

/-- The bases of the names that both forms use. -/
def formBases : List String := ["dec", "key", "res", "src", "desc", "changed", "class", "obj"]

namespace Scope

/-- Two scopes in which the same names on the given bases are taken and reserved. -/
structure AgreesOn (bases : List String) (s t : Scope) : Prop where
  lead : s.lead = t.lead
  taken : ∀ b ∈ bases, ∀ n, candidate s.lead b n ∈ s.taken ↔ candidate s.lead b n ∈ t.taken
  reserved : ∀ b ∈ bases, s.reserved.lookup b = t.reserved.lookup b

variable {bases : List String} {base name : String} {s s' t : Scope}

theorem AgreesOn.refl (bases : List String) (s : Scope) : AgreesOn bases s s :=
  ⟨rfl, fun _ _ _ => .rfl, fun _ _ => rfl⟩

/-! ## The same request to both -/

theorem AgreesOn.unique (h : AgreesOn bases s t) (base : String) (hb : base ∈ bases) :
    (s.unique base).1 = (t.unique base).1 := by
  refine (isFirstFree_unique s base).eq_of_agree ?_ (h.taken base hb)
  rw [h.lead]
  exact isFirstFree_unique t base

theorem AgreesOn.take (h : AgreesOn bases s t) (name : String) :
    AgreesOn bases (s.take name) (t.take name) where
  lead := by rw [lead_take, lead_take, h.lead]
  taken := by
    intro b hb n
    rw [lead_take, mem_taken_take, mem_taken_take, h.taken b hb n]
  reserved := by
    intro b hb
    rw [reserved_take, reserved_take, h.reserved b hb]

theorem AgreesOn.declare (h : AgreesOn bases s t) (name : String) :
    AgreesOn bases (s.declare name) (t.declare name) where
  lead := by rw [lead_declare, lead_declare, h.lead]
  taken := by
    intro b hb n
    rw [lead_declare, mem_taken_declare, mem_taken_declare, h.taken b hb n]
  reserved := by
    intro b hb
    rw [reserved_declare, reserved_declare, h.reserved b hb]

theorem AgreesOn.fresh (h : AgreesOn bases s t) (base : String) (hb : base ∈ bases) :
    (s.fresh base).1 = (t.fresh base).1 ∧ AgreesOn bases (s.fresh base).2 (t.fresh base).2 := by
  have hname := h.unique base hb
  refine ⟨hname, ?_⟩
  rw [fresh_snd, fresh_snd, hname]
  exact (h.take _).declare _

theorem AgreesOn.reserve (h : AgreesOn bases s t) (base : String) (hb : base ∈ bases) :
    (s.reserve base).1 = (t.reserve base).1 ∧
      AgreesOn bases (s.reserve base).2 (t.reserve base).2 := by
  have hname := h.unique base hb
  have hreserved := h.reserved base hb
  -- the base has a name in both scopes or in neither
  rcases reserve_cases s base with ⟨hl, hs⟩ | ⟨hl, hn, hs⟩ <;>
    rcases reserve_cases t base with ⟨hl', ht⟩ | ⟨hl', hn', ht⟩
  · rw [hl, hl', Option.some.injEq] at hreserved
    rw [hs, ht]
    exact ⟨hreserved, h⟩
  · rw [hl, hl'] at hreserved
    cases hreserved
  · rw [hl, hl'] at hreserved
    cases hreserved
  · rw [hs, ht, hn, hn', unique_snd, unique_snd, hname]
    refine ⟨rfl, (h.take _).lead, (h.take _).taken, ?_⟩
    intro b hb
    rw [lookup_append_singleton, lookup_append_singleton, h.reserved b hb]

theorem AgreesOn.shared (h : AgreesOn bases s t) (base : String) (hb : base ∈ bases) :
    (s.shared base).1 = (t.shared base).1 ∧
      AgreesOn bases (s.shared base).2 (t.shared base).2 := by
  obtain ⟨hname, hagree⟩ := h.reserve base hb
  refine ⟨hname, ?_⟩
  rw [shared_snd, shared_snd, hname]
  exact hagree.declare _

theorem AgreesOn.freshMany (h : AgreesOn bases s t) (base : String) (hb : base ∈ bases) (n : Nat) :
    (s.freshMany base n).1 = (t.freshMany base n).1 ∧
      AgreesOn bases (s.freshMany base n).2 (t.freshMany base n).2 := by
  induction n generalizing s t with
  | zero => exact ⟨rfl, h⟩
  | succ n ih =>
    obtain ⟨hname, hagree⟩ := h.fresh base hb
    obtain ⟨hnames, hall⟩ := ih hagree
    exact ⟨congrArg₂ List.cons hname hnames, hall⟩

/-! ## Requests on other bases -/

/-- A scope that takes one more name on another word still agrees. -/
theorem AgreesOn.of_candidate (h : AgreesOn bases s t) (hlead : s'.lead = s.lead)
    (htaken : ∀ x, x ∈ s'.taken ↔ x ∈ s.taken ∨ x = name)
    (hreserved : ∀ b ∈ bases, s'.reserved.lookup b = s.reserved.lookup b)
    (hname : ∃ n, name = candidate s.lead base n) (hword : isWord base = true)
    (hwords : ∀ b ∈ bases, isWord b = true) (hb : base ∉ bases) : AgreesOn bases s' t where
  lead := hlead.trans h.lead
  taken := by
    intro b hmem n
    obtain ⟨k, rfl⟩ := hname
    have hne : b ≠ base := by
      rintro rfl
      exact hb hmem
    have hother := candidate_ne_of_ne s.lead (hwords b hmem) hword hne n k
    rw [hlead, htaken, ← h.taken b hmem n]
    exact or_iff_left hother
  reserved := fun b hmem => (hreserved b hmem).trans (h.reserved b hmem)

theorem AgreesOn.fresh_left (h : AgreesOn bases s t) (base : String) (hword : isWord base = true)
    (hwords : ∀ b ∈ bases, isWord b = true) (hb : base ∉ bases) :
    AgreesOn bases (s.fresh base).2 t :=
  h.of_candidate lead_fresh (fun _ => mem_taken_fresh) (fun _ _ => by rw [reserved_fresh])
    (unique_eq_candidate s base) hword hwords hb

theorem AgreesOn.reserve_left (h : AgreesOn bases s t) (base : String) (hword : isWord base = true)
    (hwords : ∀ b ∈ bases, isWord b = true) (hb : base ∉ bases) :
    AgreesOn bases (s.reserve base).2 t := by
  rcases reserve_cases s base with ⟨-, hs⟩ | ⟨-, -, hs⟩
  · rw [hs]
    exact h
  · rw [hs, unique_snd]
    refine h.of_candidate lead_take (fun _ => mem_taken_take) ?_ (unique_eq_candidate s base) hword
      hwords hb
    intro b hmem
    have hne : base ≠ b := by
      rintro rfl
      exact hb hmem
    rw [lookup_append_singleton, if_neg hne, Option.or_none]

/-- The name of a shared base was made from it, also when it is an old one. -/
theorem AgreesOn.shared_left (h : AgreesOn bases s t) (base : String) (hs : s.Sound)
    (hword : isWord base = true) (hwords : ∀ b ∈ bases, isWord b = true) (hb : base ∉ bases) :
    AgreesOn bases (s.shared base).2 t := by
  have hreserve := h.reserve_left base hword hwords hb
  have hname := (hs.shared base).named _ (mem_reserved_shared s base)
  rw [lead_shared, shared_fst] at hname
  rw [shared_snd]
  refine hreserve.of_candidate lead_declare (fun _ => mem_taken_declare) ?_ ?_ hword hwords hb
  · intro b _
    rw [reserved_declare]
  · rw [lead_reserve]
    exact hname

end Scope

/-! ## Statements -/

open Scope

variable {bases : List String} {s s' t : Scope}

/-- Scopes that agree on the bases of working names give a decoration the same statements. -/
theorem statements_of_agreesOn (h : AgreesOn bases s t) (hb : workingBases ⊆ bases)
    (d : Decoration) : (d.statements s).1 = (d.statements t).1 ∧
      AgreesOn bases (d.statements s).2 (d.statements t).2 := by
  unfold Decoration.statements
  split
  · exact ⟨rfl, h⟩
  · obtain ⟨hdecs, h₁⟩ := h.freshMany "dec" (hb (by decide)) d.decorators.length
    obtain ⟨hres, h₂⟩ := h₁.shared "res" (hb (by decide))
    cases d.subject with
    | whole =>
      dsimp only
      rw [hdecs, hres]
      exact ⟨rfl, h₂⟩
    | property key initial members =>
      obtain ⟨hsrc, h₃⟩ := h₂.shared "src" (hb (by decide))
      obtain ⟨hdesc, h₄⟩ := h₃.shared "desc" (hb (by decide))
      obtain ⟨hchanged, h₅⟩ := h₄.shared "changed" (hb (by decide))
      dsimp only
      rw [hdecs, hres, hsrc, hdesc, hchanged]
      exact ⟨rfl, h₅⟩

theorem decorationStatements_of_agreesOn (h : AgreesOn bases s t) (hb : workingBases ⊆ bases)
    (ds : List Decoration) : (decorationStatements ds s).1 = (decorationStatements ds t).1 ∧
      AgreesOn bases (decorationStatements ds s).2 (decorationStatements ds t).2 := by
  induction ds generalizing s t with
  | nil => exact ⟨rfl, h⟩
  | cons d ds ih =>
    obtain ⟨hfirst, hagree⟩ := statements_of_agreesOn h hb d
    obtain ⟨hrest, hall⟩ := ih hagree
    exact ⟨congrArg₂ _ hfirst hrest, hall⟩

/-! ## Definitions -/

theorem isWord_of_mem_formBases : ∀ b ∈ formBases, isWord b = true := by decide

/-- The members of a constructor function take names for the keys of fields only. -/
theorem agreesOn_outline (h : AgreesOn formBases s t) (cls : String)
    (captures : List (Nat × Capture)) (entries : List (Member × Nat)) :
    AgreesOn formBases (FunctionForm.outline cls captures entries s).2 t := by
  induction entries generalizing s with
  | nil => exact h
  | cons e entries ih =>
    obtain ⟨m, i⟩ := e
    unfold FunctionForm.outline
    split_ifs with hholds
    · exact ih (h.fresh_left "field" (by decide) isWord_of_mem_formBases (by decide))
    · exact ih h

theorem agreesOn_classLines {size : Nat} {c : ClassDecl} {captures : List (Nat × Capture)}
    {cls : String} {opening : List FunctionForm.Line} {o : FunctionForm.Outline} (hs : s.Sound)
    (h : FunctionForm.ClassLines size c captures cls s opening o s') :
    AgreesOn formBases s' s := by
  cases h with
  | base params body _ hmembers =>
    have hagree := agreesOn_outline (.refl formBases s) cls captures c.members.zipIdx
    rw [hmembers] at hagree
    exact hagree
  | @derived _ _ _ _ s₁ s₂ _ _ hshared hmembers hreserved =>
    have h₁ : AgreesOn formBases s₁ s := by
      have := (AgreesOn.refl formBases s).shared_left "super" hs (by decide)
        isWord_of_mem_formBases (by decide)
      rwa [hshared] at this
    have h₂ : AgreesOn formBases s₂ s := by
      have := agreesOn_outline h₁ cls captures c.members.zipIdx
      rwa [hmembers] at this
    have h₃ := h₂.reserve_left "this" (by decide) isWord_of_mem_formBases (by decide)
    rwa [hreserved] at h₃

/-! ## Lowered declarations -/

/-- A declaration before it is laid out, and the scope after it. -/
def Declaration.lower (d : Declaration) (o : EmitOptions) (ds : List Decoration) (s : Scope) :
    Except Halt (Lowered × Scope) :=
  match d with
  | .cls c => c.lower o ds s
  | .object l => l.lower o ds s

/-- A lowered declaration in the place of the declaration. -/
def Declaration.bind (d : Declaration) (binding expression : String) : String :=
  match d with
  | .cls c => c.bind binding expression
  | .object _ => expression

theorem Declaration.emit_eq_ok {d : Declaration} {o : EmitOptions} {ds : List Decoration}
    {text : String} : d.emit o ds s = .ok (text, s') ↔
      ∃ l, d.lower o ds s = .ok (l, s') ∧ text = d.bind l.binding (l.expression o s') := by
  have hemit : d.emit o ds s = (d.lower o ds s >>= fun p =>
      pure (d.bind p.1.binding (p.1.expression o p.2), p.2)) := by
    cases d <;> rfl
  rw [hemit]
  simp only [bind_eq_ok, pure_eq_ok, Prod.mk.injEq]
  constructor
  · rintro ⟨⟨l, t⟩, hl, rfl, rfl⟩
    exact ⟨l, hl, rfl⟩
  · rintro ⟨l, hl, rfl⟩
    exact ⟨(l, s'), hl, rfl, rfl⟩

theorem Scope.Sound.binding (hs : s.Sound) (c : ClassDecl) : (c.binding s).2.Sound := by
  unfold ClassDecl.binding
  split
  · exact hs
  · exact hs.reserve "class"

theorem Scope.Sound.declareSnapshots (hs : s.Sound) (ds : List Decoration) :
    (declareSnapshots ds s).Sound := by
  unfold Undecorate.declareSnapshots
  induction ds generalizing s with
  | nil => exact hs
  | cons d ds ih =>
    rw [List.foldl_cons]
    split
    · exact ih (hs.declare _)
    · exact ih hs

/-- A class as a constructor function: the lines of its definition, then the decorations. -/
theorem ClassDecl.lower_function_eq_ok {c : ClassDecl} {o : EmitOptions} {ds : List Decoration}
    {l : Lowered} (hform : o.form = .constructorFunction) (h : c.lower o ds s = .ok (l, s')) :
    ∃ opening out s₁, FunctionForm.ClassLines o.indentSize c (captures ds) (c.binding s).1
        (declareSnapshots ds (c.binding s).2) opening out s₁ ∧
      l.definition = (opening ++ out.definitions ++ out.statics).map (.written ·.render) ∧
      l.applications = (decorationStatements ds s₁).1 ∧ l.binding = (c.binding s).1 ∧
      s' = (decorationStatements ds s₁).2 := by
  simp only [ClassDecl.lower, hform, bind_eq_ok, pure_eq_ok, Prod.mk.injEq] at h
  obtain ⟨⟨definition, s₁⟩, hdefinition, rfl, rfl⟩ := h
  obtain ⟨opening, out, hlines, rfl⟩ := FunctionForm.classDefinition_eq_ok hdefinition
  refine ⟨opening, out, s₁, hlines, ?_, rfl, rfl, rfl⟩
  rw [List.map_map]
  rfl

/-- A class that stays one: its definition takes no names. -/
theorem ClassDecl.lower_class {c : ClassDecl} {o : EmitOptions} (ds : List Decoration)
    (hform : o.form = .classBased) (s : Scope) :
    c.lower o ds s = .ok
      ({ definition := [.written (ClassForm.classDefinition o.indentSize c ds (c.binding s).1)]
         applications := (decorationStatements ds (declareSnapshots ds (c.binding s).2)).1
         binding := (c.binding s).1 },
        (decorationStatements ds (declareSnapshots ds (c.binding s).2)).2) := by
  simp only [ClassDecl.lower, hform]
  rfl

/-- An object that is rebuilt: the lines of its definition, then the decorations. -/
theorem ObjectLiteral.lower_function_eq_ok {lit : ObjectLiteral} {o : EmitOptions}
    {ds : List Decoration} {l : Lowered} (hform : o.form = .constructorFunction)
    (h : lit.lower o ds s = .ok (l, s')) :
    l.definition = (FunctionForm.Line.set (s.shared "obj").1 "\x7b\x7d" ::
        lit.members.zipIdx.flatMap fun (m, i) =>
          FunctionForm.objectOutline (s.shared "obj").1 (captures ds) i m).map
        (.written ·.render) ∧
      l.applications = (decorationStatements ds (declareSnapshots ds (s.shared "obj").2)).1 ∧
      l.binding = (s.shared "obj").1 ∧
      s' = (decorationStatements ds (declareSnapshots ds (s.shared "obj").2)).2 := by
  simp only [ObjectLiteral.lower, hform, bind_eq_ok, pure_eq_ok, Prod.mk.injEq,
    FunctionForm.during_eq_ok] at h
  obtain ⟨definition, hdefinition, rfl, rfl⟩ := h
  refine ⟨?_, rfl, rfl, rfl⟩
  rw [FunctionForm.objectDefinition_eq_ok hdefinition, List.map_map]
  rfl

/-- An object literal that stays one. -/
theorem ObjectLiteral.lower_class {lit : ObjectLiteral} {o : EmitOptions} (ds : List Decoration)
    (hform : o.form = .classBased) (s : Scope) :
    lit.lower o ds s = .ok
      ({ definition := [.written
           (ClassForm.objectDefinition o.indentSize lit ds (s.shared "obj").1)]
         applications := (decorationStatements ds (declareSnapshots ds (s.shared "obj").2)).1
         binding := (s.shared "obj").1 },
        (decorationStatements ds (declareSnapshots ds (s.shared "obj").2)).2) := by
  simp only [ObjectLiteral.lower, hform]
  rfl

/-- Whatever can be emitted as a constructor function can be emitted as a class, from the same
scope. Both texts apply the decorators by the same statements and give the same name back, and both
scopes have handed out the same names on all bases that the forms have in common. -/
theorem forms_apply_alike (d : Declaration) (o : EmitOptions) (ds : List Decoration)
    (hs : s.Reached) {text : String}
    (h : d.emit { o with form := .constructorFunction } ds s = .ok (text, s')) :
    ∃ (f c : Lowered) (text' : String) (t' : Scope),
      d.lower { o with form := .constructorFunction } ds s = .ok (f, s') ∧
      text = d.bind f.binding (f.expression { o with form := .constructorFunction } s') ∧
      d.emit { o with form := .classBased } ds s = .ok (text', t') ∧
      d.lower { o with form := .classBased } ds s = .ok (c, t') ∧
      text' = d.bind c.binding (c.expression { o with form := .classBased } t') ∧
      (f.applications ++ [Statement.give f.binding]).map (·.render) =
        (c.applications ++ [Statement.give c.binding]).map (·.render) ∧
      f.applications = c.applications ∧ f.binding = c.binding ∧ s'.AgreesOn formBases t' := by
  obtain ⟨f, hf, htext⟩ := Declaration.emit_eq_ok.1 h
  suffices hgoal : ∃ (c : Lowered) (t' : Scope),
      d.lower { o with form := .classBased } ds s = .ok (c, t') ∧
      f.applications = c.applications ∧ f.binding = c.binding ∧ s'.AgreesOn formBases t' by
    obtain ⟨c, t', hc, happlications, hbinding, hagree⟩ := hgoal
    refine ⟨f, c, _, t', hf, htext, Declaration.emit_eq_ok.2 ⟨c, hc, rfl⟩, hc, rfl, ?_,
      happlications, hbinding, hagree⟩
    rw [happlications, hbinding]
  cases d with
  | cls c =>
    simp only [Declaration.lower] at hf ⊢
    obtain ⟨opening, out, s₁, hlines, -, happlications, hbinding, rfl⟩ :=
      ClassDecl.lower_function_eq_ok rfl hf
    refine ⟨_, _, ClassDecl.lower_class ds rfl s, ?_⟩
    have hagree := agreesOn_classLines ((hs.sound.binding c).declareSnapshots ds) hlines
    obtain ⟨hstatements, hall⟩ := decorationStatements_of_agreesOn hagree (by decide) ds
    exact ⟨happlications.trans hstatements, hbinding, hall⟩
  | object lit =>
    simp only [Declaration.lower] at hf ⊢
    obtain ⟨-, happlications, hbinding, rfl⟩ := ObjectLiteral.lower_function_eq_ok rfl hf
    exact ⟨_, _, ObjectLiteral.lower_class ds rfl s, happlications, hbinding, .refl _ _⟩

namespace Sample

/-- A decorator that is a plain name. -/
def named (text : String) : Decorator := { text, callee := some text }

/-- A derived class with decorators, a decorated method under a computed key, and a field with
one. -/
def derived : ClassDecl where
  name := some "A"
  heritage := some "B"
  header := some "class A extends B"
  decorators := [named "c"]
  members :=
    [{ kind := .field, key := some { text := "f()", isComputed := true }, value := some "1",
       source := "[f()] = 1" },
      { kind := .method, key := some { text := "k()", isComputed := true },
        body := some "\x7b\x7d", source := "[k()]() \x7b\x7d", keySpan := some (0, 5),
        decorators := [named "d", named "e"] }]

/-- Its decorations. -/
def decorations : List Decoration :=
  [{ target := ⟨.prototype, "A"⟩, decorators := [named "d", named "e"],
     subject := .property (.computed "k()" (some "_key")) (.method (some 1)) [1] },
    { target := ⟨.cls, "A"⟩, decorators := [named "c"], subject := .whole }]

/-- A scope in which the bare names of the parent, the instance and of decorators are taken. -/
def crowded : Scope := .avoiding "_" ["A", "B", "_super", "_this", "_dec", "_dec2"]

end Sample

theorem forms_apply_alike_of_sample :
    (Declaration.cls Sample.derived).decorations Sample.crowded =
      .ok (Sample.decorations, (Sample.crowded.fresh "key").2) ∧
    (Sample.crowded.fresh "key").2.Reached ∧
    ∃ text s', (Declaration.cls Sample.derived).emit { form := .constructorFunction }
        Sample.decorations (Sample.crowded.fresh "key").2 = .ok (text, s') ∧
      ∃ f c t', (Declaration.cls Sample.derived).lower { form := .constructorFunction }
          Sample.decorations (Sample.crowded.fresh "key").2 = .ok (f, s') ∧
        (Declaration.cls Sample.derived).lower { form := .classBased }
          Sample.decorations (Sample.crowded.fresh "key").2 = .ok (c, t') ∧
        f.applications = c.applications ∧ f.binding = c.binding := by
  have hs : (Sample.crowded.fresh "key").2.Reached := .fresh "key" (.avoiding _ _)
  have hok : ((Declaration.cls Sample.derived).emit { form := .constructorFunction }
      Sample.decorations (Sample.crowded.fresh "key").2).toBool = true := by decide +kernel
  refine ⟨by decide +kernel, hs, ?_⟩
  cases h : (Declaration.cls Sample.derived).emit { form := .constructorFunction }
      Sample.decorations (Sample.crowded.fresh "key").2 with
  | error e =>
    rw [h] at hok
    cases hok
  | ok p =>
    obtain ⟨f, c, -, t', hf, -, -, hc, -, -, happlications, hbinding, -⟩ :=
      forms_apply_alike (.cls Sample.derived) {} Sample.decorations hs h
    exact ⟨_, _, rfl, f, c, t', hf, hc, happlications, hbinding⟩

end Undecorate
