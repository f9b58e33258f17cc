import Undecorate.Proofs.Emit.Binding
import Undecorate.Proofs.Engine.Nesting

/-! # Hygiene of lowered documents

Every site of a document is lowered with a scope that avoids the identifiers of the whole document.
So the names that are generated for it are distinct and new, and all that generated code assigns is
declared.

* `Lowering.Hygiene`: what is known of the names of a site;
* `generated_names_are_hygienic`: the answers of a scope to any requests, and the names of every
  site that is lowered.
-/

namespace Undecorate

/-- The names that are generated for a site: the temporaries of computed keys, of the keys of fields
and of decorators, and one for every base that is reserved. -/
def generatedNames (ds : List Decoration) (l : Lowered) (held : List String) (s : Scope) :
    List String :=
  snapshots ds ++ held ++ l.applications.flatMap (·.holds) ++ s.reserved.map (·.2)

/-- What is known of the names of a site that was lowered to `l`, when its definition assigns
`assigned`, holds the keys of fields in `held` and leaves the scope `defined`, and the scope is `s`
at the end. -/
structure Lowering.Hygiene (doc : Document) (o : EmitOptions) (x : Lowering) (l : Lowered)
    (assigned held : List String) (defined s : Scope) : Prop where
  /-- Generated names are pairwise distinct. -/
  distinct : (generatedNames x.decorations l held s).Nodup
  /-- None of them is an identifier of the document. -/
  avoids : ∀ n ∈ doc.tree.walk, Document.isIdentifierNode n.node = true →
    ∀ text, (Reading.plain doc.source).text n.node = .ok text →
      text ∉ generatedNames x.decorations l held s
  /-- Declared names are generated ones, each once. -/
  declared : s.declared ⊆ generatedNames x.decorations l held s ∧ s.declared.Nodup
  /-- The names that are reserved for the definition are generated ones: the parent, the instance
  and the binding of an anonymous class or an object. -/
  reserved : ∀ base name, defined.reserved.lookup base = some name →
    name ∈ generatedNames x.decorations l held s
  binding : (∃ c, x.declaration = .cls c ∧ nonempty? c.name = some l.binding) ∨
    l.binding ∈ generatedNames x.decorations l held s
  /-- What the definition assigns is declared. -/
  definition : ∀ y ∈ assigned, y ∈ s.declared
  /-- What the other statements assign is declared, or is the class. -/
  applications : ∀ st ∈ l.applications, ∀ y ∈ st.assigns, y ∈ s.declared ∨ y = l.binding
  /-- Every decoration has the binding that is given back. -/
  bindings : ∀ u ∈ x.decorations, u.target.binding = l.binding
  /-- An object is bound to a declared name, and a class to one that its definition declares. -/
  declares : match x.declaration with
    | .object _ => l.binding ∈ s.declared
    | .cls c => (o.form = .classBased → c.decorators = [] → c.Introduced) →
      ∃ text, Statement.written text ∈ l.definition ∧ DeclaredIn l.binding text

/-- The texts of all identifiers are avoided. -/
theorem Document.mem_identifiers {doc : Document} {taken : List String}
    (h : doc.identifiers = .ok taken) {n : Located} (hn : n ∈ doc.tree.walk)
    (hid : isIdentifierNode n.node = true) {text : String}
    (htext : (Reading.plain doc.source).text n.node = .ok text) : text ∈ taken := by
  have hnode : n.node ∈ (doc.tree.walk.map (·.node)).filter isIdentifierNode :=
    List.mem_filter.2 ⟨List.mem_map_of_mem hn, hid⟩
  obtain ⟨found, hfound, hread⟩ := exists_of_forall₂ (mapM_eq_ok.1 h) hnode
  rw [Except.ok.inj (htext.symm.trans hread)]
  exact hfound

open Scope

/-- A class is bound to its own name, and an anonymous one to the name that is reserved for it. -/
theorem ClassDecl.binding_cases (c : ClassDecl) (s : Scope) :
    nonempty? c.name = some (c.binding s).1 ∨
      (c.binding s).2.reserved.lookup "class" = some (c.binding s).1 := by
  unfold ClassDecl.binding
  cases nonempty? c.name with
  | some name => exact .inl rfl
  | none => exact .inr (lookup_reserve s "class")

/-- A site that was built, classified and emitted has hygienic names. -/
theorem Lowering.Made.hygiene {doc : Document} {o : EmitOptions} {taken : List String}
    {x : Lowering} (hids : doc.identifiers = .ok taken) (h : x.Made doc o taken) :
    ∃ (l : Lowered) (assigned held : List String) (s s₁ s' : Scope) (indent : List Char),
      x.declaration.decorations (.avoiding o.lead taken) = .ok (x.decorations, s) ∧
      x.declaration.lower o x.decorations s = .ok (l, s') ∧
      x.text = Layout.onText (Layout.continueAt indent)
        (x.declaration.bind l.binding (l.expression o s')) ∧
      x.declaration.Defines o x.decorations l.binding
        (declareSnapshots x.decorations (x.declaration.binding s).2) l.definition assigned held s₁ ∧
      x.Hygiene doc o l assigned held s₁ s' := by
  obtain ⟨s, s', emitted, indent, hds, hemit, -, htext⟩ := h.emitted
  obtain ⟨l, hl, rfl⟩ := Declaration.emit_eq_ok.1 hemit
  obtain ⟨hbinding, assigned, held, s₁, hdefines, hstatements⟩ := Declaration.lower_eq_ok hl
  obtain ⟨hclassify, htargets⟩ := hands_decorations hds
  obtain ⟨hkeeps, hsnapshots⟩ :=
    declared_declareSnapshots x.decorations (x.declaration.binding s).2
  -- an object is bound to a name that is declared before its definition
  have hobject : ∀ lit, x.declaration = .object lit →
      l.binding ∈ (declareSnapshots x.decorations (x.declaration.binding s).2).declared := by
    intro lit hlit
    rw [hbinding]
    refine hkeeps ?_
    rw [hlit]
    exact mem_declared_shared.2 (.inr rfl)
  obtain ⟨hdefinition, hassigned⟩ := hdefines.hands hsnapshots hobject
  obtain ⟨happly, hassigns⟩ := hands_decorationStatements x.decorations s₁
  rw [hstatements] at happly hassigns
  -- the scope is passed on from one part to the next
  have hhygienic : Hygienic taken
      (snapshots x.decorations ++ held ++ l.applications.flatMap Statement.holds) s' := by
    have h₁ := (hands_binding x.declaration s).hygienic
      (hclassify.hygienic (hygienic_avoiding o.lead taken))
    rw [List.nil_append, List.append_nil] at h₁
    exact happly.hygienic (hdefinition.hygienic (h₁.declareSnapshots fun _ hx => hx))
  have hreserved : ∀ base name, s₁.reserved.lookup base = some name →
      name ∈ generatedNames x.decorations l held s' := by
    intro base name hlookup
    have hmem := lookup_mem (happly.reserved base name hlookup)
    exact List.mem_append_right _ (List.mem_map_of_mem (f := Prod.snd) hmem)
  refine ⟨l, assigned, held, s, s₁, s', indent, hds, hl, htext, hdefines, ?_⟩
  refine ⟨hhygienic.distinct, ?_, ⟨hhygienic.made, hhygienic.nodup⟩, hreserved, ?_,
    fun y hy => happly.declared (hassigned y hy), ?_, ?_, ?_⟩
  · intro n hn hid text htext hmem
    exact hhygienic.avoids text hmem (doc.mem_identifiers hids hn hid htext)
  · cases hd : x.declaration with
    | object lit =>
      exact .inr (hhygienic.made _ (happly.declared (hdefinition.declared (hobject lit hd))))
    | cls c =>
      have hbound : x.declaration.binding s = c.binding s := by rw [hd, Declaration.binding]
      rcases c.binding_cases s with hname | hlookup
      · refine .inl ⟨c, rfl, ?_⟩
        rw [hbinding, hbound, hname]
      · refine .inr (hreserved "class" _ (hdefinition.reserved "class" _ ?_))
        rw [reserved_declareSnapshots, hbinding, hbound, hlookup]
  · intro st hst y hy
    rcases hassigns st hst y hy with hy | ⟨u, hu, rfl⟩
    · exact .inl hy
    · exact .inr ((htargets u hu).trans hbinding.symm)
  · intro u hu
    exact (htargets u hu).trans hbinding.symm
  · cases hd : x.declaration with
    | object lit =>
      have hdeclared := happly.declared (hdefinition.declared (hobject lit hd))
      exact hdeclared
    | cls c =>
      rw [hd] at hdefines hbinding
      exact hdefines.declares hbinding.symm

/-- Whatever a scope is asked for, it answers: with a name that was not taken and is the first one
on its base, or with the name that the base has. Answers are the same only when they must be, and
the declared names are those that were asked for as such, each once. The names of every site of a
document that is lowered are hygienic. -/
theorem generated_names_are_hygienic :
    (∀ (lead : String) (taken : List String) (qs : List Scope.Request), ∃ names s',
      (avoiding lead taken).answers qs = (names, s') ∧ names.length = qs.length ∧
      AllDue lead taken (qs.zip names) ∧ (∀ e ∈ qs.zip names, e.2 ∉ taken) ∧
      ((qs.zip names).Pairwise fun e e' => e.2 = e'.2 ↔ e.1.SameName e'.1) ∧
      (∀ x, x ∈ s'.declared ↔ ∃ e ∈ qs.zip names, e.1.isDeclared = true ∧ e.2 = x) ∧
      s'.declared.Nodup) ∧
    ∀ (doc : Document) (o : EmitOptions) (taken : List String) (b b' : Source.Buffer)
      (located : Located), doc.identifiers = .ok taken →
      doc.lowerSite o taken b located = .ok b' →
      ∃ (x : Lowering) (l : Lowered) (assigned held : List String) (s s₁ s' : Scope)
        (indent : List Char), x.located = located ∧ x.before = b ∧ b' = x.after ∧
        x.declaration.decorations (.avoiding o.lead taken) = .ok (x.decorations, s) ∧
        x.declaration.lower o x.decorations s = .ok (l, s') ∧
        x.text = Layout.onText (Layout.continueAt indent)
          (x.declaration.bind l.binding (l.expression o s')) ∧
        x.declaration.Defines o x.decorations l.binding
          (declareSnapshots x.decorations (x.declaration.binding s).2) l.definition assigned held
          s₁ ∧
        x.Hygiene doc o l assigned held s₁ s' := by
  refine ⟨?_, ?_⟩
  · intro lead taken qs
    obtain ⟨names, hnames, hlength, hrecords, hdue⟩ :=
      records_answers (records_avoiding lead taken) qs
    rw [List.nil_append] at hrecords
    have hall : AllDue lead taken (qs.zip names) := fun earlier q name later hsplit =>
      hdue earlier q name later hsplit
    exact ⟨names, _, by rw [← hnames], hlength, hall, hall.distinct.1, hall.distinct.2,
      hrecords.declared, hrecords.nodup⟩
  · intro doc o taken b b' located hids hlower
    obtain ⟨x, hlocated, hbefore, hmade, hafter⟩ := lowerSite_eq_ok.1 hlower
    obtain ⟨l, assigned, held, s, s₁, s', indent, hsite⟩ := hmade.hygiene hids
    exact ⟨x, l, assigned, held, s, s₁, s', indent, hlocated, hbefore, hafter, hsite⟩

namespace Sample

/-- A class expression `class { @d m() {} }` with an empty name behind its keyword. -/
def unnamedClass : Tree :=
  .node { id := 1, kind := "class", start := 0, stop := 20 }
    [token 2 "class" 0 5, leaf 3 "identifier" 6 6 "name",
      .node { id := 4, kind := "class_body", start := 7, stop := 20, field := "body" }
        [methodAt 5 9]]

/-- The document with this class. -/
def unnamed : Document := ofStatement "class  \x7b @d m() \x7b\x7d \x7d" unnamedClass

/-- The class in its document. -/
def unnamedSite : Located := ⟨some unnamed.tree, unnamedClass⟩

/-- The identifiers of the document. -/
def unnamedTaken : List String := ["", "d", "m"]

/-- The range of a stretch of the first line. -/
def onLine (start stop : Nat) : SourceRange :=
  { startLine := 1, endLine := 1, startColumn := some start, endColumn := some stop,
    startByte := some start, endByte := some stop }

/-- The declaration that is built. -/
def unnamedDecl : ClassDecl where
  name := some ""
  header := some "class"
  members :=
    [{ kind := .method, key := some { text := "m" }, body := some "\x7b\x7d",
       source := "m() \x7b\x7d", keySpan := some (0, 1),
       decorators := [{ text := "d", callee := some "d", range := some (onLine 9 11) }],
       range := some (onLine 12 18) }]
  isExpression := true
  range := some (onLine 0 20)

/-- The decoration of its method. -/
def unnamedDecoration : Decoration where
  target := ⟨.prototype, "_class"⟩
  decorators := [{ text := "d", callee := some "d", range := some (onLine 9 11) }]
  subject := .property (.static (some (.ofString "m"))) (.method (some 0)) [0]
  range := some (onLine 12 18)

/-- The scope that the class is classified with. -/
def unnamedScope : Scope := ((Scope.avoiding "_" unnamedTaken).reserve "class").2

end Sample

/-- The names of that class are hygienic, in the other form too. -/
theorem generated_names_are_hygienic_of_sample :
    Sample.unnamed.identifiers = .ok Sample.unnamedTaken ∧
    ∃ b', Sample.unnamed.lowerSite { form := .constructorFunction } Sample.unnamedTaken
        ⟨Sample.unnamed.source, []⟩ Sample.unnamedSite = .ok b' ∧
      ∃ (x : Lowering) (l : Lowered) (assigned held : List String) (s₁ s' : Scope), b' = x.after ∧
        x.Hygiene Sample.unnamed { form := .constructorFunction } l assigned held s₁ s' := by
  have hids : Sample.unnamed.identifiers = .ok Sample.unnamedTaken := by decide +kernel
  have hok : (Sample.unnamed.lowerSite { form := .constructorFunction } Sample.unnamedTaken
      ⟨Sample.unnamed.source, []⟩ Sample.unnamedSite).isOk = true := by decide +kernel
  refine ⟨hids, ?_⟩
  cases h : Sample.unnamed.lowerSite { form := .constructorFunction } Sample.unnamedTaken
      ⟨Sample.unnamed.source, []⟩ Sample.unnamedSite with
  | error f =>
    rw [h] at hok
    cases hok
  | ok b' =>
    obtain ⟨x, l, assigned, held, -, s₁, s', -, -, -, hafter, -, -, -, -, hsite⟩ :=
      generated_names_are_hygienic.2 _ _ _ _ _ _ hids h
    exact ⟨b', rfl, x, l, assigned, held, s₁, s', hafter, hsite⟩

/-- A text that declares a name has the name in it. -/
theorem DeclaredIn.isInfix {name text : String} (h : DeclaredIn name text) :
    name.toList <:+: text.toList := by
  cases h with
  | function rest =>
    rw [String.toList_append, String.toList_append]
    exact ⟨_, _, rfl⟩
  | binding rest =>
    rw [String.toList_append, String.toList_append, String.toList_append, List.append_assoc]
    exact ⟨_, _, rfl⟩
  | cls rest hnames =>
    obtain ⟨before, blanks, tail, rfl, -⟩ := hnames
    rw [String.toList_append, String.toList_ofList, List.append_assoc _ tail]
    exact ⟨_, _, rfl⟩

/-- A class with an empty name is bound to a generated name that nothing declares. -/
theorem empty_name_is_not_declared :
    Sample.unnamed.identifiers = .ok Sample.unnamedTaken ∧
    (Document.bufferReading ⟨Sample.unnamed.source, []⟩).declaration Sample.unnamedSite =
      .ok (.cls Sample.unnamedDecl) ∧
    (Declaration.cls Sample.unnamedDecl).decorations (.avoiding "_" Sample.unnamedTaken) =
      .ok ([Sample.unnamedDecoration], Sample.unnamedScope) ∧
    ∃ l s', (Declaration.cls Sample.unnamedDecl).lower {} [Sample.unnamedDecoration]
        Sample.unnamedScope = .ok (l, s') ∧
      Sample.unnamedDecoration.target.binding = l.binding ∧ l.binding ∉ s'.declared ∧
      ¬ ∃ text, Statement.written text ∈ l.definition ∧ DeclaredIn l.binding text := by
  have hlower := ClassDecl.lower_class (c := Sample.unnamedDecl) (o := {})
    [Sample.unnamedDecoration] rfl Sample.unnamedScope
  refine ⟨by decide +kernel, by decide +kernel, by decide +kernel, _, _, hlower,
    by decide +kernel, by decide +kernel, ?_⟩
  rintro ⟨text, hmem, hdeclared⟩
  have htext : text = ClassForm.classDefinition 2 Sample.unnamedDecl [Sample.unnamedDecoration]
      (Sample.unnamedDecl.binding Sample.unnamedScope).1 :=
    Statement.written.inj (List.mem_singleton.1 hmem)
  have habsent : ¬ (Sample.unnamedDecl.binding Sample.unnamedScope).1.toList <:+:
      (ClassForm.classDefinition 2 Sample.unnamedDecl [Sample.unnamedDecoration]
        (Sample.unnamedDecl.binding Sample.unnamedScope).1).toList := by decide +kernel
  rw [htext] at hdeclared
  exact habsent hdeclared.isInfix

end Undecorate
