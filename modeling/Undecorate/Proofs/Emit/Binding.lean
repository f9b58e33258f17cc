import Undecorate.Proofs.Emit.Header
import Undecorate.Proofs.Emit.Hygiene

/-! # Bindings that a definition declares

The name that generated code uses for a class is declared by the definition of the class: as a
function, as a variable, or by the header of the class. An anonymous class gets the name behind its
keyword.

* `Header.names_addName`: a header with a keyword gets the name;
* `Declaration.Defines.declares`: every definition declares the binding.
-/

namespace Undecorate

namespace Header

/-- A header that has the name of the class behind its keyword. -/
def Names (name header : List Char) : Prop :=
  ∃ before blanks rest, header = before ++ keyword ++ blanks ++ name ++ rest ∧ blanks ≠ [] ∧
    ∀ c ∈ blanks, Text.isBlank c = true

/-- A header that has the keyword as a word of its own. -/
def HasKeyword (header : List Char) : Prop :=
  ∃ before rest, header = before ++ keyword ++ rest ∧
    (false :: before.map Text.isWord).getLast? = some false ∧ endsWord rest = true

/-- The edit that puts a name behind the keyword. -/
def adding (name cs : List Char) : Option (List Char) :=
  (afterKeyword? cs).bind fun rest =>
    if endsWord rest then some (keyword ++ ' ' :: name ++ rest) else none

/-- An anonymous class gets its name behind the keyword. -/
theorem names_addName {header : List Char} (name : List Char) (h : HasKeyword header) :
    Names name (addName name header) := by
  obtain ⟨before, rest, rfl, hword, hends⟩ := h
  have hhere : Applies (adding name) false (before ++ keyword ++ rest) before (keyword ++ rest)
      (keyword ++ ' ' :: name ++ rest) := by
    refine ⟨List.append_assoc _ _ _, ?_, hword, ?_⟩
    · exact List.append_ne_nil_of_left_ne_nil (by decide) rest
    · rw [adding, afterKeyword?_eq_some.2 rfl, Option.bind_some, if_pos hends]
  have hedited := edited_editFirst (adding name) false (before ++ keyword ++ rest)
  show Names name (editFirst (adding name) false (before ++ keyword ++ rest))
  generalize editFirst (adding name) false (before ++ keyword ++ rest) = out at hedited
  cases hedited with
  | nowhere hnone => exact absurd hhere (hnone _ _ _)
  | @first front _ tail happlies _ =>
    obtain ⟨rest', -, hsome⟩ := Option.bind_eq_some_iff.1 happlies.edits
    split at hsome
    · have hblank : ∀ c ∈ [' '], Text.isBlank c = true := by
        intro c hc
        rw [List.mem_singleton.1 hc]
        decide
      refine ⟨front, [' '], rest', ?_, by simp, hblank⟩
      rw [← Option.some.inj hsome]
      simp
    · cases hsome

end Header

/-- A text that declares a name. -/
inductive DeclaredIn (name : String) : String → Prop
  | function (rest : String) : DeclaredIn name ("function " ++ name ++ rest)
  | binding (rest : String) : DeclaredIn name ("let " ++ name ++ " = " ++ rest)
  | cls {header : List Char} (rest : String) (names : Header.Names name.toList header) :
      DeclaredIn name (String.ofList header ++ rest)

/-- The header of the class introduces it: by its own name, or by a bare keyword when it has
none. -/
def ClassDecl.Introduced (c : ClassDecl) : Prop :=
  match c.name with
  | some name => name ≠ "" ∧ Header.Names name.toList (ClassForm.header c).toList
  | none => Header.HasKeyword (ClassForm.header c).toList

theorem Layout.blockText_eq (size : Nat) (header : String) (entries : List String) :
    ∃ rest, Layout.blockText size header entries = header ++ rest := by
  unfold Layout.blockText Layout.block
  split
  · refine ⟨String.ofList [' ', '\x7b', '\x7d'], ?_⟩
    rw [String.ofList_append, String.ofList_toList]
  · refine ⟨String.ofList ([' ', '\x7b', '\n'] ++
      (Layout.indentLines size 1 (entries.map String.toList) ++ ['\n', '\x7d'])), ?_⟩
    rw [List.append_assoc, List.append_assoc, String.ofList_append, String.ofList_toList]

variable {s s' : Scope} {binding : String}

/-- A class that stays one declares its binding. -/
theorem declaredIn_classDefinition {c : ClassDecl} (size : Nat) (ds : List Decoration)
    (hbinding : (c.binding s).1 = binding) (hc : c.decorators = [] → c.Introduced) :
    DeclaredIn binding (ClassForm.classDefinition size c ds binding) := by
  unfold ClassForm.classDefinition
  dsimp only
  split
  · rename_i hempty
    have hintroduced := hc (List.isEmpty_iff.1 hempty)
    unfold ClassDecl.Introduced at hintroduced
    cases hname : c.name with
    | some name =>
      rw [hname] at hintroduced
      obtain ⟨hne, hnames⟩ := hintroduced
      -- a class with a name of its own is bound to it
      have hown : binding = name := by
        have hsome : nonempty? (some name) = some name := by simp [nonempty?, Option.filter, hne]
        rw [← hbinding, ClassDecl.binding, hname, hsome]
      subst hown
      obtain ⟨rest, heq⟩ := Layout.blockText_eq size (ClassForm.header c)
        (ClassForm.classEntries (captures ds) c.members)
      dsimp only
      rw [heq, ← @String.ofList_toList (ClassForm.header c)]
      exact .cls rest hnames
    | none =>
      rw [hname] at hintroduced
      obtain ⟨rest, heq⟩ := Layout.blockText_eq size
        (Layout.onText (Header.addName binding.toList) (ClassForm.header c))
        (ClassForm.classEntries (captures ds) c.members)
      dsimp only
      rw [heq]
      exact .cls rest (Header.names_addName _ hintroduced)
  · obtain ⟨rest, heq⟩ := Layout.blockText_eq size _ _
    rw [heq, String.append_assoc, String.append_assoc]
    exact .binding _

/-- The opening of a constructor function declares its binding. -/
theorem declaredIn_opening {size : Nat} {c : ClassDecl} {captures : List (Nat × Capture)}
    {opening : List FunctionForm.Line} {out : FunctionForm.Outline}
    (h : FunctionForm.ClassLines size c captures binding s opening out s') :
    ∃ text, FunctionForm.Line.written text ∈ opening ∧ DeclaredIn binding text := by
  cases h with
  | base params body _ _ =>
    refine ⟨_, List.mem_singleton.2 rfl, ?_⟩
    obtain ⟨rest, heq⟩ := Layout.blockText_eq size ("function " ++ binding ++ params) _
    rw [heq, String.append_assoc]
    exact .function _
  | derived _ _ _ _ =>
    refine ⟨_, List.mem_cons_of_mem _ List.mem_cons_self, ?_⟩
    unfold FunctionForm.derivedConstruct
    obtain ⟨rest, heq⟩ := Layout.blockText_eq size ("function " ++ binding ++ "()") _
    rw [heq, String.append_assoc]
    exact .function _

/-- The definition of a class declares its binding. As a class without decorators of its own it
does so by the header. -/
theorem Declaration.Defines.declares {c : ClassDecl} {o : EmitOptions} {ds : List Decoration}
    {definition : List Statement} {assigned held : List String} {s₀ : Scope}
    (h : (Declaration.cls c).Defines o ds binding s definition assigned held s')
    (hbinding : (c.binding s₀).1 = binding)
    (hc : o.form = .classBased → c.decorators = [] → c.Introduced) :
    ∃ text, Statement.written text ∈ definition ∧ DeclaredIn binding text := by
  cases h with
  | cls hform =>
    exact ⟨_, List.mem_singleton.2 rfl, declaredIn_classDefinition _ ds hbinding (hc hform)⟩
  | function _ hlines =>
    obtain ⟨text, hmem, hdeclared⟩ := declaredIn_opening hlines
    refine ⟨text, List.mem_map.2 ⟨.written text, ?_, rfl⟩, hdeclared⟩
    exact List.mem_append_left _ (List.mem_append_left _ hmem)

end Undecorate
