import Undecorate.Classify
import Undecorate.Emit.ClassForm
import Undecorate.Emit.FunctionForm

/-! # Lowered declarations

A lowered declaration is a function that is called at once: it declares its temporaries, defines
the undecorated class or object, applies every decoration, and gives the result back. The forms
differ in the definition and the wrapping only.
-/

namespace Undecorate

/-- A lowered declaration before it is laid out. -/
structure Lowered where
  definition : List Statement
  applications : List Statement
  binding : String
deriving DecidableEq, Repr

namespace Lowered

/-- The statements of a lowered declaration, without the declaration of the temporaries. -/
def statements (l : Lowered) : List Statement :=
  l.definition ++ l.applications ++ [.give l.binding]

/-- The line that declares the temporaries of a scope, if there are any. -/
def declarations (s : Scope) : List String :=
  if s.declared.isEmpty then [] else ["var " ++ ", ".intercalate s.declared ++ ";"]

/-- The lowered declaration as an expression. -/
def expression (o : EmitOptions) (l : Lowered) (s : Scope) : String :=
  let lines := declarations s ++ l.statements.map (·.render)
  match o.form with
  | .classBased => ClassForm.wrap o.indentSize lines
  | .constructorFunction => FunctionForm.wrap o.indentSize lines

end Lowered

/-- Lowers a class with its decorations. -/
def ClassDecl.lower (c : ClassDecl) (o : EmitOptions) (ds : List Decoration) (s : Scope) :
    Except Halt (Lowered × Scope) := do
  let (binding, s) := c.binding s
  let s := declareSnapshots ds s
  let (definition, s) ← match o.form with
    | .classBased => pure ([ClassForm.classDefinition o.indentSize c ds binding], s)
    | .constructorFunction => FunctionForm.classDefinition o.indentSize c ds binding s
  let (applications, s) := decorationStatements ds s
  return ({ definition := definition.map .written, applications, binding }, s)

/-- Lowers an object literal with its decorations. -/
def ObjectLiteral.lower (l : ObjectLiteral) (o : EmitOptions) (ds : List Decoration) (s : Scope) :
    Except Halt (Lowered × Scope) := do
  let (binding, s) := s.shared "obj"
  let s := declareSnapshots ds s
  let definition ← match o.form with
    | .classBased => pure [ClassForm.objectDefinition o.indentSize l ds binding]
    | .constructorFunction => s.during (FunctionForm.objectDefinition l ds binding)
  let (applications, s) := decorationStatements ds s
  return ({ definition := definition.map .written, applications, binding }, s)

/-- A lowered class in the place of the class: an expression stays one, a declaration becomes a
binding that is exported as the class was. -/
def ClassDecl.bind (c : ClassDecl) (binding expression : String) : String :=
  if c.isExpression then expression
  else
    let statement := "let " ++ binding ++ " = " ++ expression ++ ";"
    match c.export? with
    | some .default => statement ++ "\nexport default " ++ binding ++ ";"
    | some .named => "export " ++ statement
    | none => statement

/-- The text of a lowered declaration, and the scope after it. The scope must be the one that the
declaration was classified with. -/
def Declaration.emit (d : Declaration) (o : EmitOptions) (ds : List Decoration) (s : Scope) :
    Except Halt (String × Scope) := do
  match d with
  | .cls c =>
    let (l, s) ← c.lower o ds s
    return (c.bind l.binding (l.expression o s), s)
  | .object l =>
    let (l, s) ← l.lower o ds s
    return (l.expression o s, s)

end Undecorate
