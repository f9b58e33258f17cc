import Undecorate.Classify
import Undecorate.Declaration.OfTree
import Undecorate.Emit.Basic
import Undecorate.Engine.Language
import Undecorate.Source.Splice

/-! # Lowering a source text

Finds every decorated class and object literal and replaces it by its lowered form, innermost
first, so that a declaration is built from the lowered text of those inside it. Everything outside
them stays as it is.
-/

namespace Undecorate

/-- A source text with its tree. A document is damaged when the grammar does not accept it. -/
structure Document where
  language : Language
  source : List Char
  tree : Tree
  isDamaged : Bool
deriving Repr, Inhabited

/-- A decorated declaration of a document with its decorations. -/
structure Site where
  declaration : Declaration
  decorations : List Decoration
deriving DecidableEq, Repr

namespace Document

/-- What is reported for a decorator outside classes and object literals. -/
def strayDecorator (doc : Document) (t : Tree) : Fault :=
  .refused (.classification
    "Decorators are only supported on classes, class members and object literal methods"
    (some (Source.rangeOf doc.source t)))

/-- What is reported for a document that the grammar does not accept. -/
def brokenSource (doc : Document) (bad : Option Tree) : Except Fault Diagnostic := do
  let notes : List (Text × Note) ← match bad with
    | none => pure []
    | some t =>
      let text ← (Reading.plain doc.source).text t
      let (line, column) := Source.pointAt doc.source t.start
      pure [(.ofString "code_snippet", .text (String.ofList (text.toList.take 80))),
        (.ofString "position", .pair (.int (line + 1)) (.int (column + 1)))]
  return .make .sourceError "Source does not parse"
    (notes ++ [(.ofString "language", .text doc.language.name)])

/-- Checks that the grammar accepts a document. -/
def checkParsed (doc : Document) : Except Fault Unit := do
  if doc.isDamaged then throw (.refused (← doc.brokenSource doc.tree.firstError?))

/-- Checks that a document can be lowered: the grammar accepts it, or else the place that it does
not accept has a decorator. -/
def check (doc : Document) : Except Fault Unit := do
  if doc.isDamaged then
    if let some bad := doc.tree.firstError? then
      if bad.walk.any fun l => l.node.kind == "decorator" || l.node.kind == "@" then
        throw (doc.strayDecorator bad)
  doc.checkParsed

/-- Whether a node spells an identifier. -/
def isIdentifierNode (t : Tree) : Bool :=
  "identifier".toList.reverse.isPrefixOf t.kind.toList.reverse

/-- Every identifier in the document; temporaries avoid these names. -/
def identifiers (doc : Document) : Except Fault (List String) :=
  ((doc.tree.walk.map (·.node)).filter isIdentifierNode).mapM (Reading.plain doc.source).text

/-- Checks that every decorator belongs to one of the sites. -/
def checkClaimed (doc : Document) (sites : List Located) : Except Fault Unit :=
  let claimed := sites.flatMap fun l => l.claimed.map (·.id)
  let decorators := (doc.tree.walk.map (·.node)).filter (·.kind == "decorator")
  match decorators.find? fun d => !claimed.contains d.id with
  | some stray => .error (doc.strayDecorator stray)
  | none => .ok ()

/-- The white space at the start of the line of an offset, before the offset. -/
def lineIndentation (doc : Document) (offset : Nat) : Except Fault (List Char) := do
  let (_, column) := Source.pointAt doc.source offset
  let line ← (Reading.plain doc.source).textOf (offset - column) offset
  return line.toList.takeWhile Text.isBlank

/-- Reads a buffer. -/
def bufferReading (b : Source.Buffer) : Reading where
  source := b.source
  textOf start stop := match b.read? start stop with
    | some cs => .ok (String.ofList cs)
    | none => .error .cutText

/-- Lowers one site into a buffer that has the sites inside it. -/
def lowerSite (doc : Document) (o : EmitOptions) (taken : List String) (b : Source.Buffer)
    (l : Located) : Except Fault Source.Buffer := do
  let declaration ← (bufferReading b).declaration l
  let scope := Scope.avoiding o.lead taken
  let (decorations, scope) ← (declaration.decorations scope).mapError (·.fault)
  let (text, _) ← (declaration.emit o decorations scope).mapError (·.fault.fault)
  let indent ← doc.lineIndentation l.site.start
  return b.replace ⟨l.site.start, l.site.stop,
    Layout.onText (Layout.continueAt indent) text⟩

/-- Lowers every site of a document. -/
def lower (doc : Document) (o : EmitOptions) : Except Fault String := do
  doc.check
  let taken ← doc.identifiers
  let sites := doc.tree.walkUp.filter (·.isSite)
  let b ← sites.foldlM (doc.lowerSite o taken) ⟨doc.source, []⟩
  doc.checkClaimed sites
  if sites.isEmpty then return String.ofList doc.source
  (bufferReading b).textOf 0 (Source.byteLength doc.source)

/-- Builds and classifies one site. -/
def classifySite (doc : Document) (lead : String) (taken : List String) (l : Located) :
    Except Fault Site := do
  let declaration ← (Reading.plain doc.source).declaration l
  let (decorations, _) ← (declaration.decorations (.avoiding lead taken)).mapError (·.fault)
  return { declaration, decorations }

/-- The sites of a document in source order, classified and not lowered. -/
def sites (doc : Document) (o : EmitOptions) : Except Fault (List Site) := do
  doc.check
  let taken ← doc.identifiers
  let located := doc.tree.walk.filter (·.isSite)
  let found ← located.mapM (doc.classifySite o.lead taken)
  doc.checkClaimed located
  return found

end Document

end Undecorate
