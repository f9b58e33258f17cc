import Undecorate.Decoration
import Undecorate.Fault.Diagnostic
import Undecorate.Scope

/-! # From declarations to decorations

Members that share a key form one property: a method, or a getter with its setter. Every property
with a decorated member becomes a decoration, in the order of the decorated members; the decoration
of the class itself comes last. Decorators on anything else are refused, first of all those on
members that cannot be decorated.
-/

namespace Undecorate

/-- Why members cannot be described as one property. -/
inductive GroupFault where
  | mixed (range : Option SourceRange)
  | empty
  | noFunction
deriving DecidableEq, Repr

/-- A group fault as it is reported. -/
def GroupFault.fault : GroupFault → Fault
  | .mixed range =>
    .refused (.classification "Members sharing a key must be one method or one get/set pair" range)
  | .empty => .refused (.classification "No method or accessor to describe" none)
  | .noFunction => .badValue "an accessor descriptor needs a getter or a setter"

/-- The accessor descriptor of two functions, one of which must be there. -/
def Descriptor.accessor? {α : Type} (getter setter : Option α) :
    Except GroupFault (Descriptor α) :=
  if getter.isNone && setter.isNone then .error .noFunction else .ok (.accessor getter setter)

/-- The descriptor that bare source gives the property of one method or one getter and setter.
Each member comes with the function that it stands for. -/
def Descriptor.ofMembers {α : Type} (members : List (Member × Option α)) :
    Except GroupFault (Descriptor α) :=
  let methods := members.filter (·.1.kind = .method)
  let getters := members.filter (·.1.kind = .getter)
  let setters := members.filter (·.1.kind = .setter)
  if (!methods.isEmpty && (!getters.isEmpty || !setters.isEmpty)) || 1 < methods.length ||
      1 < getters.length || 1 < setters.length then
    .error (.mixed (members.head?.bind (·.1.range)))
  else
    match methods, getters, setters with
    | m :: _, _, _ => .ok (.method m.2)
    | [], [], [] => .error .empty
    | [], gs, ss => Descriptor.accessor? (gs.head?.bind (·.2)) (ss.head?.bind (·.2))

/-- Why a declaration cannot be classified. -/
inductive ClassifyFault where
  | ineligible (kind : MemberKind) (name : String) (range : Option SourceRange)
  | hidden (name : String) (range : Option SourceRange)
  | decoratedTwice (name : String) (range : Option SourceRange)
  | group (fault : GroupFault)
deriving DecidableEq, Repr

/-- How messages name the members that cannot be decorated. -/
def MemberKind.ineligible? : MemberKind → Option String
  | .field => some "class fields"
  | .property => some "'key: value' data properties"
  | .shorthand => some "shorthand properties"
  | .spread => some "spread elements"
  | .construct => some "constructors"
  | .staticBlock => some "static blocks"
  | .comment => some "comments"
  | .other => some "this kind of member"
  | .method | .getter | .setter => none

/-- A classification fault as it is reported. -/
def ClassifyFault.fault : ClassifyFault → Fault
  | .ineligible kind name range => .refused (.classification
      ("Decorators cannot be applied to " ++ kind.ineligible?.getD "" ++ " ('" ++ name ++
        "'); only methods, accessors and classes can be decorated") range)
  | .hidden name range => .refused (.classification
      ("Decorators cannot be applied to private member '" ++ name ++ "'") range)
  | .decoratedTwice name range => .refused (.classification
      ("Decorators cannot be applied to more than one definition of '" ++ name ++ "'") range)
  | .group fault => fault.fault

namespace Classify

/-- Whether a decorated member may be decorated. -/
def ineligible? (m : Member) : Option ClassifyFault :=
  if m.kind.ineligible?.isSome then some (.ineligible m.kind m.displayName m.range)
  else match m.key with
    | some k => if k.isPrivate then some (.hidden k.text m.range) else none
    | none => none

/-- The first decorated member that may not be decorated. -/
def firstIneligible? (members : List Member) : Option ClassifyFault :=
  (members.filter (·.isDecorated)).findSome? ineligible?

/-- What the members of one property share: the side they live on, and the identity of the key. -/
abbrev GroupKey := Bool × KeyIdentity

/-- The members of one property, with their places. -/
structure Group where
  key : GroupKey
  members : List (Nat × Member)
deriving DecidableEq, Repr

/-- Adds a member to its group; a new group goes last. -/
def addTo (key : GroupKey) (entry : Nat × Member) : List Group → List Group
  | [] => [⟨key, [entry]⟩]
  | g :: gs =>
    if g.key = key then { g with members := g.members ++ [entry] } :: gs
    else g :: addTo key entry gs

/-- The group that a member belongs to, if it is a function under a key. Members of an object
literal all live on one side. -/
def groupKey? (isClass : Bool) (m : Member) : Option GroupKey :=
  if m.isFunction then m.key.map fun k => (m.isStatic && isClass, k.identity) else none

/-- The groups of members, in the order of their first members. -/
def groups (isClass : Bool) (members : List Member) : List Group :=
  members.zipIdx.foldl (fun gs (m, i) =>
    match groupKey? isClass m with
    | some key => addTo key (i, m) gs
    | none => gs) []

/-- The key of a decorated property; a computed one is captured in a fresh temporary. -/
def propertyKey (k : Key) (s : Scope) : PropertyKey × Scope :=
  if k.isComputed then
    let (snapshot, s) := s.fresh "key"
    (.computed k.text (some snapshot), s)
  else (.static k.staticName?, s)

/-- The target of a group's property. -/
def target (isClass : Bool) (binding : String) (g : Group) : Target :=
  ⟨if !isClass then .objectLiteral else if g.key.1 then .construct else .prototype, binding⟩

/-- The decoration of a group with the place of its decorated member, if it has one. -/
def groupDecoration (isClass : Bool) (binding : String) (g : Group) (s : Scope) :
    Except ClassifyFault (Option (Nat × Decoration) × Scope) :=
  match g.members.filter (·.2.isDecorated) with
  | [] => .ok (none, s)
  | (_, first) :: (_, second) :: _ => .error (.decoratedTwice first.displayName second.range)
  | [(place, owner)] =>
    let (key, s) := propertyKey (owner.key.getD default) s
    match Descriptor.ofMembers (g.members.map fun (i, m) => (m, some i)) with
    | .error f => .error (.group f)
    | .ok initial =>
      .ok (some (place, {
        target := target isClass binding g
        decorators := owner.decorators
        subject := .property key initial (g.members.map (·.1))
        range := owner.range }), s)

/-- The decorations of groups, in the order of the groups. -/
def groupDecorations (isClass : Bool) (binding : String) :
    List Group → Scope → Except ClassifyFault (List (Nat × Decoration) × Scope)
  | [], s => .ok ([], s)
  | g :: gs, s => do
    let (found, s) ← groupDecoration isClass binding g s
    let (rest, s) ← groupDecorations isClass binding gs s
    return (found.toList ++ rest, s)

/-- The decorations of members, in the order of the decorated members. -/
def memberDecorations (isClass : Bool) (binding : String) (members : List Member) (s : Scope) :
    Except ClassifyFault (List Decoration × Scope) :=
  match firstIneligible? members with
  | some f => .error f
  | none => do
    let (found, s) ← groupDecorations isClass binding (groups isClass members) s
    return ((found.mergeSort fun p q => p.1 ≤ q.1).map (·.2), s)

end Classify

/-- The name that a class is bound to: its own, or a reserved one. -/
def ClassDecl.binding (c : ClassDecl) (s : Scope) : String × Scope :=
  match nonempty? c.name with
  | some name => (name, s)
  | none => s.reserve "class"

/-- The decorations of a class: those of its members, then its own. -/
def ClassDecl.decorations (c : ClassDecl) (s : Scope) :
    Except ClassifyFault (List Decoration × Scope) := do
  let (binding, s) := c.binding s
  let (found, s) ← Classify.memberDecorations true binding c.members s
  let own : List Decoration :=
    if c.decorators.isEmpty then []
    else [{ target := ⟨.cls, binding⟩, decorators := c.decorators, subject := .whole,
            range := c.range }]
  return (found ++ own, s)

/-- The decorations of an object literal that is bound to a name. -/
def ObjectLiteral.decorations (o : ObjectLiteral) (binding : String) (s : Scope) :
    Except ClassifyFault (List Decoration × Scope) :=
  Classify.memberDecorations false binding o.members s

/-- The decorations of a declaration; an object literal is bound to the shared object name. -/
def Declaration.decorations (d : Declaration) (s : Scope) :
    Except ClassifyFault (List Decoration × Scope) :=
  match d with
  | .cls c => c.decorations s
  | .object o =>
    let (binding, s) := s.shared "obj"
    o.decorations binding s

end Undecorate
