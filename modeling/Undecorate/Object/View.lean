import Undecorate.Object.Heap

/-! # Views

A view is what a value looks like at one moment, with everything it refers to followed. Messages
and records of calls are made of views, so they keep what later changes would hide. Some values
cannot be shown: those that lead back to themselves, and whole numbers with too many digits.
-/

namespace Undecorate

/-- What a value looks like. A function object shows its name, any other object its label and the
names of its properties. -/
inductive View where
  | absent
  | bool (b : Bool)
  | int (n : Int)
  | float (x : Double)
  | text (t : Text)
  | list (items : List View)
  | record (fields : List (String × View))
  | function (name : String)
  | callable (name : Text)
  | object (label : Option Text) (names : List View)
  | source (text : String)
  | member (kind name : String)
  | foreign (typeName text : String)
  | descriptor (kind : Shape) (value getter setter : View) (enumerable configurable : Bool)
      (writable : Option Bool) (explicit : FieldSet)
  /-- A value inside itself. -/
  | endless
deriving Repr, Inhabited

namespace View

/-- The name of a value's type. -/
def typeName : View → String
  | .absent => "NoneType"
  | .bool _ => "bool"
  | .int _ => "int"
  | .float _ => "float"
  | .text _ => "str"
  | .list _ => "list"
  | .record _ => "dict"
  | .function _ => "Fn"
  | .callable _ => "JSFunction"
  | .object _ _ => "JSObject"
  | .source _ => "SourceValue"
  | .member _ _ => "MemberNode"
  | .foreign name _ => name
  | .descriptor _ _ _ _ _ _ _ _ => "PropertyDescriptor"
  | .endless => "object"

/-- The quoted form of a shape. -/
def quotedShape : Shape → String
  | .data => "<DescriptorKind.DATA: 'data'>"
  | .accessor => "<DescriptorKind.ACCESSOR: 'accessor'>"

/-- The fields of a descriptor with the quoted forms of its values. -/
def descriptorFields (kind : Shape) (value getter setter : Text) (enumerable configurable : Bool)
    (writable : Option Bool) : List Text :=
  ["kind=" ++ quotedShape kind, "value=" ++ value, "getter=" ++ getter, "setter=" ++ setter,
    "enumerable=" ++ Data.quotedBool enumerable, "configurable=" ++ Data.quotedBool configurable,
    "writable=" ++ (writable.map Data.quotedBool).getD "None"]

mutual

/-- A value as it is written inside another one. -/
def quoted : View → Text
  | .absent => "None"
  | .bool b => Data.quotedBool b
  | .int n => toString n
  | .float x => x.text
  | .text t => t.quoted
  | .list items => "[" ++ Text.intercalate ", " (quotedItems items) ++ "]"
  | .record fields => "\x7b" ++ Text.intercalate ", " (quotedFields fields) ++ "\x7d"
  | .function name => .ofString ("<fn " ++ name ++ ">")
  | .callable name => "<JSFunction " ++ name ++ ">"
  | .object label names =>
    "<JSObject " ++ label.getD "" ++ " [" ++ Text.intercalate ", " (quotedItems names) ++ "]>"
  | .source s => .ofString ("SourceValue(" ++ Text.quoted s ++ ")")
  | .member kind name => .ofString ("<member " ++ kind ++ " " ++ name ++ ">")
  | .foreign _ shown => .ofString shown
  | .descriptor kind value getter setter enumerable configurable writable _ =>
    "PropertyDescriptor(" ++ Text.intercalate ", " (descriptorFields kind value.quoted getter.quoted
      setter.quoted enumerable configurable writable) ++ ")"
  | .endless => "..."

/-- The quoted forms of a list's items. -/
def quotedItems : List View → List Text
  | [] => []
  | x :: xs => x.quoted :: quotedItems xs

/-- The quoted forms of a record's fields. -/
def quotedFields : List (String × View) → List Text
  | [] => []
  | (k, v) :: fs => (Text.quoted k ++ ": " ++ v.quoted) :: quotedFields fs

end

/-- A value as a message shows it. -/
def shown : View → Text
  | .text t => t
  | .descriptor kind value getter setter enumerable configurable writable _ =>
    Text.intercalate " " (descriptorFields kind value.quoted getter.quoted setter.quoted enumerable
      configurable writable)
  | v => v.quoted

mutual

/-- What keeps a value from being written, if anything: the first obstacle in it. Quoted forms also
write the names of an object's properties. -/
def obstacle? (inNames : Bool) : View → Option Obstacle
  | .int n => if Number.isWritable n then none else some .digits
  | .list items => itemObstacle? inNames items
  | .record fields => fieldObstacle? inNames fields
  | .object _ names => if inNames then itemObstacle? inNames names else none
  | .descriptor _ value getter setter _ _ _ _ =>
    (value.obstacle? inNames).or ((getter.obstacle? inNames).or (setter.obstacle? inNames))
  | .endless => some .endless
  | _ => none

/-- The first obstacle in the items of a list. -/
def itemObstacle? (inNames : Bool) : List View → Option Obstacle
  | [] => none
  | x :: xs => (x.obstacle? inNames).or (itemObstacle? inNames xs)

/-- The first obstacle in the fields of a record. -/
def fieldObstacle? (inNames : Bool) : List (String × View) → Option Obstacle
  | [] => none
  | (_, v) :: fs => (v.obstacle? inNames).or (fieldObstacle? inNames fs)

end

/-- A value as a fact of a diagnostic. -/
def note : View → Note
  | .absent => .data .null
  | v => .value v.typeName v.shown v.quoted (v.obstacle? true)

end View

namespace Value

mutual

/-- The view of a value, by the views of the descriptors and objects it refers to. -/
def viewBy (descriptor object : Ref → View) : Value → View
  | .absent => .absent
  | .bool b => .bool b
  | .int n _ => .int n
  | .float x _ => .float x
  | .text t _ => .text t
  | .list items _ => .list (viewItemsBy descriptor object items)
  | .record fields _ => .record (viewFieldsBy descriptor object fields)
  | .function f => .function f.name
  | .foreign x => .foreign x.typeName x.text
  | .object r => object r
  | .descriptor r => descriptor r
  | .source s _ => .source s
  | .member m _ => .member m.kind.name m.displayName

/-- The views of a list's items. -/
def viewItemsBy (descriptor object : Ref → View) : List Value → List View
  | [] => []
  | x :: xs => x.viewBy descriptor object :: viewItemsBy descriptor object xs

/-- The views of a record's fields. -/
def viewFieldsBy (descriptor object : Ref → View) : List (String × Value) → List (String × View)
  | [] => []
  | (k, v) :: fs => (k, v.viewBy descriptor object) :: viewFieldsBy descriptor object fs

end

end Value

/-- The view of a descriptor, by the views of values. -/
def Descriptor.viewBy (view : Value → View) (d : Descriptor Value) : View :=
  .descriptor d.kind (view (.ofOption d.value)) (view (.ofOption d.getter))
    (view (.ofOption d.setter)) d.enumerable d.configurable d.writable d.explicit

namespace Heap

/-- The view of a value inside the objects and descriptors of `path`, in which at most `depth`
references are followed one inside another. -/
def viewTo (h : Heap) : Nat → List Value → Value → View
  | 0, _, _ => .endless
  | depth + 1, path, v =>
    let entered (v : Value) (show' : List Value → View) : View :=
      if path.any v.same then .endless else show' (v :: path)
    v.viewBy
      (fun r => entered (.descriptor r) fun path => match h.descriptor? r with
        | some d => d.viewBy (h.viewTo depth path)
        | none => .absent)
      (fun r => match h.object? r with
        | some o => match o.callable with
          | some c => .callable c.name
          | none => entered (.object r) fun path =>
            .object o.label (o.ownNames.map fun n => h.viewTo depth path n.value)
        | none => .absent)

/-- The view of a value. References without a cycle are fewer than the places of the heap. -/
def view (h : Heap) (v : Value) : View := h.viewTo (h.objects.size + h.descriptors.size + 1) [] v

/-- The view of a descriptor. -/
def viewDescriptor (h : Heap) (d : Descriptor Value) : View := d.viewBy h.view

end Heap

end Undecorate
