import Undecorate.Fault.Diagnostic

/-! # Failures from outside

A failure outside the engine has a kind and the values it was raised with, and its text is made of
them. A failure of the system is raised with a number and a reason, and perhaps with the one or two
files that it is about; the number may give it a narrower kind.
-/

namespace Undecorate

namespace Fault

/-- The number that a value counts as, if it is a whole one. -/
def number? : Data → Option Int
  | .bool b => some (if b then 1 else 0)
  | .int n => some n
  | .float x => if x.isWhole then some x.truncate else none
  | _ => none

/-- The text of a failure by the values it was raised with: nothing, the one value, or all of them
in parentheses. -/
def plainText : List Data → Text
  | [] => ""
  | [d] => d.shown
  | ds => .ofString ("(" ++ ", ".intercalate (ds.map (·.quoted)) ++ ")")

/-- The text of a failure of the system. -/
def systemText : List Data → Text
  | [number, reason, file, _, other] =>
    if file.isNull then start number reason
    else if other.isNull then start number reason ++ ": " ++ file.quoted
    else start number reason ++ ": " ++ file.quoted ++ " -> " ++ other.quoted
  | [number, reason, file, _] | [number, reason, file] =>
    if file.isNull then start number reason else start number reason ++ ": " ++ file.quoted
  | [number, reason] => start number reason
  | ds => plainText ds
where
  start (number reason : Data) : Text := "[Errno " ++ number.shown ++ "] " ++ reason.shown

/-- Whether a kind is one of the failures of the system. -/
def isSystemKind (kind : String) : Bool :=
  kind == "OSError" || kind == "ConnectionError" || systemKinds.any (·.1 == kind)

/-- The failure of a kind that was raised with given values. -/
def raisedWith (kind : String) (values : List Data) : Fault :=
  if kind = "ValueError" then .badValue (plainText values)
  else if isSystemKind kind then
    let narrower := match values with
      | number :: _ :: _ =>
        if kind = "OSError" && values.length ≤ 5 then ((number? number).map systemKind).getD kind
        else kind
      | _ => kind
    .raised narrower (systemText values)
  else match kind, values with
    | "KeyError", [key] => .raised kind key.quoted
    | _, _ => .raised kind (plainText values)

end Fault

end Undecorate
