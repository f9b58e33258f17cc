/-! # Places in a source text -/

namespace Undecorate

/-- A stretch of source: lines count from one, columns and offsets from zero and in bytes. -/
structure SourceRange where
  startLine : Int
  endLine : Int
  startColumn : Option Int := none
  endColumn : Option Int := none
  startByte : Option Int := none
  endByte : Option Int := none
deriving DecidableEq, Repr, Inhabited

/-- A range as messages show it: its first line, and its first column counted from one. -/
def SourceRange.shown (r : SourceRange) : String :=
  match r.startColumn with
  | none => "line " ++ toString r.startLine
  | some c => "line " ++ toString r.startLine ++ ", column " ++ toString (c + 1)

end Undecorate
