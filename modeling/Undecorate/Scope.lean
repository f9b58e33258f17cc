/-! # Temporary names

A scope hands out the temporaries of one lowered declaration. A name is never one that is taken,
and a name that has been handed out is taken from then on; the names to be declared are listed in
the order in which they were first declared.
-/

namespace Undecorate

/-- The state of the allocation of names. Every name starts with `lead`. -/
structure Scope where
  lead : String := "_"
  taken : List String := []
  declared : List String := []
  reserved : List (String × String) := []
deriving DecidableEq, Repr, Inhabited

namespace Scope

/-- The `n`th name on a base: the first is bare, the others are numbered from two. -/
def candidate (lead base : String) (n : Nat) : String :=
  if n = 0 then lead ++ base else lead ++ base ++ toString (n + 1)

/-- The first candidate from the `n`th on that is not taken; `fuel` bounds the search, and the
number of taken names is enough of it. -/
def firstFree (lead base : String) (taken : List String) : Nat → Nat → String
  | 0, n => candidate lead base n
  | fuel + 1, n =>
    if taken.contains (candidate lead base n) then firstFree lead base taken fuel (n + 1)
    else candidate lead base n

/-- Marks a name as taken. -/
def take (s : Scope) (name : String) : Scope :=
  if s.taken.contains name then s else { s with taken := s.taken ++ [name] }

/-- A scope that avoids the given names. -/
def avoiding (lead : String) (names : List String) : Scope := names.foldl take { lead }

/-- A name on a base that is not taken, and takes it. -/
def unique (s : Scope) (base : String) : String × Scope :=
  let name := firstFree s.lead base s.taken s.taken.length 0
  (name, s.take name)

/-- Lists a name for declaration, once. -/
def declare (s : Scope) (name : String) : Scope :=
  let s := if s.declared.contains name then s else { s with declared := s.declared ++ [name] }
  s.take name

/-- A new declared name with every call. -/
def fresh (s : Scope) (base : String) : String × Scope :=
  let (name, s) := s.unique base
  (name, s.declare name)

/-- The same name with every call, left undeclared. -/
def reserve (s : Scope) (base : String) : String × Scope :=
  match s.reserved.lookup base with
  | some name => (name, s)
  | none =>
    let (name, s) := s.unique base
    (name, { s with reserved := s.reserved ++ [(base, name)] })

/-- The same declared name with every call. -/
def shared (s : Scope) (base : String) : String × Scope :=
  let (name, s) := s.reserve base
  (name, s.declare name)

/-- As many new declared names as asked for. -/
def freshMany (s : Scope) (base : String) : Nat → List String × Scope
  | 0 => ([], s)
  | n + 1 =>
    let (name, s) := s.fresh base
    let (names, s) := s.freshMany base n
    (name :: names, s)

end Scope

end Undecorate
