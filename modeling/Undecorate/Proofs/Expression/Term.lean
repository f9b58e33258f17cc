import Undecorate.Expression.Eval
import Undecorate.Proofs.Act

/-! # Terms

The syntax of the expressions that have a meaning of their own: keywords, hexadecimal numbers, texts
in quotes, dotted paths, calls of them and terms in parentheses. A term is written in one way, and
what it stands for is said by recursion over it, without looking at its text: a call looks up what
it calls, then takes the values of its arguments from left to right, and then calls once.

* `Term.render`: the text of a term;
* `Names.Finds`: what the search for a member of a value comes to;
* `Term.meaning`: what a term stands for;
* `Term.Reaches`: how far the evaluation of a term has come when it begins with a part of it;
* `Dotted.Dangles`: the two ways in which a path leads nowhere.
-/

namespace Undecorate

/-! ## Constants -/

/-- The words that stand for constants. -/
inductive Keyword where
  | true
  | false
  | null
  | undefined
deriving DecidableEq, Repr

namespace Keyword

def name : Keyword → String
  | .true => "true"
  | .false => "false"
  | .null => "null"
  | .undefined => "undefined"

def value : Keyword → Value
  | .true => .bool Bool.true
  | .false => .bool Bool.false
  | .null => .absent
  | .undefined => .absent

end Keyword

/-- A hexadecimal digit; the case matters to letters only. -/
structure HexDigit where
  value : Fin 16
  upper : Bool := false
deriving DecidableEq, Repr

def HexDigit.char (d : HexDigit) : Char :=
  if d.value.val < 10 then Char.ofNat ('0'.toNat + d.value.val)
  else Char.ofNat ((if d.upper then 'A' else 'a').toNat + (d.value.val - 10))

/-- A hexadecimal number of any length. Underscores, which are no digits, may stand anywhere behind
the mark. -/
structure Hexadecimal where
  negative : Bool := false
  upperMark : Bool := false
  places : List (Option HexDigit)
  hasDigit : places.any (·.isSome) = true

namespace Hexadecimal

/-- The digits without the underscores among them. -/
def digits (n : Hexadecimal) : List HexDigit := n.places.filterMap id

/-- The sign and the mark in front of the digits. -/
def mark (n : Hexadecimal) : List Char :=
  (if n.negative then ['-'] else []) ++ ['0', if n.upperMark then 'X' else 'x']

def chars (n : Hexadecimal) : List Char :=
  n.mark ++ n.places.map fun place => (place.map (·.char)).getD '_'

/-- The number that the digits spell, without the sign. -/
def magnitude (n : Hexadecimal) : Nat := n.digits.foldl (fun m d => m * 16 + d.value.val) 0

def value (n : Hexadecimal) : Int := if n.negative then -(n.magnitude : Int) else n.magnitude

end Hexadecimal

/-- The quotes that a text can stand in. -/
inductive Quote where
  | single
  | double
  | back
deriving DecidableEq, Repr

def Quote.char : Quote → Char
  | .single => '\x27'
  | .double => '\x22'
  | .back => '\x60'

/-- Whether a character stands for itself between quotes and nests nothing: no quote, backslash,
bracket or control character. -/
def Quote.isPlain (c : Char) : Bool :=
  !Brackets.isQuote c && c != '\\' && !Brackets.isOpening c && !Brackets.isClosing c &&
    0x20 ≤ c.toNat

/-- A text in quotes. -/
structure Quoted where
  quote : Quote
  body : List Char
  plain : body.all Quote.isPlain = true

def Quoted.chars (q : Quoted) : List Char := q.quote.char :: q.body ++ [q.quote.char]

/-! ## Paths -/

/-- A name: a letter, an underscore or a dollar sign, and then any such and digits. -/
structure Identifier where
  chars : List Char
  valid : Expression.isName chars = true

def Identifier.name (x : Identifier) : String := String.ofList x.chars

/-- A name, and the names of members behind it. -/
structure Dotted where
  first : Identifier
  rest : List Identifier := []

namespace Dotted

def chars (p : Dotted) : List Char := Text.joinWith ['.'] ((p.first :: p.rest).map (·.chars))

def render (p : Dotted) : String := String.ofList p.chars

end Dotted

/-! ## Terms -/

/-- A term. A path on its own is not a keyword; what is called may be named like one. -/
inductive Term where
  | keyword (k : Keyword)
  | number (n : Hexadecimal)
  | quoted (q : Quoted)
  | path (p : Dotted) (free : ∀ k : Keyword, p.render ≠ k.name)
  | call (p : Dotted) (arguments : List Term)
  | group (e : Term)

namespace Term

mutual

/-- The characters of a term. The arguments of a call have a comma and a blank between them. -/
def chars : Term → List Char
  | .keyword k => k.name.toList
  | .number n => n.chars
  | .quoted q => q.chars
  | .path p _ => p.chars
  | .call p arguments => p.chars ++ '(' :: Text.joinWith [',', ' '] (charsAll arguments) ++ [')']
  | .group e => '(' :: e.chars ++ [')']

/-- The characters of each of several terms. -/
def charsAll : List Term → List (List Char)
  | [] => []
  | e :: es => e.chars :: charsAll es

end

/-- The text of a term. -/
def render (e : Term) : String := String.ofList e.chars

mutual

/-- How many calls stand one inside another. -/
def nesting : Term → Nat
  | .call _ arguments => nestingAll arguments + 1
  | .group e => e.nesting
  | _ => 0

/-- The deepest nesting of several terms. -/
def nestingAll : List Term → Nat
  | [] => 0
  | e :: es => max e.nesting (nestingAll es)

end

/-- What holds for every kind of constant and path, for a call whenever it holds for the arguments,
and for a group whenever it holds for what is inside, holds for every term. -/
theorem induct {P : Term → Prop} (keyword : ∀ k, P (.keyword k)) (number : ∀ n, P (.number n))
    (quoted : ∀ q, P (.quoted q)) (path : ∀ p free, P (.path p free))
    (call : ∀ p arguments, (∀ a ∈ arguments, P a) → P (.call p arguments))
    (group : ∀ e, P e → P (.group e)) (e : Term) : P e := by
  refine @Term.rec P (fun es => ∀ a ∈ es, P a) keyword number quoted path call group
    (fun a h => by cases h) (fun e es he hes a h => ?_) e
  rcases List.mem_cons.1 h with rfl | h
  · exact he
  · exact hes a h

theorem charsAll_eq_map (es : List Term) : charsAll es = es.map chars := by
  induction es with
  | nil => rfl
  | cons e es ih => rw [charsAll, List.map_cons, ih]

end Term

/-! ## Meaning -/

section Meaning

variable {σ : Type} (host : Host σ) (names : Names)

/-- The value that a path leads to: that of its first name, and from there member by member. -/
def Dotted.value (p : Dotted) : Act σ Value :=
  match List.lookup p.first.name names with
  | some v => p.rest.foldlM (fun v x => Names.member host p.render v x.name) v
  | none => throw (.refused (.resolution p.render ("'" ++ p.first.name ++ "' is not defined")))

namespace Term

mutual

/-- What a term stands for. A call that cannot be made is reported with the text `shown`, which is
that of the outermost parentheses around it. -/
def meaning (shown : String) : Term → Act σ Value
  | .keyword k => return k.value
  | .number n => return .int n.value .shared
  | .quoted q => return .text (.ofChars q.body) .shared
  | .path p _ => p.value host names
  | .call p arguments => do
    let f ← p.value host names
    unless (← Act.heap).isCallable f do
      throw (.refused (.resolution shown ("'" ++ p.render ++ "' is not callable")))
    let values ← meaningAll arguments
    Act.call host f values
  | .group e => e.meaning shown

/-- The values of arguments, from left to right. -/
def meaningAll : List Term → Act σ (List Value)
  | [] => return []
  | e :: es => do
    let v ← e.meaning e.render
    let vs ← meaningAll es
    return v :: vs

end

end Term

end Meaning

/-! ## Members -/

section Members

variable {σ : Type} (host : Host σ) (names : Names)

/-- Values of which the host alone knows what attributes they have. -/
def Value.isHosted : Value → Bool
  | .record _ _ | .object _ | .descriptor _ | .source _ _ | .member _ _ => false
  | _ => true

/-- Run in `w`, a value that is no record and no object is asked for the two attributes by which
objects are recognized, and in `w'` it is known whether it has both. -/
inductive Names.Resembles : Value → World σ → Bool → World σ → Prop where
  | descriptor {r w} : Resembles (.descriptor r) w false w
  | source {text copy w} : Resembles (.source text copy) w false w
  | member {m copy w} : Resembles (.member m copy) w false w
  | unreadable {v w w'} : v.isHosted = true → (Act.fetch host v "get").Returns w none w' →
      Resembles v w false w'
  | readable {v get own? w w₁ w'} : v.isHosted = true →
      (Act.fetch host v "get").Returns w (some get) w₁ →
      (Act.fetch host v "has_own_property").Returns w₁ own? w' → Resembles v w own?.isSome w'

/-- Run in `w`, the search for a member of a value comes to its end in `w'`, with the member or with
nothing. Records are searched by their fields and objects by their properties. What resembles an
object is asked as one, by a call of its own `get`. Of all other values the attribute is fetched,
once to find out whether it is there and once more if it is. -/
inductive Names.Finds (name : String) : Value → World σ → Option Value → World σ → Prop where
  | field {fields copy w} : Finds name (.record fields copy) w (fields.lookup name) w
  | property {r u w w'} :
      (Act.getProperty host (.object r) (.text name .shared) .absent).Returns w u w' →
      Finds name (.object r) w u.present? w'
  | asked {v get u w w₁ w₂ w'} : Names.Resembles host v w true w₁ →
      (Act.fetch host v "get").Returns w₁ (some get) w₂ →
      (Act.call host get [.text name .shared]).Returns w₂ u w' → Finds name v w u.present? w'
  | fetched {v first u w w₁ w₂ w'} : Names.Resembles host v w false w₁ →
      (Act.fetch host v name).Returns w₁ (some first) w₂ →
      (Act.fetch host v name).Returns w₂ (some u) w' → Finds name v w (some u) w'
  | lacking {v w w₁ w'} : Names.Resembles host v w false w₁ →
      (Act.fetch host v name).Returns w₁ none w' → Finds name v w none w'

/-- Run in `w`, the search for one member after the other leads from a value to another one, in
`w'`. -/
inductive Names.Follows : List Identifier → Value → World σ → Value → World σ → Prop where
  | nil {v w} : Follows [] v w v w
  | cons {x rest v u v' w w₁ w'} : Names.Finds host x.name v w (some u) w₁ →
      Follows rest u w₁ v' w' → Follows (x :: rest) v w v' w'

/-- Run in `w`, the path leads to a value, in `w'`. -/
def Dotted.Leads (p : Dotted) (w : World σ) (u : Value) (w' : World σ) : Prop :=
  ∃ v, List.lookup p.first.name names = some v ∧ Names.Follows host p.rest v w u w'

/-- Run in `w`, the path leads nowhere: its first name is not bound, or a member is missing behind
the members `before` it. -/
inductive Dotted.Dangles (p : Dotted) (w : World σ) : Fault → World σ → Prop where
  | unbound : List.lookup p.first.name names = none →
      Dangles p w (.refused (.resolution p.render ("'" ++ p.first.name ++ "' is not defined"))) w
  | missing {before x after v u w₁ w₂} : p.rest = before ++ x :: after →
      List.lookup p.first.name names = some v → Names.Follows host before v w u w₁ →
      Names.Finds host x.name u w₁ none w₂ →
      Dangles p w (.refused (.resolution p.render ("no member '" ++ x.name ++ "'"))) w₂

end Members

/-! ## Parts -/

section Parts

variable {σ : Type} (host : Host σ) (names : Names)

/-- The path that a term looks up before anything else. -/
def Term.target? : Term → Option Dotted
  | .path p _ => some p
  | .call p _ => some p
  | _ => none

/-- The evaluation of a term in `w` has come to a part of it, with the text that is shown for that,
in `w'`: what is called has been found, and all arguments before the part have their values. -/
inductive Term.Reaches : Term → String → World σ → Term → String → World σ → Prop where
  | here {e shown w} : Reaches e shown w e shown w
  | group {e part shown text w w'} : Reaches e shown w part text w' →
      Reaches (.group e) shown w part text w'
  | argument {p before a after part shown text f vs w w₁ w₂ w'} :
      p.Leads host names w f w₁ → w₁.heap.isCallable f = true →
      (meaningAll host names before).Returns w₁ vs w₂ → Reaches a a.render w₂ part text w' →
      Reaches (.call p (before ++ a :: after)) shown w part text w'

end Parts

end Undecorate
