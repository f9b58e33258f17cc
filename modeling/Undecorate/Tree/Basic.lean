/-! # Concrete trees

The tree of a source text as a grammar sees it. Every node has a kind, the bytes it covers, the
field it fills in its parent, and says whether it is named by the grammar or missing from the text.
-/

namespace Undecorate

/-- What a node is, apart from its children. The `id` tells nodes of one tree apart. -/
structure Label where
  id : Nat
  kind : String
  start : Nat
  stop : Nat
  field : String := ""
  isNamed : Bool := true
  isMissing : Bool := false
deriving DecidableEq, Repr, Inhabited

/-- A node with its children in source order. -/
inductive Tree where
  | node (label : Label) (children : List Tree)
deriving Repr, Inhabited

namespace Tree

/-- The label of the root. -/
def label : Tree → Label
  | .node l _ => l

/-- The children of the root. -/
def children : Tree → List Tree
  | .node _ cs => cs

/-- The kind of the root. -/
def kind (t : Tree) : String := t.label.kind

/-- The first byte of the root. -/
def start (t : Tree) : Nat := t.label.start

/-- The byte after the root. -/
def stop (t : Tree) : Nat := t.label.stop

/-- The identity of the root. -/
def id (t : Tree) : Nat := t.label.id

/-- The children that the grammar names. -/
def namedChildren (t : Tree) : List Tree := t.children.filter (·.label.isNamed)

/-- The first child that fills a field. -/
def child? (t : Tree) (field : String) : Option Tree := t.children.find? (·.label.field == field)

/-- The children of one kind. -/
def childrenOf (t : Tree) (kind : String) : List Tree := t.children.filter (·.kind == kind)

/-- Whether the root itself marks a place that the grammar does not accept. -/
def isError (t : Tree) : Bool := t.kind == "ERROR" || t.label.isMissing

mutual

/-- The number of nodes. -/
def size : Tree → Nat
  | .node _ cs => sizeAll cs + 1

/-- The number of nodes of several trees. -/
def sizeAll : List Tree → Nat
  | [] => 0
  | t :: ts => t.size + sizeAll ts

end

theorem size_eq (t : Tree) : t.size = sizeAll t.children + 1 := by
  cases t with
  | node l cs => rfl

theorem size_pos (t : Tree) : 0 < t.size := by
  rw [size_eq]
  exact Nat.succ_pos _

theorem sizeAll_append (ts us : List Tree) : sizeAll (ts ++ us) = sizeAll ts + sizeAll us := by
  induction ts with
  | nil => simp [sizeAll]
  | cons t ts ih => simp [sizeAll, ih, Nat.add_assoc]

theorem sizeAll_reverse (ts : List Tree) : sizeAll ts.reverse = sizeAll ts := by
  induction ts with
  | nil => rfl
  | cons t ts ih => simp [sizeAll_append, sizeAll, ih, Nat.add_comm]

mutual

/-- Whether some node marks a place that the grammar does not accept. -/
def hasError : Tree → Bool
  | .node l cs => l.kind == "ERROR" || l.isMissing || anyError cs

/-- Whether some node of several trees does. -/
def anyError : List Tree → Bool
  | [] => false
  | t :: ts => t.hasError || anyError ts

end

/-- Puts a node over the first `count` trees of a row of finished trees. -/
def gather (label : Label) (count : Nat) (row : List Tree) : List Tree :=
  .node label (row.take count) :: row.drop count

/-- The tree of a pre-order listing of labels with their numbers of children. Read from the end,
each entry gathers its children from the trees that follow it. -/
def ofListing? (entries : List (Label × Nat)) : Option Tree :=
  (entries.foldr (fun (label, count) row => gather label count row) []).head?

end Tree

end Undecorate
