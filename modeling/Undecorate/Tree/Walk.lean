import Undecorate.Tree.Basic

/-! # Walks

Two walks over a tree that keep their pending work on a stack: `walk` visits a node before its
children and `walkUp` after them, siblings in source order. The recursive orders `preorder` and
`postorder` say what they visit.
-/

namespace Undecorate

/-- A node together with the node around it. -/
structure Located where
  parent : Option Tree
  node : Tree
deriving Repr, Inhabited

namespace Located

/-- The children of a node, each with the node around it. -/
def children (l : Located) : List Located := l.node.children.map (⟨some l.node, ·⟩)

/-- The number of nodes that are still to be visited from a stack. -/
def work : List Located → Nat
  | [] => 0
  | l :: ls => l.node.size + work ls

theorem work_append (xs ys : List Located) : work (xs ++ ys) = work xs + work ys := by
  induction xs with
  | nil => simp [work]
  | cons x xs ih => simp [work, ih, Nat.add_assoc]

theorem work_map (p : Option Tree) (ts : List Tree) :
    work (ts.map (⟨p, ·⟩)) = Tree.sizeAll ts := by
  induction ts with
  | nil => rfl
  | cons t ts ih => simp [work, Tree.sizeAll, ih]

theorem work_children (l : Located) : work l.children + 1 = l.node.size := by
  obtain ⟨p, t⟩ := l
  cases t with
  | node label cs => simp [children, Tree.children, work_map, Tree.size]

end Located

namespace Tree

/-- Visits the nodes of a stack, each before its children. -/
def walkFrom : List Located → List Located
  | [] => []
  | l :: stack => l :: walkFrom (l.children ++ stack)
termination_by stack => Located.work stack
decreasing_by
  have := Located.work_children l
  simp only [Located.work_append, Located.work]
  omega

/-- Visits every node before its children. -/
def walk (t : Tree) : List Located := walkFrom [⟨none, t⟩]

/-- A step of the walk that visits children first: to enter a node, or to leave it. -/
inductive Task where
  | enter (l : Located)
  | leave (l : Located)

/-- The steps that are left: a node is entered once and left once. -/
def taskWork : List Task → Nat
  | [] => 0
  | .enter l :: ts => 2 * l.node.size + taskWork ts
  | .leave _ :: ts => 1 + taskWork ts

theorem taskWork_enter (ls : List Located) (ts : List Task) :
    taskWork (ls.map .enter ++ ts) = 2 * Located.work ls + taskWork ts := by
  induction ls with
  | nil => simp [Located.work]
  | cons l ls ih => simp [taskWork, Located.work, ih]; omega

/-- Carries out the steps of a stack; a node is visited when it is left. -/
def walkUpFrom : List Task → List Located
  | [] => []
  | .leave l :: stack => l :: walkUpFrom stack
  | .enter l :: stack => walkUpFrom (l.children.map .enter ++ .leave l :: stack)
termination_by stack => taskWork stack
decreasing_by
  · simp only [taskWork]; omega
  · have := Located.work_children l
    simp only [taskWork_enter, taskWork]
    omega

/-- Visits every node after its children. -/
def walkUp (t : Tree) : List Located := walkUpFrom [.enter ⟨none, t⟩]

mutual

/-- Every node before its children. -/
def preorder : Tree → List Tree
  | .node l cs => .node l cs :: preorderAll cs

/-- Every node of several trees before its children. -/
def preorderAll : List Tree → List Tree
  | [] => []
  | t :: ts => t.preorder ++ preorderAll ts

end

mutual

/-- Every node after its children. -/
def postorder : Tree → List Tree
  | .node l cs => postorderAll cs ++ [.node l cs]

/-- Every node of several trees after its children. -/
def postorderAll : List Tree → List Tree
  | [] => []
  | t :: ts => t.postorder ++ postorderAll ts

end

/-- The first node that marks a place the grammar does not accept. -/
def firstError? (t : Tree) : Option Tree := (t.walk.map (·.node)).find? (·.isError)

end Tree

end Undecorate
