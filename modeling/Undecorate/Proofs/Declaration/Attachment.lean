import Undecorate.Proofs.Declaration.Members

/-! # Decorators and the members they belong to

A decorator belongs to the class, or to a member: it is a child of the member, or stands before it
in the class body. `Located.rows` lists the members of a declaration with the decorators before
them.

* `declaration_members`: a declaration that is built has one member for each row;
* `declaration_built`: the members have the decorators of the rows, and the rows and the class have
  all decorators that a declaration takes up.
-/

namespace Undecorate

/-- A member's node, and the decorators that stand before it. -/
structure Row where
  preceding : List Tree
  node : Tree

/-- The decorators of a member, those before it first. -/
def Row.decorators (row : Row) : List Tree := row.preceding ++ row.node.decorators

/-- The members of a class body in rows; `pending` are the decorators that wait for a member. A
comment lets them wait for the next one. -/
def bodyRows : List Tree → List Tree → List Row
  | _, [] => []
  | pending, t :: ts =>
    if t.kind == "decorator" then bodyRows (pending ++ [t]) ts
    else if t.kind == "comment" then ⟨[], t⟩ :: bodyRows pending ts
    else ⟨pending, t⟩ :: bodyRows [] ts

/-- The members of a class or object literal with the decorators before them. -/
def Located.rows (l : Located) : List Row :=
  if l.node.isClass then bodyRows [] l.memberNodes else l.memberNodes.map (⟨[], ·⟩)

/-- The member was built from the row. -/
structure Row.Built (r : Reading) (row : Row) (m : Member) : Prop where
  decorators : row.decorators.mapM r.decorator = .ok m.decorators
  /-- Only definitions of methods give functions, and these have keys. -/
  functions : m.isFunction = true → m.key.isSome = true ∧ row.node.kind = "method_definition"

section Members

variable {r : Reading} {inClass : Bool} {t : Tree} {m : Member} {pending ts : List Tree}

/-- Only the definition of a method is a function, and it has a name. -/
theorem Reading.PartsOf.of_isFunction {name : Option Tree} (h : r.PartsOf t inClass m name)
    (hf : m.isFunction = true) : name.isSome = true ∧ t.kind = "method_definition" := by
  cases h with
  | method hkind => exact ⟨rfl, hkind⟩
  | other _ _ hother => rcases hother with rfl | rfl <;> cases hf
  | _ => cases hf

/-- A member is built from its row. -/
theorem member_built (h : r.member pending inClass t = .ok m) : Row.Built r ⟨pending, t⟩ m := by
  obtain ⟨decorators, parts, name, hdecorators, hparts, hsourced⟩ := Reading.member_cases h
  -- shorthands and members without a key are no functions, so only the decorators matter there
  cases hsourced with
  | shorthand hkind =>
    refine ⟨hdecorators, fun hf => ?_⟩
    have hkind : parts.kind = .shorthand := hkind
    have hf : parts.kind.isFunction = true := hf
    rw [hkind] at hf
    cases hf
  | plain _ hname =>
    refine ⟨hdecorators, fun hf => ?_⟩
    have hsome := (hparts.of_isFunction hf).1
    rw [hname] at hsome
    cases hsome
  | keyed => exact ⟨hdecorators, fun hf => ⟨rfl, (hparts.of_isFunction hf).2⟩⟩

theorem classMembers_cons (r : Reading) (pending : List Tree) (t : Tree) (ts : List Tree) :
    r.classMembers pending (t :: ts) =
      if t.kind == "decorator" then r.classMembers (pending ++ [t]) ts
      else if t.kind == "comment" then do
        return (← r.member [] true t) :: (← r.classMembers pending ts)
      else do
        return (← r.member pending true t) :: (← r.classMembers [] ts) := by
  cases pending <;> rfl

/-- The members of a class body are built from its rows. -/
theorem classMembers_forall₂ {ms : List Member} (h : r.classMembers pending ts = .ok ms) :
    List.Forall₂ (fun row m => r.member row.preceding true row.node = .ok m)
      (bodyRows pending ts) ms := by
  induction ts generalizing pending ms with
  | nil =>
    cases pending with
    | nil =>
      cases h
      exact .nil
    | cons => cases h
  | cons x ts ih =>
    rw [classMembers_cons] at h
    unfold bodyRows
    split_ifs at h ⊢
    · exact ih h
    · simp only [bind_eq_ok, pure_eq_ok] at h
      obtain ⟨m, hm, rest, hrest, rfl⟩ := h
      exact .cons hm (ih hrest)
    · simp only [bind_eq_ok, pure_eq_ok] at h
      obtain ⟨m, hm, rest, hrest, rfl⟩ := h
      exact .cons hm (ih hrest)

/-- The rows of a class body have all of its decorators if none is left waiting. -/
theorem classMembers_perm {ms : List Member} (h : r.classMembers pending ts = .ok ms) :
    ((bodyRows pending ts).flatMap (·.decorators)).Perm
      (pending ++ ts.flatMap fun c => if c.kind == "decorator" then [c] else c.decorators) := by
  induction ts generalizing pending ms with
  | nil =>
    cases pending with
    | nil => exact .refl _
    | cons d pending => cases h
  | cons t ts ih =>
    rw [classMembers_cons] at h
    unfold bodyRows
    rw [List.flatMap_cons]
    by_cases hd : (t.kind == "decorator") = true
    · rw [if_pos hd] at h
      rw [if_pos hd, if_pos hd, ← List.append_assoc]
      exact ih h
    rw [if_neg hd] at h
    rw [if_neg hd, if_neg hd]
    by_cases hc : (t.kind == "comment") = true
    · -- a comment leaves the decorators waiting, so its own come before them
      rw [if_pos hc] at h
      simp only [bind_eq_ok, pure_eq_ok] at h
      obtain ⟨m, -, rest, hrest, rfl⟩ := h
      rw [if_pos hc, List.flatMap_cons]
      exact ((ih hrest).append_left t.decorators).trans (List.perm_append_comm_assoc _ _ _)
    · rw [if_neg hc] at h
      simp only [bind_eq_ok, pure_eq_ok] at h
      obtain ⟨m, -, rest, hrest, rfl⟩ := h
      rw [if_neg hc, List.flatMap_cons, Row.decorators, List.append_assoc]
      exact ((ih hrest).append_left t.decorators).append_left pending

end Members

/-! ## Whole declarations -/

section Declarations

variable {r : Reading} {l : Located} {d : Declaration}

/-- What a built declaration owes to the tree: its members come from the rows, and the decorators of
a class from the nodes of the class and its export statement. -/
structure Located.Built (r : Reading) (l : Located) (d : Declaration) : Prop where
  members : List.Forall₂ (Row.Built r) l.rows d.members
  own : match d with
    | .cls c => l.node.isClass = true ∧ l.classDecorators.mapM r.decorator = .ok c.decorators
    | .object _ => l.node.isClass = false
  claimed : ((if l.node.isClass then l.classDecorators else []) ++
    l.rows.flatMap (·.decorators)).Perm l.claimed

/-- A declaration has one member for every row. -/
theorem declaration_members (h : r.declaration l = .ok d) : List.Forall₂
    (fun row m => r.member row.preceding l.node.isClass row.node = .ok m) l.rows d.members := by
  unfold Reading.declaration at h
  unfold Located.rows Located.memberNodes
  split at h
  · rename_i hclass
    obtain ⟨cls, hcls, rfl⟩ := map_eq_ok.1 h
    simp only [Reading.classDecl, bind_eq_ok, pure_eq_ok, Reading.need_eq_ok] at hcls
    obtain ⟨name, -, heritage, -, body, hbody, header, -, ms, hms, ds, -, rfl⟩ := hcls
    rw [if_pos hclass, if_pos hclass, hbody, hclass]
    exact classMembers_forall₂ hms
  · rename_i hclass
    obtain ⟨o, ho, rfl⟩ := map_eq_ok.1 h
    simp only [Reading.objectLiteral, bind_eq_ok, pure_eq_ok] at ho
    obtain ⟨ms, hms, rfl⟩ := ho
    rw [if_neg hclass, if_neg hclass, Bool.not_eq_true _ |>.mp hclass, List.forall₂_map_left_iff]
    exact mapM_eq_ok.1 hms

/-- Every member of a declaration is built from one of the rows. -/
theorem exists_row_of_member (h : r.declaration l = .ok d) {m : Member} (hm : m ∈ d.members) :
    ∃ row ∈ l.rows, r.member row.preceding l.node.isClass row.node = .ok m :=
  exists_of_forall₂ (declaration_members h).flip hm

/-- Every declaration that is built is built from its rows. -/
theorem declaration_built (h : r.declaration l = .ok d) : l.Built r d := by
  have hmembers : List.Forall₂ (Row.Built r) l.rows d.members :=
    (declaration_members h).imp fun _ _ => member_built
  unfold Reading.declaration at h
  split at h
  · rename_i hclass
    obtain ⟨c, hc, rfl⟩ := map_eq_ok.1 h
    simp only [Reading.classDecl, bind_eq_ok, pure_eq_ok, Reading.need_eq_ok] at hc
    obtain ⟨name, -, heritage, -, body, hbody, header, -, ms, hms, ds, hds, rfl⟩ := hc
    have hnodes : l.memberNodes = body.namedChildren := by
      unfold Located.memberNodes
      rw [if_pos hclass, hbody]
    refine ⟨hmembers, ⟨hclass, hds⟩, ?_⟩
    rw [Located.rows, if_pos hclass, if_pos hclass, Located.claimed, if_pos hclass, hnodes]
    simp only [hclass, Bool.true_and]
    exact (classMembers_perm hms).append_left _
  · rename_i hclass
    obtain ⟨o, ho, rfl⟩ := map_eq_ok.1 h
    refine ⟨hmembers, by simpa using hclass, ?_⟩
    simp [Located.rows, Located.claimed, hclass, List.flatMap_map, Row.decorators]

end Declarations

end Undecorate
