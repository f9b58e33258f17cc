import Mathlib.Data.List.Nodup
import Mathlib.Data.List.Perm.Subperm
import Undecorate.Proofs.Object.Displacement

/-! # Displaced heaps

A heap is moved into another one when everything in it stands there at its displaced place, and the
room that the displacement leaves is as others left it. All that a program can do with a heap it
can do with the moved one: it finds the same things, and what it creates and changes stays moved.

* `Gap.Carries`: the same for one array, kept by every way in which an array changes;
* `Heap.Moved.view`: moved values look as they did;
* `Heap.Moved.lookup?`, `Heap.Moved.define`, `Heap.Moved.newFunction`: properties are found and
  defined, and functions created, alike.
-/

namespace Undecorate

/-! ## Arrays -/

/-- Everything in `xs` stands in `ys` at its displaced place, and the gap holds what `room` has
there. -/
structure Gap.Carries {α : Type} (g : Gap) (f : α → α) (room xs ys : Array α) : Prop where
  base_le : g.base ≤ xs.size
  size_eq : ys.size = xs.size + g.shift
  moved : ∀ i, ys[g.move i]? = xs[i]?.map f
  kept : ∀ i, g.base ≤ i → i < g.base + g.shift → ys[i]? = room[i]?

namespace Gap.Carries

variable {α : Type} {g : Gap} {f : α → α} {room xs ys : Array α}

/-- What comes last is displaced to the last place. -/
theorem move_size (h : g.Carries f room xs ys) : g.move xs.size = ys.size := by
  rw [move_of_le h.base_le, h.size_eq]

theorem push (h : g.Carries f room xs ys) (x : α) :
    g.Carries f room (xs.push x) (ys.push (f x)) where
  base_le := by
    have := h.base_le
    rw [Array.size_push]
    omega
  size_eq := by
    have := h.size_eq
    rw [Array.size_push, Array.size_push]
    omega
  moved := by
    intro i
    rw [Array.getElem?_push, Array.getElem?_push, ← h.move_size, h.moved]
    by_cases hi : i = xs.size
    · simp [hi]
    · simp [hi]
  kept := by
    intro i hbase hroom
    have hsize := h.size_eq
    have hbase' := h.base_le
    rw [Array.getElem?_push, if_neg (by omega), h.kept i hbase hroom]

/-- A change of what stands at a place leaves the room for others alone. -/
theorem modify (h : g.Carries f room xs ys) (i : Nat) {k k' : α → α}
    (hk : ∀ x, k' (f x) = f (k x)) :
    g.Carries f room (xs.modify i k) (ys.modify (g.move i) k') where
  base_le := by
    rw [Array.size_modify]
    exact h.base_le
  size_eq := by
    rw [Array.size_modify, Array.size_modify]
    exact h.size_eq
  moved := by
    intro j
    rw [Array.getElem?_modify, Array.getElem?_modify, h.moved]
    by_cases hj : i = j
    · subst hj
      cases xs[i]? with
      | none => simp
      | some x => simp [hk]
    · simp [hj]
  kept := by
    intro j hbase hroom
    have hne : g.move i ≠ j := by
      have := g.move_lt_or_le i
      omega
    rw [Array.getElem?_modify, if_neg hne, h.kept j hbase hroom]

theorem set (h : g.Carries f room xs ys) (i : Nat) (x : α) :
    g.Carries f room (xs.setIfInBounds i x) (ys.setIfInBounds (g.move i) (f x)) where
  base_le := by
    rw [Array.size_setIfInBounds]
    exact h.base_le
  size_eq := by
    rw [Array.size_setIfInBounds, Array.size_setIfInBounds]
    exact h.size_eq
  moved := by
    intro j
    have hlt : g.move i < ys.size ↔ i < xs.size := by
      rw [← h.move_size, move_lt_move]
    rw [Array.getElem?_setIfInBounds, Array.getElem?_setIfInBounds, h.moved]
    by_cases hj : i = j
    · subst hj
      by_cases hi : i < xs.size
      · simp [hi, hlt]
      · simp [hi, hlt]
    · simp [hj]
  kept := by
    intro j hbase hroom
    have hne : g.move i ≠ j := by
      have := g.move_lt_or_le i
      omega
    rw [Array.getElem?_setIfInBounds, if_neg hne, h.kept j hbase hroom]

end Gap.Carries

/-! ## Heaps -/

/-- Everything in `h` stands in `h'` at its displaced place, and the rest is as `room` has it. -/
structure Heap.Moved (T : Displacement) (room h h' : Heap) : Prop where
  objects : T.objects.Carries T.object room.objects h.objects h'.objects
  descriptors : T.descriptors.Carries T.descriptor room.descriptors h.descriptors h'.descriptors

namespace Heap.Moved

variable {T : Displacement} {room h h' : Heap} (hm : Moved T room h h')

include hm

theorem object? (r : Ref) : h'.object? (T.objects.move r) = (h.object? r).map T.object :=
  hm.objects.moved r

theorem descriptor? (r : Ref) :
    h'.descriptor? (T.descriptors.move r) = (h.descriptor? r).map T.descriptor :=
  hm.descriptors.moved r

theorem callable? (r : Ref) :
    h'.callable? (T.objects.move r) = (h.callable? r).map T.callable := by
  unfold Heap.callable?
  rw [hm.object?]
  cases h.object? r <;> rfl

theorem isCallable (v : Value) : h'.isCallable (T.value v) = h.isCallable v := by
  cases v with
  | object r =>
    change (h'.callable? (T.objects.move r)).isSome = _
    rw [hm.callable?, Option.isSome_map]
    rfl
  | _ => rfl

/-! ### Prototypes -/

theorem chain (r : Ref) : h'.chain (T.objects.move r) = (h.chain r).map T.objects.move := by
  induction r using Nat.strongRecOn with
  | ind r ih =>
    rw [Heap.chain, Heap.chain, hm.object?, List.map_cons]
    have hparent : ((h.object? r).map T.object).bind (·.parent?) =
        ((h.object? r).bind (·.parent?)).map T.objects.move := by
      cases h.object? r with
      | none => rfl
      | some o => exact Displacement.parent?_object o
    rw [hparent]
    cases (h.object? r).bind (·.parent?) with
    | none => rfl
    | some p =>
      by_cases hp : p < r
      · simp [hp, ih p hp]
      · simp [hp]

theorem lookup? (r : Ref) (name : PropertyName) :
    h'.lookup? (T.objects.move r) (T.name name) = (h.lookup? r name).map T.descriptor := by
  unfold Heap.lookup?
  rw [hm.chain]
  induction h.chain r with
  | nil => rfl
  | cons q qs ih =>
    have hq : (h'.object? (T.objects.move q)).bind (·.own? (T.name name)) =
        ((h.object? q).bind (·.own? name)).map T.descriptor := by
      rw [hm.object?]
      cases h.object? q with
      | none => rfl
      | some o => exact Displacement.own?_object o name
    rw [List.map_cons, List.findSome?_cons, List.findSome?_cons, hq]
    cases (h.object? q).bind (·.own? name) with
    | none => exact ih
    | some d => rfl

theorem strayParent? (r : Ref) :
    h'.strayParent? (T.objects.move r) = (h.strayParent? r).map T.value := by
  unfold Heap.strayParent?
  rw [hm.chain, List.getLast?_map]
  cases (h.chain r).getLast? with
  | none => rfl
  | some q =>
    simp only [Option.map_some, Option.bind_some]
    rw [hm.object?]
    cases h.object? q with
    | none => rfl
    | some o => exact Displacement.strayParent?_object o

/-! ### Changes -/

theorem newObject (o : Object) :
    (h'.newObject (T.object o)).1 = T.objects.move (h.newObject o).1 ∧
      Moved T room (h.newObject o).2 (h'.newObject (T.object o)).2 :=
  ⟨hm.objects.move_size.symm, hm.objects.push o, hm.descriptors⟩

theorem newDescriptor (d : Descriptor Value) :
    (h'.newDescriptor (T.descriptor d)).1 = T.descriptors.move (h.newDescriptor d).1 ∧
      Moved T room (h.newDescriptor d).2 (h'.newDescriptor (T.descriptor d)).2 :=
  ⟨hm.descriptors.move_size.symm, hm.objects, hm.descriptors.push d⟩

theorem setDescriptor (r : Ref) (d : Descriptor Value) :
    Moved T room (h.setDescriptor r d)
      (h'.setDescriptor (T.descriptors.move r) (T.descriptor d)) :=
  ⟨hm.objects, hm.descriptors.set r d⟩

theorem define (r : Ref) (name : PropertyName) (d : Descriptor Value) :
    (h'.define (T.objects.move r) (T.name name) (T.descriptor d)).2 = (h.define r name d).2 ∧
      Moved T room (h.define r name d).1
        (h'.define (T.objects.move r) (T.name name) (T.descriptor d)).1 := by
  unfold Heap.define
  rw [hm.object?]
  cases h.object? r with
  | none => exact ⟨rfl, hm⟩
  | some o =>
    simp only [Option.map_some, Displacement.define_object, true_and]
    exact ⟨hm.objects.set r _, hm.descriptors⟩

theorem logDefinition (r : Ref) (name : PropertyName) :
    Moved T room
      { h with objects := h.objects.modify r fun o => { o with log := o.log ++ [name] } }
      { h' with objects := h'.objects.modify (T.objects.move r) fun o =>
          { o with log := o.log ++ [T.name name] } } := by
  refine ⟨?_, hm.descriptors⟩
  dsimp only
  apply hm.objects.modify
  intro o
  simp [Displacement.object]

/-- A function that is created below a displaced parent is the displaced function. -/
theorem newFunction (label : Text) (implementation : Option Function) (source : Option Member)
    (parent : Option Ref) :
    (h'.newFunction label (implementation.map T.function) source
        (parent.map T.objects.move)).1 =
      T.objects.move (h.newFunction label implementation source parent).1 ∧
      Moved T room (h.newFunction label implementation source parent).2
        (h'.newFunction label (implementation.map T.function) source
          (parent.map T.objects.move)).2 := by
  have hsize : h'.objects.size = T.objects.move h.objects.size := hm.objects.move_size.symm
  have hnext : h'.objects.size + 1 = T.objects.move (h.objects.size + 1) := by
    have hbase := hm.objects.base_le
    rw [hsize, Gap.move_of_le hbase, Gap.move_of_le (by omega)]
    omega
  have hproto : ((parent.map T.objects.move).bind fun p =>
      (h'.callable? p).map fun c => Value.object c.prototype) =
      (parent.bind fun p => (h.callable? p).map fun c => Value.object c.prototype).map T.value := by
    cases parent with
    | none => rfl
    | some p =>
      simp only [Option.map_some, Option.bind_some]
      rw [hm.callable?]
      cases h.callable? p <;> rfl
  have hparent : (parent.map T.objects.move).map Value.object =
      (parent.map Value.object).map T.value := by
    cases parent <;> rfl
  have hdefine : ∀ o : Object, ((T.object o).define (.text "constructor")
      (Heap.constructorLink (T.objects.move h.objects.size))).1 =
      T.object (o.define (.text "constructor") (Heap.constructorLink h.objects.size)).1 :=
    fun o => congrArg Prod.fst (Displacement.define_object o (.text "constructor")
      (Heap.constructorLink h.objects.size))
  refine ⟨hsize, ?_⟩
  unfold Heap.newFunction
  dsimp only
  rw [hnext, hsize, hparent, hproto]
  have hfunction := (hm.newObject {
    proto := parent.map .object
    label := some label
    callable := some { name := label, implementation, source, prototype := h.objects.size + 1 } }).2
  have hprototype := (hfunction.newObject (({
    proto := parent.bind fun p => (h.callable? p).map fun c => .object c.prototype
    label := some (label ++ ".prototype") } : Object).define (.text "constructor")
      (Heap.constructorLink h.objects.size)).1).2
  rw [← hdefine] at hprototype
  exact hprototype

/-! ### Views -/

end Heap.Moved

namespace Displacement

variable {T : Displacement} {descriptor descriptor' object object' : Ref → View}

mutual

/-- A displaced value looks alike where the places that it refers to do. -/
theorem viewBy_value (hd : ∀ r, descriptor' (T.descriptors.move r) = descriptor r)
    (ho : ∀ r, object' (T.objects.move r) = object r) :
    ∀ v, (T.value v).viewBy descriptor' object' = v.viewBy descriptor object
  | .list vs _ => by
    rw [value, Value.viewBy, Value.viewBy, viewItemsBy_items hd ho vs]
  | .record fs _ => by
    rw [value, Value.viewBy, Value.viewBy, viewFieldsBy_fields hd ho fs]
  | .object r => by
    rw [value, Value.viewBy, Value.viewBy, ho]
  | .descriptor r => by
    rw [value, Value.viewBy, Value.viewBy, hd]
  | .absent | .bool _ | .int _ _ | .float _ _ | .text _ _ | .function _ | .foreign _
  | .source _ _ | .member _ _ => by
    rw [value, Value.viewBy, Value.viewBy] <;> rfl

theorem viewItemsBy_items (hd : ∀ r, descriptor' (T.descriptors.move r) = descriptor r)
    (ho : ∀ r, object' (T.objects.move r) = object r) :
    ∀ vs, Value.viewItemsBy descriptor' object' (T.items vs) =
      Value.viewItemsBy descriptor object vs
  | [] => rfl
  | v :: vs => by
    rw [items, Value.viewItemsBy, Value.viewItemsBy, viewBy_value hd ho v,
      viewItemsBy_items hd ho vs]

theorem viewFieldsBy_fields (hd : ∀ r, descriptor' (T.descriptors.move r) = descriptor r)
    (ho : ∀ r, object' (T.objects.move r) = object r) :
    ∀ fs, Value.viewFieldsBy descriptor' object' (T.fields fs) =
      Value.viewFieldsBy descriptor object fs
  | [] => rfl
  | (k, v) :: fs => by
    rw [fields, Value.viewFieldsBy, Value.viewFieldsBy, viewBy_value hd ho v,
      viewFieldsBy_fields hd ho fs]

end

theorem viewBy_descriptor {view view' : Value → View} (h : ∀ v, view' (T.value v) = view v)
    (d : Descriptor Value) : (T.descriptor d).viewBy view' = d.viewBy view := by
  unfold Descriptor.viewBy
  simp only [descriptor, Descriptor.map, ofOption_value, h]

end Displacement

/-- A way through the heap: each place is there, and none comes twice. -/
structure Heap.IsPath (h : Heap) (path : List Value) : Prop where
  nodup : path.Nodup
  there : ∀ v ∈ path, (∃ r : Nat, v = .object r ∧ r < h.objects.size) ∨
    ∃ r : Nat, v = .descriptor r ∧ r < h.descriptors.size

namespace Heap.IsPath

variable {h : Heap} {path : List Value}

/-- The places of a heap in one row, the objects before the descriptors. -/
def number (h : Heap) : Value → Nat
  | .object r => r
  | .descriptor r => h.objects.size + r
  | _ => 0

/-- No way is longer than the heap has places. -/
theorem length_le (hp : h.IsPath path) :
    path.length ≤ h.objects.size + h.descriptors.size := by
  have hinj : (path.map (number h)).Nodup := by
    refine List.Nodup.map_on (fun a ha b hb hab => ?_) hp.nodup
    rcases hp.there a ha with ⟨r, rfl, hr⟩ | ⟨r, rfl, hr⟩ <;>
      rcases hp.there b hb with ⟨q, rfl, hq⟩ | ⟨q, rfl, hq⟩ <;>
      simp only [number] at hab
    · rw [hab]
    · omega
    · omega
    · rw [Nat.add_left_cancel hab]
  have hsub : path.map (number h) ⊆ List.range (h.objects.size + h.descriptors.size) := by
    intro n hn
    obtain ⟨v, hv, rfl⟩ := List.mem_map.1 hn
    rw [List.mem_range]
    rcases hp.there v hv with ⟨r, rfl, hr⟩ | ⟨r, rfl, hr⟩ <;>
      simp only [number] <;> omega
  have hle := (List.Nodup.subperm hinj hsub).length_le
  rwa [List.length_map, List.length_range] at hle

theorem cons {v : Value} (hp : h.IsPath path) (hnew : path.any v.same = false)
    (hv : (∃ r : Nat, v = .object r ∧ r < h.objects.size) ∨
      ∃ r : Nat, v = .descriptor r ∧ r < h.descriptors.size) : h.IsPath (v :: path) where
  nodup := by
    refine List.nodup_cons.2 ⟨fun hmem => ?_, hp.nodup⟩
    have hany : path.any v.same = true :=
      List.any_eq_true.2 ⟨v, hmem, (Value.same_iff v v).2 rfl⟩
    rw [hnew] at hany
    cases hany
  there := List.forall_mem_cons.2 ⟨hv, hp.there⟩

end Heap.IsPath

namespace Heap.Moved

variable {T : Displacement} {room h h' : Heap} (hm : Moved T room h h')

include hm

/-- Views agree when neither side runs out of depth: a way has no place twice, so it ends before. -/
theorem viewTo (depth depth' : Nat) (path : List Value) (v : Value) (hpath : h.IsPath path)
    (hdepth : h.objects.size + h.descriptors.size < depth + path.length)
    (hdepth' : h.objects.size + h.descriptors.size < depth' + path.length) :
    h'.viewTo depth' (path.map T.value) (T.value v) = h.viewTo depth path v := by
  induction depth generalizing depth' path v with
  | zero =>
    have := hpath.length_le
    omega
  | succ depth ih =>
    cases depth' with
    | zero =>
      have := hpath.length_le
      omega
    | succ depth' =>
      have hany : ∀ u, (path.map T.value).any (T.value u).same = path.any u.same := by
        intro u
        rw [List.any_map]
        congr 1
        funext q
        exact Displacement.same_value u q
      have hinner : ∀ e u, h.IsPath (e :: path) →
          h'.viewTo depth' (T.value e :: path.map T.value) (T.value u) =
            h.viewTo depth (e :: path) u := by
        intro e u he
        refine ih depth' (e :: path) u he ?_ ?_ <;> rw [List.length_cons] <;> omega
      unfold Heap.viewTo
      refine Displacement.viewBy_value (fun r => ?_) (fun r => ?_) v
      · have hr : (path.map T.value).any (Value.descriptor (T.descriptors.move r)).same =
            path.any (Value.descriptor r).same := hany (.descriptor r)
        beta_reduce
        rw [hm.descriptor?, hr]
        cases hin : path.any (Value.descriptor r).same with
        | true => rfl
        | false =>
          cases hd : h.descriptor? r with
          | none => rfl
          | some d =>
            have hthere : r < h.descriptors.size := (Array.getElem?_eq_some_iff.1 hd).1
            have hnext := hpath.cons hin (.inr ⟨r, rfl, hthere⟩)
            exact Displacement.viewBy_descriptor (fun u => hinner (.descriptor r) u hnext) d
      · beta_reduce
        rw [hm.object?]
        cases ho : h.object? r with
        | none => rfl
        | some o =>
          have hr : (path.map T.value).any (Value.object (T.objects.move r)).same =
              path.any (Value.object r).same := hany (.object r)
          simp only [Option.map_some, Displacement.object, hr]
          cases o.callable with
          | some c => rfl
          | none =>
            cases hin : path.any (Value.object r).same with
            | true => rfl
            | false =>
              have hthere : r < h.objects.size := (Array.getElem?_eq_some_iff.1 ho).1
              have hnext := hpath.cons hin (.inl ⟨r, rfl, hthere⟩)
              have hnames : (T.object o).ownNames.map (fun n => h'.viewTo depth'
                  (T.value (.object r) :: path.map T.value) n.value) =
                  o.ownNames.map fun n => h.viewTo depth (.object r :: path) n.value := by
                rw [Displacement.ownNames_object, List.map_map]
                refine List.map_congr_left fun n _ => ?_
                rw [Function.comp_apply, Displacement.value_name]
                exact hinner (.object r) n.value hnext
              exact congrArg (View.object o.label) hnames

theorem view (v : Value) : h'.view (T.value v) = h.view v := by
  have hobjects := hm.objects.size_eq
  have hdescriptors := hm.descriptors.size_eq
  refine hm.viewTo _ _ [] v ⟨List.nodup_nil, fun v hv => absurd hv List.not_mem_nil⟩ ?_ ?_
  · rw [List.length_nil]
    omega
  · rw [List.length_nil]
    omega

end Heap.Moved

end Undecorate
