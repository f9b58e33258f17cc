import Undecorate.Proofs.Object.History

/-! # What lasts

Some properties of a heap are there to stay: every single change of the object model keeps them, if
new objects inherit only from objects that are there. An action that does nothing but such changes
keeps them as well, whether it returns or fails.

* `Heap.Lasting`: what has to be shown, once for each change;
* `Act.Keeps`: an action keeps a property of the heap, however it ends;
* `keeps_define`, `keeps_newFunction`: the actions of the object model keep what lasts.
-/

namespace Undecorate

/-- The heap has this to inherit from: nothing, or an object that is there. -/
def Heap.Offers (h : Heap) (proto : Option Value) : Prop :=
  proto = none ∨ ∃ p, proto = some (.object p) ∧ p < h.objects.size

/-- Every change of the object model keeps the property. -/
structure Heap.Lasting (P : Heap → Prop) : Prop where
  newDescriptor : ∀ {h}, P h → ∀ d, P (h.newDescriptor d).2
  setDescriptor : ∀ {h}, P h → ∀ r d, P (h.setDescriptor r d)
  define : ∀ {h}, P h → ∀ r name d, P (h.define r name d).1
  logged : ∀ {h}, P h → ∀ r name, P { h with objects := h.objects.modify r (·.logged name) }
  newObject : ∀ {h}, P h → ∀ proto label, h.Offers proto → P (h.newObject { proto, label }).2
  newFunction : ∀ {h}, P h → ∀ name implementation source parent,
    (∀ p ∈ parent, (h.callable? p).isSome) →
      P (h.newFunction name implementation source parent).2

namespace Act

variable {σ α β : Type} {P : Heap → Prop} {x : Act σ α} {f : α → Act σ β}

/-- The action keeps the property of the heap, whether it returns or fails. -/
def Keeps (P : Heap → Prop) (x : Act σ α) : Prop := ∀ w, P w.heap → P (x.runIn w).2.heap

theorem Reads.keeps (hx : x.Reads) : x.Keeps P := by
  intro w hw
  rwa [hx w]

theorem keeps_pure (a : α) : (pure a : Act σ α).Keeps P := (reads_pure a).keeps

theorem keeps_throw (e : Fault) : (throw e : Act σ α).Keeps P := (reads_throw e).keeps

theorem keeps_onHeap {g : Heap → α × Heap} (hg : ∀ h, P h → P (g h).2) :
    (onHeap g : Act σ α).Keeps P :=
  fun w hw => hg w.heap hw

theorem Keeps.bind (hx : x.Keeps P) (hf : ∀ a, (f a).Keeps P) : (x >>= f).Keeps P := by
  intro w hw
  have hfirst := hx w hw
  rw [runIn_bind]
  generalize x.runIn w = run at hfirst ⊢
  rcases run with ⟨e | a, w₁⟩
  · exact hfirst
  · exact hf a w₁ hfirst

theorem Keeps.tryCatch {handler : Fault → Act σ α} (hx : x.Keeps P)
    (hhandler : ∀ e, (handler e).Keeps P) : (tryCatch x handler).Keeps P := by
  intro w hw
  have hfirst := hx w hw
  rw [runIn_tryCatch]
  generalize x.runIn w = run at hfirst ⊢
  rcases run with ⟨e | a, w₁⟩
  · exact hhandler e w₁ hfirst
  · exact hfirst

section Lists

variable {ι : Type}

theorem keeps_foldlM {k : α → ι → Act σ α} (hk : ∀ a i, (k a i).Keeps P) (items : List ι) (a : α) :
    (items.foldlM k a).Keeps P := by
  induction items generalizing a with
  | nil => exact keeps_pure a
  | cons i items ih =>
    rw [List.foldlM_cons]
    exact (hk a i).bind ih

theorem keeps_mapM {k : ι → Act σ α} (hk : ∀ i, (k i).Keeps P) (items : List ι) :
    (items.mapM k).Keeps P := by
  induction items with
  | nil => exact keeps_pure []
  | cons i items ih =>
    rw [List.mapM_cons]
    exact (hk i).bind fun a => ih.bind fun as => keeps_pure (a :: as)

theorem keeps_forM {k : ι → Act σ PUnit} (hk : ∀ i, (k i).Keeps P) (items : List ι) :
    (items.forM k).Keeps P := by
  induction items with
  | nil => exact keeps_pure _
  | cons i items ih => exact (hk i).bind fun _ => ih

end Lists

/-! ## The actions of the object model -/

section Actions

variable (hP : Heap.Lasting P)

include hP

theorem keeps_newDescriptor (d : Descriptor Value) :
    (newDescriptor d : Act σ Value).Keeps P :=
  fun _ hw => hP.newDescriptor hw d

theorem keeps_newFunction (name : Text) (implementation : Option Function) (source : Option Member)
    (parent : Value) : (newFunction name implementation source parent : Act σ Value).Keeps P := by
  intro w hw
  unfold newFunction
  cases parent with
  | absent => exact hP.newFunction hw name implementation source none nofun
  | _ =>
    refine (reads_objectOf _ _).after (P := fun w' => P w'.heap) hw ?_
    rintro ⟨r, o⟩ hobject
    obtain ⟨-, ho, -⟩ := returns_objectOf.1 hobject
    dsimp only
    cases hcallable : o.callable with
    | none => exact hw
    | some c =>
      refine hP.newFunction hw name implementation source (some r) fun p hp => ?_
      obtain rfl := Option.some.inj hp
      rw [Heap.callable?, ho, Option.bind_some, hcallable]
      rfl

theorem keeps_define (target key given : Value) :
    (define target key given : Act σ Unit).Keeps P := by
  unfold define
  refine (reads_objectOf _ _).keeps.bind fun p => ?_
  refine (reads_nameOf key).keeps.bind fun name => ?_
  cases given with
  | descriptor q =>
    refine (reads_descriptorOf _ _).keeps.bind fun found w hw => ?_
    rw [runIn_defineBy]
    exact hP.define hw p.1 name found.2
  | _ =>
    refine (reads_view _).keeps.bind fun u => ?_
    dsimp only
    split
    · exact keeps_throw _
    · exact Keeps.bind (fun w hw => hP.logged hw p.1 name) fun _ => keeps_throw _

theorem keeps_ownDescriptor (target key : Value) :
    (ownDescriptor target key : Act σ Value).Keeps P := by
  unfold ownDescriptor
  refine (reads_objectOf _ _).keeps.bind fun p => (reads_nameOf key).keeps.bind fun name => ?_
  cases p.2.own? name with
  | none => exact keeps_pure _
  | some d => exact keeps_newDescriptor hP d

theorem keeps_assign (target : Value) (part : String) (v : Value) :
    (assign target part v : Act σ Unit).Keeps P := by
  intro w hw
  rcases after_assign target part v w with h | ⟨q, d, -, h⟩
  · rwa [h]
  · rw [h]
    exact hP.setDescriptor hw q _

end Actions

end Act

/-- What an operation needs: a new object inherits from what the heap has to offer. -/
def Operation.Grounded (h : Heap) : Operation → Prop
  | .newObject proto _ => h.Offers proto
  | _ => True

/-- A grounded operation keeps what lasts, whether it returns or fails. -/
theorem Heap.Lasting.perform {P : Heap → Prop} (hP : Heap.Lasting P) {h : Heap} {op : Operation}
    (hop : op.Grounded h) (hh : P h) : P (op.perform h) := by
  have hkeeps : ∀ {x : Act Unit Value}, x.Keeps P → P (x.runIn { heap := h, host := () }).2.heap :=
    fun hx => hx { heap := h, host := () } hh
  unfold Operation.perform
  cases op with
  | newObject proto label => exact hP.newObject hh proto label hop
  | newFunction name implementation source parent =>
    exact hkeeps (Act.keeps_newFunction hP name implementation source parent)
  | fields given =>
    refine hkeeps ?_
    dsimp only [Operation.act]
    cases Descriptor.ofFields given with
    | ok d => exact Act.keeps_newDescriptor hP d
    | error issues => exact Act.keeps_throw _
  | mapping given =>
    refine hkeeps ?_
    exact (Act.reads_readMapping given).keeps.bind fun d => Act.keeps_newDescriptor hP d
  | define target key given =>
    exact hkeeps ((Act.keeps_define hP target key given).bind fun _ => Act.keeps_pure _)
  | ownDescriptor target key => exact hkeeps (Act.keeps_ownDescriptor hP target key)
  | assign target part v =>
    exact hkeeps ((Act.keeps_assign hP target part v).bind fun _ => Act.keeps_pure _)

end Undecorate
