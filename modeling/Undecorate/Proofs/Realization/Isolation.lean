import Undecorate.Proofs.Batch
import Undecorate.Proofs.Realization.Mirror

/-! # Declarations are realized apart

A declaration that is realized after others finds what the others have created in its heap. As long
as no function tells one place from another, and none changes what was there before, it comes to
what it comes to alone, at other places. So a run over many declarations is as good as one run for
each, but for the faults that a batch does not recover from.

* `Private`: a declaration that leaves what was there as it was;
* `runIn_ofDeclaration_of_ready`: behind others, a declaration comes to what it comes to alone;
* `declarations_are_realized_apart`: what a run over declarations returns, and when it fails.
-/

namespace Undecorate

variable {σ : Type}

/-- How many objects, descriptors, functions and copies of values there are. -/
@[ext] structure Extent where
  objects : Nat
  descriptors : Nat
  functions : Nat
  copies : Nat
deriving DecidableEq, Repr

/-- The displacement of everything behind a base by what has been created there. -/
def Displacement.behind (base created : Extent) : Displacement where
  objects := ⟨base.objects, created.objects⟩
  descriptors := ⟨base.descriptors, created.descriptors⟩
  functions := ⟨base.functions, created.functions⟩
  copies := ⟨base.copies, created.copies⟩

/-- What there is in both together. -/
instance : Add Extent where
  add a b := ⟨a.objects + b.objects, a.descriptors + b.descriptors, a.functions + b.functions,
    a.copies + b.copies⟩

/-- Nothing. -/
instance : Zero Extent where
  zero := ⟨0, 0, 0, 0⟩

/-- What there is in a world whose host has so many functions and tells so many copies apart. -/
def World.extent (w : World σ) (functions copies : Nat) : Extent where
  objects := w.heap.objects.size
  descriptors := w.heap.descriptors.size
  functions
  copies

/-! ## Heaps that grow -/

namespace Heap

/-- Everything in the first heap stands in the second one, displaced. -/
structure Stands (T : Displacement) (h h' : Heap) : Prop where
  object : ∀ r o, h.object? r = some o → h'.object? (T.objects.move r) = some (T.object o)
  descriptor : ∀ r d, h.descriptor? r = some d →
    h'.descriptor? (T.descriptors.move r) = some (T.descriptor d)

/-- Everything in the first heap is in the second one as it was. -/
structure Extends (h h' : Heap) : Prop where
  object : ∀ r o, h.object? r = some o → h'.object? r = some o
  descriptor : ∀ r d, h.descriptor? r = some d → h'.descriptor? r = some d

variable {h h' h'' room : Heap} {T : Displacement}

theorem Extends.refl (h : Heap) : h.Extends h := ⟨fun _ _ ho => ho, fun _ _ hd => hd⟩

theorem Extends.trans (h₁ : h.Extends h') (h₂ : h'.Extends h'') : h.Extends h'' where
  object r o ho := h₂.object r o (h₁.object r o ho)
  descriptor r d hd := h₂.descriptor r d (h₁.descriptor r d hd)

theorem Stands.mono (h₁ : Stands T h h') (h₂ : h'.Extends h'') : Stands T h h'' where
  object r o ho := h₂.object _ _ (h₁.object r o ho)
  descriptor r d hd := h₂.descriptor _ _ (h₁.descriptor r d hd)

theorem Moved.stands (hm : Moved T room h h') : Stands T h h' where
  object r o ho := by rw [hm.object?, ho, Option.map_some]
  descriptor r d hd := by rw [hm.descriptor?, hd, Option.map_some]

end Heap

/-! ## What was there before -/

namespace Gap.Carries

variable {α : Type} {f g : α → α} {xs ys zs room rest : Array α} {s : Nat}
  (hkept : ∀ (i : Nat) x, xs[i]? = some x → ys[i]? = some x) (hf : ∀ x ∈ xs, f x = x)

include hf in
/-- Items stand where they are when nothing has been created. -/
theorem start : (⟨xs.size, 0⟩ : Gap).Carries f xs xs xs where
  base_le := Nat.le_refl _
  size_eq := rfl
  moved := by
    intro i
    have hmove : (⟨xs.size, 0⟩ : Gap).move i = i := by
      unfold move
      split <;> rfl
    rw [hmove]
    cases hi : xs[i]? with
    | none => rfl
    | some x => rw [Option.map_some, hf x (Array.mem_of_getElem? hi)]
  kept := fun _ _ _ => rfl

include hkept

theorem size_le_of_kept : xs.size ≤ ys.size := by
  by_contra hlt
  have hy := hkept ys.size _ (Array.getElem?_eq_getElem (Nat.not_le.1 hlt))
  rw [Array.getElem?_eq_none (Nat.le_refl _)] at hy
  cases hy

include hf

/-- Items that stay where and what they are are found as they were. -/
theorem home (h : (⟨xs.size, s⟩ : Gap).Carries f room ys zs) {i : Nat} {x : α}
    (hi : xs[i]? = some x) : zs[i]? = some x := by
  have hlt : i < xs.size := (Array.getElem?_eq_some_iff.1 hi).1
  have hmoved := h.moved i
  rwa [move_of_lt hlt, hkept i x hi, Option.map_some, hf x (Array.mem_of_getElem? hi)] at hmoved

/-- What is created behind items that stay leaves room for more. -/
theorem behind (h : (⟨xs.size, s⟩ : Gap).Carries f room ys zs) (hg : ∀ x ∈ xs, g x = x) :
    (⟨xs.size, ys.size - xs.size + s⟩ : Gap).Carries g zs xs zs where
  base_le := Nat.le_refl _
  size_eq := by
    have hsize := h.size_eq
    have hle := size_le_of_kept hkept
    dsimp only at hsize ⊢
    omega
  moved := by
    intro i
    by_cases hi : i < xs.size
    · have hx : xs[i]? = some xs[i] := Array.getElem?_eq_getElem hi
      rw [move_of_lt hi, home hkept hf h hx, hx, Option.map_some, hg _ (Array.getElem_mem hi)]
    · have hsize := h.size_eq
      have hle := size_le_of_kept hkept
      dsimp only at hsize
      rw [move_of_le (Nat.not_lt.1 hi), Array.getElem?_eq_none (Nat.not_lt.1 hi), Option.map_none]
      refine Array.getElem?_eq_none ?_
      dsimp only
      omega
  kept := fun _ _ _ => rfl

/-- What others have created stays as it was. -/
theorem grows (h : (⟨xs.size, s⟩ : Gap).Carries f room ys zs)
    (hready : (⟨xs.size, s⟩ : Gap).Carries f rest xs room) {i : Nat} {x : α}
    (hi : room[i]? = some x) : zs[i]? = some x := by
  by_cases hbase : i < xs.size
  · have hx : xs[i]? = some xs[i] := Array.getElem?_eq_getElem hbase
    have hroom := home (fun _ _ hx => hx) hf hready hx
    rw [hi] at hroom
    rw [home hkept hf h hx, hroom]
  · have hlt : i < room.size := (Array.getElem?_eq_some_iff.1 hi).1
    have hsize := hready.size_eq
    dsimp only at hsize
    rw [h.kept i (Nat.not_lt.1 hbase) (by dsimp only; omega), hi]

end Gap.Carries

namespace Realization

variable (host : Host σ) (names : Names) (w : World σ) (functions copies : Nat)
  (alike : Extent → σ → σ → Prop)

/-- How a declaration ends when it is the only one, and the world that it leaves. -/
def alone (d : Declaration) : Except Fault Realization × World σ :=
  (ofDeclaration host names d).runIn w

/-- The host cannot tell where things are, neither in a call nor when it fetches an attribute. Two
of its states are alike for some extent if one of them is the other one after so much has been
created by others. -/
structure Blind : Prop where
  mirrored : ∀ created room,
    host.Mirrored (.behind (w.extent functions copies) created) room (alike created)
  trans : ∀ {a b c created more}, alike more a b → alike created b c → alike (more + created) a c

/-- Nothing in the world and the names refers to what is not there yet. -/
structure Closed : Prop where
  host : alike 0 w.host w.host
  names : ∀ created, names.Fixed (.behind (w.extent functions copies) created)
  object : ∀ created, ∀ o ∈ w.heap.objects,
    (Displacement.behind (w.extent functions copies) created).object o = o
  descriptor : ∀ created, ∀ d ∈ w.heap.descriptors,
    (Displacement.behind (w.extent functions copies) created).descriptor d = d

/-- Alone, the declaration creates things but changes nothing that was there, and the host is left
as if only things had been created. -/
structure Private (d : Declaration) : Prop where
  keeps : w.heap.Extends (alone host names w d).2.heap
  host : ∃ functions' copies', alike
    ⟨(alone host names w d).2.heap.objects.size - w.heap.objects.size,
      (alone host names w d).2.heap.descriptors.size - w.heap.descriptors.size, functions',
      copies'⟩
    w.host (alone host names w d).2.host

/-- The second world is the first one after others have created things. -/
def Ready (created : Extent) (w' : World σ) : Prop :=
  World.Moved (.behind (w.extent functions copies) created) w'.heap (alike created) w w'

variable {host names w functions copies alike}

theorem ready_zero (hclosed : Closed names w functions copies alike) :
    Ready w functions copies alike 0 w where
  host := hclosed.host
  heap := ⟨.start (hclosed.object 0), .start (hclosed.descriptor 0)⟩

/-- Behind others, a declaration comes to what it comes to alone, and the next one finds the world
ready. -/
theorem runIn_ofDeclaration_of_ready (hblind : Blind host w functions copies alike)
    (hclosed : Closed names w functions copies alike) {d : Declaration}
    (hprivate : Private host names w alike d) {created : Extent} {w' : World σ}
    (hready : Ready w functions copies alike created w') :
    ∃ w₁ more, (ofDeclaration host names d).runIn w' =
        ((alone host names w d).1.map
          (Displacement.behind (w.extent functions copies) created).realization, w₁) ∧
      Heap.Stands (.behind (w.extent functions copies) created) (alone host names w d).2.heap
        w₁.heap ∧
      w'.heap.Extends w₁.heap ∧ Ready w functions copies alike (more + created) w₁ := by
  obtain ⟨hend, hleft⟩ := mirrors_ofDeclaration (hblind.mirrored created w'.heap)
    (hclosed.names created) d w w' hready
  obtain ⟨functions', copies', halike⟩ := hprivate.host
  have hobject := hclosed.object created
  have hdescriptor := hclosed.descriptor created
  have hobjects := hleft.heap.objects
  have hdescriptors := hleft.heap.descriptors
  refine ⟨((ofDeclaration host names d).runIn w').2, _, Prod.ext hend rfl, hleft.heap.stands,
    ⟨fun r o ho => ?_, fun r e he => ?_⟩, ?_, hblind.trans halike hleft.host⟩
  · exact Gap.Carries.grows hprivate.keeps.object hobject hobjects hready.heap.objects ho
  · exact Gap.Carries.grows hprivate.keeps.descriptor hdescriptor hdescriptors
      hready.heap.descriptors he
  · exact ⟨.behind hprivate.keeps.object hobject hobjects (hclosed.object _),
      .behind hprivate.keeps.descriptor hdescriptor hdescriptors (hclosed.descriptor _)⟩

/-- Declarations that are realized one after the other come to what they come to alone. -/
theorem turns_of_ready (hblind : Blind host w functions copies alike)
    (hclosed : Closed names w functions copies alike) {ds : List Declaration}
    (hprivate : ∀ d ∈ ds, Private host names w alike d) {created : Extent} {w' : World σ}
    (hready : Ready w functions copies alike created w') :
    ∃ places : List Displacement, places.length = ds.length ∧
      (turns (ofDeclaration host names) ds w').1 =
        (ds.zip places).map (fun p => (alone host names w p.1).1.map p.2.realization) ∧
      (∀ p ∈ ds.zip places, Heap.Stands p.2 (alone host names w p.1).2.heap
        (turns (ofDeclaration host names) ds w').2.heap) ∧
      w'.heap.Extends (turns (ofDeclaration host names) ds w').2.heap ∧
      ∃ created', Ready w functions copies alike created'
        (turns (ofDeclaration host names) ds w').2 := by
  induction ds generalizing created w' with
  | nil =>
    refine ⟨[], rfl, rfl, fun p hp => ?_, .refl _, created, hready⟩
    cases hp
  | cons d ds ih =>
    obtain ⟨hd, hds⟩ := List.forall_mem_cons.1 hprivate
    obtain ⟨w₁, more, hrun, hstands, hextends, hnext⟩ :=
      runIn_ofDeclaration_of_ready hblind hclosed hd hready
    obtain ⟨places, hlength, hturns, hplaced, hkept, hlast⟩ := ih hds hnext
    have hcons : turns (ofDeclaration host names) (d :: ds) w' =
        ((alone host names w d).1.map
            (Displacement.behind (w.extent functions copies) created).realization ::
          (turns (ofDeclaration host names) ds w₁).1,
        (turns (ofDeclaration host names) ds w₁).2) := by
      have hend : endOf (ofDeclaration host names d) w' = _ := hrun
      rw [turns_cons, hend]
    refine ⟨.behind (w.extent functions copies) created :: places, ?_, ?_, ?_, ?_, ?_⟩
    · rw [List.length_cons, hlength, List.length_cons]
    · rw [hcons, List.zip_cons_cons, List.map_cons, hturns]
    · rw [hcons, List.zip_cons_cons]
      exact List.forall_mem_cons.2 ⟨hstands.mono hkept, hplaced⟩
    · rw [hcons]
      exact hextends.trans hkept
    · rw [hcons]
      exact hlast

variable (host names w) in
/-- The failure of a declaration that fails alone. -/
def failure? (d : Declaration) : Option Failure :=
  match (alone host names w d).1 with
  | .ok _ => none
  | .error fault => some { item := .text d.title, operation := some "realize", fault }

/-- The realizations and failures of declarations by how they end alone. -/
theorem sorted_of_alone {ds : List Declaration} {places : List Displacement}
    (hlength : places.length = ds.length) :
    sorted (fun d : Declaration => .text d.title) (some "realize") (ds.zip ((ds.zip places).map
        fun p => (alone host names w p.1).1.map p.2.realization)) =
      ((ds.zip places).filterMap fun p => (alone host names w p.1).1.toOption.map p.2.realization,
        ds.filterMap (failure? host names w)) := by
  induction ds generalizing places with
  | nil => rfl
  | cons d ds ih =>
    obtain ⟨T, places, rfl⟩ := List.exists_cons_of_length_eq_add_one hlength
    rw [List.length_cons, List.length_cons, Nat.add_right_cancel_iff] at hlength
    obtain ⟨hresults, hfailures⟩ := Prod.ext_iff.1 (ih hlength)
    have hresult : resultOf? (d, (alone host names w d).1.map T.realization) =
        (alone host names w d).1.toOption.map T.realization := by
      cases (alone host names w d).1 <;> rfl
    have hfailure : failureOf? (fun d : Declaration => .text d.title) (some "realize")
        (d, (alone host names w d).1.map T.realization) = failure? host names w d := by
      unfold failure?
      cases (alone host names w d).1 <;> rfl
    dsimp only [sorted] at hresults hfailures ⊢
    rw [List.zip_cons_cons, List.map_cons, List.zip_cons_cons]
    refine Prod.ext ?_ ?_
    · simp only [List.filterMap_cons, hresult, hresults]
    · simp only [List.filterMap_cons, hfailure, hfailures]

end Realization

open Realization in
/-- Functions share no state when they cannot tell places apart (`Blind`) and no declaration changes
what was there (`Private`). Then declarations that are realized one after the other come to what
they come to alone. As long as each of them succeeds or ends with a diagnostic whose text can be
written, the run returns: the realizations are those of the declarations that succeed, which stand
in the heap that is left as they would alone but for their places, and the failures are those of the
declarations that fail, each with the declaration's title and the fault that it has alone. The first
declaration that ends with anything else ends the run: with its own fault if that is no diagnostic,
and with the fault of writing it if it is one. -/
theorem declarations_are_realized_apart {host : Host σ} {names : Names} {w : World σ}
    {functions copies : Nat} {alike : Extent → σ → σ → Prop}
    (hblind : Blind host w functions copies alike)
    (hclosed : Closed names w functions copies alike) (ds : List Declaration)
    (hprivate : ∀ d ∈ ds, Private host names w alike d) :
    ((∀ d ∈ ds, ∀ f, (alone host names w d).1 = .error f →
        f.isDiagnostic = true ∧ f.writing? = none) →
      ∃ (places : List Displacement) (w' : World σ), places.length = ds.length ∧
        (all host names ds).Returns w
          ((ds.zip places).filterMap fun p =>
              (alone host names w p.1).1.toOption.map p.2.realization,
            ds.filterMap (failure? host names w)) w' ∧
        (∀ p ∈ ds.zip places, Heap.Stands p.2 (alone host names w p.1).2.heap w'.heap) ∧
        w.heap.Extends w'.heap) ∧
    ∀ before d after f, ds = before ++ d :: after →
      (∀ b ∈ before, ∀ f, (alone host names w b).1 = .error f →
        f.isDiagnostic = true ∧ f.writing? = none) →
      (alone host names w d).1 = .error f →
      (f.isDiagnostic = false → ∃ w', (all host names ds).Fails w f w') ∧
      ∀ g, f.isDiagnostic = true → f.writing? = some g →
        ∃ w', (all host names ds).Fails w g w' := by
  -- a fault behind others is the fault alone
  have hfaults : ∀ {ds : List Declaration} {places : List Displacement},
      (∀ d ∈ ds, ∀ f, (alone host names w d).1 = .error f →
        f.isDiagnostic = true ∧ f.writing? = none) →
      ∀ f, .error f ∈ (ds.zip places).map (fun p =>
        (alone host names w p.1).1.map p.2.realization) →
        f.ending? Fault.isDiagnostic = none := by
    intro ds places hrecovers f hf
    obtain ⟨p, hp, hend⟩ := List.mem_map.1 hf
    refine Fault.ending?_eq_none.2 (hrecovers p.1 (List.of_mem_zip hp).1 f ?_)
    cases hd : (alone host names w p.1).1 with
    | ok r =>
      rw [hd] at hend
      cases hend
    | error e =>
      rw [hd] at hend
      cases hend
      rfl
  constructor
  · intro hrecovers
    obtain ⟨places, hlength, hturns, hplaced, hkept, -⟩ :=
      turns_of_ready hblind hclosed hprivate (ready_zero hclosed)
    refine ⟨places, _, hlength, ?_, hplaced, hkept⟩
    have hbatch : endOf (all host names ds) w = _ :=
      processBatch_of_recorded fun f hf => hfaults hrecovers f (hturns ▸ hf)
    rw [hturns, sorted_of_alone hlength] at hbatch
    exact hbatch
  · rintro before d after f rfl hrecovers hd
    obtain ⟨hbefore, hrest⟩ := List.forall_mem_append.1 hprivate
    obtain ⟨places, -, hturns, -, -, created, hready⟩ :=
      turns_of_ready hblind hclosed hbefore (ready_zero hclosed)
    obtain ⟨w₁, _, hrun, -⟩ := runIn_ofDeclaration_of_ready hblind hclosed
      (hrest d List.mem_cons_self) hready
    rw [hd] at hrun
    have hends : ∀ g, f.ending? Fault.isDiagnostic = some g →
        (all host names (before ++ d :: after)).Fails w g w₁ := fun g hg =>
      processBatch_of_ending (fun f hf => hfaults hrecovers f (hturns ▸ hf)) hrun hg
    refine ⟨fun hf => ⟨w₁, hends f ?_⟩, fun g hf hg => ⟨w₁, hends g ?_⟩⟩
    · simp [Fault.ending?, hf]
    · simp [Fault.ending?, hf, hg]

namespace Realization.SampleBatch

/-- A function fails, one makes objects, one gives its key a property that the key itself names, and
all others keep what they are handed. -/
def host : Host Unit where
  call f arguments :=
    if f.name = "boom" then throw (.raised "ValueError" "boom")
    else if f.name = "make" then do return .object (← Act.onHeap (·.newObject {}))
    else if f.name = "knot" then match arguments with
      | [_, key, _] => do
        Act.define key key (← Act.newDescriptor (.plain none))
        return .absent
      | _ => return .absent
    else return .absent

def names : Names :=
  [("boom", .function ⟨0, "boom"⟩), ("make", .function ⟨1, "make"⟩),
    ("knot", .function ⟨2, "knot"⟩)]

/-- Nothing is there yet. -/
def world : World Unit := { host := () }

/-- A class under the function that fails: it is the decorator, or makes the decorator. -/
def failing (isCall : Bool) : Declaration :=
  .cls { name := some "A", decorators := [{ text := "boom", callee := some "boom", isCall }] }

/-- A class whose method has a new object for its key, which its decorator ties to itself. -/
def knotted : Declaration :=
  .cls { name := some "A", members := [{
    kind := .method
    key := some { text := "make()", isComputed := true }
    decorators := [{ text := "knot", callee := some "knot" }] }] }

/-- A class without decorators. -/
def plain : Declaration := .cls { name := some "B" }

theorem blind : Blind host world 3 0 (fun _ _ _ => True) where
  mirrored created room := by
    constructor
    · intro f arguments
      dsimp only [host, Displacement.function]
      split
      · exact Act.mirrors_throw _
      · split
        · refine Act.Mirrors.bind (e := (Displacement.behind _ created).objects.move)
            (Act.mirrors_onHeap fun _ _ hm => hm.newObject {}) fun r => ?_
          exact Act.mirrors_pure (Value.object r)
        · split
          · rcases arguments with _ | ⟨target, _ | ⟨key, _ | ⟨d, _ | _⟩⟩⟩
            case cons.cons.cons.nil =>
              exact (mirrors_defineNew key key (.plain none)).bind fun _ =>
                Act.mirrors_pure Value.absent
            all_goals exact Act.mirrors_pure Value.absent
          · exact Act.mirrors_pure Value.absent
    · exact fun v name => Act.mirrors_pure none
  trans := fun _ _ => trivial

theorem closed : Closed names world 3 0 (fun _ _ _ => True) where
  host := trivial
  names := by
    intro created p hp
    simp only [names, List.mem_cons, List.not_mem_nil, or_false] at hp
    rcases hp with rfl | rfl | rfl <;> rfl
  object := fun _ o ho => absurd ho (Array.not_mem_empty o)
  descriptor := fun _ d hd => absurd hd (Array.not_mem_empty d)

theorem isPrivate (d : Declaration) : Private host names world (fun _ _ _ => True) d where
  keeps := by
    constructor
    · intro r o ho
      rw [show world.heap.object? r = none from Array.getElem?_empty] at ho
      cases ho
    · intro r e he
      rw [show world.heap.descriptor? r = none from Array.getElem?_empty] at he
      cases he
  host := ⟨0, 0, trivial⟩

/-- The fault that a declaration has alone. -/
def fault? (d : Declaration) : Option Fault :=
  match (alone host names world d).1 with
  | .ok _ => none
  | .error f => some f

theorem fault?_eq_some {d : Declaration} {f : Fault} :
    fault? d = some f ↔ (alone host names world d).1 = .error f := by
  unfold fault?
  cases (alone host names world d).1 <;> simp

end Realization.SampleBatch

open Realization Realization.SampleBatch in
/-- The theorem at a class under a function that fails and a class after it. As a decorator the
function fails with a diagnostic and the second class is realized; when it is called to make the
decorator, its own fault ends the run. So does a diagnostic about a key without end, which cannot be
written. -/
theorem declarations_are_realized_apart_of_sample :
    (∃ realizations failures w',
      (all host names [failing false, plain]).Returns world (realizations, failures) w' ∧
      realizations.length = 1 ∧
      failures.map (fun f => (f.itemText, f.fault.kindName)) =
        [(Text.ofString "'A'", "ChainError")]) ∧
    (∃ w', (all host names [failing true, plain]).Fails world (.raised "ValueError" "boom") w') ∧
    ∃ f w', (alone host names world knotted).1 = .error f ∧ f.kindName = "ChainError" ∧
      (all host names [knotted, plain]).Fails world .endless w' := by
  have hends (d : Declaration) : ∀ f, (alone host names world d).1 = .error f →
      (f.isDiagnostic = false → ∃ w', (all host names [d, plain]).Fails world f w') ∧
      ∀ g, f.isDiagnostic = true → f.writing? = some g →
        ∃ w', (all host names [d, plain]).Fails world g w' := fun f hf =>
    (declarations_are_realized_apart blind closed [d, plain] fun d _ => isPrivate d).2
      [] d [plain] f rfl (fun b hb => absurd hb List.not_mem_nil) hf
  refine ⟨?_, ?_, ?_⟩
  · obtain ⟨hreturns, -⟩ := declarations_are_realized_apart blind closed [failing false, plain]
      fun d _ => isPrivate d
    have hrecorded : ∀ d ∈ [failing false, plain],
        (fault? d).all (fun f => f.isDiagnostic && f.writing?.isNone) = true := by decide +kernel
    obtain ⟨places, w', hlength, hrun, -⟩ := hreturns fun d hd f hf => by
      have hall := hrecorded d hd
      rw [fault?_eq_some.2 hf] at hall
      simpa using hall
    refine ⟨_, _, w', hrun, ?_, by decide +kernel⟩
    -- whatever the places are, the first class gives nothing and the second one a realization
    obtain ⟨T, U, rfl⟩ := List.length_eq_two.1 hlength
    have hfirst : (alone host names world (failing false)).1.toOption.isSome = false := by
      decide +kernel
    have hsecond : (alone host names world plain).1.toOption.isSome = true := by decide +kernel
    obtain ⟨r, hr⟩ := Option.isSome_iff_exists.1 hsecond
    rw [Option.isSome_eq_false_iff, Option.isNone_iff_eq_none] at hfirst
    simp [hfirst, hr]
  · have hfault : fault? (failing true) = some (.raised "ValueError" "boom") := by decide +kernel
    exact (hends _ _ (fault?_eq_some.1 hfault)).1 rfl
  · have hfault : (fault? knotted).map (fun f => (f.isDiagnostic, f.writing?, f.kindName)) =
        some (true, some .endless, "ChainError") := by decide +kernel
    obtain ⟨f, hf, hparts⟩ := Option.map_eq_some_iff.1 hfault
    simp only [Prod.mk.injEq] at hparts
    obtain ⟨hdiagnostic, hwriting, hkind⟩ := hparts
    have halone := fault?_eq_some.1 hf
    obtain ⟨w', hfails⟩ := (hends _ f halone).2 .endless hdiagnostic hwriting
    exact ⟨f, w', halone, hkind, hfails⟩

end Undecorate
