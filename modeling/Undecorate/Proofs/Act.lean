import Undecorate.Object.World
import Undecorate.Proofs.Stateful

/-! # Runs of actions

An action that is run in a world either returns or fails, and leaves a world behind in both cases.
`Returns` is the first of the two; every action of the object model has a lemma here that says when
it returns, with what, and in which world.

* `returns_bind`: a sequence returns iff its parts return one after the other;
* `returns_tryCatch_throw`: a handler that turns faults into faults changes no run that returns;
* `returns_checkQuotable`: what the check of the object model lets pass;
* `Alike.bind`, `Alike.foldlM`: actions that end alike step by step end alike as a whole.
-/

namespace Undecorate

/-- The value can be quoted as it is now. -/
def Heap.Quotable (h : Heap) (v : Value) : Prop := (h.view v).obstacle? true = none

/-- The fault of quoting a value, if it cannot be quoted. -/
def Heap.quotingFault? (h : Heap) (v : Value) : Option Fault :=
  ((h.view v).obstacle? true).map (·.fault)

theorem Heap.quotingFault?_eq_none {h : Heap} {v : Value} :
    h.quotingFault? v = none ↔ h.Quotable v :=
  Option.map_eq_none_iff

namespace Act

variable {σ α β : Type}

/-- How the action ends when it is run in a world. -/
def runIn (x : Act σ α) (w : World σ) : Except Fault α × World σ := x.run.run w

/-- Run in `w`, the action ends with `a` in `w'`. -/
def Returns (x : Act σ α) (w : World σ) (a : α) (w' : World σ) : Prop :=
  x.runIn w = (.ok a, w')

/-- Run in `w`, the action fails with `f` in `w'`. -/
def Fails (x : Act σ α) (w : World σ) (f : Fault) (w' : World σ) : Prop :=
  x.runIn w = (.error f, w')

variable {x : Act σ α} {f : α → Act σ β} {w w' w₁ w₂ : World σ} {a b : α}

/-- A run ends in one way only. -/
theorem Returns.unique (h₁ : x.Returns w a w₁) (h₂ : x.Returns w b w₂) : a = b ∧ w₁ = w₂ := by
  have h := h₁.symm.trans h₂
  rw [Prod.mk.injEq, Except.ok.injEq] at h
  exact h

/-- An action that is known to return does so in this way only. -/
theorem Returns.iff_of (h : x.Returns w a w₁) : x.Returns w b w' ↔ b = a ∧ w' = w₁ := by
  constructor
  · intro h'
    exact h'.unique h
  · rintro ⟨rfl, rfl⟩
    exact h

@[simp] theorem returns_pure : (pure a : Act σ α).Returns w b w' ↔ b = a ∧ w' = w :=
  Returns.iff_of rfl

@[simp] theorem fails_throw (e : Fault) : (throw e : Act σ α).Fails w e w := rfl

theorem Fails.not_returns {e : Fault} (h : x.Fails w e w₁) : ¬ x.Returns w a w₂ := by
  intro h'
  have := h.symm.trans h'
  simp at this

@[simp] theorem not_returns_throw (e : Fault) : ¬ (throw e : Act σ α).Returns w a w' :=
  (fails_throw e).not_returns

/-- A sequence is its first part, and then the rest from where that ended. -/
theorem runIn_bind (x : Act σ α) (f : α → Act σ β) (w : World σ) :
    (x >>= f).runIn w = match x.runIn w with
      | (.ok a, s) => (f a).runIn s
      | (.error e, s) => (.error e, s) := by
  refine (run_bind x f w).trans ?_
  unfold runIn endOf
  rcases x.run.run w with ⟨e | a, s⟩
  · rfl
  · rfl

/-- A sequence goes on from where its first part ended. -/
theorem Returns.runIn_bind (h : x.Returns w a w₁) (f : α → Act σ β) :
    (x >>= f).runIn w = (f a).runIn w₁ := by
  rw [Act.runIn_bind, h]

/-- A sequence fails where its first part fails. -/
theorem Fails.bind {e : Fault} (h : x.Fails w e w₁) (f : α → Act σ β) :
    (x >>= f).Fails w e w₁ := by
  rw [Fails, Act.runIn_bind, h]

/-- An action returns or fails. -/
theorem returns_or_fails (x : Act σ α) (w : World σ) :
    (∃ a w', x.Returns w a w') ∨ ∃ e w', x.Fails w e w' := by
  rcases h : x.runIn w with ⟨r, w'⟩
  cases r with
  | ok a => exact .inl ⟨a, w', h⟩
  | error e => exact .inr ⟨e, w', h⟩

@[simp] theorem returns_bind {b : β} :
    (x >>= f).Returns w b w' ↔ ∃ a w₁, x.Returns w a w₁ ∧ (f a).Returns w₁ b w' := by
  constructor
  · intro h
    rcases returns_or_fails x w with ⟨a, w₁, hx⟩ | ⟨e, w₁, hx⟩
    · refine ⟨a, w₁, hx, ?_⟩
      rw [Returns, ← hx.runIn_bind f]
      exact h
    · exact absurd h (hx.bind f).not_returns
  · rintro ⟨a, w₁, hx, hf⟩
    exact (hx.runIn_bind f).trans hf

@[simp] theorem returns_map {g : α → β} {b : β} :
    (g <$> x).Returns w b w' ↔ ∃ a, x.Returns w a w' ∧ b = g a := by
  rw [map_eq_pure_bind, returns_bind]
  constructor
  · rintro ⟨a, w₁, hx, hg⟩
    rw [returns_pure] at hg
    rcases hg with ⟨rfl, rfl⟩
    exact ⟨a, hx, rfl⟩
  · rintro ⟨a, hx, rfl⟩
    exact ⟨a, w', hx, rfl⟩

/-- What a run with a handler comes to. -/
theorem runIn_tryCatch (x : Act σ α) (handler : Fault → Act σ α) (w : World σ) :
    (tryCatch x handler).runIn w = match x.runIn w with
      | (.ok a, s) => (.ok a, s)
      | (.error e, s) => (handler e).runIn s := by
  refine (run_tryCatch x handler w).trans ?_
  unfold runIn endOf
  rcases x.run.run w with ⟨e | a, s⟩
  · rfl
  · rfl

/-- A handler that only turns one fault into another changes no run that returns. -/
theorem returns_tryCatch_throw (turn : Heap → Fault → Fault) :
    (tryCatch x fun e => do throw (turn (← heap) e)).Returns w a w' ↔ x.Returns w a w' := by
  -- the guarded action ends one way only, and the handler is reached in the second
  rcases returns_or_fails x w with ⟨b, w₁, hx⟩ | ⟨e, w₁, hx⟩
  · have hrun : (tryCatch x fun e => do throw (turn (← heap) e)).Returns w b w₁ := by
      rw [Returns, runIn_tryCatch, hx]
    constructor
    · intro h
      rcases h.unique hrun with ⟨rfl, rfl⟩
      exact hx
    · intro h
      rcases h.unique hx with ⟨rfl, rfl⟩
      exact hrun
  · refine ⟨fun h => ?_, fun h => absurd h hx.not_returns⟩
    rw [Returns, runIn_tryCatch, hx] at h
    cases h

/-- What every round of a loop keeps holds at its end, of what is returned and of the world. -/
theorem foldlM_invariant {ι : Type} {k : α → ι → Act σ α} {P : α → World σ → Prop} {items : List ι}
    (hstep : ∀ i ∈ items, ∀ a w b w', P a w → (k a i).Returns w b w' → P b w') (hstart : P a w)
    (h : (items.foldlM k a).Returns w b w') : P b w' := by
  induction items generalizing a w with
  | nil =>
    obtain ⟨rfl, rfl⟩ := returns_pure.1 h
    exact hstart
  | cons i items ih =>
    rw [List.foldlM_cons] at h
    obtain ⟨c, w₁, hone, hrest⟩ := returns_bind.1 h
    exact ih (fun j hj => hstep j (List.mem_cons_of_mem i hj))
      (hstep i List.mem_cons_self a w c w₁ hstart hone) hrest

theorem foldlM_induction {ι : Type} {k : α → ι → Act σ α} {P : α → Prop}
    (hstep : ∀ a i w b w', P a → (k a i).Returns w b w' → P b) {items : List ι} (hstart : P a)
    (h : (items.foldlM k a).Returns w b w') : P b :=
  foldlM_invariant (P := fun a _ => P a) (fun i _ a w b w' => hstep a i w b w') hstart h

/-! ## Two actions that end alike -/

section Alike

variable {γ δ : Type} {y : Act σ γ} {g : γ → Act σ δ} {R : α → γ → Prop} {S : β → δ → Prop}

/-- Run in `w`, one of the actions returns iff the other one does, in the same world and with
related results. The host can keep a record of its calls, so both make the same ones. -/
structure Alike (x : Act σ α) (y : Act σ γ) (w : World σ) (R : α → γ → Prop) : Prop where
  forth : ∀ a w', x.Returns w a w' → ∃ c, y.Returns w c w' ∧ R a c
  back : ∀ c w', y.Returns w c w' → ∃ a, x.Returns w a w' ∧ R a c

theorem alike_pure {c : γ} (h : R a c) : Alike (pure a : Act σ α) (pure c : Act σ γ) w R where
  forth := by
    intro a' w' ha
    rcases returns_pure.1 ha with ⟨rfl, rfl⟩
    exact ⟨c, rfl, h⟩
  back := by
    intro c' w' hc
    rcases returns_pure.1 hc with ⟨rfl, rfl⟩
    exact ⟨a, rfl, h⟩

/-- Sequences whose parts end alike end alike. -/
theorem Alike.bind (h : Alike x y w R)
    (hf : ∀ a c w', x.Returns w a w' → R a c → Alike (f a) (g c) w' S) :
    Alike (x >>= f) (y >>= g) w S where
  forth := by
    intro b w' hb
    rcases returns_bind.1 hb with ⟨a, w₁, hx, hfa⟩
    rcases h.forth a w₁ hx with ⟨c, hy, hR⟩
    rcases (hf a c w₁ hx hR).forth b w' hfa with ⟨d, hgc, hS⟩
    exact ⟨d, returns_bind.2 ⟨c, w₁, hy, hgc⟩, hS⟩
  back := by
    intro d w' hd
    rcases returns_bind.1 hd with ⟨c, w₁, hy, hgc⟩
    rcases h.back c w₁ hy with ⟨a, hx, hR⟩
    rcases (hf a c w₁ hx hR).back d w' hgc with ⟨b, hfa, hS⟩
    exact ⟨b, returns_bind.2 ⟨a, w₁, hx, hfa⟩, hS⟩

/-- Only one of the actions goes on. -/
theorem Alike.bind_left {S : β → γ → Prop} (h : Alike x y w R)
    (hf : ∀ a c w', x.Returns w a w' → R a c → Alike (f a) (pure c : Act σ γ) w' S) :
    Alike (x >>= f) y w S := by
  have hb := h.bind hf
  rw [bind_pure] at hb
  exact hb

theorem Alike.bind_right {S : α → δ → Prop} (h : Alike x y w R)
    (hg : ∀ a c w', x.Returns w a w' → R a c → Alike (pure a : Act σ α) (g c) w' S) :
    Alike x (y >>= g) w S := by
  have hb := h.bind hg
  rw [bind_pure] at hb
  exact hb

/-- What one of the actions does first changes nothing. -/
theorem Alike.of_returns_left {S : β → γ → Prop} (h : x.Returns w a w)
    (hf : Alike (f a) y w S) : Alike (x >>= f) y w S where
  forth := by
    intro b w' hb
    rw [Returns, h.runIn_bind] at hb
    exact hf.forth b w' hb
  back := by
    intro c w' hc
    rcases hf.back c w' hc with ⟨b, hb, hS⟩
    exact ⟨b, returns_bind.2 ⟨a, w, h, hb⟩, hS⟩

/-- The result of one of the actions is used. -/
theorem Alike.map_right {l : γ → δ} {S : α → δ → Prop} (h : Alike x y w R)
    (hS : ∀ a c w', y.Returns w c w' → R a c → S a (l c)) : Alike x (l <$> y) w S where
  forth := by
    intro a w' ha
    rcases h.forth a w' ha with ⟨c, hc, hR⟩
    exact ⟨l c, returns_map.2 ⟨c, hc, rfl⟩, hS a c w' hc hR⟩
  back := by
    intro d w' hd
    rcases returns_map.1 hd with ⟨c, hc, rfl⟩
    rcases h.back c w' hc with ⟨a, ha, hR⟩
    exact ⟨a, ha, hS a c w' hc hR⟩

theorem Alike.mono {S : α → γ → Prop} (h : Alike x y w R) (hS : ∀ a c, R a c → S a c) :
    Alike x y w S where
  forth := by
    intro a w' ha
    rcases h.forth a w' ha with ⟨c, hc, hR⟩
    exact ⟨c, hc, hS a c hR⟩
  back := by
    intro c w' hc
    rcases h.back c w' hc with ⟨a, ha, hR⟩
    exact ⟨a, ha, hS a c hR⟩

/-- An action ends as it does. -/
theorem Alike.refl (x : Act σ α) (w : World σ) : Alike x x w Eq where
  forth := fun a _ ha => ⟨a, ha, rfl⟩
  back := fun a _ ha => ⟨a, ha, rfl⟩

/-- Two loops whose rounds end alike end alike. -/
theorem Alike.foldlM {ι κ : Type} {k : α → ι → Act σ α} {l : γ → κ → Act σ γ}
    (rounds : List (ι × κ))
    (h : ∀ p ∈ rounds, ∀ a c w, R a c → Alike (k a p.1) (l c p.2) w R) {c : γ}
    (hstart : R a c) :
    Alike ((rounds.map (·.1)).foldlM k a) ((rounds.map (·.2)).foldlM l c) w R := by
  induction rounds generalizing a c w with
  | nil => exact alike_pure hstart
  | cons p rounds ih =>
    simp only [List.map_cons, List.foldlM_cons]
    refine (h p List.mem_cons_self a c w hstart).bind ?_
    intro a' c' w' _ hR
    exact ih (fun q hq => h q (List.mem_cons_of_mem p hq)) hR

end Alike

/-! ## The actions of the object model -/

@[simp] theorem returns_heap {h : Heap} :
    (heap : Act σ Heap).Returns w h w' ↔ h = w.heap ∧ w' = w :=
  Returns.iff_of rfl

@[simp] theorem returns_onHeap {g : Heap → α × Heap} :
    (onHeap g : Act σ α).Returns w a w' ↔
      a = (g w.heap).1 ∧ w' = { w with heap := (g w.heap).2 } :=
  Returns.iff_of rfl

@[simp] theorem returns_view {v : Value} {u : View} :
    (view v : Act σ View).Returns w u w' ↔ u = w.heap.view v ∧ w' = w :=
  Returns.iff_of rfl

@[simp] theorem returns_newDescriptor {d : Descriptor Value} {v : Value} :
    (newDescriptor d : Act σ Value).Returns w v w' ↔
      v = .descriptor w.heap.descriptors.size ∧
        w' = { w with heap := (w.heap.newDescriptor d).2 } :=
  Returns.iff_of rfl

/-- What a check comes to: it changes nothing, and fails with the first obstacle. -/
theorem runIn_checkQuotable (v : Value) (w : World σ) :
    (checkQuotable v : Act σ Unit).runIn w = match (w.heap.view v).obstacle? true with
      | none => (.ok (), w)
      | some o => (.error o.fault, w) := by
  have hv : (view v : Act σ View).Returns w (w.heap.view v) w := rfl
  unfold checkQuotable
  rw [hv.runIn_bind]
  cases (w.heap.view v).obstacle? true <;> rfl

@[simp] theorem returns_checkQuotable {v : Value} {u : Unit} :
    (checkQuotable v : Act σ Unit).Returns w u w' ↔ w.heap.Quotable v ∧ w' = w := by
  rw [Returns, runIn_checkQuotable, Heap.Quotable]
  cases (w.heap.view v).obstacle? true with
  | none => simp [eq_comm]
  | some o => simp

end Act

end Undecorate
