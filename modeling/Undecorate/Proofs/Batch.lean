import Undecorate.Fault.Batch
import Undecorate.Proofs.Stateful

/-! # What a batch comes to

The items of a batch take turns: each starts in the state that the one before it left, whether that
one succeeded or not. A batch whose faults can all be recorded returns, and every item is either
among its results or among its failures; any other fault ends the batch where it happens, itself or
with what keeps its text from being written.

* `turns_append`: the turns of a longer batch start with those of its first part;
* `processBatch_of_recorded`: what a batch that records every fault returns;
* `processBatch_of_ending`: how the first fault that cannot be recorded ends a batch.
-/

namespace Undecorate

variable {S α β : Type} {recovers : Fault → Bool} {item : α → Note} {operation : Option String}
  {process : α → ExceptT Fault (StateM S) β}

/-- How each item ends when every item is processed, and the state after the last one. -/
def turns (process : α → ExceptT Fault (StateM S) β) : List α → S → List (Except Fault β) × S
  | [], s => ([], s)
  | a :: as, s =>
    let (r, s) := endOf (process a) s
    let (rs, s) := turns process as s
    (r :: rs, s)

theorem turns_cons (a : α) (as : List α) (s : S) :
    turns process (a :: as) s = ((endOf (process a) s).1 ::
      (turns process as (endOf (process a) s).2).1, (turns process as (endOf (process a) s).2).2) :=
  rfl

theorem turns_append (as bs : List α) (s : S) : turns process (as ++ bs) s =
    ((turns process as s).1 ++ (turns process bs (turns process as s).2).1,
      (turns process bs (turns process as s).2).2) := by
  induction as generalizing s with
  | nil => rfl
  | cons a as ih => rw [List.cons_append, turns_cons, ih, turns_cons, List.cons_append]

/-- The result of an item, if it has one. -/
def resultOf? : α × Except Fault β → Option β
  | (_, .ok b) => some b
  | (_, .error _) => none

/-- The failure of an item, if it failed. -/
def failureOf? (item : α → Note) (operation : Option String) :
    α × Except Fault β → Option Failure
  | (_, .ok _) => none
  | (a, .error fault) => some { item := item a, operation, fault }

/-- The results and the failures of items with their ends. -/
def sorted (item : α → Note) (operation : Option String) (ends : List (α × Except Fault β)) :
    List β × List Failure :=
  (ends.filterMap resultOf?, ends.filterMap (failureOf? item operation))

/-- The results and failures of items whose ends are known one by one. -/
theorem sorted_map (as : List α) (ends : α → Except Fault β) :
    sorted item operation (as.zip (as.map ends)) =
      (as.filterMap fun a => resultOf? (a, ends a),
        as.filterMap fun a => failureOf? item operation (a, ends a)) := by
  have hzip : as.zip (as.map ends) = as.map fun a => (a, ends a) := by
    induction as with
    | nil => rfl
    | cons a as ih => rw [List.map_cons, List.zip_cons_cons, ih, List.map_cons]
  rw [sorted, hzip, List.filterMap_map, List.filterMap_map]
  rfl

/-- A fault is recorded if it can be recovered from and its text can be written. -/
theorem Fault.ending?_eq_none {fault : Fault} :
    fault.ending? recovers = none ↔ recovers fault = true ∧ fault.writing? = none := by
  unfold Fault.ending?
  cases recovers fault <;> simp

theorem endOf_attempt (a : α) (s : S) :
    endOf (attempt recovers item operation process a) s = match endOf (process a) s with
      | (.ok b, t) => (.ok (.ok b), t)
      | (.error fault, t) => match fault.ending? recovers with
        | none => (.ok (.error { item := item a, operation, fault }), t)
        | some f => (.error f, t) := by
  rw [attempt, run_tryCatch, run_map]
  rcases endOf (process a) s with ⟨e | b, t⟩
  · cases h : e.ending? recovers <;> simp [Except.map, h]
  · rfl

/-- A batch that can record every fault returns what its items come to. -/
theorem processBatch_of_recorded {as : List α} {s : S}
    (h : ∀ e, .error e ∈ (turns process as s).1 → e.ending? recovers = none) :
    endOf (processBatch recovers item operation process as) s =
      (.ok (sorted item operation (as.zip (turns process as s).1)), (turns process as s).2) := by
  induction as generalizing s with
  | nil => rfl
  | cons a as ih =>
    rw [turns_cons] at h ⊢
    have hrest := ih fun e he => h e (List.mem_cons_of_mem _ he)
    rw [processBatch, run_bind, endOf_attempt]
    rcases hone : endOf (process a) s with ⟨e | b, t⟩
    · rw [hone] at h hrest
      have he : e.ending? recovers = none := h e List.mem_cons_self
      simp only [he]
      rw [run_bind, hrest]
      rfl
    · rw [hone] at hrest
      simp only
      rw [run_bind, hrest]
      rfl

/-- The first fault that cannot be recorded ends a batch in the state where it happens. -/
theorem processBatch_of_ending {before after : List α} {a : α} {s t : S} {e f : Fault}
    (h : ∀ e, .error e ∈ (turns process before s).1 → e.ending? recovers = none)
    (hone : endOf (process a) (turns process before s).2 = (.error e, t))
    (he : e.ending? recovers = some f) :
    endOf (processBatch recovers item operation process (before ++ a :: after)) s =
      (.error f, t) := by
  induction before generalizing s with
  | nil =>
    rw [turns] at hone
    rw [List.nil_append, processBatch, run_bind, endOf_attempt, hone]
    simp [he]
  | cons b before ih =>
    rw [turns_cons] at h hone
    have hrest := ih (fun e he => h e (List.mem_cons_of_mem _ he)) hone
    rw [List.cons_append, processBatch, run_bind, endOf_attempt]
    rcases hfirst : endOf (process b) s with ⟨g | r, u⟩
    · rw [hfirst] at h hrest
      have hg : g.ending? recovers = none := h g List.mem_cons_self
      simp only [hg]
      rw [run_bind, hrest]
    · rw [hfirst] at hrest
      simp only
      rw [run_bind, hrest]

end Undecorate
