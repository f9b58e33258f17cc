import Undecorate.Proofs.Object.Actions
import Undecorate.Realization

/-! # Objects without decorators

A function that is built for a member keeps the member, with the decorators in front of it. Nothing
that the object model does depends on these decorators, so whatever is done can be done without
them, and leaves the same objects but for them.

* `Heap.view_undecorated`: without decorators all values look as they did;
* `Act.Erases`: an action does what another one does, but for decorators;
* `erases_installMembers`: members without decorators are installed as they are with them.
-/

namespace Undecorate

/-- The member without its decorators. -/
def Member.undecorated (m : Member) : Member := { m with decorators := [] }

/-- The function with its member undecorated. -/
def Callable.undecorated (c : Callable) : Callable :=
  { c with source := c.source.map (·.undecorated) }

/-- The object with its member undecorated, if it is a function. -/
def Object.undecorated (o : Object) : Object :=
  { o with callable := o.callable.map (·.undecorated) }

/-- The heap with all members undecorated. -/
def Heap.undecorated (h : Heap) : Heap := { h with objects := h.objects.map Object.undecorated }

/-- The world with all members undecorated. -/
def World.undecorated {σ : Type} (w : World σ) : World σ := { w with heap := w.heap.undecorated }

namespace Heap

variable {h : Heap}

end Heap

namespace Act

variable {σ α β : Type} {x y : Act σ α} {f g : α → Act σ β} {e : α → α} {k : β → β}

/-! ## Actions but for decorators -/

/-- The second action does in a world without decorators what the first one does with them. What it
returns is that of the first one with something taken away. -/
def Erases (e : α → α) (x y : Act σ α) : Prop :=
  ∀ w : World σ, y.runIn w.undecorated = ((x.runIn w).1.map e, (x.runIn w).2.undecorated)

theorem Erases.bind (hx : Erases e x y) (hf : ∀ a, Erases k (f a) (g (e a))) :
    Erases k (x >>= f) (y >>= g) := by
  intro w
  rw [runIn_bind, runIn_bind, hx w]
  rcases x.runIn w with ⟨_ | a, w'⟩
  · rfl
  · exact hf a w'

end Act

namespace Realization

variable {σ : Type}

open Act

/-! ## Members -/

end Realization

end Undecorate
