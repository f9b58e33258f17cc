import Undecorate.Engine.Lower
import Undecorate.Proofs.Except

/-! # The run that lowers a document

A document is lowered site by site, each one read from the buffer that the sites before it left.
Here a run is told as the list of its lowerings:

* `lowerSite_eq_ok`: one site;
* `lower_eq_ok`: a document is lowered iff there is a run over its sites, and all decorators are
  taken up.
-/

namespace Undecorate

/-- One site that was lowered: the buffer it was read from, what was built and classified, and the
text that takes its place. -/
structure Lowering where
  located : Located
  before : Source.Buffer
  declaration : Declaration
  decorations : List Decoration
  text : String

namespace Lowering

/-- The way the texts of the site were read. -/
def reading (x : Lowering) : Reading := Document.bufferReading x.before

/-- What takes the place of the site. -/
def replacement (x : Lowering) : Source.Replacement :=
  ⟨x.located.site.start, x.located.site.stop, x.text⟩

/-- The buffer with the site lowered. -/
def after (x : Lowering) : Source.Buffer := x.before.replace x.replacement

/-- The site was built, classified and emitted, and the text was laid out where the site stands. -/
structure Made (doc : Document) (o : EmitOptions) (taken : List String) (x : Lowering) : Prop where
  built : x.reading.declaration x.located = .ok x.declaration
  emitted : ∃ s s' emitted indent,
    x.declaration.decorations (.avoiding o.lead taken) = .ok (x.decorations, s) ∧
    x.declaration.emit o x.decorations s = .ok (emitted, s') ∧
    doc.lineIndentation x.located.site.start = .ok indent ∧
    x.text = Layout.onText (Layout.continueAt indent) emitted

/-- The lowerings were made one after the other, the first from `b` and each other one from the
buffer that the one before it left. -/
def Run (doc : Document) (o : EmitOptions) (taken : List String) :
    Source.Buffer → List Lowering → Source.Buffer → Prop
  | b, [], b' => b' = b
  | b, x :: xs, b' => x.before = b ∧ x.Made doc o taken ∧ Run doc o taken x.after xs b'

end Lowering

section Runs

variable {doc : Document} {o : EmitOptions} {taken : List String} {b b' : Source.Buffer}

theorem lowerSite_eq_ok {l : Located} : doc.lowerSite o taken b l = .ok b' ↔
    ∃ x : Lowering, x.located = l ∧ x.before = b ∧ x.Made doc o taken ∧ b' = x.after := by
  unfold Document.lowerSite
  simp only [bind_eq_ok, pure_eq_ok, mapError_eq_ok]
  constructor
  · rintro ⟨decl, hdecl, ⟨ds, s⟩, hds, ⟨text, s'⟩, htext, indent, hindent, rfl⟩
    exact ⟨⟨l, b, decl, ds, _⟩, rfl, rfl,
      ⟨hdecl, s, s', text, indent, hds, htext, hindent, rfl⟩, rfl⟩
  · rintro ⟨x, rfl, rfl, ⟨hdecl, s, s', text, indent, hds, htext, hindent, heq⟩, rfl⟩
    refine ⟨_, hdecl, _, hds, _, htext, indent, hindent, ?_⟩
    rw [Lowering.after, Lowering.replacement, heq]

theorem foldlM_lowerSite_eq_ok {sites : List Located} :
    sites.foldlM (doc.lowerSite o taken) b = .ok b' ↔
      ∃ xs : List Lowering, xs.map (·.located) = sites ∧ Lowering.Run doc o taken b xs b' := by
  -- each site is lowered into the buffer that the one before it left
  induction sites generalizing b with
  | nil =>
    rw [List.foldlM_nil, pure_eq_ok]
    constructor
    · rintro rfl
      exact ⟨[], rfl, rfl⟩
    · rintro ⟨xs, hxs, hrun⟩
      rw [List.map_eq_nil_iff] at hxs
      subst hxs
      exact hrun.symm
  | cons l sites ih =>
    simp only [List.foldlM_cons, bind_eq_ok, lowerSite_eq_ok, ih]
    constructor
    · rintro ⟨_, ⟨x, rfl, rfl, hx, rfl⟩, xs, rfl, hrun⟩
      exact ⟨x :: xs, rfl, rfl, hx, hrun⟩
    · rintro ⟨xs, hxs, hrun⟩
      cases xs with
      | nil => simp at hxs
      | cons x xs =>
        rcases List.cons.inj hxs with ⟨rfl, rfl⟩
        rcases hrun with ⟨hb, hx, hrun⟩
        exact ⟨_, ⟨x, rfl, hb, hx, rfl⟩, xs, rfl, hrun⟩

/-- What the output of a document is when the run over its sites has left the buffer `b`. -/
def Document.finished (doc : Document) (b : Source.Buffer) (sites : List Located) :
    Except Fault String :=
  if sites.isEmpty then .ok (String.ofList doc.source)
  else (Document.bufferReading b).textOf 0 (Source.byteLength doc.source)

/-- A document is lowered iff it can be, every site of it is lowered, children first, and every
decorator belongs to a site. -/
theorem lower_eq_ok {out : String} : doc.lower o = .ok out ↔
    doc.check = .ok () ∧ ∃ taken xs b, doc.identifiers = .ok taken ∧
      xs.map (·.located) = doc.tree.walkUp.filter (·.isSite) ∧
      Lowering.Run doc o taken ⟨doc.source, []⟩ xs b ∧
      doc.checkClaimed (doc.tree.walkUp.filter (·.isSite)) = .ok () ∧
      doc.finished b (doc.tree.walkUp.filter (·.isSite)) = .ok out := by
  unfold Document.lower
  simp only [bind_eq_ok, foldlM_lowerSite_eq_ok]
  constructor
  · rintro ⟨_, hcheck, taken, htaken, b, ⟨xs, hxs, hrun⟩, _, hclaimed, hout⟩
    exact ⟨hcheck, taken, xs, b, htaken, hxs, hrun, hclaimed, hout⟩
  · rintro ⟨hcheck, taken, xs, b, htaken, hxs, hrun, hclaimed, hout⟩
    exact ⟨(), hcheck, taken, htaken, b, ⟨xs, hxs, hrun⟩, (), hclaimed, hout⟩

/-- Every lowering of a run was made. -/
theorem Lowering.Run.made {xs : List Lowering} (h : Lowering.Run doc o taken b xs b')
    {x : Lowering} (hx : x ∈ xs) : x.Made doc o taken := by
  induction xs generalizing b with
  | nil => simp at hx
  | cons y ys ih =>
    rcases List.mem_cons.1 hx with rfl | hx
    · exact h.2.1
    · exact ih h.2.2 hx

/-- A run begins with the run over the sites before any of its sites. -/
theorem Lowering.Run.earlier {xs later : List Lowering} {x : Lowering}
    (h : Lowering.Run doc o taken b (xs ++ x :: later) b') :
    Lowering.Run doc o taken b xs x.before := by
  induction xs generalizing b with
  | nil => exact h.1
  | cons y ys ih => exact ⟨h.1, h.2.1, ih h.2.2⟩

end Runs

end Undecorate
