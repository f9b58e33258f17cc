import Mathlib.Data.List.Sort
import Undecorate.Proofs.Declaration.Written
import Undecorate.Proofs.Emit.Hygiene
import Undecorate.Proofs.Realization.Keys

/-! # Computed keys in generated code

A definition writes the expression of a computed key once. The members of a decorated property share
their key: the first of them assigns a snapshot, and the others read it.

* `FunctionForm.evaluates_outline`, `FunctionForm.evaluates_objectLines`: the key expressions in a
  definition by single properties;
* `FunctionForm.usesOf_outline`, `FunctionForm.usesOf_objectLines`: how such a definition uses a
  snapshot;
* `Declaration.Units.writtenAs`: what both come to for a lowered declaration;
* `Declaration.Units.memberText`: the members of a class or object literal that stays one.
-/

namespace Undecorate

open Scope

/-! ## Snapshots -/

/-- Snapshots are new names, one for each computed property. -/
theorem Classify.MakesAll.snapshots_new {isClass : Bool} {binding : String}
    {gs : List Classify.Group} {found : List (Nat × Decoration)} {s s' : Scope}
    (h : Classify.MakesAll isClass binding gs s found s') :
    (snapshots (found.map (·.2))).Nodup ∧ ∀ x ∈ snapshots (found.map (·.2)), x ∉ s.taken := by
  induction h with
  | nil => simp [snapshots]
  | skip _ _ ih => exact ih
  | @make g gs s s₁ s' place d found hfirst _ ih =>
    obtain ⟨hnodup, hnew⟩ := ih
    obtain ⟨m, key, initial, -, hkey, -, hsub⟩ := hfirst.owner
    have hcons : snapshots (((place, d) :: found).map (·.2)) =
        key.snapshot?.toList ++ snapshots (found.map (·.2)) := by
      simp [snapshots, Decoration.key?, hsub]
    rw [hcons]
    unfold Classify.propertyKey at hkey
    split at hkey
    · -- the snapshot is taken from here on
      obtain ⟨rfl, rfl⟩ := Prod.mk.inj hkey
      refine ⟨List.nodup_cons.2 ⟨?_, hnodup⟩, List.forall_mem_cons.2 ⟨unique_not_mem s "key", ?_⟩⟩
      · exact fun hmem => hnew _ hmem (mem_taken_fresh.2 (.inr rfl))
      · exact fun x hx hmem => hnew x hx (mem_taken_fresh.2 (.inl hmem))
    · obtain ⟨rfl, rfl⟩ := Prod.mk.inj hkey
      exact ⟨hnodup, hnew⟩

namespace Declaration.Units

variable {d : Declaration} {ds : List Decoration}

/-- Computed properties have different snapshots. -/
theorem nodup_snapshots (h : d.Units ds) : (snapshots ds).Nodup := by
  obtain ⟨binding, s, s', found, own, hfound, rfl, hown⟩ := h
  obtain ⟨made, hmade, hperm⟩ := Classify.memberDecorations_made hfound
  have hwhole : snapshots own = [] := by
    rw [snapshots, List.flatMap_eq_nil_iff]
    intro u hu
    simp [Decoration.key?, hown u hu]
  rw [snapshots_append, hwhole, List.append_nil]
  exact (hperm.flatMap_right _).nodup_iff.2 hmade.snapshots_new.1

/-- A member that is no function is in no plan. -/
theorem not_captured (h : d.Units ds) {i : Nat} {m : Member} (hm : d.members[i]? = some m)
    (hf : m.isFunction = false) : (captures ds).lookup i = none ∧ follows ds i = false := by
  have hnone : (captures ds).lookup i = none := by
    rw [Option.eq_none_iff_forall_not_mem]
    intro c hc
    obtain ⟨m', k, hm', hf', -⟩ := h.computed_of_captures hc
    rw [hm] at hm'
    cases hm'
    rw [hf] at hf'
    cases hf'
  rcases h.lookup_captures i with ⟨_, hc, -⟩ | ⟨_, hc, -⟩ | hboth
  · rw [hnone] at hc
    cases hc
  · rw [hnone] at hc
    cases hc
  · exact hboth

/-- The members that use the snapshot of a property are those of the property. -/
theorem snapshot_eq_iff (h : d.Units ds) {u : Decoration} (hu : u ∈ ds)
    {expression snapshot : String} {initial : Descriptor Nat} {places : List Nat}
    (hsub : u.subject = .property (.computed expression (some snapshot)) initial places) (i : Nat) :
    ((captures ds).lookup i).map (·.snapshot) = some snapshot ↔ i ∈ places := by
  constructor
  · intro hlookup
    obtain ⟨c, hc, rfl⟩ := Option.map_eq_some_iff.1 hlookup
    obtain ⟨u', hu', e', initial', places', hsub', hplace⟩ := mem_captures.1 (mem_of_lookup hc)
    -- another decoration would have another snapshot
    have hsame : u' = u := by
      refine eq_of_nodup_flatMap h.nodup_snapshots hu' hu (b := c.snapshot) ?_ ?_
      · simp [Decoration.key?, hsub', PropertyKey.snapshot?]
      · simp [Decoration.key?, hsub, PropertyKey.snapshot?]
    rw [hsame, hsub, Subject.property.injEq] at hsub'
    obtain ⟨-, -, rfl⟩ := hsub'
    obtain ⟨⟨j, n⟩, hn, heq⟩ := List.mem_map.1 hplace
    obtain ⟨rfl, -⟩ := Prod.mk.inj heq
    exact List.mem_of_getElem? (List.mem_zipIdx_iff_getElem?.1 hn)
  · intro hi
    obtain ⟨e, snapshot', first, rest, hkey, rfl, hfirst, hrest⟩ := h.captures_of_mem hu hsub rfl
    obtain ⟨rfl, rfl⟩ : expression = e ∧ snapshot = snapshot' := by simpa using hkey
    rcases List.mem_cons.1 hi with rfl | hi
    · rw [hfirst]
      rfl
    · rw [(hrest i hi).2]
      rfl

end Declaration.Units

/-! ## Definitions by single properties -/

namespace FunctionForm

/-- The temporary that a key is in. -/
def KeyUse.temporary? : KeyUse → Option String
  | .captured temporary _ | .recalled temporary => some temporary
  | .named _ | .evaluated _ => none

/-- How lines use a temporary for keys, in order. -/
def usesOf (temporary : String) (lines : List Line) : List KeyUse :=
  (lines.filterMap (·.key?)).filter (·.temporary? = some temporary)

theorem usesOf_append (temporary : String) (ls ls' : List Line) :
    usesOf temporary (ls ++ ls') = usesOf temporary ls ++ usesOf temporary ls' := by
  rw [usesOf, List.filterMap_append, List.filter_append]
  rfl

theorem usesOf_flatMap {ι : Type} (temporary : String) (items : List ι) (f : ι → List Line) :
    usesOf temporary (items.flatMap f) = items.flatMap fun i => usesOf temporary (f i) := by
  induction items with
  | nil => rfl
  | cons i items ih => rw [List.flatMap_cons, usesOf_append, ih, List.flatMap_cons]

variable {d : Declaration} {ds : List Decoration} {captures : List (Nat × Capture)} {place : Nat}
  {m : Member} {cls binding snapshot : String} {s s' : Scope}

theorem temporary?_keyUse (captures : List (Nat × Capture)) (place : Nat) (m : Member) :
    (keyUse captures place m).temporary? = (captures.lookup place).map (·.snapshot) := by
  unfold keyUse
  cases captures.lookup place with
  | some c => cases hc : c.assigns <;> simp [KeyUse.temporary?, hc]
  | none =>
    dsimp only
    split_ifs <;> rfl

/-- How a member uses a snapshot for its key. -/
def snapshotUse (captures : List (Nat × Capture)) (snapshot : String) (e : Member × Nat) :
    List KeyUse :=
  if (captures.lookup e.2).map (·.snapshot) = some snapshot then [keyUse captures e.2 e.1] else []

theorem usesOf_define (target fields : String) :
    usesOf snapshot [.define target (keyUse captures place m) fields] =
      snapshotUse captures snapshot (m, place) := by
  simp only [usesOf, snapshotUse, List.filterMap_cons, Line.key?, List.filterMap_nil,
    List.filter_cons, List.filter_nil, temporary?_keyUse, decide_eq_true_eq]

theorem snapshotUse_eq_nil (h : captures.lookup place = none) :
    snapshotUse captures snapshot (m, place) = [] := by
  simp [snapshotUse, h]

/-- Only functions use snapshots; the temporary of a field is none. -/
theorem usesOf_memberOutline (cls : String) {temporary : String}
    (htemporary : holdsKey m = true → temporary ≠ snapshot)
    (hcaptured : m.isFunction = false → captures.lookup place = none) :
    usesOf snapshot (memberOutline cls captures place m temporary).definitions =
        snapshotUse captures snapshot (m, place) ∧
      usesOf snapshot (memberOutline cls captures place m temporary).fields = [] ∧
      usesOf snapshot (memberOutline cls captures place m temporary).statics = [] := by
  unfold memberOutline
  cases hkind : m.kind with
  | method | getter | setter => exact ⟨usesOf_define _ _, rfl, rfl⟩
  | comment | staticBlock | construct | property | shorthand | spread | other =>
    rw [snapshotUse_eq_nil (hcaptured (by rw [Member.isFunction, hkind]; rfl))]
    exact ⟨rfl, rfl, rfl⟩
  | field =>
    rw [snapshotUse_eq_nil (hcaptured (by rw [Member.isFunction, hkind]; rfl))]
    dsimp only
    cases hcomputed : (m.key.getD default).isComputed with
    | false => cases m.isStatic <;> exact ⟨rfl, rfl, rfl⟩
    | true =>
      have hne := htemporary (by rw [holdsKey_of_field hkind, hcomputed])
      cases m.isStatic <;> simp [usesOf, Line.key?, KeyUse.temporary?, hne]

/-- The members of a class use a snapshot in their definitions only, in source order. -/
theorem usesOf_outline {entries : List (Member × Nat)} {o : Outline}
    (h : outline cls captures entries s = (o, s')) (htaken : snapshot ∈ s.taken)
    (hcaptured : ∀ e ∈ entries, e.1.isFunction = false → captures.lookup e.2 = none) :
    usesOf snapshot o.definitions = entries.flatMap (snapshotUse captures snapshot) ∧
      usesOf snapshot o.fields = [] ∧ usesOf snapshot o.statics = [] := by
  induction entries generalizing s o with
  | nil =>
    cases h
    exact ⟨rfl, rfl, rfl⟩
  | cons e entries ih =>
    obtain ⟨m, i⟩ := e
    obtain ⟨hone, hall⟩ := List.forall_mem_cons.1 hcaptured
    rcases htemporary : (if holdsKey m then s.fresh "field" else ("", s)) with ⟨temporary, s₁⟩
    rcases hrest : outline cls captures entries s₁ with ⟨rest, s₂⟩
    simp only [outline, htemporary, hrest, Prod.mk.injEq] at h
    obtain ⟨rfl, rfl⟩ := h
    -- the temporary of a field is new, so it is not the snapshot
    have hnew : (holdsKey m = true → temporary ≠ snapshot) ∧ snapshot ∈ s₁.taken := by
      cases hholds : holdsKey m with
      | true =>
        rw [hholds, if_pos rfl] at htemporary
        have hfree := unique_not_mem s "field"
        obtain ⟨rfl, rfl⟩ : (s.fresh "field").1 = temporary ∧ (s.fresh "field").2 = s₁ :=
          Prod.mk.inj htemporary
        refine ⟨fun _ heq => hfree ?_, mem_taken_fresh.2 (.inl htaken)⟩
        rw [← heq] at htaken
        exact htaken
      | false =>
        rw [hholds, if_neg Bool.false_ne_true] at htemporary
        obtain ⟨-, rfl⟩ := Prod.mk.inj htemporary
        exact ⟨by simp, htaken⟩
    obtain ⟨hdefinitions, hfields, hstatics⟩ := usesOf_memberOutline cls hnew.1 hone
    obtain ⟨hdefinitions', hfields', hstatics'⟩ := ih hrest hnew.2 hall
    simp only [Outline.append, usesOf_append, hdefinitions, hfields, hstatics, hdefinitions',
      hfields', hstatics', List.flatMap_cons, List.append_nil, and_self]

theorem usesOf_objectOutline (binding : String)
    (hcaptured : m.isFunction = false → captures.lookup place = none) :
    usesOf snapshot (objectOutline binding captures place m) =
      snapshotUse captures snapshot (m, place) := by
  unfold objectOutline
  cases hkind : m.kind with
  | method | getter | setter | shorthand => exact usesOf_define _ _
  | property =>
    dsimp only
    split
    · rw [snapshotUse_eq_nil (hcaptured (by rw [Member.isFunction, hkind]; rfl))]
      rfl
    · exact usesOf_define _ _
  | comment | spread | construct | field | staticBlock | other =>
    rw [snapshotUse_eq_nil (hcaptured (by rw [Member.isFunction, hkind]; rfl))]
    rfl

/-- The lines of an object use a snapshot in source order. -/
theorem usesOf_objectLines (binding : String) (lit : ObjectLiteral)
    (hcaptured : ∀ e ∈ lit.members.zipIdx, e.1.isFunction = false → captures.lookup e.2 = none) :
    usesOf snapshot (objectLines lit captures binding) =
      lit.members.zipIdx.flatMap (snapshotUse captures snapshot) := by
  unfold objectLines
  rw [← List.singleton_append, usesOf_append, usesOf_flatMap]
  refine (List.nil_append _).trans (List.flatMap_congr ?_)
  intro e he
  exact usesOf_objectOutline binding (hcaptured e he)

/-- Lines without keys. -/
theorem usesOf_plain {ls : List Line} (h : ∀ l ∈ ls, l.key? = none) : usesOf snapshot ls = [] := by
  rw [usesOf, List.filterMap_eq_nil_iff.2 h]
  rfl

theorem evaluates_of_plain {ls : List Line} (h : ∀ l ∈ ls, l.key? = none) :
    ls.flatMap Line.evaluates = [] := by
  rw [List.flatMap_eq_nil_iff]
  intro l hl
  rw [Line.evaluates, h l hl]
  rfl

/-- The opening lines of a class have no keys, and what is taken before them stays so. -/
theorem ClassLines.outline {size : Nat} {c : ClassDecl} {opening : List Line} {o : Outline}
    (h : ClassLines size c captures cls s opening o s') :
    ∃ s₁ s₂, FunctionForm.outline cls captures c.members.zipIdx s₁ = (o, s₂) ∧
      s.taken ⊆ s₁.taken ∧ ∀ l ∈ opening, l.key? = none := by
  cases h with
  | base params body _ hmembers =>
    exact ⟨_, _, hmembers, fun _ hx => hx, by simp [Line.key?]⟩
  | derived _ hshared hmembers _ =>
    refine ⟨_, _, hmembers, ?_, by simp [Line.key?]⟩
    intro x hx
    have hkeeps : x ∈ (s.shared "super").2.taken := by
      rw [shared_snd]
      refine mem_taken_declare.2 (.inl ?_)
      rcases reserve_cases s "super" with ⟨-, hs⟩ | ⟨-, -, hs⟩
      · rw [hs]
        exact hx
      · rw [hs, unique_snd]
        exact mem_taken_take.2 (.inl hx)
    rwa [hshared] at hkeeps

/-! ## Expressions -/

/-- A key is written with its expression iff it is evaluated there. -/
theorem evaluates_keyUse (h : d.Units ds) (hm : d.members[place]? = some m) :
    (keyUse (Undecorate.captures ds) place m).evaluates =
      (ownKeys ds [(m, place)]).map (·.2) := by
  unfold keyUse
  have hkeyed : ∀ c, (Undecorate.captures ds).lookup place = some c →
      ∃ k, m.key = some k ∧ k.isComputed = true := by
    intro c hc
    obtain ⟨m', k, hm', -, hk, hcomputed⟩ := h.computed_of_captures hc
    rw [hm] at hm'
    cases hm'
    exact ⟨k, hk, hcomputed⟩
  rcases h.lookup_captures place with ⟨snapshot, hc, hf⟩ | ⟨snapshot, hc, hf⟩ | ⟨hc, hf⟩
  · obtain ⟨k, hk, hcomputed⟩ := hkeyed _ hc
    simp [ownKeys, hc, hf, hk, hcomputed, KeyUse.evaluates]
  · obtain ⟨k, hk, hcomputed⟩ := hkeyed _ hc
    simp [ownKeys, hc, hf, hk, KeyUse.evaluates]
  · cases hk : m.key with
    | none =>
      have hdefault : (default : Key).isComputed = false := rfl
      simp [ownKeys, hc, hk, KeyUse.evaluates, hdefault]
    | some k =>
      cases hcomputed : k.isComputed <;> simp [ownKeys, hc, hf, hk, hcomputed, KeyUse.evaluates]

theorem ownKeys_eq_nil (h : ∀ k, m.key = some k → k.isComputed = false) :
    ownKeys ds [(m, place)] = [] := by
  cases hk : m.key with
  | none => simp [ownKeys, hk]
  | some k => simp [ownKeys, hk, h k hk]

theorem map_ownKeys_filter (p : Member × Nat → Bool) (entries : List (Member × Nat)) :
    (ownKeys ds (entries.filter p)).map (·.2) =
      entries.flatMap fun e => if p e then (ownKeys ds [e]).map (·.2) else [] := by
  induction entries with
  | nil => rfl
  | cons e entries ih =>
    rw [List.flatMap_cons, ← ih, List.filter_cons]
    split
    · simp [ownKeys]
    · rfl

/-- The definitions of a member of a class evaluate its key, if it is one that is evaluated and the
member is no pair, and nothing else does. -/
theorem evaluates_memberOutline (cls temporary : String) (h : d.Units ds)
    (hm : d.members[place]? = some m) (hw : m.Written) :
    (memberOutline cls (Undecorate.captures ds) place m temporary).definitions.flatMap
        Line.evaluates =
      (if m.kind ≠ .property then (ownKeys ds [(m, place)]).map (·.2) else []) ∧
    (memberOutline cls (Undecorate.captures ds) place m temporary).fields.flatMap
      Line.evaluates = [] ∧
    (memberOutline cls (Undecorate.captures ds) place m temporary).statics.flatMap
      Line.evaluates = [] := by
  unfold memberOutline
  cases hkind : m.kind with
  | method | getter | setter =>
    simp [Line.evaluates, Line.key?, evaluates_keyUse h hm]
  | property => exact ⟨rfl, rfl, rfl⟩
  | comment | staticBlock | construct | shorthand | spread | other =>
    have hown := hw.isComputed_eq_false (by simp [hkind, MemberKind.isFunction])
    simp [ownKeys_eq_nil hown, Line.evaluates, Line.key?]
  | field =>
    have hfollows := (h.not_captured hm (by rw [Member.isFunction, hkind]; rfl)).2
    cases hk : m.key with
    | none =>
      simp only [Option.getD_none, show (default : Key).isComputed = false from rfl]
      cases m.isStatic <;> simp [ownKeys, hk, Line.evaluates, Line.key?, KeyUse.evaluates]
    | some k =>
      simp only [Option.getD_some]
      cases hcomputed : k.isComputed <;> cases m.isStatic <;>
        simp [ownKeys, hk, hcomputed, hfollows, Line.evaluates, Line.key?, KeyUse.evaluates]

/-- The definitions of the members of a class evaluate the key expressions of all members but pairs,
in source order. -/
theorem evaluates_outline (h : d.Units ds) {entries : List (Member × Nat)} {o : Outline}
    (hentries : ∀ e ∈ entries, d.members[e.2]? = some e.1 ∧ e.1.Written)
    (ho : outline cls (Undecorate.captures ds) entries s = (o, s')) :
    o.definitions.flatMap Line.evaluates =
        (ownKeys ds (entries.filter fun e => e.1.kind ≠ .property)).map (·.2) ∧
      o.fields.flatMap Line.evaluates = [] ∧ o.statics.flatMap Line.evaluates = [] := by
  induction entries generalizing s o with
  | nil =>
    cases ho
    exact ⟨rfl, rfl, rfl⟩
  | cons e entries ih =>
    obtain ⟨m, i⟩ := e
    obtain ⟨⟨hm, hw⟩, hall⟩ := List.forall_mem_cons.1 hentries
    rcases htemporary : (if holdsKey m then s.fresh "field" else ("", s)) with ⟨temporary, s₁⟩
    rcases hrest : outline cls (Undecorate.captures ds) entries s₁ with ⟨rest, s₂⟩
    simp only [outline, htemporary, hrest, Prod.mk.injEq] at ho
    obtain ⟨rfl, rfl⟩ := ho
    obtain ⟨hdefinitions, hfields, hstatics⟩ := evaluates_memberOutline cls temporary h hm hw
    obtain ⟨hdefinitions', hfields', hstatics'⟩ := ih hall hrest
    rw [map_ownKeys_filter] at hdefinitions' ⊢
    simp only [Outline.append, List.flatMap_append, hdefinitions, hfields, hstatics, hdefinitions',
      hfields', hstatics', List.append_nil, and_true, List.flatMap_cons, decide_eq_true_eq]

theorem evaluates_objectOutline (binding : String) (h : d.Units ds)
    (hm : d.members[place]? = some m) (hw : m.Written) :
    (objectOutline binding (Undecorate.captures ds) place m).flatMap Line.evaluates =
      if m.kind ≠ .field then (ownKeys ds [(m, place)]).map (·.2) else [] := by
  have hdefine : ∀ fields, [Line.define binding (keyUse (Undecorate.captures ds) place m)
      fields].flatMap Line.evaluates = (ownKeys ds [(m, place)]).map (·.2) := by
    intro fields
    rw [← evaluates_keyUse h hm]
    exact List.append_nil _
  unfold objectOutline
  cases hkind : m.kind with
  | method | getter | setter | shorthand => exact hdefine _
  | property =>
    dsimp only
    split
    · -- a key that sets the prototype is a plain name
      rename_i hproto
      obtain ⟨k, hk, hname⟩ := (Option.any_eq_true _ _).1 hproto
      have hplain : k.isComputed = false := by
        rw [← Bool.not_eq_true, ← Key.staticName?_eq_none_iff, of_decide_eq_true hname]
        simp
      rw [ownKeys_eq_nil (fun k' hk' => Option.some.inj (hk.symm.trans hk') ▸ hplain)]
      rfl
    · exact hdefine _
  | field => rfl
  | comment | spread | construct | staticBlock | other =>
    rw [ownKeys_eq_nil (hw.isComputed_eq_false (by simp [hkind, MemberKind.isFunction]))]
    rfl

/-- The lines of an object evaluate the key expressions of all members but fields, in source
order. -/
theorem evaluates_objectLines (binding : String) {lit : ObjectLiteral}
    (h : (Declaration.object lit).Units ds) (hw : ∀ m ∈ lit.members, m.Written) :
    (objectLines lit (Undecorate.captures ds) binding).flatMap Line.evaluates =
      (ownKeys ds (lit.members.zipIdx.filter fun e => e.1.kind ≠ .field)).map (·.2) := by
  rw [map_ownKeys_filter]
  unfold objectLines
  rw [List.flatMap_cons, List.flatMap_assoc]
  refine (List.nil_append _).trans (List.flatMap_congr ?_)
  rintro ⟨m, i⟩ he
  have hm := List.mem_zipIdx_iff_getElem?.1 he
  simp only [decide_eq_true_eq]
  exact evaluates_objectOutline binding h hm (hw m (List.mem_of_getElem? hm))

end FunctionForm

/-! ## Lowered declarations -/

/-- The text of the key of the member at a place. -/
def keyText (members : List Member) (place : Nat) : String :=
  ((members[place]?.bind (·.key)).map (·.text)).getD ""

theorem taken_declareSnapshots (ds : List Decoration) (s : Scope) :
    s.taken ⊆ (declareSnapshots ds s).taken ∧
      ∀ x ∈ snapshots ds, x ∈ (declareSnapshots ds s).taken := by
  induction ds generalizing s with
  | nil => exact ⟨fun _ hx => hx, by simp [snapshots]⟩
  | cons d ds ih =>
    obtain ⟨s₁, heq, hstep⟩ := declareSnapshots_cons d ds s
    obtain ⟨hkeeps, htaken⟩ := ih s₁
    rw [heq]
    rcases hstep with ⟨hnone, rfl⟩ | ⟨snapshot, hsome, rfl⟩
    · refine ⟨hkeeps, ?_⟩
      simpa [snapshots, hnone] using htaken
    · refine ⟨fun x hx => hkeeps (mem_taken_declare.2 (.inl hx)), ?_⟩
      intro x hx
      simp only [snapshots, List.flatMap_cons, hsome, Option.toList_some, List.singleton_append,
        List.mem_cons] at hx
      rcases hx with rfl | hx
      · exact hkeeps (mem_taken_declare.2 (.inr rfl))
      · exact htaken x hx

/-- The lines that a declaration was written as: those that define it one after the other, and those
that set the fields of an instance, which stand in the constructor. -/
def Declaration.WrittenAs (d : Declaration) (o : EmitOptions) (ds : List Decoration) (l : Lowered)
    (lines fields : List FunctionForm.Line) : Prop :=
  l.definition = lines.map (.written ·.render) ∧ match d with
    | .cls c => ∃ opening out s s',
      FunctionForm.ClassLines o.indentSize c (captures ds) l.binding s opening out s' ∧
        lines = opening ++ out.definitions ++ out.statics ∧ fields = out.fields
    | .object lit => lines = FunctionForm.objectLines lit (captures ds) l.binding ∧ fields = []

/-- Whether a declaration that is defined by single properties has a place for a member: a class has
no pairs, and an object literal no fields. -/
def Declaration.rebuilds (d : Declaration) (m : Member) : Bool :=
  m.kind ≠ if d.isClass then .property else .field

namespace Declaration.Units

variable {d : Declaration} {ds : List Decoration}

theorem map_filter_eq_flatMap {α β : Type} (p : α → Bool) (f : α → β) (xs : List α) :
    (xs.filter p).map f = xs.flatMap fun x => if p x then [f x] else [] := by
  induction xs with
  | nil => rfl
  | cons x xs ih =>
    rw [List.filter_cons, List.flatMap_cons, ← ih]
    split <;> rfl

/-- The members at the places of a property are found in the order of the places. -/
theorem map_snd_filter_places {members : List Member} {key : PropertyKey} {places : List Nat}
    (h : Planned members key places) :
    (members.zipIdx.filter (·.2 ∈ places)).map (·.2) = places := by
  have hsorted : ((members.zipIdx.filter (·.2 ∈ places)).map (·.2)).Pairwise (· < ·) := by
    refine List.Pairwise.sublist (List.filter_sublist.map _) ?_
    rw [List.zipIdx_map_snd]
    exact List.pairwise_lt_range'
  refine List.Perm.eq_of_pairwise (fun _ _ _ _ hlt hgt => absurd hlt (Nat.lt_asymm hgt)) hsorted
    h.increasing ?_
  have hnodup : ∀ {xs : List Nat}, xs.Pairwise (· < ·) → xs.Nodup :=
    fun hxs => hxs.imp fun hlt => Nat.ne_of_lt hlt
  refine (List.perm_ext_iff_of_nodup (hnodup hsorted) (hnodup h.increasing)).2 ?_
  intro i
  simp only [List.mem_map, List.mem_filter, decide_eq_true_eq]
  constructor
  · rintro ⟨e, ⟨-, he⟩, rfl⟩
    exact he
  · intro hi
    obtain ⟨m, k, hm, -⟩ := h.keyed i hi
    exact ⟨(m, i), ⟨List.mem_zipIdx_iff_getElem?.2 hm, hi⟩, rfl⟩

/-- How the members of a declaration use the snapshot of a property: the first of its members
assigns it, and the others read it. -/
theorem flatMap_snapshotUse (h : d.Units ds) {u : Decoration} (hu : u ∈ ds)
    {expression snapshot : String} {initial : Descriptor Nat} {first : Nat} {rest : List Nat}
    (hsub : u.subject =
      .property (.computed expression (some snapshot)) initial (first :: rest)) :
    d.members.zipIdx.flatMap (FunctionForm.snapshotUse (captures ds) snapshot) =
      .captured snapshot (keyText d.members first) ::
        rest.map fun _ => FunctionForm.KeyUse.recalled snapshot := by
  have hplanned := h.planned.1 u hu _ _ _ hsub
  obtain ⟨e, snapshot', first', rest', hkey, hplaces, hfirst, hrest⟩ :=
    h.captures_of_mem hu hsub rfl
  obtain ⟨rfl, rfl⟩ : expression = e ∧ snapshot = snapshot' := by simpa using hkey
  obtain ⟨rfl, rfl⟩ := List.cons.inj hplaces
  have huse : ∀ e ∈ d.members.zipIdx.filter (·.2 ∈ first :: rest),
      FunctionForm.keyUse (captures ds) e.2 e.1 = if e.2 = first then
        .captured snapshot (keyText d.members first) else .recalled snapshot := by
    rintro ⟨m, i⟩ he
    obtain ⟨hm, hi⟩ := List.mem_filter.1 he
    have hm := List.mem_zipIdx_iff_getElem?.1 hm
    rcases List.mem_cons.1 (of_decide_eq_true hi) with rfl | hi
    · have hm : d.members[i]? = some m := hm
      simp [FunctionForm.keyUse, hfirst, keyText, hm]
    · obtain ⟨hlt, hlookup⟩ := hrest i hi
      simp [FunctionForm.keyUse, hlookup, Nat.ne_of_gt hlt]
  calc d.members.zipIdx.flatMap (FunctionForm.snapshotUse (captures ds) snapshot)
      = (d.members.zipIdx.filter (·.2 ∈ first :: rest)).map
          fun e => FunctionForm.keyUse (captures ds) e.2 e.1 := by
        rw [map_filter_eq_flatMap]
        refine List.flatMap_congr fun e _ => ?_
        rw [FunctionForm.snapshotUse]
        simp only [h.snapshot_eq_iff hu hsub, decide_eq_true_eq]
    _ = ((d.members.zipIdx.filter (·.2 ∈ first :: rest)).map (·.2)).map fun i =>
          if i = first then .captured snapshot (keyText d.members first)
          else .recalled snapshot := by
        rw [List.map_map]
        exact List.map_congr_left huse
    _ = .captured snapshot (keyText d.members first) ::
          rest.map fun _ => FunctionForm.KeyUse.recalled snapshot := by
        rw [map_snd_filter_places hplanned, List.map_cons, if_pos rfl]
        refine congrArg _ (List.map_congr_left ?_)
        intro i hi
        rw [if_neg (Nat.ne_of_gt (hrest i hi).1)]

/-- A declaration that is defined by single properties: its lines evaluate the key expressions of
the members that it has a place for, in source order, and use a snapshot as planned. -/
theorem writtenAs (h : d.Units ds) (hw : ∀ m ∈ d.members, m.Written) {o : EmitOptions} {l : Lowered}
    {s s' : Scope} (hform : o.form = .constructorFunction) (hlower : d.lower o ds s = .ok (l, s')) :
    ∃ lines fields, d.WrittenAs o ds l lines fields ∧
      lines.flatMap FunctionForm.Line.evaluates =
        (ownKeys ds (d.members.zipIdx.filter (d.rebuilds ·.1))).map (·.2) ∧
      fields.flatMap FunctionForm.Line.evaluates = [] ∧
      ∀ u ∈ ds, ∀ expression snapshot initial first rest,
        u.subject = .property (.computed expression (some snapshot)) initial (first :: rest) →
        FunctionForm.usesOf snapshot lines = .captured snapshot (keyText d.members first) ::
          rest.map (fun _ => FunctionForm.KeyUse.recalled snapshot) ∧
        FunctionForm.usesOf snapshot fields = [] := by
  have hcaptured : ∀ e ∈ d.members.zipIdx, e.1.isFunction = false →
      (captures ds).lookup e.2 = none := fun e he hf =>
    (h.not_captured (List.mem_zipIdx_iff_getElem?.1 he) hf).1
  cases d with
  | cls c =>
    obtain ⟨opening, out, s₁, hlines, hdefinition, -, hbinding, -⟩ :=
      ClassDecl.lower_function_eq_ok hform hlower
    obtain ⟨s₂, s₃, hout, htaken, hplain⟩ := hlines.outline
    have hentries : ∀ e ∈ c.members.zipIdx, c.members[e.2]? = some e.1 ∧ e.1.Written := by
      intro e he
      have hm := List.mem_zipIdx_iff_getElem?.1 he
      exact ⟨hm, hw _ (List.mem_of_getElem? hm)⟩
    obtain ⟨hdefinitions, hfields, hstatics⟩ := FunctionForm.evaluates_outline h hentries hout
    refine ⟨opening ++ out.definitions ++ out.statics, out.fields,
      ⟨hdefinition, opening, out, _, _, hbinding ▸ hlines, rfl, rfl⟩, ?_, hfields, ?_⟩
    · simp only [List.flatMap_append, FunctionForm.evaluates_of_plain hplain, hdefinitions,
        hstatics, List.nil_append, List.append_nil]
      rfl
    · intro u hu expression snapshot initial first rest hsub
      have hsnapshot : snapshot ∈ snapshots ds :=
        List.mem_flatMap.2 ⟨u, hu, by simp [Decoration.key?, hsub, PropertyKey.snapshot?]⟩
      obtain ⟨huses, hinside, hafter⟩ := FunctionForm.usesOf_outline hout
        (htaken ((taken_declareSnapshots ds _).2 snapshot hsnapshot)) hcaptured
      refine ⟨?_, hinside⟩
      rw [FunctionForm.usesOf_append, FunctionForm.usesOf_append, FunctionForm.usesOf_plain hplain,
        huses, hafter, List.nil_append, List.append_nil]
      exact h.flatMap_snapshotUse hu hsub
  | object lit =>
    obtain ⟨hdefinition, -, hbinding, -⟩ := ObjectLiteral.lower_function_eq_ok hform hlower
    refine ⟨_, [], ⟨hdefinition, hbinding ▸ rfl, rfl⟩,
      FunctionForm.evaluates_objectLines _ h hw, rfl, ?_⟩
    intro u hu expression snapshot initial first rest hsub
    refine ⟨?_, rfl⟩
    exact (FunctionForm.usesOf_objectLines _ lit hcaptured).trans (h.flatMap_snapshotUse hu hsub)

/-- The member of a decorated computed property in a class or object literal that stays one: the
first member assigns the snapshot in its key, and the others read it there. -/
theorem memberText (h : d.Units ds) (hw : ∀ m ∈ d.members, m.Written) {u : Decoration} (hu : u ∈ ds)
    {expression snapshot : String} {initial : Descriptor Nat} {first : Nat} {rest : List Nat}
    (hsub : u.subject =
      .property (.computed expression (some snapshot)) initial (first :: rest)) :
    ∀ i ∈ first :: rest, ∃ m head text tail, d.members[i]? = some m ∧
      m.source = head ++ text ++ tail ∧
      m.keySpan = some ((head.length : Int), (head.length + text.length : Int)) ∧
      ClassForm.memberText (captures ds) i m = Layout.rebaseText (head ++
        (if i = first then "[" ++ snapshot ++ " = " ++ keyText d.members i ++ "]"
          else "[" ++ snapshot ++ "]") ++ tail) := by
  intro i hi
  obtain ⟨e, snapshot', first', rest', hkey, hplaces, hfirst, hrest⟩ :=
    h.captures_of_mem hu hsub rfl
  obtain ⟨rfl, rfl⟩ : expression = e ∧ snapshot = snapshot' := by simpa using hkey
  obtain ⟨rfl, rfl⟩ := List.cons.inj hplaces
  obtain ⟨m, k, hm, -, hk, hcomputed⟩ := (h.planned.1 u hu _ _ _ hsub).keyed i hi
  obtain ⟨head, text, tail, hsource, hspan⟩ :=
    (hw m (List.mem_of_getElem? hm)).placed k hk (hcomputed.trans rfl)
  refine ⟨m, head, text, tail, hm, hsource, hspan, ?_⟩
  rw [ClassForm.memberText]
  rcases List.mem_cons.1 hi with rfl | hi
  · rw [hfirst, if_pos rfl]
    simp [Member.sourceWithKey_of_split hsource hspan, keyText, hm]
  · obtain ⟨hlt, hlookup⟩ := hrest i hi
    rw [hlookup, if_neg (Nat.ne_of_gt hlt)]
    simp [Member.sourceWithKey_of_split hsource hspan]

end Declaration.Units

/-- A class or object literal that stays one has its members in source order. -/
theorem Declaration.lower_class_definition {d : Declaration} {o : EmitOptions}
    {ds : List Decoration} {l : Lowered} {s s' : Scope} (hform : o.form = .classBased)
    (hlower : d.lower o ds s = .ok (l, s')) :
    ∃ header close, ∃ mark : Member → String, (∀ m, mark m ∈ ["", ";", ","]) ∧
      l.definition = [.written (Layout.blockText o.indentSize header
        (d.members.zipIdx.map fun e => ClassForm.memberText (captures ds) e.2 e.1 ++ mark e.1) ++
          close)] := by
  cases d with
  | cls c =>
    rw [Declaration.lower, ClassDecl.lower_class ds hform, Except.ok.injEq, Prod.mk.injEq] at hlower
    obtain ⟨rfl, rfl⟩ := hlower
    have hmark : ∀ m, (if ClassForm.needsTerminator m then ";" else "") ∈ ["", ";", ","] := by
      intro m
      split <;> simp
    unfold ClassForm.classDefinition
    split
    · exact ⟨_, "", _, hmark, by rw [String.append_empty]; rfl⟩
    · exact ⟨_, ";", _, hmark, rfl⟩
  | object lit =>
    rw [Declaration.lower, ObjectLiteral.lower_class ds hform, Except.ok.injEq,
      Prod.mk.injEq] at hlower
    obtain ⟨rfl, rfl⟩ := hlower
    refine ⟨_, ";", fun m => if m.kind = .comment then "" else ",", ?_, rfl⟩
    intro m
    dsimp only
    split <;> simp

end Undecorate
