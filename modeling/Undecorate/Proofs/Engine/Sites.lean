import Undecorate.Proofs.Classify
import Undecorate.Proofs.Declaration.Claims
import Undecorate.Proofs.Engine.Run

/-! # From decorators in a tree to decorations

Every decorator of a tree ends up in exactly one decoration of exactly one site. Within a site this
is a matter of classification; sites take up different decorators; and that no decorator is left out
is what the engine checks at the end.

* `decorations_classified`: within a site, classification neither loses nor doubles a decorator;
* `takenOnce_of_classified`: all sites of a document together;
* `decorators_taken_once`: a document that is lowered, or whose sites are listed.
-/

namespace Undecorate

/-- What belongs to a row by its place. -/
def Located.rowDecorators (l : Located) (i : Nat) : List Tree := (l.rows[i]?).elim [] Row.decorators

/-- The nodes of the decorators of a decoration: those of the class, or those of the members that
define the property. -/
def Located.unitNodes (l : Located) (d : Decoration) : List Tree :=
  match d.subject with
  | .whole => l.classDecorators
  | .property _ _ places => places.flatMap l.rowDecorators

/-- The decorations of a site and the decorators that the site takes up. -/
structure Located.Classified (r : Reading) (l : Located) (ds : List Decoration) : Prop where
  /-- Every decorator of a decoration was made from one node. -/
  made : ∀ d ∈ ds, (l.unitNodes d).mapM r.decorator = .ok d.decorators
  /-- A decoration is that of the class, or belongs to one decorated member. -/
  attached : ∀ d ∈ ds, d.subject = .whole ∧ l.unitNodes d = l.classDecorators ∨
    ∃ i row, l.rows[i]? = some row ∧ i ∈ d.members ∧ l.unitNodes d = row.decorators
  /-- Together they have every decorator of the site. -/
  all : (ds.flatMap l.unitNodes).Perm l.claimed
  /-- Only methods have decorators. -/
  methods : l.MethodsOnly

/-! ## One site -/

section Site

variable {r : Reading} {l : Located} {decl : Declaration} {ds : List Decoration} {s s' : Scope}

theorem exists_getElem?_of_forall₂ {α β : Type} {R : α → β → Prop} {xs : List α} {ys : List β}
    (h : List.Forall₂ R xs ys) {i : Nat} {y : β} (hy : ys[i]? = some y) :
    ∃ x, xs[i]? = some x ∧ R x y := by
  induction h generalizing i with
  | nil => simp at hy
  | cons hr _ ih =>
    cases i with
    | zero =>
      rw [List.getElem?_cons_zero, Option.some.injEq] at hy
      subst hy
      exact ⟨_, rfl, hr⟩
    | succ i => exact ih hy

theorem flatMap_range_getElem? {α β : Type} (xs : List α) (g : α → List β) :
    (List.range xs.length).flatMap (fun i => (xs[i]?).elim [] g) = xs.flatMap g := by
  induction xs with
  | nil => rfl
  | cons x xs ih =>
    rw [List.length_cons, List.range_succ_eq_map, List.flatMap_cons, List.flatMap_map,
      List.flatMap_cons, ← ih]
    rfl

theorem decorators_eq_nil_of_not_isDecorated {row : Row} {m : Member} (h : row.Built r m)
    (hm : m.isDecorated = false) : row.decorators = [] := by
  have hd := mapM_eq_ok.1 h.decorators
  have hempty : m.decorators = [] := by simpa [Member.isDecorated] using hm
  rw [hempty] at hd
  exact List.forall₂_nil_right_iff.1 hd

/-- The decorations of built members have the decorators of their rows. -/
theorem memberDecorations_classified {isClass : Bool} {binding : String}
    (hb : List.Forall₂ (Row.Built r) l.rows decl.members)
    (h : Classify.memberDecorations isClass binding decl.members s = .ok (ds, s')) :
    (∀ d ∈ ds, d.subject ≠ .whole ∧ (d.members.flatMap l.rowDecorators).mapM r.decorator =
      .ok d.decorators ∧ ∃ i row, l.rows[i]? = some row ∧ i ∈ d.members ∧
        d.members.flatMap l.rowDecorators = row.decorators) ∧
    (ds.flatMap fun d => d.members.flatMap l.rowDecorators).Perm (l.rows.flatMap (·.decorators)) ∧
    ∀ row ∈ l.rows, row.decorators ≠ [] → row.node.kind = "method_definition" := by
  have hkeys : ∀ m ∈ decl.members, m.isFunction = true → m.key.isSome = true := by
    intro m hm hf
    rcases List.mem_iff_getElem?.1 hm with ⟨i, hi⟩
    rcases exists_getElem?_of_forall₂ hb hi with ⟨row, -, hrow⟩
    exact (hrow.functions hf).1
  have hf : ∀ i m, decl.members[i]? = some m → m.isDecorated = false → l.rowDecorators i = [] := by
    intro i m hi hm
    rcases exists_getElem?_of_forall₂ hb hi with ⟨row, hget, hrow⟩
    rw [Located.rowDecorators, hget]
    exact decorators_eq_nil_of_not_isDecorated hrow hm
  -- classification speaks of places of members; rows and members stand in the same places
  rcases Classify.memberDecorations_eq_ok h hkeys hf with ⟨hone, hall, hfun⟩
  refine ⟨?_, ?_, ?_⟩
  · intro d hd
    rcases hone d hd with ⟨i, m, hi, -, hplace, hdecs, hsub, hflat⟩
    rcases exists_getElem?_of_forall₂ hb hi with ⟨row, hget, hrow⟩
    have hrd : l.rowDecorators i = row.decorators := by rw [Located.rowDecorators, hget]; rfl
    rw [hflat, hrd]
    refine ⟨hsub, ?_, i, row, hget, hplace, rfl⟩
    rw [hdecs]
    exact hrow.decorators
  · rw [← flatMap_range_getElem? l.rows, hb.length_eq]
    exact hall
  · intro row hrow hne
    rcases List.mem_iff_getElem?.1 hrow with ⟨i, hi⟩
    rcases exists_getElem?_of_forall₂ hb.flip hi with ⟨m, hm, hbuilt⟩
    have hdecorated : m.isDecorated = true := by
      by_contra hno
      exact hne (decorators_eq_nil_of_not_isDecorated hbuilt (by simpa using hno))
    exact (hbuilt.functions (hfun m (List.mem_of_getElem? hm) hdecorated)).2

theorem unitNodes_of_ne_whole {d : Decoration} (h : d.subject ≠ .whole) :
    l.unitNodes d = d.members.flatMap l.rowDecorators := by
  unfold Located.unitNodes Decoration.members
  cases hd : d.subject with
  | whole => exact absurd hd h
  | property key initial places => rfl

theorem flatMap_unitNodes (h : ∀ d ∈ ds, d.subject ≠ .whole) :
    ds.flatMap l.unitNodes = ds.flatMap fun d => d.members.flatMap l.rowDecorators :=
  List.flatMap_congr fun d hd => unitNodes_of_ne_whole (h d hd)

/-- The decorations of a class: those of its members, and its own if it has decorators. -/
theorem class_decorations_classified {c : ClassDecl} (hb : l.Built r (.cls c))
    (h : c.decorations s = .ok (ds, s')) : l.Classified r ds := by
  rcases hb.own with ⟨hclass, hown⟩
  unfold ClassDecl.decorations at h
  simp only [bind_eq_ok, pure_eq_ok] at h
  rcases h with ⟨⟨found, s₁⟩, hfound, heq⟩
  rcases Prod.mk.inj heq with ⟨rfl, rfl⟩
  rcases memberDecorations_classified hb.members hfound with ⟨hmembers, hperm, hmethods⟩
  have hfoundNodes := flatMap_unitNodes (l := l) fun d hd => (hmembers d hd).1
  have hclaimed := hb.claimed
  rw [if_pos hclass] at hclaimed
  have hparts : ∀ d ∈ found, (l.unitNodes d).mapM r.decorator = .ok d.decorators ∧
      ∃ i row, l.rows[i]? = some row ∧ i ∈ d.members ∧ l.unitNodes d = row.decorators := by
    intro d hd
    rcases hmembers d hd with ⟨hsub, hmade, hrow⟩
    rw [unitNodes_of_ne_whole hsub]
    exact ⟨hmade, hrow⟩
  by_cases hempty : c.decorators.isEmpty = true
  · -- without decorators of its own the class adds no decoration, and has no nodes
    have hnone : l.classDecorators = [] := by
      rw [List.isEmpty_iff.1 hempty, mapM_eq_ok] at hown
      exact List.forall₂_nil_right_iff.1 hown
    rw [if_pos hempty, List.append_nil]
    refine ⟨fun d hd => (hparts d hd).1, fun d hd => .inr (hparts d hd).2, ?_, hmethods⟩
    rw [hnone, List.nil_append] at hclaimed
    rw [hfoundNodes]
    exact hperm.trans hclaimed
  · rw [if_neg hempty]
    refine ⟨?_, ?_, ?_, hmethods⟩
    · intro d hd
      rcases List.mem_append.1 hd with hd | hd
      · exact (hparts d hd).1
      · rw [List.mem_singleton.1 hd]
        exact hown
    · intro d hd
      rcases List.mem_append.1 hd with hd | hd
      · exact .inr (hparts d hd).2
      · rw [List.mem_singleton.1 hd]
        exact .inl ⟨rfl, rfl⟩
    · rw [List.flatMap_append, hfoundNodes, List.flatMap_singleton]
      exact (hperm.append_right _).trans (List.perm_append_comm.trans hclaimed)

/-- Classification neither loses nor doubles a decorator of a site. -/
theorem decorations_classified (hb : r.declaration l = .ok decl)
    (h : decl.decorations s = .ok (ds, s')) : l.Classified r ds := by
  have hbuilt := declaration_built hb
  cases decl with
  | cls c => exact class_decorations_classified hbuilt h
  | object o =>
    have hclass : l.node.isClass = false := hbuilt.own
    rcases memberDecorations_classified hbuilt.members h with ⟨hmembers, hperm, hmethods⟩
    have hclaimed := hbuilt.claimed
    rw [hclass] at hclaimed
    refine ⟨?_, ?_, ?_, hmethods⟩
    · intro d hd
      rcases hmembers d hd with ⟨hsub, hmade, -⟩
      rw [unitNodes_of_ne_whole hsub]
      exact hmade
    · intro d hd
      rcases hmembers d hd with ⟨hsub, -, hrow⟩
      rw [unitNodes_of_ne_whole hsub]
      exact .inr hrow
    · rw [flatMap_unitNodes fun d hd => (hmembers d hd).1]
      exact hperm.trans hclaimed

end Site

/-! ## All sites of a document -/

/-- A site with what was made of it. -/
structure Treated where
  located : Located
  reading : Reading
  declaration : Declaration
  decorations : List Decoration

/-- A lowered site with what was made of it. -/
def Lowering.treated (x : Lowering) : Treated :=
  ⟨x.located, x.reading, x.declaration, x.decorations⟩

/-- The nodes of all decorators of all decorations of sites. -/
def takenUp (sites : List Treated) : List Tree :=
  sites.flatMap fun x => x.decorations.flatMap x.located.unitNodes

/-- Every decorator of a tree is in exactly one decoration of exactly one site. -/
structure TakenOnce (t : Tree) (sites : List Treated) : Prop where
  /-- The decorators of a decoration were made from its nodes, one from each. -/
  made : ∀ x ∈ sites, ∀ d ∈ x.decorations,
    (x.located.unitNodes d).mapM x.reading.decorator = .ok d.decorators
  /-- The nodes of a decoration are those of the class and its export statement, or those before
  and in one member of the property. -/
  attached : ∀ x ∈ sites, ∀ d ∈ x.decorations,
    d.subject = .whole ∧ x.located.unitNodes d = x.located.classDecorators ∨
      ∃ i row, x.located.rows[i]? = some row ∧ i ∈ d.members ∧
        x.located.unitNodes d = row.preceding ++ row.node.decorators
  /-- The decorations of a site have what the site takes up. -/
  sited : ∀ x ∈ sites, (x.decorations.flatMap x.located.unitNodes).Perm x.located.claimed
  /-- The nodes of a decoration are in document order. -/
  ordered : ∀ x ∈ sites, ∀ d ∈ x.decorations, (x.located.unitNodes d).Sublist t.preorder
  /-- No node is in two decorations, or twice in one. -/
  apart : (takenUp sites).Nodup
  /-- The nodes of all decorations are the decorators of the tree. -/
  all : (takenUp sites).Perm (t.preorder.filter (·.kind == "decorator"))

section Documents

variable {doc : Document} {sites : List Treated}

/-- The check lets pass only what has every decorator of the document. -/
theorem exists_claimed_of_checkClaimed {located : List Located}
    (h : doc.checkClaimed located = .ok ()) {d : Tree} (hd : d ∈ doc.tree.preorder)
    (hk : d.kind = "decorator") : ∃ c ∈ located.flatMap (·.claimed), c.id = d.id := by
  unfold Document.checkClaimed at h
  rw [Tree.map_node_walk] at h
  dsimp only at h
  split at h
  · cases h
  · rename_i hnone
    rw [List.find?_eq_none] at hnone
    have hmem := hnone d (List.mem_filter.2 ⟨hd, by simpa using hk⟩)
    simp only [Bool.not_eq_true, Bool.not_eq_false', List.contains_iff_mem] at hmem
    rcases List.mem_flatMap.1 hmem with ⟨l, hl, hmem⟩
    rcases List.mem_map.1 hmem with ⟨c, hc, hid⟩
    exact ⟨c, List.mem_flatMap.2 ⟨l, hl, hc⟩, hid⟩

/-- When the check passes, the sites of a tree take up its decorators and nothing else. -/
theorem mem_flatMap_claimed_iff {located : List Located} (hg : doc.tree.Grammatical)
    (hsites : located.Perm (doc.tree.walk.filter (·.isSite)))
    (hmethods : ∀ l ∈ doc.tree.walk.filter (·.isSite), l.MethodsOnly)
    (hclaimed : doc.checkClaimed located = .ok ()) {d : Tree} :
    d ∈ (doc.tree.walk.filter (·.isSite)).flatMap (·.claimed) ↔
      d ∈ doc.tree.preorder.filter (·.kind == "decorator") := by
  have hsub : ∀ c, c ∈ (doc.tree.walk.filter (·.isSite)).flatMap (·.claimed) →
      c ∈ doc.tree.preorder ∧ c.kind = "decorator" := by
    intro c hc
    rcases List.mem_flatMap.1 hc with ⟨l, hl, hcl⟩
    obtain ⟨hk, p, hp, hcp, -⟩ :=
      holder_of_mem_claimed (List.mem_filter.1 hl).1 (hmethods l hl) hcl
    exact ⟨Tree.mem_preorder_trans (Tree.child_mem_preorder hcp) hp, hk⟩
  constructor
  · intro hd
    rcases hsub d hd with ⟨hpre, hk⟩
    exact List.mem_filter.2 ⟨hpre, by simpa using hk⟩
  · intro hd
    rcases List.mem_filter.1 hd with ⟨hpre, hk⟩
    rcases exists_claimed_of_checkClaimed hclaimed hpre (by simpa using hk) with ⟨c, hc, hid⟩
    have hc' := (hsites.flatMap_right (·.claimed)).subset hc
    -- the check compares identities, which tell the nodes of the tree apart
    rw [← hg.distinct.eq_of_id (hsub c hc').1 hpre hid]
    exact hc'

/-- When all sites of a tree are classified and the check passes, every decorator is taken up
once. -/
theorem takenOnce_of_classified (hg : doc.tree.Grammatical)
    (hsites : (sites.map (·.located)).Perm (doc.tree.walk.filter (·.isSite)))
    (hclassified : ∀ x ∈ sites, x.located.Classified x.reading x.decorations)
    (hclaimed : doc.checkClaimed (sites.map (·.located)) = .ok ()) :
    TakenOnce doc.tree sites := by
  have hmem : ∀ l, l ∈ doc.tree.walk.filter (·.isSite) → ∃ x ∈ sites, x.located = l := by
    intro l hl
    exact List.mem_map.1 (hsites.symm.subset hl)
  have hwalk : ∀ x ∈ sites, x.located ∈ doc.tree.walk := by
    intro x hx
    exact (List.mem_filter.1 (hsites.subset (List.mem_map_of_mem hx))).1
  have hmethods : ∀ l ∈ doc.tree.walk.filter (·.isSite), l.MethodsOnly := by
    intro l hl
    rcases hmem l hl with ⟨x, hx, rfl⟩
    exact (hclassified x hx).methods
  -- the decorations have what the sites take up
  have hperm : (takenUp sites).Perm ((doc.tree.walk.filter (·.isSite)).flatMap (·.claimed)) := by
    have hone : (takenUp sites).Perm (sites.flatMap (·.located.claimed)) :=
      List.Perm.flatMap_left sites fun x hx => (hclassified x hx).all
    have hmap : sites.flatMap (·.located.claimed) =
        (sites.map (·.located)).flatMap (·.claimed) := (List.flatMap_map _ _ _).symm
    rw [hmap] at hone
    exact hone.trans (hsites.flatMap_right _)
  have hnodup := nodup_flatMap_claimed hg hmethods
  refine ⟨fun x hx => (hclassified x hx).made, fun x hx => (hclassified x hx).attached,
    fun x hx => (hclassified x hx).all, ?_, hperm.symm.nodup hnodup, ?_⟩
  · intro x hx d hd
    rcases (hclassified x hx).attached d hd with ⟨-, hnodes⟩ | ⟨i, row, hrow, -, hnodes⟩
    · rw [hnodes]
      exact classDecorators_sublist hg (hwalk x hx)
    · rw [hnodes]
      exact rowDecorators_sublist (hwalk x hx) (List.mem_of_getElem? hrow)
  · have hsame :=
      List.perm_ext_iff_of_nodup hnodup (hg.distinct.nodup.filter (·.kind == "decorator"))
    exact hperm.trans (hsame.2 fun _ => mem_flatMap_claimed_iff hg hsites hmethods hclaimed)

/-- Classified sites, one after the other. -/
theorem exists_treated_of_classifySite {lead : String} {taken : List String}
    {located : List Located} {found : List Site}
    (h : List.Forall₂ (fun l site => doc.classifySite lead taken l = .ok site) located found) :
    ∃ sites : List Treated, sites.map (·.located) = located ∧
      sites.map (fun x => ⟨x.declaration, x.decorations⟩) = found ∧
      ∀ x ∈ sites, x.located.Classified x.reading x.decorations := by
  induction h with
  | nil => exact ⟨[], rfl, rfl, by simp⟩
  | @cons l site _ _ hsite _ ih =>
    rcases ih with ⟨sites, rfl, rfl, hc⟩
    unfold Document.classifySite at hsite
    simp only [bind_eq_ok, pure_eq_ok, mapError_eq_ok] at hsite
    rcases hsite with ⟨decl, hdecl, ⟨ds, s'⟩, hds, rfl⟩
    refine ⟨⟨l, Reading.plain doc.source, decl, ds⟩ :: sites, rfl, rfl, ?_⟩
    intro x hx
    rcases List.mem_cons.1 hx with rfl | hx
    · exact decorations_classified hdecl hds
    · exact hc x hx

/-- The sites of a document whose sites are listed. -/
theorem exists_treated_of_sites {o : EmitOptions} {found : List Site}
    (hg : doc.tree.Grammatical) (h : doc.sites o = .ok found) :
    ∃ sites : List Treated, sites.map (·.located) = doc.tree.walk.filter (·.isSite) ∧
      sites.map (fun x => ⟨x.declaration, x.decorations⟩) = found ∧ TakenOnce doc.tree sites := by
  unfold Document.sites at h
  simp only [bind_eq_ok, pure_eq_ok, mapM_eq_ok] at h
  rcases h with ⟨_, -, taken, -, found, hfound, _, hclaimed, rfl⟩
  rcases exists_treated_of_classifySite hfound with ⟨sites, hlocated, hsites, hclassified⟩
  refine ⟨sites, hlocated, hsites, takenOnce_of_classified hg ?_ hclassified ?_⟩
  · rw [hlocated]
  · rw [hlocated]
    exact hclaimed

/-- The run that lowers a document. -/
theorem exists_run_of_lower {o : EmitOptions} {out : String} (hg : doc.tree.Grammatical)
    (h : doc.lower o = .ok out) :
    ∃ taken xs b, doc.identifiers = .ok taken ∧
      xs.map (·.located) = doc.tree.walkUp.filter (·.isSite) ∧
      Lowering.Run doc o taken ⟨doc.source, []⟩ xs b ∧
      doc.finished b (doc.tree.walkUp.filter (·.isSite)) = .ok out ∧
      TakenOnce doc.tree (xs.map (·.treated)) := by
  rcases lower_eq_ok.1 h with ⟨-, taken, xs, b, htaken, hxs, hrun, hclaimed, hout⟩
  have hlocated : (xs.map (·.treated)).map (·.located) =
      doc.tree.walkUp.filter (·.isSite) := by
    rw [List.map_map]
    exact hxs
  -- the run meets the sites in another order than the walk, but the same ones
  refine ⟨taken, xs, b, htaken, hxs, hrun, hout, takenOnce_of_classified hg ?_ ?_ ?_⟩
  · rw [hlocated]
    exact doc.tree.walkUp_perm_walk.filter _
  · intro y hy
    rcases List.mem_map.1 hy with ⟨x, hx, rfl⟩
    have hmade := hrun.made hx
    rcases hmade.emitted with ⟨s, s', emitted, indent, hds, -⟩
    exact decorations_classified hmade.built hds
  · rw [hlocated]
    exact hclaimed

/-- No decorator is lost, doubled or moved. When a document is lowered, and when its sites are
listed, every decorator of the tree is in exactly one decoration of exactly one site; both ways see
the same sites; and a decorator that belongs to no site makes both fail. -/
theorem decorators_taken_once (doc : Document) (o : EmitOptions) (hg : doc.tree.Grammatical) :
    (∀ out, doc.lower o = .ok out → ∃ taken xs b, doc.identifiers = .ok taken ∧
      xs.map (·.located) = doc.tree.walkUp.filter (·.isSite) ∧
      Lowering.Run doc o taken ⟨doc.source, []⟩ xs b ∧
      doc.finished b (doc.tree.walkUp.filter (·.isSite)) = .ok out ∧
      TakenOnce doc.tree (xs.map (·.treated))) ∧
    (∀ found, doc.sites o = .ok found → ∃ sites : List Treated,
      sites.map (·.located) = doc.tree.walk.filter (·.isSite) ∧
      sites.map (fun x => ⟨x.declaration, x.decorations⟩) = found ∧ TakenOnce doc.tree sites) ∧
    (doc.tree.walkUp.filter (·.isSite)).Perm (doc.tree.walk.filter (·.isSite)) ∧
    ∀ d ∈ doc.tree.preorder, d.kind = "decorator" →
      (∀ l ∈ doc.tree.walk, l.isSite = true → d ∉ l.claimed) →
      (∃ f, doc.lower o = .error f) ∧ ∃ f, doc.sites o = .error f := by
  have hperm : (doc.tree.walkUp.filter (·.isSite)).Perm (doc.tree.walk.filter (·.isSite)) :=
    doc.tree.walkUp_perm_walk.filter _
  -- sites that have every decorator have the stray one
  have hstray : ∀ d ∈ doc.tree.preorder, d.kind = "decorator" →
      (∀ l ∈ doc.tree.walk, l.isSite = true → d ∉ l.claimed) → ∀ sites : List Treated,
      (∀ x ∈ sites, x.located ∈ doc.tree.walk.filter (·.isSite)) → ¬ TakenOnce doc.tree sites := by
    intro d hd hk hno sites hsites honce
    have hmem : d ∈ takenUp sites :=
      honce.all.symm.subset (List.mem_filter.2 ⟨hd, by simpa using hk⟩)
    rcases List.mem_flatMap.1 hmem with ⟨x, hx, hmem⟩
    rcases List.mem_filter.1 (hsites x hx) with ⟨hwalk, hsite⟩
    exact hno x.located hwalk hsite ((honce.sited x hx).subset hmem)
  refine ⟨fun out => exists_run_of_lower hg, fun found => exists_treated_of_sites hg, hperm, ?_⟩
  intro d hd hk hno
  constructor
  · cases hres : doc.lower o with
    | error f => exact ⟨f, rfl⟩
    | ok out =>
      rcases exists_run_of_lower hg hres with ⟨taken, xs, b, -, hxs, -, -, honce⟩
      refine absurd honce (hstray d hd hk hno _ ?_)
      intro y hy
      rcases List.mem_map.1 hy with ⟨x, hx, rfl⟩
      refine hperm.subset ?_
      rw [← hxs]
      exact List.mem_map_of_mem hx
  · cases hres : doc.sites o with
    | error f => exact ⟨f, rfl⟩
    | ok found =>
      rcases exists_treated_of_sites hg hres with ⟨sites, hlocated, -, honce⟩
      refine absurd honce (hstray d hd hk hno _ ?_)
      intro x hx
      rw [← hlocated]
      exact List.mem_map_of_mem hx

end Documents

namespace Sample

/-- A node without children. -/
def leaf (id : Nat) (kind : String) (start stop : Nat) (field : String) : Tree :=
  .node { id, kind, start, stop, field } []

/-- A class with a decorated method. -/
def document : Document where
  language := .javascript
  source := "class A \x7b @d m() \x7b\x7d \x7d".toList
  tree := .node { id := 0, kind := "program", start := 0, stop := 21 }
    [.node { id := 1, kind := "class_declaration", start := 0, stop := 21 }
      [leaf 2 "identifier" 6 7 "name",
        .node { id := 3, kind := "class_body", start := 8, stop := 21, field := "body" }
          [.node { id := 4, kind := "method_definition", start := 10, stop := 19 }
            [.node { id := 5, kind := "decorator", start := 10, stop := 12 }
              [leaf 6 "identifier" 11 12 ""],
              leaf 7 "property_identifier" 13 14 "name",
              leaf 8 "formal_parameters" 14 16 "parameters",
              leaf 9 "statement_block" 17 19 "body"]]]]
  isDamaged := false

end Sample

/-- The theorem at a document that is lowered. -/
theorem decorators_taken_once_of_sample :
    Sample.document.tree.Grammatical ∧
    ∃ (out : String) (xs : List Lowering), Sample.document.lower {} = .ok out ∧
      TakenOnce Sample.document.tree (xs.map Lowering.treated) := by
  have hg : Sample.document.tree.Grammatical :=
    ⟨by decide, by decide, by decide, by decide⟩
  have hok : (Sample.document.lower {}).isOk = true := by decide +kernel
  refine ⟨hg, ?_⟩
  cases hres : Sample.document.lower {} with
  | error f =>
    rw [hres] at hok
    cases hok
  | ok out =>
    obtain ⟨taken, xs, b, -, -, -, -, honce⟩ :=
      (decorators_taken_once Sample.document {} hg).1 out hres
    exact ⟨out, xs, rfl, honce⟩

end Undecorate
