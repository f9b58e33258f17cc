import Undecorate.Proofs.Emit.Simulation

/-! # Decorations refine chains

The statements of a decoration, and of all decorations of a declaration in their order, end as the
chains do. Decorations share temporaries, so what one of them leaves there must not matter to the
next one: every decoration begins with assignments to the temporaries that it reads, and none of
them is assigned that the target or the key of another one is written with.

* `simulated_statements`: one decoration, from any bindings;
* `alike_decorations`: a list of decorations, by induction on the list;
* `statements_refine_chains`: both, for every scope that is reached and keeps the names of the
  targets and keys.
-/

namespace Undecorate

variable {σ : Type}

namespace Decoration

/-- The statements do for a decoration what its chain does: they evaluate the decorators into
temporaries that differ from one another and from all that the statements read, and end as the
chain does, with the value at hand in the binding of the class or in the temporary for the
descriptor. -/
def SimulatedBy (host : Host σ) (evaluate : String → Act σ Value) (b : Bindings) (w : World σ)
    (d : Decoration) (statements : List Statement) : Prop :=
  match d.subject with
  | .whole => ∃ names result, names.length = d.decorators.length ∧
      (d.target.binding :: result :: names).Nodup ∧
      Act.Alike (d.perform host evaluate b) (runStatements host evaluate statements b) w
        (HoldClass names result d.target.binding b)
  | .property key _ _ => ∃ t : Temporaries, t.decorators.length = d.decorators.length ∧
      t.all.Nodup ∧ d.target.expression ∉ t.all ∧ key.render ∉ t.all ∧
      Act.Alike (d.perform host evaluate b) (runStatements host evaluate statements b) w (t.Hold b)

/-- What a performance owes to the calls that were made for it: all decorators were called, the last
one first, each with what the ones before it made of the first value. -/
def Accounted (host : Host σ) (b : Bindings) (d : Decoration) (p : Performance) : Prop :=
  ∃ calls w₁ w₂, match d.subject with
    | .whole => Account host ReadAsClass (Realization.chainSite d .absent)
        (fun current => [current]) p.decorators p.initial w₁ calls p.result w₂
    | .property key _ _ => Account host ReadAsDescriptor (Realization.chainSite d (b key.render))
        (fun current => [b d.target.expression, b key.render, current]) p.decorators p.initial w₁
        calls p.result w₂

variable {host : Host σ} {evaluate : String → Act σ Value} {b b' : Bindings} {w : World σ}
  {d : Decoration} {s s' : Scope}

theorem accounted_of_returns_perform {p : Performance} {w' : World σ}
    (h : (d.perform host evaluate b).Returns w p w') : d.Accounted host b p := by
  unfold perform at h
  unfold Accounted
  rcases Act.returns_bind.1 h with ⟨decorators, w₁, -, h⟩
  cases hd : d.subject with
  | whole =>
    simp only [hd, Act.returns_bind, Act.returns_pure] at h
    rcases h with ⟨r, w₂, hr, rfl, rfl⟩
    obtain ⟨-, calls, hcalls⟩ := (runClassChain_appliesInnermostFirst host).accounts _ _ _ _ _ _ hr
    exact ⟨calls, _, _, hcalls⟩
  | property key literal members =>
    simp only [hd, Act.returns_bind, Act.returns_pure] at h
    rcases h with ⟨initial, w₂, -, r, w₃, hr, -, -, -, rfl, rfl⟩
    obtain ⟨-, calls, hcalls⟩ :=
      (runMemberChain_appliesInnermostFirst host _).accounts _ _ _ _ _ _ hr
    exact ⟨calls, _, _, hcalls⟩

/-- A performance depends on the operands only. -/
theorem perform_congr (h : ∀ text ∈ d.operands, b' text = b text) :
    d.perform host evaluate b' = d.perform host evaluate b := by
  unfold operands at h
  unfold perform
  cases hd : d.subject with
  | whole =>
    rw [hd] at h
    simp only [h _ List.mem_cons_self]
  | property key literal members =>
    rw [hd] at h
    have htarget := h d.target.expression (by simp)
    have hkey := h key.render (by simp)
    simp only [htarget, hkey]

theorem KeyQuoted.congr (h : ∀ text ∈ d.operands, b' text = b text)
    (hquoted : d.KeyQuoted host evaluate b w) : d.KeyQuoted host evaluate b' w := by
  intro key literal members hd
  have hquoted := hquoted key literal members hd
  unfold operands at h
  rw [hd] at h
  have htarget := h d.target.expression (by simp)
  have hkey := h key.render (by simp)
  rw [htarget, hkey]
  exact hquoted

/-- The statements for a class, as a scope gives them. -/
theorem statements_of_whole (hd : d.subject = .whole) (hne : d.decorators ≠ []) :
    ∃ names result s₁ s', s.freshMany "dec" d.decorators.length = (names, s₁) ∧
      s₁.shared "res" = (result, s') ∧ d.statements s = (classStatements d names result, s') := by
  rcases hdec : s.freshMany "dec" d.decorators.length with ⟨names, s₁⟩
  rcases hres : s₁.shared "res" with ⟨result, s'⟩
  refine ⟨names, result, s₁, s', rfl, hres, ?_⟩
  have hempty : d.decorators.isEmpty = false := by simpa using hne
  simp only [statements, hempty, hdec, hres, hd]
  rfl

/-- The statements for a property, as a scope gives them. -/
theorem statements_of_property {key : PropertyKey} {literal : Descriptor Nat} {members : List Nat}
    (hd : d.subject = .property key literal members) (hne : d.decorators ≠ []) :
    ∃ t s', Temporaries.From t s d.decorators.length s' ∧
      d.statements s =
        (propertyStatements d t d.target.expression key.render (.of literal), s') := by
  rcases hdec : s.freshMany "dec" d.decorators.length with ⟨names, s₁⟩
  rcases hres : s₁.shared "res" with ⟨result, s₂⟩
  rcases hsrc : s₂.shared "src" with ⟨source, s₃⟩
  rcases hdesc : s₃.shared "desc" with ⟨descriptor, s₄⟩
  rcases hchanged : s₄.shared "changed" with ⟨changed, s'⟩
  refine ⟨⟨names, result, source, descriptor, changed⟩, s',
    ⟨s₁, s₂, s₃, s₄, hdec, hres, hsrc, hdesc, hchanged⟩, ?_⟩
  have hempty : d.decorators.isEmpty = false := by simpa using hne
  simp only [statements, hempty, hdec, hres, hsrc, hdesc, hchanged, hd]
  rfl

/-- What the statements of a decoration leave alone: all that the scope spares, except that a class
is bound to the value of its chain. -/
def Settles (s : Scope) (b : Bindings) (d : Decoration) (p : Performance) (b' : Bindings) : Prop :=
  (∀ text, s.Spares text → (d.subject = .whole → text ≠ d.target.binding) → b' text = b text) ∧
    (d.subject = .whole → b' d.target.binding = p.result.value)

/-- The statements of a decoration do what its chain does, whatever the temporaries held before. The
scope after them spares what it spared before. -/
theorem simulated_statements (hs : s.Sound) (hspares : ∀ text ∈ d.operands, s.Spares text)
    (hne : d.decorators ≠ []) (hlaw : d.Lawful host evaluate)
    (hquoted : d.KeyQuoted host evaluate b w) :
    d.SimulatedBy host evaluate b w (d.statements s).1 ∧
      Act.Alike (d.perform host evaluate b) (runStatements host evaluate (d.statements s).1 b) w
        (d.Settles s b) ∧
      (d.statements s).2.Sound ∧ ∀ text, s.Spares text → (d.statements s).2.Spares text := by
  unfold operands at hspares
  unfold SimulatedBy Settles
  cases hd : d.subject with
  | whole =>
    rw [hd] at hspares
    have hbinding := hspares d.target.binding List.mem_cons_self
    -- the temporaries are apart from each other and from the binding of the class
    rcases statements_of_whole (s := s) hd hne with ⟨names, result, s₁, s', hdec, hres, heq⟩
    rcases class_temporaries_apart hs hdec hres with ⟨hnodup, hs', hpass⟩
    have hlength := (hs.of_freshMany (by decide) hdec).length
    have hfree := (hpass _ hbinding).1
    have halike := alike_class (b := b) (w := w) hd hlaw hlength hnodup hfree
    rw [heq]
    refine ⟨⟨names, result, hlength, List.nodup_cons.2 ⟨hfree, hnodup⟩, halike⟩, ?_, hs',
      fun text ht => (hpass text ht).2⟩
    refine halike.mono ?_
    intro p b' hR
    refine ⟨?_, fun _ => hR.value⟩
    intro text ht hne
    refine hR.others text ?_
    rw [List.mem_cons, not_or]
    exact ⟨hne rfl, (hpass text ht).1⟩
  | property key literal members =>
    rw [hd] at hspares
    have htarget := hspares d.target.expression (by simp)
    have hkey := hspares key.render (by simp)
    -- the temporaries are apart from each other and from the texts of target and key
    rcases statements_of_property (s := s) hd hne with ⟨t, s', hfrom, heq⟩
    rcases hfrom.apart hs with ⟨hnodup, hs', hpass⟩
    have hlength : t.decorators.length = d.decorators.length := by
      rcases hfrom.handedOut with ⟨s₁, -, -, -, hdec, -⟩
      exact (hs.of_freshMany (by decide) hdec).length
    have halike := alike_property hd hlaw hquoted hlength hnodup (hpass _ htarget).1
      (hpass _ hkey).1
    rw [heq]
    refine ⟨⟨t, hlength, hnodup, (hpass _ htarget).1, (hpass _ hkey).1, halike⟩, ?_, hs',
      fun text ht => (hpass text ht).2⟩
    refine halike.mono ?_
    intro p b' hR
    exact ⟨fun text ht _ => hR.others text (hpass text ht).1, nofun⟩

end Decoration

/-! ## All decorations of a declaration -/

section Declarations

variable {host : Host σ} {evaluate : String → Act σ Value} {b : Bindings} {w : World σ}
  {s : Scope} {ds : List Decoration}

/-- The performances of decorations in their order. -/
def performAll (host : Host σ) (evaluate : String → Act σ Value) (b : Bindings)
    (ds : List Decoration) : Act σ (List Performance) :=
  ds.mapM (·.perform host evaluate b)

/-- Wherever the run of the decorations gets to, the next key can be quoted when its calls are
done. -/
def KeysQuoted (host : Host σ) (evaluate : String → Act σ Value) (b : Bindings)
    (ds : List Decoration) (w : World σ) : Prop :=
  ∀ earlier d later, ds = earlier ++ d :: later → ∀ ps w₁,
    (performAll host evaluate b earlier).Returns w ps w₁ → d.KeyQuoted host evaluate b w₁

/-- A class is decorated after its members. -/
def ClassLast (ds : List Decoration) : Prop :=
  ∀ earlier d later, ds = earlier ++ d :: later → d.subject = .whole → later = []

/-- What the statements of decorations leave behind: what the scope spares is as before, and a
decorated class is bound to the value of its chain. -/
structure SettleAll (s : Scope) (b : Bindings) (ds : List Decoration) (ps : List Performance)
    (b' : Bindings) : Prop where
  classes : ∀ d p, (d, p) ∈ ds.zip ps → d.subject = .whole → b' d.target.binding = p.result.value
  others : ∀ text, s.Spares text → (∀ d ∈ ds, d.subject = .whole → text ≠ d.target.binding) →
    b' text = b text

theorem KeysQuoted.tail {d : Decoration} {p : Performance} {w₁ : World σ}
    (h : KeysQuoted host evaluate b (d :: ds) w)
    (hp : (d.perform host evaluate b).Returns w p w₁) : KeysQuoted host evaluate b ds w₁ := by
  intro earlier d' later hsplit ps w₂ hps
  refine h (d :: earlier) d' later (by rw [hsplit]; rfl) (p :: ps) w₂ ?_
  unfold performAll at hps ⊢
  rw [List.mapM_cons]
  simp only [Act.returns_bind, Act.returns_pure]
  exact ⟨p, w₁, hp, ps, w₂, hps, rfl, rfl⟩

theorem performAll_congr {b' : Bindings} (h : ∀ d ∈ ds, ∀ text ∈ d.operands, b' text = b text) :
    performAll host evaluate b' ds = performAll host evaluate b ds := by
  unfold performAll
  induction ds with
  | nil => rfl
  | cons d ds ih =>
    rw [List.mapM_cons, List.mapM_cons, Decoration.perform_congr (h d List.mem_cons_self),
      ih fun x hx => h x (List.mem_cons_of_mem d hx)]

theorem KeysQuoted.congr {b' : Bindings} (h : ∀ d ∈ ds, ∀ text ∈ d.operands, b' text = b text)
    (hquoted : KeysQuoted host evaluate b ds w) : KeysQuoted host evaluate b' ds w := by
  intro earlier d later hsplit ps w₁ hps
  have hearlier : ∀ x ∈ earlier, ∀ text ∈ x.operands, b' text = b text := by
    intro x hx
    exact h x (by rw [hsplit]; exact List.mem_append_left _ hx)
  rw [performAll_congr hearlier] at hps
  exact (hquoted earlier d later hsplit ps w₁ hps).congr (h d (by simp [hsplit]))

theorem ClassLast.tail {d : Decoration} (h : ClassLast (d :: ds)) : ClassLast ds := by
  intro earlier d' later hsplit
  exact h (d :: earlier) d' later (by rw [hsplit]; rfl)

/-- The statements of decorations do what their chains do, one after the other. -/
theorem alike_decorations (hs : s.Sound)
    (hspares : ∀ d ∈ ds, ∀ text ∈ d.operands, s.Spares text) (hne : ∀ d ∈ ds, d.decorators ≠ [])
    (hlaw : ∀ d ∈ ds, d.Lawful host evaluate) (hlast : ClassLast ds)
    (hquoted : KeysQuoted host evaluate b ds w) :
    Act.Alike (performAll host evaluate b ds)
      (runStatements host evaluate (decorationStatements ds s).1 b) w (SettleAll s b ds) := by
  induction ds generalizing s b w with
  | nil =>
    refine Act.alike_pure ⟨?_, fun _ _ _ => rfl⟩
    intro d p hmem
    simp at hmem
  | cons d ds ih =>
    have hhead := hquoted [] d ds rfl [] w rfl
    obtain ⟨-, halike, hs', hpass⟩ := Decoration.simulated_statements hs
      (hspares d List.mem_cons_self) (hne d List.mem_cons_self) (hlaw d List.mem_cons_self) hhead
    rw [performAll, List.mapM_cons, decorationStatements, runStatements_append]
    refine halike.bind ?_
    rintro p b₁ w₁ hp ⟨hothers, hclass⟩
    -- the operands of the decorations to come are as they were, for a class comes last
    have hsame : ∀ x ∈ ds, ∀ text ∈ x.operands, b₁ text = b text := by
      intro x hx text htext
      refine hothers text (hspares x (List.mem_cons_of_mem d hx) text htext) ?_
      intro hwhole
      rw [hlast [] d ds rfl hwhole] at hx
      simp at hx
    have hrest := ih hs' (fun x hx text ht => hpass text
        (hspares x (List.mem_cons_of_mem d hx) text ht))
      (fun x hx => hne x (List.mem_cons_of_mem d hx))
      (fun x hx => hlaw x (List.mem_cons_of_mem d hx)) hlast.tail ((hquoted.tail hp).congr hsame)
    rw [performAll_congr hsame] at hrest
    refine hrest.bind_left ?_
    intro ps b' w₂ _ hR
    refine Act.alike_pure ⟨?_, ?_⟩
    · intro x q hmem hwhole
      rw [List.zip_cons_cons, List.mem_cons] at hmem
      rcases hmem with heq | hmem
      · rcases Prod.mk.inj heq with ⟨rfl, rfl⟩
        -- nothing comes after a class
        obtain rfl := hlast [] x ds rfl hwhole
        have hbinding : s.Spares x.target.binding := by
          refine hspares x List.mem_cons_self x.target.binding ?_
          simp [Decoration.operands, hwhole]
        rw [hR.others _ (hpass _ hbinding) (by simp)]
        exact hclass hwhole
      · exact hR.classes x q hmem hwhole
    · intro text ht hclasses
      rw [← hothers text ht (hclasses d List.mem_cons_self)]
      exact hR.others text (hpass text ht) fun x hx => hclasses x (List.mem_cons_of_mem d hx)

/-- The statements that a reached scope gives refine the chains, for one decoration and for all
decorations of a declaration, as long as the scope keeps the names that targets and keys are written
with. The decorators are evaluated once each in source order and applied in the opposite order, with
the same target, key and value at hand; the property is defined anew iff the chain installs it, by
the same descriptor; and the worlds at the end are the same. -/
theorem statements_refine_chains (host : Host σ) (evaluate : String → Act σ Value) (b : Bindings)
    (w : World σ) (s : Scope) (hs : s.Reached) :
    (∀ d : Decoration, d.KeptBy s → d.decorators ≠ [] → d.Lawful host evaluate →
      d.KeyQuoted host evaluate b w →
      d.SimulatedBy host evaluate b w (d.statements s).1 ∧
      ∀ p w', (d.perform host evaluate b).Returns w p w' → d.Accounted host b p) ∧
    ∀ ds : List Decoration, (∀ d ∈ ds, d.KeptBy s ∧ d.decorators ≠ [] ∧ d.Lawful host evaluate) →
      ClassLast ds → KeysQuoted host evaluate b ds w →
      Act.Alike (performAll host evaluate b ds)
        (runStatements host evaluate (decorationStatements ds s).1 b) w (SettleAll s b ds) := by
  refine ⟨?_, ?_⟩
  · intro d hkept hne hlaw hquoted
    exact ⟨(Decoration.simulated_statements hs.sound hkept.spares hne hlaw hquoted).1,
      fun p w' => Decoration.accounted_of_returns_perform⟩
  · intro ds hds hlast hquoted
    exact alike_decorations hs.sound (fun d hd => (hds d hd).1.spares) (fun d hd => (hds d hd).2.1)
      (fun d hd => (hds d hd).2.2) hlast hquoted

end Declarations

/-! ## A class with a decorated method -/

namespace Sample

/-- The function that the source names: `swap` replaces a method, `become` a class, and every other
one keeps what it is handed. -/
def function (text : String) : Function :=
  ⟨if text = "swap" then 1 else if text = "become" then 2 else 0, text⟩

/-- A host with these functions. -/
def host : Host Unit where
  call f _ := match f.id with
    | 1 => Act.newDescriptor (.method (some (.function f)))
    | 2 => pure (.function ⟨3, "B"⟩)
    | _ => pure .absent

/-- Every expression is the name of a function. -/
def evaluate (text : String) : Act Unit Value := pure (.function (function text))

/-- A class with a static method `m`. -/
def world : World Unit where
  heap := (((Heap.newFunction {} "A" none none none).2).define 0 (.text "m")
    (.method (some (.function ⟨4, "m"⟩)))).1
  host := ()

/-- The class under every name, and the key of the method under its literal. -/
def bindings : Bindings := fun text => if text = "\"m\"" then .text "m" .shared else .object 0

/-- The decoration of the method: the method is replaced, kept and replaced again. -/
def method : Decoration where
  target := ⟨.construct, "A"⟩
  decorators := [{ text := "swap" }, { text := "keep" }, { text := "swap" }]
  subject := .property (.static (some "m")) (.method (some 0)) [0]

/-- The decoration of the class when it goes by a name. -/
def cls (name : String) (decorators : List String) : Decoration where
  target := ⟨.cls, name⟩
  decorators := decorators.map fun text => { text }
  subject := .whole

/-- All decorations: the class is kept, replaced and kept again. -/
def methodAndClass : List Decoration := [method, cls "A" ["keep", "become", "keep"]]

/-- What the functions return. -/
theorem returns_call {text : String} {args : List Value} {w w' : World Unit} {v : Value}
    (h : (Act.call host (.function (function text)) args).Returns w v w') :
    v = .absent ∨ (text = "swap" ∧ ∃ r, v = .descriptor r) ∨
      (text = "become" ∧ v = .function ⟨3, "B"⟩) := by
  change (host.call (function text) args).Returns w v w' at h
  by_cases hswap : text = "swap"
  · subst hswap
    obtain ⟨q, w₁, -, h⟩ := Act.returns_bind.1 h
    exact .inr (.inl ⟨rfl, q, (Act.returns_pure.1 h).1⟩)
  · by_cases hbecome : text = "become"
    · subst hbecome
      exact .inr (.inr ⟨rfl, (Act.returns_pure.1 h).1⟩)
    · unfold host function at h
      rw [if_neg hswap, if_neg hbecome] at h
      exact .inl (Act.returns_pure.1 h).1

/-- A decorator of a class must not be one for methods, nor the other way round. -/
theorem lawful {d : Decoration} (hwhole : d.subject = .whole → ∀ e ∈ d.decorators, e.text ≠ "swap")
    (hproperty : d.subject ≠ .whole → ∀ e ∈ d.decorators, e.text ≠ "become") :
    d.Lawful host evaluate := by
  intro w decorators w₁ hvalues decorator hmem args w₂ v w₃ hv
  unfold Decoration.evaluated evaluate at hvalues
  rw [List.mapM_pure] at hvalues
  obtain ⟨rfl, -⟩ := Act.returns_pure.1 hvalues
  obtain ⟨e, he, rfl⟩ := List.mem_map.1 hmem
  rcases returns_call hv with rfl | ⟨htext, r, rfl⟩ | ⟨htext, rfl⟩
  · exact .inl rfl
  · refine .inr ?_
    cases hd : d.subject with
    | whole => exact absurd htext (hwhole hd e he)
    | property key literal members => exact ⟨r, rfl⟩
  · refine .inr ?_
    cases hd : d.subject with
    | whole => rfl
    | property key literal members => exact absurd htext (hproperty (by simp [hd]) e he)

theorem lawful_method : method.Lawful host evaluate :=
  lawful nofun fun _ => by decide

theorem lawful_cls (name : String) {decorators : List String} (h : "swap" ∉ decorators) :
    (cls name decorators).Lawful host evaluate := by
  refine lawful (fun _ e he => ?_) fun hd => absurd rfl hd
  obtain ⟨text, htext, rfl⟩ := List.mem_map.1 he
  rintro rfl
  exact h htext

/-- The method is replaced twice. -/
theorem returns_method : ∃ p w',
    (method.perform host evaluate bindings).Returns world p w' ∧
      p.result.invocations.map (·.replaced) = [true, false, true] := by
  have hdecorators : method.evaluated evaluate =
      pure [.function ⟨1, "swap"⟩, .function ⟨0, "keep"⟩, .function ⟨1, "swap"⟩] := by
    unfold Decoration.evaluated evaluate
    rw [List.mapM_pure]
    rfl
  unfold Decoration.perform
  rw [hdecorators]
  exact ⟨_, _, rfl, rfl⟩

/-- The class is replaced once, wherever the run has got to. -/
theorem returns_cls (w : World Unit) : ∃ q,
    ((cls "A" ["keep", "become", "keep"]).perform host evaluate bindings).Returns w q w ∧
      q.result.invocations.map (·.replaced) = [false, true, false] ∧
      q.result.value = .function ⟨3, "B"⟩ := by
  have hdecorators : (cls "A" ["keep", "become", "keep"]).evaluated evaluate =
      pure [.function ⟨0, "keep"⟩, .function ⟨2, "become"⟩, .function ⟨0, "keep"⟩] := by
    unfold Decoration.evaluated evaluate
    rw [List.mapM_pure]
    rfl
  unfold Decoration.perform
  rw [hdecorators]
  exact ⟨_, rfl, rfl, rfl⟩

theorem returns_performAll : ∃ p q w',
    (performAll host evaluate bindings methodAndClass).Returns world [p, q] w' ∧
    p.result.invocations.map (·.replaced) = [true, false, true] ∧
    q.result.invocations.map (·.replaced) = [false, true, false] ∧
    q.result.value = .function ⟨3, "B"⟩ := by
  obtain ⟨p, w', hp, hreplaced⟩ := returns_method
  obtain ⟨q, hq, hresult⟩ := returns_cls w'
  refine ⟨p, q, w', ?_, hreplaced, hresult⟩
  unfold performAll methodAndClass
  simp only [List.mapM_cons, List.mapM_nil, Act.returns_bind, Act.returns_pure]
  exact ⟨p, w', hp, [q], w', ⟨q, w', hq, [], w', ⟨rfl, rfl⟩, rfl, rfl⟩, rfl, rfl⟩

theorem keyQuoted {d : Decoration} (hd : d = method ∨ d.subject = .whole) (w : World Unit) :
    d.KeyQuoted host evaluate bindings w := by
  intro key literal members hsub decorators w₁ initial w₂ r w₃ _ _ _
  rcases hd with rfl | hd
  · rcases Subject.property.inj hsub with ⟨rfl, -, -⟩
    rfl
  · rw [hd] at hsub
    cases hsub

end Sample

/-- The theorem at a class with a decorated method. The decorators are run to their end, and some of
them replace what they are handed. -/
theorem statements_refine_chains_of_sample :
    (∃ p q w', (performAll Sample.host Sample.evaluate Sample.bindings
        Sample.methodAndClass).Returns Sample.world [p, q] w' ∧
      p.result.invocations.map (·.replaced) = [true, false, true] ∧
      q.result.invocations.map (·.replaced) = [false, true, false] ∧
      q.result.value = .function ⟨3, "B"⟩) ∧
    Sample.method.SimulatedBy Sample.host Sample.evaluate Sample.bindings Sample.world
      (Sample.method.statements (.avoiding "_" ["A"])).1 ∧
    Act.Alike (performAll Sample.host Sample.evaluate Sample.bindings Sample.methodAndClass)
      (runStatements Sample.host Sample.evaluate
        (decorationStatements Sample.methodAndClass (.avoiding "_" ["A"])).1
        Sample.bindings) Sample.world
      (SettleAll (.avoiding "_" ["A"]) Sample.bindings Sample.methodAndClass) := by
  have hkept : ∀ d ∈ Sample.methodAndClass, d.KeptBy (.avoiding "_" ["A"]) ∧ d.decorators ≠ [] ∧
      d.Lawful Sample.host Sample.evaluate := by
    intro d hd
    simp only [Sample.methodAndClass, List.mem_cons, List.not_mem_nil, or_false] at hd
    rcases hd with rfl | rfl
    · refine ⟨⟨⟨by decide, by decide⟩, ?_⟩, by decide, Sample.lawful_method⟩
      rintro _ _ ⟨⟩ ⟨⟩
    · refine ⟨⟨⟨by decide, by decide⟩, ?_⟩, by decide, Sample.lawful_cls "A" (by decide)⟩
      rintro _ _ ⟨⟩
  have hmethod := hkept Sample.method List.mem_cons_self
  obtain ⟨hone, hall⟩ := statements_refine_chains Sample.host Sample.evaluate Sample.bindings
    Sample.world (.avoiding "_" ["A"]) (.avoiding "_" ["A"])
  refine ⟨Sample.returns_performAll, ?_, ?_⟩
  · exact (hone _ hmethod.1 hmethod.2.1 hmethod.2.2 (Sample.keyQuoted (.inl rfl) _)).1
  · refine hall _ hkept ?_ ?_
    · intro earlier d later hsplit hwhole
      rcases earlier with _ | ⟨x, _ | ⟨y, rest⟩⟩
      · rcases List.cons.inj hsplit with ⟨rfl, -⟩
        cases hwhole
      · exact (List.cons.inj (List.cons.inj hsplit).2).2.symm
      · simp [Sample.methodAndClass] at hsplit
    · intro earlier d later hsplit _ w₁ _
      have hmem : d ∈ Sample.methodAndClass := by simp [hsplit]
      simp only [Sample.methodAndClass, List.mem_cons, List.not_mem_nil, or_false] at hmem
      rcases hmem with rfl | rfl
      · exact Sample.keyQuoted (.inl rfl) w₁
      · exact Sample.keyQuoted (.inr rfl) w₁

/-- Without the name of the class among those that a scope avoids, the class is lost: its binding is
the temporary for what a decorator returns, and a decorator that keeps the class returns nothing. -/
theorem class_bound_to_temporary_is_lost :
    Scope.Reached (.avoiding "_" []) ∧ (Sample.cls "_res" ["keep"]).decorators ≠ [] ∧
    (Sample.cls "_res" ["keep"]).Lawful Sample.host Sample.evaluate ∧
    ¬ Act.Alike ((Sample.cls "_res" ["keep"]).perform Sample.host Sample.evaluate Sample.bindings)
      (runStatements Sample.host Sample.evaluate
        ((Sample.cls "_res" ["keep"]).statements (.avoiding "_" [])).1 Sample.bindings) Sample.world
      (fun p b' => b' "_res" = p.result.value) := by
  refine ⟨.avoiding "_" [], by decide, Sample.lawful_cls "_res" (by decide), ?_⟩
  intro h
  rcases h.forth _ _ rfl with ⟨b', hb, hvalue⟩
  have hlost := (Act.Returns.unique hb rfl).1
  rw [hlost] at hvalue
  cases hvalue

end Undecorate
