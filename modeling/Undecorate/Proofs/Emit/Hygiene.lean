import Undecorate.Proofs.Classify.Groups
import Undecorate.Proofs.Emit.Forms
import Undecorate.Proofs.Emit.Refinement

/-! # Hygiene of generated names

The scope of a declaration is passed from its classification to its definition and on to the
statements that apply its decorators. What it hands out on the way is told apart here, and
everything that generated code assigns is traced back to a name that is declared.

* `Scope.Hygienic`: the names that a scope has handed out are apart from each other and from the
  names to avoid;
* `Scope.Hands`: a part of the lowering that hands out some new names; each part is one;
* `Declaration.Defines`: what a definition assigns, in either form.
-/

namespace Undecorate

namespace Scope

/-! ## The invariant -/

/-- The scope has handed out `news`, each once, and one name for every reserved base. All these
names are distinct and avoid the `others`; the new ones are declared, and nothing else is but
reserved names. -/
structure Hygienic (others news : List String) (s : Scope) : Prop where
  sound : s.Sound
  distinct : (news ++ s.reserved.map (·.2)).Nodup
  avoids : ∀ x ∈ news ++ s.reserved.map (·.2), x ∉ others
  taken : ∀ x ∈ others ++ news, x ∈ s.taken
  declared : ∀ x ∈ news, x ∈ s.declared
  made : ∀ x ∈ s.declared, x ∈ news ++ s.reserved.map (·.2)
  nodup : s.declared.Nodup

variable {others news olds : List String} {base name : String} {s s' s'' : Scope}

theorem hygienic_avoiding (lead : String) (names : List String) :
    Hygienic names [] (avoiding lead names) := by
  obtain ⟨-, hreserved, hdeclared, htaken⟩ := avoiding_eq lead names
  refine ⟨(Reached.avoiding lead names).sound, ?_, ?_, ?_, by simp, ?_, ?_⟩
  · simp [hreserved]
  · simp [hreserved]
  · intro x hx
    rw [List.append_nil] at hx
    exact (htaken x).2 hx
  · simp [hdeclared]
  · simp [hdeclared]

theorem Hygienic.perm (h : Hygienic others news s) (hperm : news.Perm olds) :
    Hygienic others olds s where
  sound := h.sound
  distinct := (hperm.append_right _).nodup_iff.1 h.distinct
  avoids := fun x hx => h.avoids x ((hperm.append_right _).mem_iff.2 hx)
  taken := fun x hx => h.taken x ((hperm.append_left _).mem_iff.2 hx)
  declared := fun x hx => h.declared x (hperm.mem_iff.2 hx)
  made := fun x hx => (hperm.append_right _).mem_iff.1 (h.made x hx)
  nodup := h.nodup

/-- A name that is not taken is none of those that matter. -/
theorem Hygienic.not_mem (h : Hygienic others news s) (hname : name ∉ s.taken) :
    name ∉ others ∧ name ∉ news ∧ name ∉ s.reserved.map (·.2) := by
  refine ⟨?_, ?_, ?_⟩
  · exact fun hmem => hname (h.taken name (List.mem_append_left _ hmem))
  · exact fun hmem => hname (h.taken name (List.mem_append_right _ hmem))
  · intro hmem
    obtain ⟨p, hp, rfl⟩ := List.mem_map.1 hmem
    exact hname (h.sound.taken p hp)

theorem Hygienic.declare (h : Hygienic others news s)
    (hname : name ∈ news ++ s.reserved.map (·.2)) : Hygienic others news (s.declare name) where
  sound := h.sound.declare name
  distinct := by
    rw [reserved_declare]
    exact h.distinct
  avoids := by
    rw [reserved_declare]
    exact h.avoids
  taken := fun x hx => mem_taken_declare.2 (.inl (h.taken x hx))
  declared := fun x hx => mem_declared_declare.2 (.inl (h.declared x hx))
  made := by
    intro x hx
    rw [reserved_declare]
    rcases mem_declared_declare.1 hx with hx | rfl
    · exact h.made x hx
    · exact hname
  nodup := nodup_declared_declare h.nodup

theorem Hygienic.fresh (h : Hygienic others news s) (base : String) :
    Hygienic others (news ++ [(s.fresh base).1]) (s.fresh base).2 := by
  obtain ⟨hothers, hnews, hreserved⟩ := h.not_mem (unique_not_mem s base)
  refine ⟨h.sound.fresh base, ?_, ?_, ?_, ?_, ?_, ?_⟩
  · rw [reserved_fresh, List.append_assoc]
    refine List.perm_middle.nodup_iff.2 (List.nodup_cons.2 ⟨?_, h.distinct⟩)
    rw [List.mem_append, not_or]
    exact ⟨hnews, hreserved⟩
  · intro x hx
    rw [reserved_fresh, List.append_assoc, List.mem_append, List.singleton_append,
      List.mem_cons] at hx
    rcases hx with hx | rfl | hx
    · exact h.avoids x (List.mem_append_left _ hx)
    · exact hothers
    · exact h.avoids x (List.mem_append_right _ hx)
  · intro x hx
    rw [← List.append_assoc, List.mem_append, List.mem_singleton] at hx
    exact mem_taken_fresh.2 (hx.imp_left (h.taken x))
  · intro x hx
    rw [List.mem_append, List.mem_singleton] at hx
    exact mem_declared_fresh.2 (hx.imp_left (h.declared x))
  · intro x hx
    rw [reserved_fresh, List.append_assoc, List.mem_append, List.singleton_append, List.mem_cons]
    rcases mem_declared_fresh.1 hx with hx | rfl
    · exact (List.mem_append.1 (h.made x hx)).imp_right .inr
    · exact .inr (.inl rfl)
  · rw [fresh_snd]
    refine nodup_declared_declare ?_
    rw [declared_take]
    exact h.nodup

theorem Hygienic.reserve (h : Hygienic others news s) (base : String) :
    Hygienic others news (s.reserve base).2 := by
  have hsound := h.sound.reserve base
  rcases reserve_cases s base with ⟨-, hs⟩ | ⟨-, -, hs⟩
  · rw [hs]
    exact h
  · obtain ⟨hothers, hnews, hreserved⟩ := h.not_mem (unique_not_mem s base)
    rw [hs] at hsound ⊢
    refine ⟨hsound, ?_, ?_, ?_, ?_, ?_, ?_⟩
    · rw [List.map_append, ← List.append_assoc]
      refine List.nodup_append.2 ⟨h.distinct, by simp, ?_⟩
      rintro x hx y hy rfl
      simp only [List.map_cons, List.map_nil, List.mem_singleton] at hy
      rw [hy, List.mem_append] at hx
      exact hx.elim hnews hreserved
    · intro x hx
      rw [List.map_append, ← List.append_assoc, List.mem_append] at hx
      rcases hx with hx | hx
      · exact h.avoids x hx
      · rw [List.mem_singleton.1 hx]
        exact hothers
    · intro x hx
      rw [unique_snd]
      exact mem_taken_take.2 (.inl (h.taken x hx))
    · intro x hx
      change x ∈ (s.take _).declared
      rw [declared_take]
      exact h.declared x hx
    · intro x hx
      change x ∈ (s.take _).declared at hx
      rw [declared_take] at hx
      rw [List.map_append, ← List.append_assoc]
      exact List.mem_append_left _ (h.made x hx)
    · change (s.take _).declared.Nodup
      rw [declared_take]
      exact h.nodup

/-! ## Parts of a lowering -/

/-- A part of a lowering that hands out new names: it keeps what was declared and reserved before
it. -/
structure Hands (s : Scope) (news : List String) (s' : Scope) : Prop where
  declared : s.declared ⊆ s'.declared
  reserved : ∀ b n, s.reserved.lookup b = some n → s'.reserved.lookup b = some n
  hygienic : ∀ {others olds}, Hygienic others olds s → Hygienic others (olds ++ news) s'

theorem Hands.refl (s : Scope) : Hands s [] s :=
  ⟨fun _ h => h, fun _ _ h => h, fun h => by rwa [List.append_nil]⟩

theorem Hands.trans {news' : List String} (h : Hands s news s') (h' : Hands s' news' s'') :
    Hands s (news ++ news') s'' where
  declared := fun _ hx => h'.declared (h.declared hx)
  reserved := fun b n hb => h'.reserved b n (h.reserved b n hb)
  hygienic := fun hs => by
    rw [← List.append_assoc]
    exact h'.hygienic (h.hygienic hs)

theorem Hands.perm (h : Hands s news s') (hperm : news.Perm olds) : Hands s olds s' :=
  { h with hygienic := fun hs => (h.hygienic hs).perm (hperm.append_left _) }

theorem hands_fresh (s : Scope) (base : String) : Hands s [(s.fresh base).1] (s.fresh base).2 where
  declared := fun _ hx => mem_declared_fresh.2 (.inl hx)
  reserved := fun b n hb => by rwa [reserved_fresh]
  hygienic := fun hs => hs.fresh base

theorem hands_reserve (s : Scope) (base : String) : Hands s [] (s.reserve base).2 where
  declared := by
    rw [declared_reserve]
    exact fun _ hx => hx
  reserved := by
    intro b n hb
    rcases reserve_cases s base with ⟨-, hs⟩ | ⟨-, -, hs⟩
    · rwa [hs]
    · rw [hs]
      change (s.reserved ++ _).lookup b = some n
      rw [lookup_append_singleton, hb, Option.some_or]
  hygienic := fun hs => by
    rw [List.append_nil]
    exact hs.reserve base

theorem lookup_reserve (s : Scope) (base : String) :
    (s.reserve base).2.reserved.lookup base = some (s.reserve base).1 := by
  rcases reserve_cases s base with ⟨hl, hs⟩ | ⟨hl, hn, hs⟩
  · rwa [hs]
  · rw [hs, hn]
    change (s.reserved ++ _).lookup base = _
    rw [lookup_append_singleton, hl, Option.none_or, if_pos rfl]

theorem hands_shared (s : Scope) (base : String) : Hands s [] (s.shared base).2 where
  declared := fun _ hx => mem_declared_shared.2 (.inl hx)
  reserved := by
    intro b n hb
    rw [shared_snd, reserved_declare]
    exact (hands_reserve s base).reserved b n hb
  hygienic := fun hs => by
    rw [List.append_nil, shared_snd]
    refine (hs.reserve base).declare (List.mem_append_right _ ?_)
    exact List.mem_map_of_mem (lookup_mem (lookup_reserve s base))

theorem hands_freshMany (s : Scope) (base : String) (n : Nat) :
    Hands s (s.freshMany base n).1 (s.freshMany base n).2 := by
  induction n generalizing s with
  | zero => exact .refl s
  | succ n ih => exact (hands_fresh s base).trans (ih _)

theorem mem_declared_freshMany (s : Scope) (base : String) (n : Nat) :
    ∀ x ∈ (s.freshMany base n).1, x ∈ (s.freshMany base n).2.declared := by
  induction n generalizing s with
  | zero => simp [freshMany]
  | succ n ih =>
    intro x hx
    rcases List.mem_cons.1 hx with rfl | hx
    · exact (hands_freshMany _ base n).declared (mem_declared_fresh.2 (.inr rfl))
    · exact ih _ x hx

theorem reserve_of_lookup (h : s.reserved.lookup base = some name) :
    s.reserve base = (name, s) := by
  simp [reserve, h]

/-- A base that has been reserved has the same name later. -/
theorem Hands.reserve_eq (h : Hands (s.reserve base).2 news s') :
    (s'.reserve base).1 = (s.reserve base).1 := by
  rw [reserve_of_lookup (h.reserved base _ (lookup_reserve s base))]

end Scope

open Scope

variable {s s' : Scope}

/-! ## Statements -/

/-- The names that a generated statement assigns. -/
def Statement.assigns : Statement → List String
  | .evaluate temporary _ => [temporary]
  | .applyToClass result _ binding => [result, binding]
  | .readOwn source _ _ => [source]
  | .begin descriptor _ _ => [descriptor]
  | .reset changed => [changed]
  | .applyToProperty result _ _ _ descriptor changed => [result, descriptor, changed]
  | .written _ | .install _ _ _ _ | .give _ => []

/-- The temporaries of decorators among them. -/
def Statement.holds : Statement → List String
  | .evaluate temporary _ => [temporary]
  | _ => []

theorem holds_evaluations {temporaries : List String} {decorators : List Decorator}
    (h : temporaries.length = decorators.length) :
    ((temporaries.zip decorators).map fun (t, e) => Statement.evaluate t e.text).flatMap
      Statement.holds = temporaries := by
  rw [List.flatMap_map]
  induction temporaries generalizing decorators with
  | nil => rfl
  | cons t ts ih =>
    cases decorators with
    | nil => cases h
    | cons d decorators =>
      rw [List.zip_cons_cons, List.flatMap_cons, ih (Nat.succ.inj h)]
      rfl

theorem flatMap_holds_map {f : String → Statement} (hf : ∀ x, (f x).holds = [])
    (xs : List String) : (xs.map f).flatMap Statement.holds = [] := by
  simp [hf]

/-- What a decoration has been given: a temporary for each decorator and the names that are shared,
all of them declared. -/
theorem hands_of_shared {base name : String} (h : s.shared base = (name, s')) :
    Hands s [] s' ∧ name ∈ s'.declared := by
  have hs : s' = (s.shared base).2 := by rw [h]
  have hname : name = (s.shared base).1 := by rw [h]
  rw [hs, hname]
  exact ⟨hands_shared s base, mem_declared_shared.2 (.inr rfl)⟩

theorem hands_of_freshMany {base : String} {n : Nat} {names : List String}
    (h : s.freshMany base n = (names, s')) :
    Hands s names s' ∧ names.length = n ∧ ∀ x ∈ names, x ∈ s'.declared := by
  have hs : s' = (s.freshMany base n).2 := by rw [h]
  have hnames : names = (s.freshMany base n).1 := by rw [h]
  rw [hs, hnames]
  exact ⟨hands_freshMany s base n, length_freshMany s base n, mem_declared_freshMany s base n⟩

theorem Temporaries.From.hands {t : Temporaries} {n : Nat} (h : t.From s n s') :
    Hands s t.decorators s' ∧ t.decorators.length = n ∧ ∀ x ∈ t.all, x ∈ s'.declared := by
  obtain ⟨s₁, s₂, s₃, s₄, hdec, hres, hsrc, hdesc, hchanged⟩ := h.handedOut
  obtain ⟨h₁, hlength, hdecs⟩ := hands_of_freshMany hdec
  obtain ⟨h₂, hresult⟩ := hands_of_shared hres
  obtain ⟨h₃, hsource⟩ := hands_of_shared hsrc
  obtain ⟨h₄, hdescriptor⟩ := hands_of_shared hdesc
  obtain ⟨h₅, hflag⟩ := hands_of_shared hchanged
  refine ⟨?_, hlength, ?_⟩
  · simpa using (((h₁.trans h₂).trans h₃).trans h₄).trans h₅
  · intro x hx
    simp only [Temporaries.all, List.mem_cons] at hx
    rcases hx with rfl | rfl | rfl | rfl | hx
    · exact h₅.declared (h₄.declared (h₃.declared hresult))
    · exact h₅.declared (h₄.declared hsource)
    · exact h₅.declared hdescriptor
    · exact hflag
    · exact h₅.declared (h₄.declared (h₃.declared (h₂.declared (hdecs x hx))))

/-- The statements of a decoration hand out a temporary for each decorator, and assign declared
names and the class only. -/
theorem hands_statements (d : Decoration) (s : Scope) :
    Hands s ((d.statements s).1.flatMap Statement.holds) (d.statements s).2 ∧
      ∀ st ∈ (d.statements s).1, ∀ x ∈ st.assigns,
        x ∈ (d.statements s).2.declared ∨ x = d.target.binding := by
  by_cases hne : d.decorators = []
  · simp only [Decoration.statements, hne]
    exact ⟨.refl s, by simp⟩
  cases hsub : d.subject with
  | whole =>
    obtain ⟨names, result, s₁, s', hdec, hres, heq⟩ := Decoration.statements_of_whole hsub hne
    obtain ⟨h₁, hlength, hdecs⟩ := hands_of_freshMany hdec
    obtain ⟨h₂, hresult⟩ := hands_of_shared hres
    rw [heq]
    refine ⟨?_, ?_⟩
    · rw [classStatements, List.flatMap_append, holds_evaluations hlength,
        flatMap_holds_map fun _ => rfl]
      exact h₁.trans h₂
    · intro st hst x hx
      rcases List.mem_append.1 hst with hst | hst
      · obtain ⟨e, he, rfl⟩ := List.mem_map.1 hst
        rw [List.mem_singleton.1 hx]
        exact .inl (h₂.declared (hdecs _ (List.of_mem_zip he).1))
      · obtain ⟨t, -, rfl⟩ := List.mem_map.1 hst
        simp only [Statement.assigns, List.mem_cons, List.not_mem_nil, or_false] at hx
        rcases hx with rfl | rfl
        · exact .inl hresult
        · exact .inr rfl
  | property key initial members =>
    obtain ⟨t, s', hfrom, heq⟩ := Decoration.statements_of_property hsub hne
    obtain ⟨hands, hlength, hall⟩ := hfrom.hands
    rw [heq]
    refine ⟨?_, ?_⟩
    · rw [propertyStatements, List.flatMap_append, List.flatMap_append, List.flatMap_append,
        holds_evaluations hlength, flatMap_holds_map fun _ => rfl]
      simpa [Statement.holds] using hands
    · intro st hst x hx
      refine .inl (hall x ?_)
      simp only [propertyStatements, List.mem_append, List.mem_cons, List.not_mem_nil, or_false,
        List.mem_map] at hst
      rcases hst with ((⟨e, he, rfl⟩ | rfl | rfl | rfl) | ⟨t, -, rfl⟩) | rfl
      · rw [List.mem_singleton.1 hx]
        simp [Temporaries.all, (List.of_mem_zip he).1]
      · simp_all [Statement.assigns, Temporaries.all]
      · simp_all [Statement.assigns, Temporaries.all]
      · simp_all [Statement.assigns, Temporaries.all]
      · simp only [Statement.assigns, List.mem_cons, List.not_mem_nil, or_false] at hx
        rcases hx with rfl | rfl | rfl <;> simp [Temporaries.all]
      · cases hx

/-- The statements of several decorations do so one after the other. -/
theorem hands_decorationStatements (ds : List Decoration) (s : Scope) :
    Hands s ((decorationStatements ds s).1.flatMap Statement.holds)
        (decorationStatements ds s).2 ∧
      ∀ st ∈ (decorationStatements ds s).1, ∀ x ∈ st.assigns,
        x ∈ (decorationStatements ds s).2.declared ∨ ∃ d ∈ ds, x = d.target.binding := by
  induction ds generalizing s with
  | nil => exact ⟨.refl s, by simp [decorationStatements]⟩
  | cons d ds ih =>
    obtain ⟨hfirst, hassigns⟩ := hands_statements d s
    obtain ⟨hrest, hothers⟩ := ih (d.statements s).2
    refine ⟨?_, ?_⟩
    · unfold decorationStatements
      dsimp only
      rw [List.flatMap_append]
      exact hfirst.trans hrest
    · intro st hst x hx
      rcases List.mem_append.1 hst with hst | hst
      · rcases hassigns st hst x hx with hx | hx
        · exact .inl (hrest.declared hx)
        · exact .inr ⟨d, List.mem_cons_self, hx⟩
      · rcases hothers st hst x hx with hx | ⟨e, he, hx⟩
        · exact .inl hx
        · exact .inr ⟨e, List.mem_cons_of_mem d he, hx⟩

/-! ## Classification -/

/-- The temporaries that hold the computed keys of decorated properties. -/
def snapshots (ds : List Decoration) : List String :=
  ds.flatMap fun d => (d.key?.bind (·.snapshot?)).toList

theorem snapshots_append (ds ds' : List Decoration) :
    snapshots (ds ++ ds') = snapshots ds ++ snapshots ds' :=
  List.flatMap_append

/-- Listing the snapshots for declaration changes nothing else. -/
theorem declareSnapshots_cons (d : Decoration) (ds : List Decoration) (s : Scope) :
    ∃ s₁, declareSnapshots (d :: ds) s = declareSnapshots ds s₁ ∧
      ((d.key?.bind (·.snapshot?) = none ∧ s₁ = s) ∨
        ∃ snapshot, d.key?.bind (·.snapshot?) = some snapshot ∧ s₁ = s.declare snapshot) := by
  rcases hk : d.key? with _ | _ | ⟨expression, _ | snapshot⟩
  · exact ⟨s, by simp [declareSnapshots, hk], .inl ⟨rfl, rfl⟩⟩
  · exact ⟨s, by simp [declareSnapshots, hk], .inl ⟨rfl, rfl⟩⟩
  · exact ⟨s, by simp [declareSnapshots, hk], .inl ⟨rfl, rfl⟩⟩
  · exact ⟨s.declare snapshot, by simp [declareSnapshots, hk], .inr ⟨snapshot, rfl, rfl⟩⟩

theorem declared_declareSnapshots (ds : List Decoration) (s : Scope) :
    s.declared ⊆ (declareSnapshots ds s).declared ∧
      ∀ x ∈ snapshots ds, x ∈ (declareSnapshots ds s).declared := by
  induction ds generalizing s with
  | nil => exact ⟨fun _ hx => hx, by simp [snapshots]⟩
  | cons d ds ih =>
    obtain ⟨s₁, heq, hstep⟩ := declareSnapshots_cons d ds s
    obtain ⟨hkeeps, hdeclared⟩ := ih s₁
    rw [heq]
    rcases hstep with ⟨hnone, rfl⟩ | ⟨snapshot, hsome, rfl⟩
    · refine ⟨hkeeps, ?_⟩
      simpa [snapshots, hnone] using hdeclared
    · refine ⟨fun x hx => hkeeps (mem_declared_declare.2 (.inl hx)), ?_⟩
      intro x hx
      simp only [snapshots, List.flatMap_cons, hsome, Option.toList_some, List.singleton_append,
        List.mem_cons] at hx
      rcases hx with rfl | hx
      · exact hkeeps (mem_declared_declare.2 (.inr rfl))
      · exact hdeclared x hx

theorem reserved_declareSnapshots (ds : List Decoration) (s : Scope) :
    (declareSnapshots ds s).reserved = s.reserved := by
  induction ds generalizing s with
  | nil => rfl
  | cons d ds ih =>
    obtain ⟨s₁, heq, hstep⟩ := declareSnapshots_cons d ds s
    rw [heq, ih s₁]
    rcases hstep with ⟨-, rfl⟩ | ⟨snapshot, -, rfl⟩
    · rfl
    · exact reserved_declare

theorem Scope.Hygienic.declareSnapshots {others news : List String} {ds : List Decoration}
    (h : Hygienic others news s) (hds : snapshots ds ⊆ news) :
    Hygienic others news (declareSnapshots ds s) := by
  induction ds generalizing s with
  | nil => exact h
  | cons d ds ih =>
    have hrest : snapshots ds ⊆ news :=
      fun x hx => hds (List.mem_append_right (d.key?.bind (·.snapshot?)).toList hx)
    obtain ⟨s₁, heq, hstep⟩ := declareSnapshots_cons d ds s
    rw [heq]
    rcases hstep with ⟨-, rfl⟩ | ⟨snapshot, hsome, rfl⟩
    · exact ih h hrest
    · have hnew : snapshot ∈ news := hds (List.mem_append_left _ (by simp [hsome]))
      exact ih (h.declare (List.mem_append_left _ hnew)) hrest

theorem hands_propertyKey (k : Key) (s : Scope) :
    Hands s (Classify.propertyKey k s).1.snapshot?.toList (Classify.propertyKey k s).2 := by
  unfold Classify.propertyKey
  split
  · exact hands_fresh s "key"
  · exact .refl s

theorem hands_makesAll {isClass : Bool} {binding : String} {gs : List Classify.Group}
    {found : List (Nat × Decoration)} (h : Classify.MakesAll isClass binding gs s found s') :
    Hands s (snapshots (found.map (·.2))) s' ∧ ∀ p ∈ found, p.2.target.binding = binding := by
  induction h with
  | nil => exact ⟨.refl _, by simp⟩
  | skip _ _ ih => exact ih
  | @make g gs s s₁ s' place d found hfirst _ ih =>
    obtain ⟨hrest, hbinding⟩ := ih
    obtain ⟨m, key, initial, -, hkey, -, hsub⟩ := hfirst.owner
    have hhead := hands_propertyKey (m.key.getD default) s
    rw [hkey] at hhead
    have hsnapshot : d.key?.bind (·.snapshot?) = key.snapshot? := by simp [Decoration.key?, hsub]
    refine ⟨?_, ?_⟩
    · rw [List.map_cons, snapshots, List.flatMap_cons, hsnapshot]
      exact hhead.trans hrest
    · intro p hp
      rcases List.mem_cons.1 hp with rfl | hp
      · rw [hfirst.target, Classify.target]
      · exact hbinding p hp

theorem hands_memberDecorations {isClass : Bool} {binding : String} {members : List Member}
    {ds : List Decoration}
    (h : Classify.memberDecorations isClass binding members s = .ok (ds, s')) :
    Hands s (snapshots ds) s' ∧ ∀ d ∈ ds, d.target.binding = binding := by
  obtain ⟨found, hmade, hperm⟩ := Classify.memberDecorations_made h
  obtain ⟨hands, hbinding⟩ := hands_makesAll hmade
  refine ⟨hands.perm (hperm.symm.flatMap_right _), ?_⟩
  intro d hd
  obtain ⟨p, hp, rfl⟩ := List.mem_map.1 (hperm.subset hd)
  exact hbinding p hp

/-- The name that a declaration is bound to. -/
def Declaration.binding (d : Declaration) (s : Scope) : String × Scope :=
  match d with
  | .cls c => c.binding s
  | .object _ => s.shared "obj"

theorem hands_binding (d : Declaration) (s : Scope) : Hands s [] (d.binding s).2 := by
  cases d with
  | cls c =>
    simp only [Declaration.binding, ClassDecl.binding]
    split
    · exact .refl s
    · exact hands_reserve s "class"
  | object lit => exact hands_shared s "obj"

/-- The binding stays the same when names have been handed out. -/
theorem Scope.Hands.binding_eq {d : Declaration} {news : List String}
    (h : Hands (d.binding s).2 news s') : (d.binding s').1 = (d.binding s).1 := by
  cases d with
  | cls c =>
    simp only [Declaration.binding, ClassDecl.binding] at h ⊢
    cases hname : nonempty? c.name with
    | some name => rfl
    | none =>
      rw [hname] at h
      exact h.reserve_eq
  | object lit =>
    have hlookup : s'.reserved.lookup "obj" = some (s.reserve "obj").1 := by
      refine h.reserved "obj" _ ?_
      rw [Declaration.binding, shared_snd, reserved_declare]
      exact lookup_reserve s "obj"
    change (s'.reserve "obj").1 = (s.reserve "obj").1
    rw [reserve_of_lookup hlookup]

/-- Classification hands out the snapshots, and every decoration has the binding that the
declaration has from then on. -/
theorem hands_decorations {d : Declaration} {ds : List Decoration}
    (h : d.decorations s = .ok (ds, s')) :
    Hands s (snapshots ds) s' ∧ ∀ u ∈ ds, u.target.binding = (d.binding s').1 := by
  cases d with
  | cls c =>
    simp only [Declaration.decorations, ClassDecl.decorations, bind_eq_ok, pure_eq_ok,
      Prod.mk.injEq] at h
    obtain ⟨⟨found, s₁⟩, hfound, rfl, rfl⟩ := h
    obtain ⟨hands, hbinding⟩ := hands_memberDecorations hfound
    have hstays := hands.binding_eq (d := .cls c)
    have hall := (hands_binding (.cls c) s).trans hands
    rw [hstays]
    -- the decoration of the class itself has no key
    split
    · rw [List.append_nil]
      exact ⟨hall, hbinding⟩
    · refine ⟨?_, ?_⟩
      · rw [snapshots_append]
        exact hall.trans (.refl s₁)
      · intro u hu
        rcases List.mem_append.1 hu with hu | hu
        · exact hbinding u hu
        · rw [List.mem_singleton.1 hu]
          rfl
  | object lit =>
    obtain ⟨hands, hbinding⟩ := hands_memberDecorations h
    refine ⟨(hands_shared s "obj").trans hands, ?_⟩
    intro u hu
    rw [hands.binding_eq (d := .object lit)]
    exact hbinding u hu

/-! ## Definitions -/

namespace FunctionForm

/-- The temporaries of the computed keys of fields among the names that a line assigns. -/
def Line.holds : Line → List String
  | .hold key => key.assigns
  | _ => []

variable {cls binding : String} {captures : List (Nat × Capture)} {place : Nat} {m : Member}

/-- A key that is captured assigns its snapshot only. -/
theorem assigns_keyUse (captures : List (Nat × Capture)) (place : Nat) (m : Member) {x : String}
    (hx : x ∈ (keyUse captures place m).assigns) :
    ∃ p ∈ captures, p.2.snapshot = x := by
  unfold keyUse at hx
  cases hc : captures.lookup place with
  | none =>
    rw [hc] at hx
    dsimp only at hx
    split at hx <;> simp [KeyUse.assigns] at hx
  | some c =>
    rw [hc] at hx
    dsimp only at hx
    split at hx
    · refine ⟨(place, c), ?_, (List.mem_singleton.1 hx).symm⟩
      obtain ⟨as, bs, hsplit, -⟩ := List.lookup_eq_some_iff.1 hc
      rw [hsplit]
      simp
    · cases hx

theorem holdsKey_of_field (hm : m.kind = .field) :
    holdsKey m = (m.key.getD default).isComputed := by
  cases hk : m.key with
  | none => simp [holdsKey, hm, hk]; rfl
  | some k => simp [holdsKey, hm, hk]

/-- The lines of a member hold the temporary that it is given, and assign it and snapshots only. -/
theorem memberOutline_assigns (cls : String) (captures : List (Nat × Capture)) (place : Nat)
    (m : Member) (temporary : String) :
    ((memberOutline cls captures place m temporary).definitions.flatMap Line.holds =
        if holdsKey m then [temporary] else []) ∧
      (memberOutline cls captures place m temporary).statics.flatMap Line.holds = [] ∧
      (memberOutline cls captures place m temporary).statics.flatMap Line.assigns = [] ∧
      ∀ x ∈ (memberOutline cls captures place m temporary).definitions.flatMap Line.assigns,
        x ∈ (if holdsKey m then [temporary] else []) ∨ ∃ p ∈ captures, p.2.snapshot = x := by
  by_cases hfield : m.kind = .field
  · rw [holdsKey_of_field hfield]
    unfold memberOutline
    rw [hfield]
    cases hc : (m.key.getD default).isComputed <;> cases hs : m.isStatic <;>
      simp [hc, Line.holds, Line.assigns, KeyUse.assigns]
  · have hholds : holdsKey m = false := by simp [holdsKey, hfield]
    rw [hholds]
    unfold memberOutline
    cases hkind : m.kind with
    | field => exact absurd hkind hfield
    | method | getter | setter =>
      refine ⟨rfl, rfl, rfl, ?_⟩
      intro x hx
      refine .inr (assigns_keyUse captures place m ?_)
      simpa [Line.assigns] using hx
    | comment | staticBlock | construct | property | shorthand | spread | other =>
      exact ⟨rfl, rfl, rfl, by simp [Line.assigns]⟩

/-- The members of a class hand out a temporary for every field with a computed key, and their lines
assign these and snapshots only. -/
theorem hands_outline {entries : List (Member × Nat)} {o : Outline}
    (h : outline cls captures entries s = (o, s'))
    (hcaptures : ∀ p ∈ captures, p.2.snapshot ∈ s.declared) :
    Hands s ((o.definitions ++ o.statics).flatMap Line.holds) s' ∧
      ∀ x ∈ (o.definitions ++ o.statics).flatMap Line.assigns, x ∈ s'.declared := by
  suffices hgoal : Hands s (o.definitions.flatMap Line.holds) s' ∧
      o.statics.flatMap Line.holds = [] ∧ o.statics.flatMap Line.assigns = [] ∧
      ∀ x ∈ o.definitions.flatMap Line.assigns, x ∈ s'.declared by
    obtain ⟨hands, hholds, hassigns, hdeclared⟩ := hgoal
    rw [List.flatMap_append, List.flatMap_append, hholds, hassigns, List.append_nil,
      List.append_nil]
    exact ⟨hands, hdeclared⟩
  induction entries generalizing s o with
  | nil =>
    cases h
    exact ⟨.refl _, rfl, rfl, by simp⟩
  | cons e entries ih =>
    obtain ⟨m, i⟩ := e
    rcases htemporary : (if holdsKey m then s.fresh "field" else ("", s)) with ⟨temporary, s₁⟩
    rcases hrest : outline cls captures entries s₁ with ⟨rest, s₂⟩
    simp only [outline, htemporary, hrest, Prod.mk.injEq] at h
    obtain ⟨rfl, rfl⟩ := h
    have hfirst : Hands s (if holdsKey m then [temporary] else []) s₁ ∧
        ∀ x ∈ (if holdsKey m then [temporary] else []), x ∈ s₁.declared := by
      cases hholds : holdsKey m with
      | true =>
        have hfresh : s.freshMany "field" 1 = ([temporary], s₁) := by
          rw [hholds] at htemporary
          simp only [Scope.freshMany, if_true] at htemporary ⊢
          rw [htemporary]
        obtain ⟨hands, -, hdeclared⟩ := hands_of_freshMany hfresh
        exact ⟨hands, hdeclared⟩
      | false =>
        rw [hholds] at htemporary
        obtain ⟨-, rfl⟩ := Prod.mk.inj htemporary
        exact ⟨.refl _, by simp⟩
    obtain ⟨hholds, hstatics, hsilent, hassigns⟩ :=
      memberOutline_assigns cls captures i m temporary
    obtain ⟨hands, hstatics', hsilent', hdeclared⟩ := ih hrest fun p hp =>
      hfirst.1.declared (hcaptures p hp)
    simp only [Outline.append, List.flatMap_append, hholds, hstatics, hsilent, hstatics',
      hsilent', List.append_nil, true_and]
    refine ⟨hfirst.1.trans hands, ?_⟩
    intro x hx
    rcases List.mem_append.1 hx with hx | hx
    · rcases hassigns x hx with hx | ⟨p, hp, rfl⟩
      · exact hands.declared (hfirst.2 x hx)
      · exact hands.declared (hfirst.1.declared (hcaptures p hp))
    · exact hdeclared x hx

theorem hands_classLines {size : Nat} {c : ClassDecl} {opening : List Line} {o : Outline}
    (h : ClassLines size c captures cls s opening o s')
    (hcaptures : ∀ p ∈ captures, p.2.snapshot ∈ s.declared) :
    Hands s ((opening ++ o.definitions ++ o.statics).flatMap Line.holds) s' ∧
      ∀ x ∈ (opening ++ o.definitions ++ o.statics).flatMap Line.assigns, x ∈ s'.declared := by
  have hsplit : ∀ f : Line → List String, (opening ++ o.definitions ++ o.statics).flatMap f =
      opening.flatMap f ++ (o.definitions ++ o.statics).flatMap f := by
    intro f
    rw [List.append_assoc, List.flatMap_append]
  rw [hsplit, hsplit]
  cases h with
  | base params body _ hmembers => exact hands_outline hmembers hcaptures
  | @derived _ parent _ _ s₁ s₂ _ _ hshared hmembers hreserved =>
    obtain ⟨h₁, hparent⟩ := hands_of_shared hshared
    obtain ⟨h₂, hdeclared⟩ := hands_outline hmembers fun p hp => h₁.declared (hcaptures p hp)
    have h₃ := hands_reserve s₂ "this"
    rw [hreserved] at h₃
    refine ⟨?_, ?_⟩
    · have hall := (h₁.trans h₂).trans h₃
      rw [List.append_nil] at hall
      exact hall
    · intro x hx
      rcases List.mem_append.1 hx with hx | hx
      · have hx' : x = parent := by simpa [Line.assigns] using hx
        rw [hx']
        exact h₃.declared (h₂.declared hparent)
      · exact h₃.declared (hdeclared x hx)

/-- The lines of an object. -/
def objectLines (lit : ObjectLiteral) (captures : List (Nat × Capture)) (binding : String) :
    List Line :=
  .set binding "\x7b\x7d" :: lit.members.zipIdx.flatMap fun (m, i) =>
    objectOutline binding captures i m

theorem objectOutline_assigns :
    (objectOutline binding captures place m).flatMap Line.holds = [] ∧
      ∀ x ∈ (objectOutline binding captures place m).flatMap Line.assigns,
        ∃ p ∈ captures, p.2.snapshot = x := by
  have hdefine : ∀ fields, ([Line.define binding (keyUse captures place m) fields].flatMap
      Line.holds = []) ∧ ∀ x ∈ [Line.define binding (keyUse captures place m) fields].flatMap
        Line.assigns, ∃ p ∈ captures, p.2.snapshot = x := by
    refine fun fields => ⟨rfl, fun x hx => assigns_keyUse captures place m ?_⟩
    simpa [Line.assigns] using hx
  unfold objectOutline
  cases m.kind with
  | property =>
    dsimp only
    split
    · exact ⟨rfl, by simp [Line.assigns]⟩
    · exact hdefine _
  | shorthand | method | getter | setter => exact hdefine _
  | comment | spread | construct | field | staticBlock | other =>
    exact ⟨rfl, by simp [Line.assigns]⟩

theorem objectLines_assigns (lit : ObjectLiteral) :
    (objectLines lit captures binding).flatMap Line.holds = [] ∧
      ∀ x ∈ (objectLines lit captures binding).flatMap Line.assigns,
        x = binding ∨ ∃ p ∈ captures, p.2.snapshot = x := by
  unfold objectLines
  rw [List.flatMap_cons, List.flatMap_cons, List.flatMap_assoc, List.flatMap_assoc]
  refine ⟨?_, ?_⟩
  · simp [Line.holds, objectOutline_assigns.1]
  · intro x hx
    rcases List.mem_append.1 hx with hx | hx
    · exact .inl (List.mem_singleton.1 hx)
    · obtain ⟨e, -, he⟩ := List.mem_flatMap.1 hx
      exact .inr (objectOutline_assigns.2 x he)

end FunctionForm

/-- The snapshots that the members of a declaration assign. -/
def assignedSnapshots (ds : List Decoration) : List String :=
  (captures ds).filterMap fun p => if p.2.assigns then some p.2.snapshot else none

theorem snapshot_mem_of_mem_captures {ds : List Decoration} :
    ∀ p ∈ captures ds, p.2.snapshot ∈ snapshots ds := by
  intro p hp
  obtain ⟨d, hd, hp⟩ := List.mem_flatMap.1 (List.mem_reverse.1 hp)
  refine List.mem_flatMap.2 ⟨d, hd, ?_⟩
  unfold Decoration.captures at hp
  split at hp
  · rename_i expression snapshot initial members hsub
    obtain ⟨e, -, rfl⟩ := List.mem_map.1 hp
    simp [Decoration.key?, hsub, PropertyKey.snapshot?]
  · cases hp

/-- The statements that define a declaration under a name, the names that they assign, those of them
that hold the computed keys of fields, and the scope after them. A class or object that stays one
assigns the snapshots of keys in its members. -/
inductive Declaration.Defines (o : EmitOptions) (ds : List Decoration) (binding : String)
    (s : Scope) : Declaration → List Statement → List String → List String → Scope → Prop
  | cls {c : ClassDecl} (form : o.form = .classBased) : Defines o ds binding s (.cls c)
      [.written (ClassForm.classDefinition o.indentSize c ds binding)] (assignedSnapshots ds) [] s
  | object {lit : ObjectLiteral} (form : o.form = .classBased) :
      Defines o ds binding s (.object lit)
        [.written (ClassForm.objectDefinition o.indentSize lit ds binding)]
        (binding :: assignedSnapshots ds) [] s
  | function {c : ClassDecl} {opening : List FunctionForm.Line} {out : FunctionForm.Outline}
      {s' : Scope} (form : o.form = .constructorFunction)
      (lines : FunctionForm.ClassLines o.indentSize c (captures ds) binding s opening out s') :
      Defines o ds binding s (.cls c)
        ((opening ++ out.definitions ++ out.statics).map (.written ·.render))
        ((opening ++ out.definitions ++ out.statics).flatMap (·.assigns))
        ((opening ++ out.definitions ++ out.statics).flatMap (·.holds)) s'
  | rebuilt {lit : ObjectLiteral} (form : o.form = .constructorFunction) :
      Defines o ds binding s (.object lit)
        ((FunctionForm.objectLines lit (captures ds) binding).map (.written ·.render))
        ((FunctionForm.objectLines lit (captures ds) binding).flatMap (·.assigns)) [] s

/-- A declaration is lowered to its definition and the statements of its decorations. -/
theorem Declaration.lower_eq_ok {d : Declaration} {o : EmitOptions} {ds : List Decoration}
    {l : Lowered} (h : d.lower o ds s = .ok (l, s')) :
    l.binding = (d.binding s).1 ∧ ∃ assigned held s₁,
      d.Defines o ds l.binding (declareSnapshots ds (d.binding s).2) l.definition assigned held s₁ ∧
      decorationStatements ds s₁ = (l.applications, s') := by
  cases hform : o.form with
  | classBased =>
    cases d with
    | cls c =>
      rw [Declaration.lower, ClassDecl.lower_class ds hform, Except.ok.injEq, Prod.mk.injEq] at h
      obtain ⟨rfl, rfl⟩ := h
      exact ⟨rfl, _, _, _, .cls hform, rfl⟩
    | object lit =>
      rw [Declaration.lower, ObjectLiteral.lower_class ds hform, Except.ok.injEq,
        Prod.mk.injEq] at h
      obtain ⟨rfl, rfl⟩ := h
      exact ⟨rfl, _, _, _, .object hform, rfl⟩
  | constructorFunction =>
    cases d with
    | cls c =>
      obtain ⟨opening, out, s₁, hlines, hdefinition, happlications, hbinding, rfl⟩ :=
        ClassDecl.lower_function_eq_ok hform h
      rw [hdefinition, happlications, hbinding]
      exact ⟨rfl, _, _, _, .function hform hlines, rfl⟩
    | object lit =>
      obtain ⟨hdefinition, happlications, hbinding, rfl⟩ :=
        ObjectLiteral.lower_function_eq_ok hform h
      rw [hdefinition, happlications, hbinding]
      exact ⟨rfl, _, _, _, .rebuilt hform, rfl⟩

/-- A definition hands out the temporaries for the computed keys of fields, and assigns declared
names only. -/
theorem Declaration.Defines.hands {d : Declaration} {o : EmitOptions} {ds : List Decoration}
    {binding : String} {definition : List Statement} {assigned held : List String}
    (h : d.Defines o ds binding s definition assigned held s')
    (hsnapshots : ∀ x ∈ snapshots ds, x ∈ s.declared)
    (hbinding : ∀ lit, d = .object lit → binding ∈ s.declared) :
    Hands s held s' ∧ ∀ x ∈ assigned, x ∈ s'.declared := by
  have hcaptures : ∀ p ∈ captures ds, p.2.snapshot ∈ s.declared :=
    fun p hp => hsnapshots _ (snapshot_mem_of_mem_captures p hp)
  have hassigned : ∀ x ∈ assignedSnapshots ds, x ∈ s.declared := by
    intro x hx
    obtain ⟨p, hp, hsome⟩ := List.mem_filterMap.1 hx
    split at hsome
    · rw [← Option.some.inj hsome]
      exact hcaptures p hp
    · cases hsome
  cases h with
  | cls _ => exact ⟨.refl _, hassigned⟩
  | object _ =>
    refine ⟨.refl _, ?_⟩
    intro x hx
    rcases List.mem_cons.1 hx with rfl | hx
    · exact hbinding _ rfl
    · exact hassigned x hx
  | function _ hlines => exact FunctionForm.hands_classLines hlines hcaptures
  | @rebuilt lit _ =>
    refine ⟨.refl _, ?_⟩
    intro x hx
    rcases (FunctionForm.objectLines_assigns lit).2 x hx with rfl | ⟨p, hp, rfl⟩
    · exact hbinding _ rfl
    · exact hcaptures p hp

end Undecorate
