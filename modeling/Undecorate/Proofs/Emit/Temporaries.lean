import Undecorate.Emit.Statement
import Undecorate.Proofs.Scope

/-! # Temporaries of a decoration

The statements of a decoration use a temporary for each decorator and a few that all decorations
share. They are told apart from each other and from everything that the statements only read.

* `Temporaries.From.apart`: the temporaries of a decoration are distinct, and none of them is the
  text of its target or key, as long as the scope keeps the names that these are written with.
-/

namespace Undecorate

/-- The bases of the temporaries that the statements of decorations assign. -/
def workingBases : List String := ["dec", "res", "src", "desc", "changed"]

/-- The scope has taken the name, and not for a temporary that decorations share. -/
def Scope.Keeps (s : Scope) (name : String) : Prop :=
  name ∈ s.taken ∧ ∀ p ∈ s.reserved, p.1 ∈ workingBases → p.2 ≠ name

/-- The scope keeps the names that the decoration's target and key are written with. -/
structure Decoration.KeptBy (d : Decoration) (s : Scope) : Prop where
  binding : s.Keeps d.target.binding
  snapshot : ∀ key snapshot, d.key? = some key → key.snapshot? = some snapshot → s.Keeps snapshot

/-- The texts that the statements of a decoration read and do not assign, except for the binding of
a class. -/
def Decoration.operands (d : Decoration) : List String :=
  match d.subject with
  | .whole => [d.target.binding]
  | .property key _ _ => [d.target.expression, key.render]

namespace Scope

variable {s : Scope} {name base : String}

/-! ## What an operation keeps -/

theorem Keeps.fresh_ne (h : s.Keeps name) : (s.fresh base).1 ≠ name := by
  intro heq
  exact unique_not_mem s base (by rw [← fresh_fst, heq]; exact h.1)

theorem Keeps.fresh (h : s.Keeps name) : (s.fresh base).2.Keeps name := by
  refine ⟨mem_taken_fresh.2 (.inl h.1), ?_⟩
  rw [reserved_fresh]
  exact h.2

/-- A new name is kept: it is none of the reserved ones, which were taken before. -/
theorem Sound.keeps_fresh (h : s.Sound) : (s.fresh base).2.Keeps (s.fresh base).1 := by
  refine ⟨mem_taken_fresh.2 (.inr rfl), ?_⟩
  intro p hp _ heq
  rw [reserved_fresh] at hp
  exact unique_not_mem s base (by rw [← fresh_fst, ← heq]; exact h.taken p hp)

theorem lookup_mem {ps : List (String × String)} (h : ps.lookup base = some name) :
    (base, name) ∈ ps := by
  induction ps with
  | nil => simp at h
  | cons p ps ih =>
    rw [List.lookup_cons] at h
    split at h
    · rename_i hb
      rw [Option.some.injEq] at h
      rw [← h, eq_of_beq hb]
      exact List.mem_cons_self
    · exact List.mem_cons_of_mem p (ih h)

/-- The name of a shared base is reserved under it from then on. -/
theorem mem_reserved_shared (s : Scope) (base : String) :
    (base, (s.shared base).1) ∈ (s.shared base).2.reserved := by
  rw [shared_snd, reserved_declare, shared_fst]
  rcases reserve_cases s base with ⟨hl, hs⟩ | ⟨-, hn, hs⟩
  · rw [hs]
    exact lookup_mem hl
  · rw [hs, hn]
    simp

theorem reserved_subset_shared (s : Scope) (base : String) :
    s.reserved ⊆ (s.shared base).2.reserved := by
  rw [shared_snd, reserved_declare]
  rcases reserve_cases s base with ⟨-, hs⟩ | ⟨-, -, hs⟩
  · rw [hs]
    exact fun _ h => h
  · rw [hs]
    exact fun _ h => List.mem_append_left _ h

@[simp] theorem lead_shared : (s.shared base).2.lead = s.lead := by
  rw [shared_snd, lead_declare]
  rcases reserve_cases s base with ⟨-, hs⟩ | ⟨-, -, hs⟩
  · rw [hs]
  · rw [hs, unique_snd, lead_take]

theorem Sound.shared (h : s.Sound) (base : String) : (s.shared base).2.Sound :=
  (h.reserve base).declare _

theorem Keeps.shared_ne (h : s.Keeps name) (hb : base ∈ workingBases) :
    (s.shared base).1 ≠ name := by
  rw [shared_fst]
  rcases reserve_cases s base with ⟨hl, -⟩ | ⟨-, hn, -⟩
  · exact h.2 _ (lookup_mem hl) hb
  · rw [hn]
    intro heq
    exact unique_not_mem s base (heq ▸ h.1)

theorem Keeps.shared (h : s.Keeps name) (hb : base ∈ workingBases) :
    (s.shared base).2.Keeps name := by
  have hne := h.shared_ne hb
  rw [shared_fst] at hne
  rw [shared_snd]
  -- a base that was reserved before hands out the same name again
  rcases reserve_cases s base with ⟨-, hs⟩ | ⟨-, hn, hs⟩
  · rw [hs]
    exact ⟨mem_taken_declare.2 (.inl h.1), by rw [reserved_declare]; exact h.2⟩
  · rw [hs, hn]
    rw [hn] at hne
    refine ⟨?_, ?_⟩
    · rw [mem_taken_declare, unique_snd]
      exact .inl (mem_taken_take.2 (.inl h.1))
    · intro p hp hpb
      rw [reserved_declare] at hp
      rcases List.mem_append.1 hp with hp | hp
      · exact h.2 p hp hpb
      · rw [List.mem_singleton.1 hp]
        exact hne

/-- Different bases have different names. -/
theorem Sound.ne_of_mem_reserved (h : s.Sound) {b₁ b₂ n₁ n₂ : String}
    (h₁ : (b₁, n₁) ∈ s.reserved) (h₂ : (b₂, n₂) ∈ s.reserved) (hb : b₁ ≠ b₂) : n₁ ≠ n₂ := by
  rintro rfl
  rcases List.getElem_of_mem h₁ with ⟨i, hi, h₁⟩
  rcases List.getElem_of_mem h₂ with ⟨j, hj, h₂⟩
  have hij : i ≠ j := by
    rintro rfl
    rw [h₁] at h₂
    exact hb (Prod.mk.inj h₂).1
  have hnames := h.distinct
  rw [List.nodup_iff_pairwise_ne, List.pairwise_iff_getElem] at hnames
  rcases Nat.lt_or_gt_of_ne hij with hlt | hlt
  · exact hnames i j (by simpa using hi) (by simpa using hj) hlt (by simp [h₁, h₂])
  · exact hnames j i (by simpa using hj) (by simpa using hi) hlt (by simp [h₁, h₂])

/-! ## Many new names -/

theorem length_freshMany (s : Scope) (base : String) (n : Nat) :
    (s.freshMany base n).1.length = n := by
  induction n generalizing s with
  | zero => rfl
  | succ n ih => simp [freshMany, ih]

theorem Sound.freshMany (h : s.Sound) (base : String) (n : Nat) :
    (s.freshMany base n).2.Sound := by
  induction n generalizing s with
  | zero => exact h
  | succ n ih => exact ih (h.fresh base)

theorem Keeps.freshMany (h : s.Keeps name) (base : String) (n : Nat) :
    (s.freshMany base n).2.Keeps name := by
  induction n generalizing s with
  | zero => exact h
  | succ n ih => exact ih h.fresh

theorem Keeps.not_mem_freshMany (h : s.Keeps name) (base : String) (n : Nat) :
    name ∉ (s.freshMany base n).1 := by
  induction n generalizing s with
  | zero => simp [Scope.freshMany]
  | succ n ih =>
    intro hmem
    rcases List.mem_cons.1 hmem with heq | hmem
    · exact h.fresh_ne heq.symm
    · exact ih h.fresh hmem

/-- The new names are kept when all of them have been handed out. -/
theorem Sound.keeps_freshMany (h : s.Sound) (base : String) (n : Nat) :
    ∀ x ∈ (s.freshMany base n).1, (s.freshMany base n).2.Keeps x := by
  induction n generalizing s with
  | zero => simp [Scope.freshMany]
  | succ n ih =>
    intro x hx
    rcases List.mem_cons.1 hx with rfl | hx
    · exact h.keeps_fresh.freshMany base n
    · exact ih (h.fresh base) x hx

theorem Sound.nodup_freshMany (h : s.Sound) (base : String) (n : Nat) :
    (s.freshMany base n).1.Nodup := by
  induction n generalizing s with
  | zero => simp [Scope.freshMany]
  | succ n ih =>
    refine List.nodup_cons.2 ⟨?_, ih (h.fresh base)⟩
    exact h.keeps_fresh.not_mem_freshMany base n

theorem freshMany_eq_candidate (s : Scope) (base : String) (n : Nat) :
    ∀ x ∈ (s.freshMany base n).1, ∃ k, x = candidate s.lead base k := by
  induction n generalizing s with
  | zero => simp [freshMany]
  | succ n ih =>
    intro x hx
    rcases List.mem_cons.1 hx with rfl | hx
    · exact unique_eq_candidate s base
    · have h := ih (s.fresh base).2 x hx
      rw [lead_fresh] at h
      exact h

end Scope

/-! ## Texts that no temporary has -/

/-- The characters that a temporary can end with: a digit, or the last one of its base. -/
def endsTemporary (c : Char) : Bool := c.isDigit || c == 'c' || c == 's' || c == 'd'

theorem getLast?_candidate {lead base : String} (hb : base ∈ workingBases) (n : Nat) :
    ∃ c, (Scope.candidate lead base n).toList.getLast? = some c ∧ endsTemporary c = true := by
  have hbase : ∃ c, base.toList.getLast? = some c ∧ endsTemporary c = true := by
    simp only [workingBases, List.mem_cons, List.not_mem_nil, or_false] at hb
    rcases hb with rfl | rfl | rfl | rfl | rfl
    · exact ⟨'c', rfl, rfl⟩
    · exact ⟨'s', rfl, rfl⟩
    · exact ⟨'c', rfl, rfl⟩
    · exact ⟨'c', rfl, rfl⟩
    · exact ⟨'d', rfl, rfl⟩
  rcases hbase with ⟨c, hc, hend⟩
  unfold Scope.candidate
  split
  · exact ⟨c, by rw [String.toList_append, List.getLast?_append, hc]; rfl, hend⟩
  · -- the last character is the last digit of the number
    have hdigits : (toString (n + 1)).toList = Nat.toDigits 10 (n + 1) := Nat.toList_repr
    obtain ⟨e, he⟩ : ∃ e, (Nat.toDigits 10 (n + 1)).getLast? = some e :=
      ⟨_, List.getLast?_eq_some_getLast Nat.toDigits_ne_nil⟩
    have hmem : e ∈ Nat.toDigits 10 (n + 1) := List.mem_of_getLast? he
    have hdigit : e.isDigit = true := Nat.isDigit_of_mem_toDigits (by decide) (by decide) hmem
    refine ⟨e, ?_, by simp [endsTemporary, hdigit]⟩
    rw [String.toList_append, List.getLast?_append, hdigits, he]
    rfl

/-- A text that ends with no such character is no temporary. -/
theorem candidate_ne_of_getLast? {lead base text : String} {c : Char} (hb : base ∈ workingBases)
    (n : Nat) (ht : text.toList.getLast? = some c) (hc : endsTemporary c = false) :
    Scope.candidate lead base n ≠ text := by
  rintro rfl
  rcases getLast?_candidate hb n with ⟨e, he, hend⟩
  rw [ht, Option.some.injEq] at he
  rw [← he, hc] at hend
  exact Bool.false_ne_true hend

/-- A text that a scope keeps away from the temporaries: a kept name, or no name of a temporary. -/
def Scope.Spares (s : Scope) (text : String) : Prop :=
  s.Keeps text ∨ ∃ c, text.toList.getLast? = some c ∧ endsTemporary c = false

/-- The operands of a decoration whose names are kept are spared. -/
theorem Decoration.KeptBy.spares {d : Decoration} {s : Scope} (h : d.KeptBy s) :
    ∀ text ∈ d.operands, s.Spares text := by
  unfold Decoration.operands
  cases hsub : d.subject with
  | whole =>
    intro text htext
    rw [List.mem_singleton.1 htext]
    exact .inl h.binding
  | property key initial members =>
    intro text htext
    simp only [List.mem_cons, List.not_mem_nil, or_false] at htext
    rcases htext with rfl | rfl
    · -- the target: a name, or the path to a prototype
      unfold Target.expression
      split
      · refine .inr ⟨'e', ?_, rfl⟩
        rw [String.toList_append, List.getLast?_append]
        rfl
      · exact .inl h.binding
    · -- the key: a literal, or the temporary that holds it
      cases key with
      | static name =>
        cases name with
        | none => exact .inr ⟨'l', rfl, rfl⟩
        | some name =>
          refine .inr ⟨'\x22', ?_, rfl⟩
          rw [PropertyKey.render, nameLiteral, Json.encode, String.toList_ofList,
            List.getLast?_concat]
      | computed expression snapshot =>
        cases snapshot with
        | none =>
          refine .inr ⟨'e', ?_, rfl⟩
          rw [PropertyKey.render, Option.getD_none]
          rfl
        | some snapshot =>
          refine .inl (h.snapshot (.computed expression (some snapshot)) snapshot ?_ rfl)
          simp [Decoration.key?, hsub]

/-! ## The temporaries of one decoration -/

/-- The temporaries that the statements of a decoration assign: one for each decorator, and those
that decorations share. -/
structure Temporaries where
  decorators : List String
  result : String
  source : String
  descriptor : String
  changed : String

/-- All temporaries. -/
def Temporaries.all (t : Temporaries) : List String :=
  t.result :: t.source :: t.descriptor :: t.changed :: t.decorators

/-- The temporaries as a scope hands them out for `n` decorators, and the scope after them. -/
structure Temporaries.From (t : Temporaries) (s : Scope) (n : Nat) (s' : Scope) : Prop where
  handedOut : ∃ s₁ s₂ s₃ s₄, s.freshMany "dec" n = (t.decorators, s₁) ∧
    s₁.shared "res" = (t.result, s₂) ∧ s₂.shared "src" = (t.source, s₃) ∧
    s₃.shared "desc" = (t.descriptor, s₄) ∧ s₄.shared "changed" = (t.changed, s')

section Apart

variable {s s' : Scope} {base name text : String}

/-- What is known when a scope has handed out a shared name. -/
theorem Scope.Sound.of_shared (hs : s.Sound) (h : s.shared base = (name, s')) :
    s'.Sound ∧ (base, name) ∈ s'.reserved ∧ s.reserved ⊆ s'.reserved ∧
      ∃ n, name = Scope.candidate s.lead base n := by
  have hname : (s.shared base).1 = name := congrArg Prod.fst h
  have hscope : (s.shared base).2 = s' := congrArg Prod.snd h
  have hmem := Scope.mem_reserved_shared s base
  rcases (hs.shared base).named _ hmem with ⟨n, hn⟩
  rw [Scope.lead_shared] at hn
  rw [← hname, ← hscope]
  exact ⟨hs.shared base, hmem, Scope.reserved_subset_shared s base, n, hn⟩

theorem Scope.Spares.of_shared (ht : s.Spares text) (hs : s.Sound) (hb : base ∈ workingBases)
    (h : s.shared base = (name, s')) : name ≠ text ∧ s'.Spares text := by
  have hname : (s.shared base).1 = name := congrArg Prod.fst h
  have hscope : (s.shared base).2 = s' := congrArg Prod.snd h
  rcases ht with hk | ⟨c, hc, hend⟩
  · rw [← hname, ← hscope]
    exact ⟨hk.shared_ne hb, .inl (hk.shared hb)⟩
  · rcases hs.of_shared h with ⟨-, -, -, n, hn⟩
    rw [hn]
    exact ⟨candidate_ne_of_getLast? hb n hc hend, .inr ⟨c, hc, hend⟩⟩

theorem Scope.Spares.freshMany (h : s.Spares text) (base : String) (n : Nat) :
    (s.freshMany base n).2.Spares text :=
  h.imp (fun hk => hk.freshMany base n) fun hc => hc

theorem Scope.Spares.not_mem_freshMany (h : s.Spares text) (hb : base ∈ workingBases) (n : Nat) :
    text ∉ (s.freshMany base n).1 := by
  rcases h with h | ⟨c, hc, hend⟩
  · exact h.not_mem_freshMany base n
  · intro hmem
    rcases Scope.freshMany_eq_candidate s base n text hmem with ⟨k, hk⟩
    exact candidate_ne_of_getLast? hb k hc hend hk.symm

/-- What is known when a scope has handed out the temporaries of decorators. -/
structure Scope.HandedOut (s : Scope) (n : Nat) (names : List String) (s' : Scope) : Prop where
  length : names.length = n
  nodup : names.Nodup
  sound : s'.Sound
  spares : ∀ x ∈ names, s'.Spares x
  passed : ∀ text, s.Spares text → text ∉ names ∧ s'.Spares text

theorem Scope.Sound.of_freshMany {n : Nat} {names : List String} (hs : s.Sound)
    (hb : base ∈ workingBases) (h : s.freshMany base n = (names, s')) : s.HandedOut n names s' := by
  have hnames : (s.freshMany base n).1 = names := congrArg Prod.fst h
  have hscope : (s.freshMany base n).2 = s' := congrArg Prod.snd h
  rw [← hnames, ← hscope]
  exact ⟨Scope.length_freshMany s base n, hs.nodup_freshMany base n, hs.freshMany base n,
    fun x hx => .inl (hs.keeps_freshMany base n x hx),
    fun _ ht => ⟨ht.not_mem_freshMany hb n, ht.freshMany base n⟩⟩

/-- The temporaries of a class's decorations are distinct, and none of them is a text that the scope
spares. -/
theorem class_temporaries_apart {n : Nat} {names : List String} {s₁ : Scope} (hs : s.Sound)
    (hdec : s.freshMany "dec" n = (names, s₁)) (hres : s₁.shared "res" = (name, s')) :
    (name :: names).Nodup ∧ s'.Sound ∧
      ∀ text, s.Spares text → text ∉ name :: names ∧ s'.Spares text := by
  have hout := hs.of_freshMany (by decide) hdec
  have hpass : ∀ text, s₁.Spares text → name ≠ text ∧ s'.Spares text :=
    fun text ht => ht.of_shared hout.sound (by decide) hres
  refine ⟨?_, (hout.sound.of_shared hres).1, ?_⟩
  · refine List.nodup_cons.2 ⟨?_, hout.nodup⟩
    intro hmem
    exact (hpass name (hout.spares name hmem)).1 rfl
  · intro text ht
    rcases hout.passed text ht with ⟨hnames, ht₁⟩
    rcases hpass text ht₁ with ⟨hne, ht'⟩
    exact ⟨by rw [List.mem_cons, not_or]; exact ⟨fun h => hne h.symm, hnames⟩, ht'⟩

/-- The temporaries of a property's decorations are distinct, and none of them is a text that the
scope spares. -/
theorem Temporaries.From.apart {t : Temporaries} {n : Nat} (hs : s.Sound) (ht : t.From s n s') :
    t.all.Nodup ∧ s'.Sound ∧ ∀ text, s.Spares text → text ∉ t.all ∧ s'.Spares text := by
  rcases ht.handedOut with ⟨s₁, s₂, s₃, s₄, hdec, hres, hsrc, hdesc, hchanged⟩
  have hout := hs.of_freshMany (by decide) hdec
  have hs₁ := hout.sound
  rcases hs₁.of_shared hres with ⟨hs₂, mres, -, -⟩
  rcases hs₂.of_shared hsrc with ⟨hs₃, msrc, sub₃, -⟩
  rcases hs₃.of_shared hdesc with ⟨hs₄, mdesc, sub₄, -⟩
  rcases hs₄.of_shared hchanged with ⟨hs₅, mchanged, sub₅, -⟩
  -- a spared text is passed over by all operations after the decorators
  have hpass : ∀ text, s₁.Spares text →
      text ∉ [t.result, t.source, t.descriptor, t.changed] ∧ s'.Spares text := by
    intro text h₁
    rcases h₁.of_shared hs₁ (by decide) hres with ⟨n₁, h₂⟩
    rcases h₂.of_shared hs₂ (by decide) hsrc with ⟨n₂, h₃⟩
    rcases h₃.of_shared hs₃ (by decide) hdesc with ⟨n₃, h₄⟩
    rcases h₄.of_shared hs₄ (by decide) hchanged with ⟨n₄, h₅⟩
    simp only [List.mem_cons, List.not_mem_nil, or_false, not_or]
    exact ⟨⟨n₁.symm, n₂.symm, n₃.symm, n₄.symm⟩, h₅⟩
  -- the shared names are reserved under different bases
  have kres : ("res", t.result) ∈ s'.reserved := sub₅ (sub₄ (sub₃ mres))
  have ksrc : ("src", t.source) ∈ s'.reserved := sub₅ (sub₄ msrc)
  have kdesc : ("desc", t.descriptor) ∈ s'.reserved := sub₅ mdesc
  have hshared : [t.result, t.source, t.descriptor, t.changed].Nodup := by
    simp only [List.nodup_cons, List.mem_cons, List.not_mem_nil, or_false, not_or,
      not_false_eq_true, List.nodup_nil, and_true]
    exact ⟨⟨hs₅.ne_of_mem_reserved kres ksrc (by decide),
        hs₅.ne_of_mem_reserved kres kdesc (by decide),
        hs₅.ne_of_mem_reserved kres mchanged (by decide)⟩,
      ⟨hs₅.ne_of_mem_reserved ksrc kdesc (by decide),
        hs₅.ne_of_mem_reserved ksrc mchanged (by decide)⟩,
      hs₅.ne_of_mem_reserved kdesc mchanged (by decide)⟩
  have hsplit : t.all = [t.result, t.source, t.descriptor, t.changed] ++ t.decorators := rfl
  rw [hsplit]
  refine ⟨?_, hs₅, ?_⟩
  · rw [List.nodup_append]
    refine ⟨hshared, hout.nodup, ?_⟩
    rintro x hx y hy rfl
    exact (hpass x (hout.spares x hy)).1 hx
  · intro text htext
    rcases hout.passed text htext with ⟨hdecorators, h₁⟩
    rcases hpass text h₁ with ⟨hnames, h₂⟩
    rw [List.mem_append, not_or]
    exact ⟨⟨hnames, hdecorators⟩, h₂⟩

end Apart

end Undecorate
