import Undecorate.Proofs.Classify.Plans

/-! # Evaluation of keys

Keys are evaluated in one pass over the members. A pass that keeps what it has found so far is the
same as evaluating the expressions first and then filling in the keys:

* `keysOf_eq`: the expressions of `keyExpressions` are evaluated in order, each once, and nothing
  else happens;
* `lookup_keyTable_of_mem`: all members of a decorated computed property have the value that was
  found for the first of them.
-/

namespace Undecorate.Realization

/-- The value of a key, by the values of the computed keys that are evaluated. -/
def valueOfKey (ds : List Decoration) (own : List (Nat × Value)) (place : Nat) (key : Key) :
    Value :=
  match key.staticName? with
  | some name => .text name .shared
  | none => (own.lookup (((sharedKeys ds).lookup place).getD place)).getD .absent

/-- The keys of members by their places. -/
def keysFrom (ds : List Decoration) (own : List (Nat × Value)) (entries : List (Member × Nat)) :
    List (Nat × Value) :=
  entries.filterMap fun (m, i) => m.key.map fun k => (i, valueOfKey ds own i k)

/-- The values of key expressions by the places of the members that they stand in. -/
def ownValues (ds : List Decoration) (members : List Member) (values : List Value) :
    List (Nat × Value) :=
  ((ownKeys ds members.zipIdx).map (·.1)).zip values

/-- The keys of all members, from the values of the key expressions. -/
def keyTable (ds : List Decoration) (members : List Member) (values : List Value) :
    List (Nat × Value) :=
  keysFrom ds (ownValues ds members values) members.zipIdx

variable {σ : Type} {host : Host σ} {names : Names} {d : Declaration} {ds : List Decoration}

/-! ## One pass -/

/-- What a pass over the first `n` members has found: `keys` are the keys of these members, and
`own` those that were evaluated. -/
structure Passed (ds : List Decoration) (n : Nat) (keys own : List (Nat × Value)) : Prop where
  before : ∀ j v, keys.lookup j = some v → j < n
  same : ∀ j v, own.lookup j = some v → keys.lookup j = some v
  leaders : ∀ i first, (sharedKeys ds).lookup i = some first → first < n →
    (own.lookup first).isSome = true

namespace Passed

variable {n : Nat} {keys own : List (Nat × Value)}

theorem none (h : Passed ds n keys own) : own.lookup n = none := by
  cases hn : own.lookup n with
  | none => rfl
  | some v => exact absurd (h.before n v (h.same n v hn)) (Nat.lt_irrefl n)

/-- A member whose key is not evaluated: nobody has its key. -/
theorem skip (h : Passed ds n keys own)
    (hleads : ∀ i, (sharedKeys ds).lookup i ≠ some n) : Passed ds (n + 1) keys own where
  before := fun j v hj => Nat.lt_succ_of_lt (h.before j v hj)
  same := h.same
  leaders := by
    intro i first hi hfirst
    rcases Nat.lt_succ_iff_lt_or_eq.1 hfirst with hlt | rfl
    · exact h.leaders i first hi hlt
    · exact absurd hi (hleads i)

theorem before_new (h : Passed ds n keys own) (v : Value) :
    ∀ j v', (keys ++ [(n, v)]).lookup j = some v' → j < n + 1 := by
  intro j v' hj
  rw [lookup_append_singleton, Option.or_eq_some_iff] at hj
  rcases hj with hj | ⟨-, hj⟩
  · exact Nat.lt_succ_of_lt (h.before j v' hj)
  · rw [Option.ite_none_right_eq_some] at hj
    rw [← hj.1]
    exact Nat.lt_succ_self n

theorem add (h : Passed ds n keys own) (v : Value)
    (hleads : ∀ i, (sharedKeys ds).lookup i ≠ some n) :
    Passed ds (n + 1) (keys ++ [(n, v)]) own where
  before := h.before_new v
  same := by
    intro j v' hj
    rw [lookup_append_singleton, h.same j v' hj, Option.some_or]
  leaders := (h.skip hleads).leaders

/-- A member whose key is evaluated. -/
theorem evaluated (h : Passed ds n keys own) (v : Value) :
    Passed ds (n + 1) (keys ++ [(n, v)]) (own ++ [(n, v)]) where
  before := h.before_new v
  same := by
    intro j v' hj
    rw [lookup_append_singleton, Option.or_eq_some_iff] at hj ⊢
    rcases hj with hj | ⟨-, hj⟩
    · exact .inl (h.same j v' hj)
    · refine .inr ⟨?_, hj⟩
      -- the place is new
      cases hk : keys.lookup j with
      | none => rfl
      | some u =>
        rw [Option.ite_none_right_eq_some] at hj
        exact absurd (h.before j u hk) (by omega)
  leaders := by
    intro i first hi hfirst
    rw [lookup_append_singleton]
    rcases Nat.lt_succ_iff_lt_or_eq.1 hfirst with hlt | rfl
    · obtain ⟨u, hu⟩ := Option.isSome_iff_exists.1 (h.leaders i first hi hlt)
      simp [hu]
    · simp

end Passed

/-- A place whose key others have is that of a computed key which is evaluated. -/
theorem not_leads (h : d.Units ds) {n : Nat} {m : Member} (hplace : d.members[n]? = some m)
    (hm : ∀ k, m.key = some k → k.isComputed = true → follows ds n = true) :
    ∀ i, (sharedKeys ds).lookup i ≠ some n := by
  intro i hi
  obtain ⟨-, hfollows, ⟨m', k, hplace', hk, hcomputed⟩, -⟩ := h.leader hi
  rw [hplace] at hplace'
  cases hplace'
  rw [hm k hk hcomputed] at hfollows
  cases hfollows

/-- A key that is not evaluated is known: it has a name, or an earlier member has it. -/
theorem keyOf_of_known (host : Host σ) (names : Names) (h : d.Units ds) {n : Nat}
    {keys own : List (Nat × Value)} (hpassed : Passed ds n keys own) {m : Member} {k : Key}
    (hplace : d.members[n]? = some m) (hkey : m.key = some k)
    (hknown : k.isComputed = true → follows ds n = true) :
    ∃ v, keyOf host names (sharedKeys ds) keys n k = pure v ∧
      ∀ more, valueOfKey ds (own ++ more) n k = v := by
  cases hshared : (sharedKeys ds).lookup n with
  | some first =>
    obtain ⟨hlt, -, -, m', k', hplace', hk', hcomputed⟩ := h.leader hshared
    rw [hplace] at hplace'
    cases hplace'
    rw [hkey] at hk'
    cases hk'
    have hname := Key.staticName?_eq_none_iff.2 hcomputed
    obtain ⟨v, hv⟩ := Option.isSome_iff_exists.1 (hpassed.leaders _ first hshared hlt)
    refine ⟨v, by simp [keyOf, hshared, hpassed.same first v hv], ?_⟩
    intro more
    simp [valueOfKey, hname, hshared, List.lookup_append, hv]
  | none =>
    cases hname : k.staticName? with
    | some name =>
      refine ⟨.text name .shared, by simp [keyOf, hshared, hname], ?_⟩
      intro more
      simp [valueOfKey, hname]
    | none =>
      -- a computed key that follows another one is shared
      have hfollows := hknown (Key.staticName?_eq_none_iff.1 hname)
      rw [← isSome_lookup_sharedKeys, hshared] at hfollows
      cases hfollows

/-- A key that is evaluated has the value that is found for it. -/
theorem keyOf_of_own (host : Host σ) (names : Names) {n : Nat} {keys own : List (Nat × Value)}
    (hpassed : Passed ds n keys own) {k : Key} (hcomputed : k.isComputed = true)
    (hfollows : follows ds n = false) :
    keyOf host names (sharedKeys ds) keys n k = names.evaluate host k.text ∧
      ∀ v more, valueOfKey ds (own ++ (n, v) :: more) n k = v := by
  have hname := Key.staticName?_eq_none_iff.2 hcomputed
  have hshared : (sharedKeys ds).lookup n = none := by
    rw [← Option.not_isSome_iff_eq_none, isSome_lookup_sharedKeys, hfollows]
    simp
  refine ⟨by simp [keyOf, hshared, hname], ?_⟩
  intro v more
  simp [valueOfKey, hname, hshared, List.lookup_append, hpassed.none]

theorem keysFrom_cons (own : List (Nat × Value)) (m : Member) (i : Nat)
    (entries : List (Member × Nat)) : keysFrom ds own ((m, i) :: entries) =
      (m.key.map fun k => (i, valueOfKey ds own i k)).toList ++ keysFrom ds own entries := by
  cases hk : m.key with
  | none => simp [keysFrom, hk]
  | some k => simp [keysFrom, hk]

theorem ownKeys_cons (m : Member) (i : Nat) (entries : List (Member × Nat)) :
    ownKeys ds ((m, i) :: entries) =
      (match m.key with
        | some k => if k.isComputed && !follows ds i then [(i, k.text)] else []
        | none => []) ++ ownKeys ds entries :=
  List.flatMap_cons

/-- The pass over the members from a place on. -/
theorem foldlM_keyOf (h : d.Units ds) (pre rest : List Member) (hsplit : d.members = pre ++ rest)
    (keys own : List (Nat × Value)) (hpassed : Passed ds pre.length keys own) :
    (rest.zipIdx pre.length).foldlM (fun keys (m, i) => do
      match m.key with
      | none => return keys
      | some key => return keys ++ [(i, ← keyOf host names (sharedKeys ds) keys i key)]) keys =
    (do
      let values ← (ownKeys ds (rest.zipIdx pre.length)).mapM fun e => names.evaluate host e.2
      return keys ++ keysFrom ds
        (own ++ ((ownKeys ds (rest.zipIdx pre.length)).map (·.1)).zip values)
        (rest.zipIdx pre.length)) := by
  induction rest generalizing pre keys own with
  | nil => simp [ownKeys, keysFrom]
  | cons m rest ih =>
    have hplace : d.members[pre.length]? = some m := by
      rw [hsplit, List.getElem?_append_right (Nat.le_refl _)]
      simp
    have hlength : (pre ++ [m]).length = pre.length + 1 := by simp
    have hrest := fun keys own hpassed =>
      ih (pre ++ [m]) (by simp [hsplit]) keys own (hlength ▸ hpassed)
    rw [hlength] at hrest
    rw [List.zipIdx_cons, List.foldlM_cons, ownKeys_cons]
    simp only [keysFrom_cons]
    cases hkey : m.key with
    | none =>
      have hleads := not_leads h hplace (by simp [hkey])
      simp only [pure_bind, List.nil_append, Option.map_none, Option.toList_none]
      exact hrest keys own (hpassed.skip hleads)
    | some k =>
      simp only [Option.map_some, Option.toList_some]
      cases hown : k.isComputed && !follows ds pre.length with
      | false =>
        have hknown : k.isComputed = true → follows ds pre.length = true := by
          simpa using hown
        obtain ⟨v, hkeyOf, hvalue⟩ := keyOf_of_known host names h hpassed hplace hkey hknown
        have hleads := not_leads h hplace (by simpa [hkey] using hknown)
        simp only [hkeyOf, pure_bind, Bool.false_eq_true, if_false, List.nil_append, hvalue]
        rw [hrest _ own (hpassed.add v hleads)]
        simp
      | true =>
        obtain ⟨hcomputed, hfollows⟩ : k.isComputed = true ∧ follows ds pre.length = false := by
          simpa using hown
        obtain ⟨hkeyOf, hvalue⟩ := keyOf_of_own host names hpassed hcomputed hfollows
        simp only [hkeyOf, if_true, List.singleton_append, List.mapM_cons, bind_assoc, pure_bind]
        congr 1
        funext v
        rw [hrest _ _ (hpassed.evaluated v)]
        simp [hvalue]

/-- Evaluating the keys of members evaluates the expressions of `keyExpressions` in order, each
once, and fills in the keys. -/
theorem keysOf_eq (h : d.Units ds) (host : Host σ) (names : Names) :
    keysOf host names d.members ds = (do
      let values ← (keyExpressions ds d.members).mapM (names.evaluate host)
      return keyTable ds d.members values) := by
  have hstart : Passed ds 0 [] [] := ⟨by simp, by simp, by simp⟩
  unfold keysOf keyExpressions keyTable ownValues
  rw [List.mapM_map]
  refine (foldlM_keyOf h [] d.members rfl [] [] hstart).trans ?_
  simp only [List.nil_append, List.length_nil]
  rfl

/-! ## The keys of decorated properties -/

theorem map_fst_keysFrom_sublist (own : List (Nat × Value)) (entries : List (Member × Nat)) :
    ((keysFrom ds own entries).map (·.1)).Sublist (entries.map (·.2)) := by
  induction entries with
  | nil => exact .refl _
  | cons e entries ih =>
    obtain ⟨m, i⟩ := e
    rw [keysFrom_cons, List.map_append, List.map_cons]
    cases m.key with
    | none => exact ih.cons i
    | some k => exact ih.cons_cons i

/-- Every member with a key has a value for it. -/
theorem lookup_keyTable (ds : List Decoration) {members : List Member} {i : Nat} {m : Member}
    {k : Key} (hm : members[i]? = some m) (hk : m.key = some k) (values : List Value) :
    (keyTable ds members values).lookup i =
      some (valueOfKey ds (ownValues ds members values) i k) := by
  refine lookup_of_mem ?_ ?_
  · refine (map_fst_keysFrom_sublist _ _).nodup ?_
    rw [List.zipIdx_map_snd]
    exact List.nodup_range'
  · refine List.mem_filterMap.2 ⟨(m, i), List.mem_zipIdx_iff_getElem?.2 hm, ?_⟩
    simp [hk]

theorem mem_ownKeys {members : List Member} {i : Nat} {m : Member} {k : Key}
    (hm : members[i]? = some m) (hk : m.key = some k) (hcomputed : k.isComputed = true)
    (hfollows : follows ds i = false) : (i, k.text) ∈ ownKeys ds members.zipIdx := by
  refine List.mem_flatMap.2 ⟨(m, i), List.mem_zipIdx_iff_getElem?.2 hm, ?_⟩
  simp [hk, hcomputed, hfollows]

/-- The first member of a decorated computed property has the value of its expression, and the
others have the same. -/
theorem lookup_keyTable_of_mem (h : d.Units ds) {values : List Value}
    (hlength : values.length = (keyExpressions ds d.members).length) {u : Decoration} (hu : u ∈ ds)
    {key : PropertyKey} {initial : Descriptor Nat} {first : Nat} {rest : List Nat}
    (hsub : u.subject = .property key initial (first :: rest)) (hcomputed : key.isComputed = true) :
    ∃ v, (ownValues ds d.members values).lookup first = some v ∧
      ∀ i ∈ first :: rest, (keyTable ds d.members values).lookup i = some v := by
  have hplanned := h.planned.1 u hu _ _ _ hsub
  have hfollows := h.not_follows_first hu hsub
  have hmembers : u.members = first :: rest := by rw [Decoration.members, hsub]
  -- the place of the first member is among those with a value
  obtain ⟨v, hv⟩ : ∃ v, (ownValues ds d.members values).lookup first = some v := by
    rw [← Option.isSome_iff_exists, isSome_lookup_iff_mem, ownValues, List.map_fst_zip]
    · obtain ⟨m, k, hm, -, hk, hc⟩ := hplanned.keyed first List.mem_cons_self
      exact List.mem_map.2 ⟨_, mem_ownKeys hm hk (hc.trans hcomputed) hfollows, rfl⟩
    · exact Nat.le_of_eq (by rw [hlength, keyExpressions, List.length_map, List.length_map])
  refine ⟨v, hv, ?_⟩
  intro i hi
  obtain ⟨m, k, hm, -, hk, hc⟩ := hplanned.keyed i hi
  have hname := Key.staticName?_eq_none_iff.2 (hc.trans hcomputed)
  -- the key is looked up at the first member
  have hlead : ((sharedKeys ds).lookup i).getD i = first := by
    cases hshared : (sharedKeys ds).lookup i with
    | none =>
      rcases List.mem_cons.1 hi with rfl | hi
      · rfl
      · have hfollows := follows_iff.2 ⟨u, hu, key, initial, _, hsub, hcomputed, hi⟩
        have hsome := isSome_lookup_sharedKeys.2 hfollows
        rw [hshared] at hsome
        cases hsome
    | some first' =>
      obtain ⟨u', hu', key', initial', rest', hsub', -, hi'⟩ :=
        mem_sharedKeys.1 (mem_of_lookup hshared)
      obtain rfl := h.eq_of_mem_members hu hu' (hmembers ▸ hi) (by
        rw [Decoration.members, hsub']
        exact List.mem_cons_of_mem _ hi')
      rw [hsub, Subject.property.injEq, List.cons.injEq] at hsub'
      exact hsub'.2.2.1.symm
  rw [lookup_keyTable ds hm hk, valueOfKey, hname]
  simp [hlead, hv]

end Undecorate.Realization
