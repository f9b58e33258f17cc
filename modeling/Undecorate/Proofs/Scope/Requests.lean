import Mathlib.Data.List.Induction
import Mathlib.Data.List.Pairwise
import Undecorate.Proofs.Emit.Temporaries
import Undecorate.Proofs.Lookup

/-! # Requests to a scope

A scope answers requests for names. What it answers is told here without the scope: a new name is
the first one on its base that is not taken, and a base that is shared keeps its name. Bases are
words, so names on different bases never meet.

* `IsFirstFree`: which name on a base is the first free one;
* `candidate_ne_of_ne`: names on different words differ;
* `Records.answer`: what one request changes;
* `records_answers`: what any sequence of requests leaves in the scope.
-/

namespace Undecorate.Scope

/-- What a scope can be asked for: a new name, the declared name of a base, or its undeclared
name. -/
inductive Request where
  | fresh (base : String)
  | shared (base : String)
  | reserve (base : String)
deriving DecidableEq, Repr

/-- The base of the name that is asked for. -/
def Request.base : Request → String
  | .fresh b | .shared b | .reserve b => b

/-- Whether the request is for the one name of its base. -/
def Request.isLasting : Request → Bool
  | .fresh _ => false
  | .shared _ | .reserve _ => true

/-- Whether the name is to be declared. -/
def Request.isDeclared : Request → Bool
  | .fresh _ | .shared _ => true
  | .reserve _ => false

/-- The answer to one request. -/
def answer (s : Scope) : Request → String × Scope
  | .fresh base => s.fresh base
  | .shared base => s.shared base
  | .reserve base => s.reserve base

/-- The answers to requests, one after the other. -/
def answers (s : Scope) : List Request → List String × Scope
  | [] => ([], s)
  | q :: qs =>
    let (name, s) := s.answer q
    let (names, s) := s.answers qs
    (name :: names, s)

/-! ## The first free name -/

/-- The first free name on a base: bare if that is not taken, and otherwise with the least number
from two on that is not. -/
structure IsFirstFree (lead base : String) (taken : List String) (name : String) : Prop where
  free : name ∉ taken
  least : name = lead ++ base ∨ lead ++ base ∈ taken ∧
    ∃ k, 2 ≤ k ∧ name = lead ++ base ++ toString k ∧
      ∀ j, 2 ≤ j → j < k → lead ++ base ++ toString j ∈ taken

variable {lead base name : String} {taken : List String} {s : Scope}

theorem candidate_zero (lead base : String) : candidate lead base 0 = lead ++ base := rfl

theorem candidate_succ (lead base : String) (n : Nat) :
    candidate lead base (n + 1) = lead ++ base ++ toString (n + 2) := rfl

theorem isFirstFree_iff : IsFirstFree lead base taken name ↔
    ∃ n, name = candidate lead base n ∧ candidate lead base n ∉ taken ∧
      ∀ k, k < n → candidate lead base k ∈ taken := by
  constructor
  · rintro ⟨hfree, rfl | ⟨hbare, k, hk, rfl, hless⟩⟩
    · exact ⟨0, rfl, hfree, by simp⟩
    · obtain ⟨n, rfl⟩ : ∃ n, k = n + 2 := ⟨k - 2, by omega⟩
      refine ⟨n + 1, rfl, hfree, ?_⟩
      intro j hj
      cases j with
      | zero => exact hbare
      | succ j => exact hless (j + 2) (by omega) (by omega)
  · rintro ⟨n, rfl, hfree, hless⟩
    refine ⟨hfree, ?_⟩
    cases n with
    | zero => exact .inl rfl
    | succ n =>
      refine .inr ⟨hless 0 (by omega), n + 2, by omega, rfl, ?_⟩
      intro j hj hjn
      obtain ⟨i, rfl⟩ : ∃ i, j = i + 2 := ⟨j - 2, by omega⟩
      exact hless (i + 1) (by omega)

/-- Only the taken names on the base itself matter, and there is one first free name. -/
theorem IsFirstFree.eq_of_agree {taken' : List String} {name' : String}
    (h : IsFirstFree lead base taken name) (h' : IsFirstFree lead base taken' name')
    (hagree : ∀ n, candidate lead base n ∈ taken ↔ candidate lead base n ∈ taken') :
    name = name' := by
  obtain ⟨m, rfl, hm, hless⟩ := isFirstFree_iff.1 h
  obtain ⟨n, rfl, hn, hless'⟩ := isFirstFree_iff.1 h'
  rcases Nat.lt_trichotomy m n with hlt | rfl | hgt
  · exact absurd ((hagree m).2 (hless' m hlt)) hm
  · rfl
  · exact absurd ((hagree n).1 (hless n hgt)) hn

/-- A new name of a scope is the first free one. -/
theorem isFirstFree_unique (s : Scope) (base : String) :
    IsFirstFree s.lead base s.taken (s.unique base).1 := by
  obtain ⟨m, hm, -, -, hless, -⟩ := firstFree_spec s.lead base s.taken s.taken.length 0
  have hfree := unique_not_mem s base
  rw [isFirstFree_iff]
  refine ⟨m, hm, ?_, fun k hk => hless k (Nat.zero_le k) hk⟩
  have heq : (s.unique base).1 = candidate s.lead base m := hm
  rw [heq] at hfree
  exact hfree

/-! ## Words -/

/-- Whether a base has no digits, so that the number behind it can be told from it. -/
def isWord (base : String) : Bool := base.toList.all fun c => !c.isDigit

/-- A candidate without what all names start with: the word, and then digits only. -/
theorem candidate_eq_append (lead base : String) (n : Nat) :
    ∃ digits : List Char, (∀ c ∈ digits, c.isDigit = true) ∧
      (candidate lead base n).toList = lead.toList ++ (base.toList ++ digits) := by
  cases n with
  | zero =>
    refine ⟨[], by simp, ?_⟩
    rw [candidate_zero, String.toList_append, List.append_nil]
  | succ n =>
    refine ⟨Nat.toDigits 10 (n + 2), ?_, ?_⟩
    · intro c hc
      exact Nat.isDigit_of_mem_toDigits (by decide) (by decide) hc
    · have hdigits : (toString (n + 2)).toList = Nat.toDigits 10 (n + 2) := Nat.toList_repr
      rw [candidate_succ, String.toList_append, String.toList_append, hdigits, List.append_assoc]

theorem takeWhile_word {word digits : List Char} (hword : word.all (fun c => !c.isDigit) = true)
    (hdigits : ∀ c ∈ digits, c.isDigit = true) :
    (word ++ digits).takeWhile (fun c => !c.isDigit) = word := by
  rw [List.takeWhile_append_of_pos (by simpa using hword)]
  cases digits with
  | nil => simp
  | cons c digits => simp [hdigits c List.mem_cons_self]

/-- Names on different words differ. -/
theorem candidate_ne_of_ne {base' : String} (lead : String) (hb : isWord base = true)
    (hb' : isWord base' = true) (hne : base ≠ base') (m n : Nat) :
    candidate lead base m ≠ candidate lead base' n := by
  intro heq
  obtain ⟨ds, hds, hm⟩ := candidate_eq_append lead base m
  obtain ⟨ds', hds', hn⟩ := candidate_eq_append lead base' n
  have hlists : base.toList ++ ds = base'.toList ++ ds' := by
    rw [heq, hn] at hm
    exact (List.append_cancel_left hm).symm
  -- what stands before the first digit is the word
  have hwords : base.toList = base'.toList := by
    rw [← takeWhile_word hb hds, ← takeWhile_word hb' hds', hlists]
  exact hne (String.toList_inj.1 hwords)

/-! ## Declared names -/

@[simp] theorem declared_take : (s.take name).declared = s.declared := by
  unfold take
  split <;> rfl

@[simp] theorem mem_declared_declare {x : String} :
    x ∈ (s.declare name).declared ↔ x ∈ s.declared ∨ x = name := by
  unfold declare
  split
  · rename_i hc
    have hname : name ∈ s.declared := by simpa using hc
    rw [declared_take]
    constructor
    · exact .inl
    · rintro (h | rfl)
      · exact h
      · exact hname
  · simp

theorem nodup_declared_declare (h : s.declared.Nodup) : (s.declare name).declared.Nodup := by
  unfold declare
  split
  · rw [declared_take]
    exact h
  · rename_i hc
    have hname : name ∉ s.declared := by simpa using hc
    rw [declared_take]
    refine List.nodup_append.2 ⟨h, by simp, ?_⟩
    rintro x hx y hy rfl
    rw [List.mem_singleton.1 hy] at hx
    exact hname hx

theorem fresh_snd (s : Scope) (base : String) :
    (s.fresh base).2 = (s.take (s.unique base).1).declare (s.unique base).1 := rfl

@[simp] theorem mem_declared_fresh {x : String} :
    x ∈ (s.fresh base).2.declared ↔ x ∈ s.declared ∨ x = (s.fresh base).1 := by
  simp [fresh, unique_snd]

@[simp] theorem declared_reserve : (s.reserve base).2.declared = s.declared := by
  rcases reserve_cases s base with ⟨-, hs⟩ | ⟨-, -, hs⟩
  · rw [hs]
  · rw [hs, unique_snd, declared_take]

@[simp] theorem lead_reserve : (s.reserve base).2.lead = s.lead := by
  rcases reserve_cases s base with ⟨-, hs⟩ | ⟨-, -, hs⟩
  · rw [hs]
  · rw [hs, unique_snd, lead_take]

@[simp] theorem mem_declared_shared {x : String} :
    x ∈ (s.shared base).2.declared ↔ x ∈ s.declared ∨ x = (s.shared base).1 := by
  rw [shared_snd, shared_fst, mem_declared_declare, declared_reserve]

/-! ## Scopes that avoid names -/

theorem avoiding_eq (lead : String) (names : List String) :
    (avoiding lead names).lead = lead ∧ (avoiding lead names).reserved = [] ∧
      (avoiding lead names).declared = [] ∧ ∀ x, x ∈ (avoiding lead names).taken ↔ x ∈ names := by
  unfold avoiding
  suffices hgoal : ∀ s : Scope, (names.foldl take s).lead = s.lead ∧
      (names.foldl take s).reserved = s.reserved ∧ (names.foldl take s).declared = s.declared ∧
      ∀ x, x ∈ (names.foldl take s).taken ↔ x ∈ s.taken ∨ x ∈ names by
    obtain ⟨hlead, hreserved, hdeclared, htaken⟩ := hgoal { lead }
    exact ⟨hlead, hreserved, hdeclared, fun x => (htaken x).trans (by simp)⟩
  induction names with
  | nil => simp
  | cons name names ih =>
    intro s
    obtain ⟨hlead, hreserved, hdeclared, htaken⟩ := ih (s.take name)
    rw [List.foldl_cons]
    refine ⟨hlead.trans lead_take, hreserved.trans reserved_take, hdeclared.trans declared_take, ?_⟩
    intro x
    rw [htaken, mem_taken_take, List.mem_cons, or_assoc]

/-! ## Requests on record -/

/-- The name of a base in a record of requests with their answers: that of the first request for
the one name of the base. -/
def lasting? (log : List (Request × String)) (base : String) : Option String :=
  (log.find? fun e => e.1.isLasting && e.1.base == base).map (·.2)

/-- The answer that is due to a request after the ones on record: the name that its base has, if it
is for that one, and otherwise the first free name. -/
def Due (lead : String) (taken : List String) (log : List (Request × String)) (q : Request)
    (name : String) : Prop :=
  match q.isLasting, lasting? log q.base with
  | true, some known => name = known
  | _, _ => IsFirstFree lead q.base (taken ++ log.map (·.2)) name

/-- What a scope remembers of the requests on record. -/
structure Records (lead : String) (taken : List String) (log : List (Request × String))
    (s : Scope) : Prop where
  lead : s.lead = lead
  taken : ∀ x, x ∈ s.taken ↔ x ∈ taken ++ log.map (·.2)
  reserved : ∀ base, s.reserved.lookup base = lasting? log base
  declared : ∀ x, x ∈ s.declared ↔ ∃ e ∈ log, e.1.isDeclared = true ∧ e.2 = x
  nodup : s.declared.Nodup

variable {log : List (Request × String)} {q : Request}

theorem records_avoiding (lead : String) (taken : List String) :
    Records lead taken [] (avoiding lead taken) := by
  obtain ⟨hlead, hreserved, hdeclared, htaken⟩ := avoiding_eq lead taken
  refine ⟨hlead, ?_, ?_, ?_, ?_⟩
  · intro x
    simpa using htaken x
  · intro base
    rw [hreserved]
    rfl
  · simp [hdeclared]
  · simp [hdeclared]

theorem lasting?_append_fresh (log : List (Request × String)) (b name base : String) :
    lasting? (log ++ [(.fresh b, name)]) base = lasting? log base := by
  simp [lasting?, List.find?_append, Request.isLasting]

theorem lasting?_append_of_isLasting (hq : q.isLasting = true) (name b : String) :
    lasting? (log ++ [(q, name)]) b =
      (lasting? log b).or (if q.base = b then some name else none) := by
  unfold lasting?
  rw [List.find?_append]
  cases hfound : log.find? fun e => e.1.isLasting && e.1.base == b with
  | some e => rfl
  | none =>
    by_cases hb : q.base = b
    · simp [hq, hb]
    · simp [hq, hb]

/-- A new name is the one that is due, whatever it is for. -/
theorem Records.due_unique (h : Records lead taken log s)
    (hq : q.isLasting = false ∨ lasting? log q.base = none) :
    Due lead taken log q (s.unique q.base).1 := by
  have hfirst := isFirstFree_unique s q.base
  rw [h.lead] at hfirst
  have hdue : IsFirstFree lead q.base (taken ++ log.map (·.2)) (s.unique q.base).1 := by
    rw [isFirstFree_iff] at hfirst ⊢
    simpa only [h.taken] using hfirst
  unfold Due
  rcases hq with hq | hq
  · rw [hq]
    exact hdue
  · rw [hq]
    cases q.isLasting <;> exact hdue

/-- A new name that is declared is on record. -/
theorem Records.fresh (h : Records lead taken log s) (base : String) :
    Records lead taken (log ++ [(.fresh base, (s.fresh base).1)]) (s.fresh base).2 where
  lead := lead_fresh.trans h.lead
  taken := by
    intro x
    rw [mem_taken_fresh, h.taken]
    simp [or_assoc]
  reserved := by
    intro b
    rw [reserved_fresh, h.reserved, lasting?_append_fresh]
  declared := by
    intro x
    rw [mem_declared_fresh, h.declared]
    simp [or_and_right, exists_or, Request.isDeclared, @eq_comm _ x]
  nodup := by
    rw [fresh_snd]
    refine nodup_declared_declare ?_
    rw [declared_take]
    exact h.nodup

/-- The undeclared name of a base is on record, and is the one that is due. -/
theorem Records.reserve (h : Records lead taken log s) (hq : q = .reserve base) :
    Records lead taken (log ++ [(q, (s.reserve base).1)]) (s.reserve base).2 ∧
      Due lead taken log q (s.reserve base).1 := by
  subst hq
  rcases reserve_cases s base with ⟨hl, hs⟩ | ⟨hl, hn, hs⟩
  · -- the base has its name, which stays as it is
    have hknown : lasting? log base = some (s.reserve base).1 := (h.reserved base).symm.trans hl
    obtain ⟨e, hfound, hname⟩ := Option.map_eq_some_iff.1 hknown
    have hmem : (s.reserve base).1 ∈ log.map (·.2) :=
      hname ▸ List.mem_map_of_mem (List.mem_of_find?_eq_some hfound)
    refine ⟨?_, ?_⟩
    · rw [hs]
      refine ⟨h.lead, ?_, ?_, ?_, h.nodup⟩
      · intro x
        rw [h.taken, List.map_append, ← List.append_assoc, List.mem_append (t := List.map _ [_])]
        constructor
        · exact .inl
        · rintro (hx | hx)
          · exact hx
          · rw [List.mem_singleton.1 hx]
            exact List.mem_append_right _ hmem
      · intro b
        rw [h.reserved, lasting?_append_of_isLasting rfl]
        by_cases hb : base = b
        · subst hb
          rw [hknown, Option.some_or]
        · simp [Request.base, hb]
      · intro x
        rw [h.declared]
        simp [Request.isDeclared]
    · simp [Due, Request.isLasting, Request.base, hknown]
  · have hnew : lasting? log base = none := (h.reserved base).symm.trans hl
    rw [hn]
    refine ⟨?_, h.due_unique (.inr hnew)⟩
    rw [hs, unique_snd]
    refine ⟨lead_take.trans h.lead, ?_, ?_, ?_, ?_⟩
    · intro x
      change x ∈ (s.take _).taken ↔ _
      rw [mem_taken_take, h.taken]
      simp [or_assoc]
    · intro b
      change (s.reserved ++ _).lookup b = _
      rw [lookup_append_singleton, h.reserved, lasting?_append_of_isLasting rfl]
      rfl
    · intro x
      change x ∈ (s.take _).declared ↔ _
      rw [declared_take, h.declared]
      simp [Request.isDeclared]
    · change (s.take _).declared.Nodup
      rw [declared_take]
      exact h.nodup

/-- The declared name of a base is its undeclared name, declared. -/
theorem Records.shared (h : Records lead taken log s) (base : String) :
    Records lead taken (log ++ [(.shared base, (s.shared base).1)]) (s.shared base).2 ∧
      Due lead taken log (.shared base) (s.shared base).1 := by
  obtain ⟨hr, hdue⟩ := h.reserve (q := .reserve base) rfl
  refine ⟨?_, hdue⟩
  rw [shared_snd, shared_fst]
  refine ⟨lead_declare.trans hr.lead, ?_, ?_, ?_, nodup_declared_declare hr.nodup⟩
  · intro x
    rw [mem_taken_declare, hr.taken]
    simp [or_assoc]
  · intro b
    rw [reserved_declare, hr.reserved, lasting?_append_of_isLasting rfl,
      lasting?_append_of_isLasting rfl]
    rfl
  · intro x
    rw [mem_declared_declare, hr.declared]
    simp [or_and_right, exists_or, Request.isDeclared, @eq_comm _ x]

/-- Every request is answered as is due, and goes on record. -/
theorem Records.answer (h : Records lead taken log s) (q : Request) :
    Records lead taken (log ++ [(q, (s.answer q).1)]) (s.answer q).2 ∧
      Due lead taken log q (s.answer q).1 := by
  cases q with
  | fresh base => exact ⟨h.fresh base, h.due_unique (.inl rfl)⟩
  | shared base => exact h.shared base
  | reserve base => exact h.reserve rfl

/-- All requests are answered as is due, each one after those before it, and go on record. -/
theorem records_answers (h : Records lead taken log s) (qs : List Request) :
    ∃ names, (s.answers qs).1 = names ∧ names.length = qs.length ∧
      Records lead taken (log ++ qs.zip names) (s.answers qs).2 ∧
      ∀ earlier q name later, qs.zip names = earlier ++ (q, name) :: later →
        Due lead taken (log ++ earlier) q name := by
  induction qs generalizing log s with
  | nil =>
    refine ⟨[], rfl, rfl, by simpa [answers] using h, ?_⟩
    intro earlier q name later hsplit
    simp at hsplit
  | cons q qs ih =>
    obtain ⟨hone, hdue⟩ := h.answer q
    obtain ⟨names, hnames, hlength, hall, hdues⟩ := ih hone
    refine ⟨(s.answer q).1 :: names, ?_, ?_, ?_, ?_⟩
    · rw [← hnames]
      rfl
    · rw [List.length_cons, hlength, List.length_cons]
    · rw [List.append_assoc] at hall
      exact hall
    · intro earlier q' name later hsplit
      rw [List.zip_cons_cons] at hsplit
      cases earlier with
      | nil =>
        obtain ⟨heq, -⟩ := List.cons.inj hsplit
        obtain ⟨rfl, rfl⟩ := Prod.mk.inj heq
        rw [List.append_nil]
        exact hdue
      | cons e earlier =>
        obtain ⟨rfl, hrest⟩ := List.cons.inj hsplit
        have := hdues earlier q' name later hrest
        rw [List.append_assoc] at this
        exact this

/-! ## Answers that are the same -/

/-- Every answer on record is the one that was due after the requests before it. -/
def AllDue (lead : String) (taken : List String) (log : List (Request × String)) : Prop :=
  ∀ earlier q name later, log = earlier ++ (q, name) :: later → Due lead taken earlier q name

/-- Both requests are for the one name of the same base. -/
def Request.SameName (q q' : Request) : Prop :=
  q.isLasting = true ∧ q'.isLasting = true ∧ q.base = q'.base

theorem Request.SameName.symm {q q' : Request} (h : q.SameName q') : q'.SameName q :=
  ⟨h.2.1, h.1, h.2.2.symm⟩

theorem AllDue.init {e : Request × String} (h : AllDue lead taken (log ++ [e])) :
    AllDue lead taken log := by
  intro earlier q name later hsplit
  refine h earlier q name (later ++ [e]) ?_
  rw [hsplit, List.append_assoc, List.cons_append]

theorem AllDue.last {e : Request × String} (h : AllDue lead taken (log ++ [e])) :
    Due lead taken log e.1 e.2 :=
  h log e.1 e.2 [] rfl

/-- An answer that is due is either new, and then the base had no name that was asked for, or it is
the name of the base. -/
theorem Due.cases (h : Due lead taken log q name) :
    (IsFirstFree lead q.base (taken ++ log.map (·.2)) name ∧
      ∀ e ∈ log, ¬ e.1.SameName q) ∨
      q.isLasting = true ∧ ∃ e ∈ log, e.1.SameName q ∧ e.2 = name := by
  unfold Due at h
  cases hq : q.isLasting with
  | false =>
    rw [hq] at h
    refine .inl ⟨h, ?_⟩
    rintro e - ⟨-, hlasting, -⟩
    rw [hq] at hlasting
    cases hlasting
  | true =>
    rw [hq] at h
    cases hknown : lasting? log q.base with
    | some known =>
      rw [hknown] at h
      obtain ⟨e, hfound, rfl⟩ := Option.map_eq_some_iff.1 hknown
      have hmatch := List.find?_some hfound
      simp only [Bool.and_eq_true, beq_iff_eq] at hmatch
      exact .inr ⟨rfl, e, List.mem_of_find?_eq_some hfound, ⟨hmatch.1, hq, hmatch.2⟩, h.symm⟩
    | none =>
      rw [hknown] at h
      refine .inl ⟨h, ?_⟩
      rintro e he ⟨hlasting, -, hbase⟩
      rw [lasting?, Option.map_eq_none_iff, List.find?_eq_none] at hknown
      exact hknown e he (by simp [hlasting, hbase])

/-- No answer is a taken name, and two answers are the same iff both requests were for the one name
of the same base. -/
theorem AllDue.distinct (h : AllDue lead taken log) :
    (∀ e ∈ log, e.2 ∉ taken) ∧
      log.Pairwise fun e e' => e.2 = e'.2 ↔ e.1.SameName e'.1 := by
  induction log using List.reverseRecOn with
  | nil => simp
  | append_singleton log e ih =>
    obtain ⟨havoids, hpairs⟩ := ih h.init
    -- the last answer is new, or the name of an earlier one
    rcases h.last.cases with ⟨hnew, hnone⟩ | ⟨-, known, hknown, hsame, hname⟩
    · have hfree := hnew.free
      rw [List.mem_append, not_or] at hfree
      refine ⟨?_, List.pairwise_append.2 ⟨hpairs, by simp, ?_⟩⟩
      · intro x hx
        rcases List.mem_append.1 hx with hx | hx
        · exact havoids x hx
        · rw [List.mem_singleton.1 hx]
          exact hfree.1
      · intro x hx y hy
        rw [List.mem_singleton.1 hy]
        refine iff_of_false ?_ (hnone x hx)
        intro heq
        exact hfree.2 (heq ▸ List.mem_map_of_mem hx)
    · refine ⟨?_, List.pairwise_append.2 ⟨hpairs, by simp, ?_⟩⟩
      · intro x hx
        rcases List.mem_append.1 hx with hx | hx
        · exact havoids x hx
        · rw [List.mem_singleton.1 hx, ← hname]
          exact havoids known hknown
      · intro x hx y hy
        rw [List.mem_singleton.1 hy, ← hname]
        -- the earlier requests have been compared with the one that has the name
        have hsymm : Std.Symm fun x y : Request × String => x.2 = y.2 ↔ x.1.SameName y.1 := by
          refine ⟨fun x y hxy => ?_⟩
          rw [eq_comm, hxy]
          exact ⟨.symm, .symm⟩
        by_cases hx' : x = known
        · rw [hx']
          exact iff_of_true rfl hsame
        · rw [hpairs.forall hx hknown hx']
          constructor
          · exact fun ⟨hl, _, hb⟩ => ⟨hl, hsame.2.1, hb.trans hsame.2.2⟩
          · exact fun ⟨hl, _, hb⟩ => ⟨hl, hsame.1, hb.trans hsame.2.2.symm⟩

end Undecorate.Scope
