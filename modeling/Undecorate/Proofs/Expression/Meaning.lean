import Undecorate.Proofs.Expression.Forms

/-! # Evaluating terms

Reading the text of a term gives back an expression of the same shape, however deep calls and
parentheses are nested, and the value of that expression is what the term stands for. A part that
fails ends the evaluation where it has come to.

* `Term.parse_render`: what the text of a term is read as;
* `Names.returns_member?_iff`: how the search for a member ends, with the member or with nothing;
* `Term.evaluate_render`: the value of the text is the meaning of the term;
* `Term.Reaches.fails`: the failure of a part is that of the whole, in the same world;
* `evaluation_follows_meaning`: all that the evaluation of a term promises.
-/

namespace Undecorate

open Expression (bare parse parseTo)

namespace Term

variable {e a : Term} {es : List Term}

/-! ## Reading -/

mutual

/-- The expression that a term is read as; `shown` is the text with the parentheses around it. -/
def expression (shown : String) : Term → Expression
  | .keyword k => .constant k.value
  | .number n => .constant (.int n.value .shared)
  | .quoted q => .constant (.text (.ofChars q.body) .shared)
  | .path p _ => .path p.render
  | .call p arguments => .call shown p.render (expressionAll arguments)
  | .group e => e.expression shown

/-- The expressions that arguments are read as. -/
def expressionAll : List Term → List Expression
  | [] => []
  | e :: es => e.expression e.render :: expressionAll es

end

theorem expressionAll_eq_map (es : List Term) :
    expressionAll es = es.map fun e => e.expression e.render := by
  induction es with
  | nil => rfl
  | cons e es ih => rw [expressionAll, List.map_cons, ih]

theorem nesting_le_nestingAll (h : a ∈ es) : a.nesting ≤ nestingAll es := by
  induction es with
  | nil => cases h
  | cons e es ih =>
    rw [nestingAll]
    rcases List.mem_cons.1 h with rfl | h
    · exact Nat.le_max_left _ _
    · exact Nat.le_trans (ih h) (Nat.le_max_right _ _)

theorem nestingAll_le {n : Nat} (h : ∀ e ∈ es, e.nesting ≤ n) : nestingAll es ≤ n := by
  induction es with
  | nil => exact Nat.zero_le n
  | cons e es ih =>
    exact Nat.max_le.2
      ⟨h e List.mem_cons_self, ih fun a ha => h a (List.mem_cons_of_mem e ha)⟩

theorem trim_render (e : Term) : Text.trim e.render.toList = e.chars := by
  rw [render, String.toList_ofList, e.tight.trim_eq]

/-- Text that is a term between parentheses and blanks is read as that term, if no more calls are
nested in it than may be. -/
theorem parseTo_eq (e : Term) {depth : Nat} {shown : String}
    (hbare : bare (Text.trim shown.toList) = bare e.chars) (hdepth : e.nesting ≤ depth) :
    parseTo (depth + 1) shown = e.expression shown := by
  induction e using Term.induct generalizing depth shown with
  | keyword k =>
    have hself : bare k.name.toList = k.name.toList := by
      cases k <;> exact Expression.bare_cons (by decide)
    simp only [chars, hself] at hbare
    simp only [parseTo, hbare, Expression.keyword?_name, expression]
  | number n =>
    obtain ⟨hself, hkeyword⟩ := Expression.of_number n
    rw [chars, hself] at hbare
    simp only [parseTo, hbare, hkeyword, Expression.isNumber_chars, if_true,
      Expression.readNumber_chars, Expression.ofReading, expression]
  | quoted q =>
    obtain ⟨hself, hkeyword, hnumber⟩ := Expression.of_quoted q
    rw [chars, hself] at hbare
    simp only [parseTo, hbare, hkeyword, hnumber, Bool.false_eq_true, if_false,
      Expression.quotedBody?_chars, Expression.readQuoted_body, Expression.ofReading, expression]
  | path p free =>
    obtain ⟨hself, hnumber, hquoted⟩ := Expression.of_path p
    rw [chars, hself] at hbare
    simp only [parseTo, hbare, Expression.keyword?_eq_none free, hnumber, Bool.false_eq_true,
      if_false, hquoted, Expression.isPath_chars, if_true, expression, Dotted.render]
  | call p arguments ih =>
    obtain ⟨hself, hkeyword, hnumber, hquoted, hpath⟩ :=
      Expression.of_call (Expression.isCallee_chars p)
        (Text.joinWith [',', ' '] (charsAll arguments))
    have hpasses : ∀ t ∈ charsAll arguments, Brackets.Passes 0 t ∧ Text.Tight t := by
      rw [charsAll_eq_map, List.forall_mem_map]
      exact fun a _ => ⟨a.passes 0, a.tight⟩
    have hparts := Expression.callParts?_chars p
      (Brackets.balanced_joinWith fun t ht => (hpasses t ht).1)
    have hsplit := Brackets.splitArguments_joinWith (fun t ht => (hpasses t ht).1)
      fun t ht => (hpasses t ht).2
    -- one level is spent on the call, and the rest is enough for each argument
    have hpos : 1 ≤ depth := Nat.le_trans (Nat.succ_le_succ (Nat.zero_le _)) hdepth
    obtain ⟨inner, rfl⟩ : ∃ inner, depth = inner + 1 := ⟨depth - 1, (Nat.sub_add_cancel hpos).symm⟩
    have harguments : (charsAll arguments).map (fun cs => parseTo (inner + 1) (String.ofList cs)) =
        expressionAll arguments := by
      rw [charsAll_eq_map, List.map_map, expressionAll_eq_map]
      refine List.map_congr_left fun a ha => ih a ha ?_ ?_
      · exact congrArg bare a.trim_render
      · exact Nat.le_trans (nesting_le_nestingAll ha) (Nat.le_of_succ_le_succ hdepth)
    rw [chars, hself] at hbare
    rw [parseTo]
    simp only [hbare, hkeyword, hnumber, Bool.false_eq_true, if_false, hquoted, hpath, hparts,
      hsplit, harguments, expression, Dotted.render]
  | group e ih =>
    rw [chars, Expression.bare_parentheses (e.passes 0).balanced, e.tight.trim_eq] at hbare
    exact ih hbare hdepth

theorem nesting_le_length (e : Term) : e.nesting ≤ e.chars.length := by
  induction e using Term.induct with
  | keyword k => exact Nat.zero_le _
  | number n => exact Nat.zero_le _
  | quoted q => exact Nat.zero_le _
  | path p free => exact Nat.zero_le _
  | call p arguments ih =>
    have harguments : nestingAll arguments ≤
        (Text.joinWith [',', ' '] (charsAll arguments)).length := by
      refine nestingAll_le fun a ha => Nat.le_trans (ih a ha) (Text.length_le_joinWith ?_)
      rw [charsAll_eq_map]
      exact List.mem_map_of_mem ha
    rw [nesting, chars]
    simp only [List.length_append, List.length_cons, List.length_nil]
    omega
  | group e ih =>
    rw [nesting, chars]
    simp only [List.length_append, List.length_cons, List.length_nil]
    omega

/-- What the text of a term is read as. -/
theorem parse_render (e : Term) : parse e.render = e.expression e.render := by
  have hdepth : e.nesting ≤ e.render.length := by
    rw [render, String.length_ofList]
    exact e.nesting_le_length
  exact e.parseTo_eq (congrArg bare e.trim_render) hdepth

theorem nestingOfAll_expressionAll
    (h : ∀ e ∈ es, (e.expression e.render).nesting = e.nesting) :
    Expression.nestingOfAll (expressionAll es) = nestingAll es := by
  induction es with
  | nil => rfl
  | cons e es ih =>
    rw [expressionAll, Expression.nestingOfAll, nestingAll, h e List.mem_cons_self,
      ih fun a ha => h a (List.mem_cons_of_mem e ha)]

theorem nesting_expression (e : Term) (shown : String) :
    (e.expression shown).nesting = e.nesting := by
  induction e using Term.induct generalizing shown with
  | keyword k => rfl
  | number n => rfl
  | quoted q => rfl
  | path p free => rfl
  | call p arguments ih =>
    rw [expression, Expression.nesting, nesting,
      nestingOfAll_expressionAll fun a ha => ih a ha a.render]
  | group e ih => exact ih shown

end Term

/-! ## Members -/

namespace Names

variable {σ : Type} {host : Host σ} {path name : String} {v u : Value} {w w' : World σ}

theorem returns_hasAttribute_iff {b : Bool} : (Act.hasAttribute host v name).Returns w b w' ↔
    ∃ found?, (Act.fetch host v name).Returns w found? w' ∧ b = found?.isSome :=
  Act.returns_map

theorem returns_getAttribute_iff : (Act.getAttribute host v name).Returns w u w' ↔
    (Act.fetch host v name).Returns w (some u) w' := by
  unfold Act.getAttribute
  rw [Act.returns_bind]
  constructor
  · rintro ⟨found?, w₁, hfetch, h⟩
    cases found? with
    | none =>
      obtain ⟨_, _, -, hthrow⟩ := Act.returns_bind.1 h
      exact absurd hthrow (Act.not_returns_throw _)
    | some found =>
      obtain ⟨rfl, rfl⟩ := Act.returns_pure.1 h
      exact hfetch
  · exact fun h => ⟨some u, w', h, Act.returns_pure.2 ⟨rfl, rfl⟩⟩

theorem returns_isObjectLike_of_isHosted {b : Bool} (hhosted : v.isHosted = true) :
    (isObjectLike host v).Returns w b w' ↔ Resembles host v w b w' := by
  have hasked : isObjectLike host v = (do
      if ← Act.hasAttribute host v "get" then Act.hasAttribute host v "has_own_property"
      else return false) := by
    cases v <;> first | rfl | cases hhosted
  rw [hasked, Act.returns_bind]
  constructor
  · rintro ⟨readable, w₁, hreadable, h⟩
    obtain ⟨get?, hget, rfl⟩ := returns_hasAttribute_iff.1 hreadable
    cases get? with
    | none =>
      obtain ⟨rfl, rfl⟩ := Act.returns_pure.1 h
      exact .unreadable hhosted hget
    | some get =>
      obtain ⟨own?, hown, rfl⟩ := returns_hasAttribute_iff.1 h
      exact .readable hhosted hget hown
  · intro h
    cases h with
    | unreadable _ hget =>
      exact ⟨false, w', returns_hasAttribute_iff.2 ⟨none, hget, rfl⟩, Act.returns_pure.2 ⟨rfl, rfl⟩⟩
    | readable _ hget hown =>
      exact ⟨true, _, returns_hasAttribute_iff.2 ⟨_, hget, rfl⟩,
        returns_hasAttribute_iff.2 ⟨_, hown, rfl⟩⟩
    | _ => cases hhosted

/-- A value is taken for an object iff it resembles one. -/
theorem returns_isObjectLike_iff {b : Bool} (hrecord : ∀ fields copy, v ≠ .record fields copy)
    (hobject : ∀ r, v ≠ .object r) :
    (isObjectLike host v).Returns w b w' ↔ Resembles host v w b w' := by
  have hnot : ∀ {x : Value}, (Resembles host x w false w) → x.isHosted = false →
      ((pure false : Act σ Bool).Returns w b w' ↔ Resembles host x w b w') := by
    intro x hx hclear
    rw [Act.returns_pure]
    constructor
    · rintro ⟨rfl, rfl⟩
      exact hx
    · intro h
      cases h with
      | unreadable hhosted | readable hhosted => exact absurd (hhosted.symm.trans hclear) nofun
      | _ => exact ⟨rfl, rfl⟩
  cases v with
  | record fields copy => exact absurd rfl (hrecord fields copy)
  | object r => exact absurd rfl (hobject r)
  | descriptor r => exact hnot .descriptor rfl
  | source text copy => exact hnot .source rfl
  | member m copy => exact hnot .member rfl
  | _ => exact returns_isObjectLike_of_isHosted rfl

theorem Resembles.ne_record {b : Bool} (h : Resembles host v w b w')
    (fields : List (String × Value)) (copy : Copy) : v ≠ .record fields copy := by
  rintro rfl
  cases h with
  | unreadable hhosted | readable hhosted => cases hhosted

theorem Resembles.ne_object {b : Bool} (h : Resembles host v w b w') (r : Ref) : v ≠ .object r := by
  rintro rfl
  cases h with
  | unreadable hhosted | readable hhosted => cases hhosted

/-- What is neither a record nor an object is searched for its attributes. -/
theorem returns_member?_of_ne {found? : Option Value}
    (hrecord : ∀ fields copy, v ≠ .record fields copy) (hobject : ∀ r, v ≠ .object r) :
    (member? host v name).Returns w found? w' ↔ Finds host name v w found? w' := by
  have hsearched : member? host v name = (do
      if ← isObjectLike host v then
        let get ← Act.getAttribute host v "get"
        return (← Act.call host get [.text name .shared]).present?
      else if ← Act.hasAttribute host v name then return some (← Act.getAttribute host v name)
      else return none) := by
    cases v with
    | record fields copy => exact absurd rfl (hrecord fields copy)
    | object r => exact absurd rfl (hobject r)
    | _ => rfl
  have hlike_iff : ∀ {b : Bool} {w₁ : World σ},
      (isObjectLike host v).Returns w b w₁ ↔ Resembles host v w b w₁ :=
    returns_isObjectLike_iff hrecord hobject
  rw [hsearched, Act.returns_bind]
  constructor
  · rintro ⟨like, w₁, hlike, h⟩
    rw [hlike_iff] at hlike
    cases like with
    | true =>
      obtain ⟨get, w₂, hget, h⟩ := Act.returns_bind.1 h
      obtain ⟨u, w₃, hcall, h⟩ := Act.returns_bind.1 h
      obtain ⟨rfl, rfl⟩ := Act.returns_pure.1 h
      exact .asked hlike (returns_getAttribute_iff.1 hget) hcall
    | false =>
      obtain ⟨has, w₂, hhas, h⟩ := Act.returns_bind.1 h
      obtain ⟨first?, hfirst, rfl⟩ := returns_hasAttribute_iff.1 hhas
      cases first? with
      | none =>
        obtain ⟨rfl, rfl⟩ := Act.returns_pure.1 h
        exact .lacking hlike hfirst
      | some first =>
        obtain ⟨u, w₃, hget, h⟩ := Act.returns_bind.1 h
        obtain ⟨rfl, rfl⟩ := Act.returns_pure.1 h
        exact .fetched hlike hfirst (returns_getAttribute_iff.1 hget)
  · intro h
    cases h with
    | field => exact absurd rfl (hrecord _ _)
    | property => exact absurd rfl (hobject _)
    | asked hlike hget hcall =>
      exact ⟨true, _, hlike_iff.2 hlike, Act.returns_bind.2 ⟨_, _, returns_getAttribute_iff.2 hget,
        Act.returns_bind.2 ⟨_, _, hcall, Act.returns_pure.2 ⟨rfl, rfl⟩⟩⟩⟩
    | fetched hlike hfirst hget =>
      exact ⟨false, _, hlike_iff.2 hlike, Act.returns_bind.2
        ⟨true, _, returns_hasAttribute_iff.2 ⟨_, hfirst, rfl⟩, Act.returns_bind.2
          ⟨_, _, returns_getAttribute_iff.2 hget, Act.returns_pure.2 ⟨rfl, rfl⟩⟩⟩⟩
    | lacking hlike hnone =>
      exact ⟨false, _, hlike_iff.2 hlike, Act.returns_bind.2
        ⟨false, _, returns_hasAttribute_iff.2 ⟨_, hnone, rfl⟩, Act.returns_pure.2 ⟨rfl, rfl⟩⟩⟩

/-- The search for a member returns what it finds. -/
theorem returns_member?_iff {found? : Option Value} :
    (member? host v name).Returns w found? w' ↔ Finds host name v w found? w' := by
  cases v with
  | record fields copy =>
    refine Act.returns_pure.trans ⟨?_, fun h => ?_⟩
    · rintro ⟨rfl, rfl⟩
      exact .field
    · cases h with
      | field => exact ⟨rfl, rfl⟩
      | asked hlike | fetched hlike | lacking hlike => exact absurd rfl (hlike.ne_record _ _)
  | object r =>
    refine Act.returns_bind.trans ⟨?_, fun h => ?_⟩
    · rintro ⟨u, w₁, hget, h⟩
      obtain ⟨rfl, rfl⟩ := Act.returns_pure.1 h
      exact .property hget
    · cases h with
      | property hget => exact ⟨_, w', hget, Act.returns_pure.2 ⟨rfl, rfl⟩⟩
      | asked hlike | fetched hlike | lacking hlike => exact absurd rfl (hlike.ne_object _)
  | _ => exact returns_member?_of_ne (fun _ _ => nofun) (fun _ => nofun)

theorem returns_member_iff : (member host path v name).Returns w u w' ↔
    Finds host name v w (some u) w' := by
  unfold member
  rw [Act.returns_bind]
  constructor
  · rintro ⟨found?, w₁, hfound, h⟩
    cases found? with
    | none => exact absurd h (Act.not_returns_throw _)
    | some found =>
      obtain ⟨rfl, rfl⟩ := Act.returns_pure.1 h
      exact returns_member?_iff.1 hfound
  · exact fun h => ⟨some u, w', returns_member?_iff.2 h, Act.returns_pure.2 ⟨rfl, rfl⟩⟩

/-- A member that is missing is reported with its name. -/
theorem Finds.fails (h : Finds host name v w none w') : (member host path v name).Fails w
    (.refused (.resolution path ("no member '" ++ name ++ "'"))) w' :=
  ((returns_member?_iff.2 h).runIn_bind _).trans (Act.fails_throw _)

/-- Searching for one member after the other leads where the path leads. -/
theorem returns_members_iff {rest : List Identifier} :
    (rest.foldlM (fun v x => member host path v x.name) v).Returns w u w' ↔
      Follows host rest v w u w' := by
  induction rest generalizing v w with
  | nil =>
    refine Act.returns_pure.trans ⟨?_, fun h => ?_⟩
    · rintro ⟨rfl, rfl⟩
      exact .nil
    · cases h
      exact ⟨rfl, rfl⟩
  | cons x rest ih =>
    rw [List.foldlM_cons, Act.returns_bind]
    constructor
    · rintro ⟨u₁, w₁, hmember, hrest⟩
      exact .cons (returns_member_iff.1 hmember) (ih.1 hrest)
    · intro h
      cases h with
      | cons hfinds hfollows => exact ⟨_, _, returns_member_iff.2 hfinds, ih.2 hfollows⟩

end Names

/-- A path has the value that it leads to. -/
theorem Dotted.returns_value_iff {σ : Type} {host : Host σ} {names : Names} {p : Dotted} {u : Value}
    {w w' : World σ} : (p.value host names).Returns w u w' ↔ p.Leads host names w u w' := by
  unfold Dotted.value Dotted.Leads
  cases hfirst : List.lookup p.first.name names with
  | none =>
    refine ⟨fun h => absurd h (Act.not_returns_throw _), ?_⟩
    rintro ⟨v, hv, -⟩
    cases hv
  | some v =>
    rw [Names.returns_members_iff]
    refine ⟨fun h => ⟨v, rfl, h⟩, ?_⟩
    rintro ⟨v', hv, h⟩
    obtain rfl := Option.some.inj hv
    exact h

/-! ## Evaluating -/

section Evaluating

variable {σ : Type} {host : Host σ} {names : Names}

/-- A path is looked up name by name. -/
theorem Dotted.lookup_render (p : Dotted) : names.lookup host p.render = p.value host names := by
  have hnames : (Text.cutAt '.' p.render).map Text.strip = p.first.name :: p.rest.map (·.name) := by
    rw [Text.cutAt, render, String.toList_ofList, Expression.pieces_chars, List.map_map,
      List.map_map]
    refine List.map_congr_left fun x _ => ?_
    simp only [Function.comp_apply, Text.strip, String.toList_ofList, x.tight.trim_eq,
      Identifier.name]
  simp only [Names.lookup, value, hnames]
  cases List.lookup p.first.name names with
  | none => rfl
  | some v => exact List.foldlM_map

namespace Term

theorem evalAll_expressionAll {es : List Term}
    (h : ∀ e ∈ es, (e.expression e.render).eval host names = e.meaning host names e.render) :
    Expression.evalAll host names (expressionAll es) = meaningAll host names es := by
  induction es with
  | nil => rfl
  | cons e es ih =>
    rw [expressionAll, Expression.evalAll, meaningAll, h e List.mem_cons_self,
      ih fun a ha => h a (List.mem_cons_of_mem e ha)]

theorem eval_expression (e : Term) (shown : String) :
    (e.expression shown).eval host names = e.meaning host names shown := by
  induction e using Term.induct generalizing shown with
  | keyword k => rfl
  | number n => rfl
  | quoted q => rfl
  | path p free => exact p.lookup_render
  | call p arguments ih =>
    rw [expression, Expression.eval, meaning, Names.callee, p.lookup_render,
      evalAll_expressionAll fun a ha => ih a ha a.render]
    simp only [bind_assoc]
    refine bind_congr fun f => bind_congr fun h => ?_
    split
    · rw [pure_bind]
    · simp only [bind_assoc, pure_bind]
  | group e ih => rw [expression, meaning, ih shown]

/-- The value of the text of a term is what the term stands for. -/
theorem evaluate_render (e : Term) :
    names.evaluate host e.render = e.meaning host names e.render := by
  rw [Names.evaluate, e.parse_render, e.eval_expression]

end Term

/-! ## Failing -/

section Failing

variable {e part a : Term} {before after : List Term} {p : Dotted} {shown text : String}
variable {w w' w₁ w₂ : World σ} {f : Fault}

/-- A path that leads nowhere fails where it breaks off. -/
theorem Dotted.Dangles.fails (h : p.Dangles host names w f w') :
    (p.value host names).Fails w f w' := by
  unfold Dotted.value
  cases h with
  | unbound hnone =>
    rw [hnone]
    exact Act.fails_throw _
  | missing hrest hfirst hbefore hnone =>
    simp only [hfirst, hrest, List.foldlM_append, List.foldlM_cons]
    exact ((Names.returns_members_iff.2 hbefore).runIn_bind _).trans (hnone.fails.bind _)

namespace Term

/-- No argument behind one that fails has a part in the failure. -/
theorem fails_meaningAll {vs : List Value}
    (hbefore : (meaningAll host names before).Returns w vs w₁)
    (ha : (a.meaning host names a.render).Fails w₁ f w₂) :
    (meaningAll host names (before ++ a :: after)).Fails w f w₂ := by
  induction before generalizing w vs with
  | nil =>
    obtain ⟨-, rfl⟩ := Act.returns_pure.1 hbefore
    exact ha.bind _
  | cons e before ih =>
    obtain ⟨v, w', he, hbefore⟩ := Act.returns_bind.1 hbefore
    obtain ⟨us, w'', hbefore, hlast⟩ := Act.returns_bind.1 hbefore
    obtain ⟨-, rfl⟩ := Act.returns_pure.1 hlast
    exact (he.runIn_bind _).trans ((ih hbefore).bind _)

/-- What is called, and then the arguments. -/
theorem runIn_call {v : Value} {arguments : List Term}
    (hcallee : p.Leads host names w v w₁) (hcallable : w₁.heap.isCallable v = true) :
    (meaning host names shown (.call p arguments)).runIn w =
      (meaningAll host names arguments >>= Act.call host v).runIn w₁ := by
  have hheap : Act.heap.Returns w₁ w₁.heap w₁ := rfl
  rw [meaning, (Dotted.returns_value_iff.2 hcallee).runIn_bind, hheap.runIn_bind, if_pos hcallable]

/-- What cannot be called is not called, and its arguments have no values. -/
theorem fails_uncallable {v : Value} {arguments : List Term}
    (hcallee : p.Leads host names w v w₁) (hcallable : w₁.heap.isCallable v = false) :
    (meaning host names shown (.call p arguments)).Fails w
      (.refused (.resolution shown ("'" ++ p.render ++ "' is not callable"))) w₁ := by
  have hheap : Act.heap.Returns w₁ w₁.heap w₁ := rfl
  rw [meaning, Act.Fails, (Dotted.returns_value_iff.2 hcallee).runIn_bind, hheap.runIn_bind,
    if_neg (by simp [hcallable])]
  exact (Act.fails_throw _).bind _

/-- The failure of a part that is reached is the failure of the whole, in the same world. -/
theorem Reaches.fails (h : e.Reaches host names shown w part text w')
    (hpart : (part.meaning host names text).Fails w' f w₂) :
    (e.meaning host names shown).Fails w f w₂ := by
  induction h with
  | here => exact hpart
  | group _ ih => exact ih hpart
  | argument hcallee hcallable hbefore _ ih =>
    refine (runIn_call hcallee hcallable).trans ?_
    exact (fails_meaningAll hbefore (ih hpart)).bind _

end Term

end Failing

/-! ## What evaluation promises -/

/-- What the evaluation of the text of a term comes to. -/
structure Names.FollowsMeaning (host : Host σ) (names : Names) : Prop where
  /-- The value of the text is the meaning of the term, whatever the term. -/
  means (e : Term) : names.evaluate host e.render = e.meaning host names e.render
  /-- On its own the text has the same value, or none at all if calls are nested too deeply. -/
  alone (e : Term) : names.evaluateAlone host e.render =
    if callLimit < e.nesting then throw .endless else e.meaning host names e.render
  /-- A path means the value that it leads to. -/
  leads {p : Dotted} (free : ∀ k : Keyword, p.render ≠ k.name) {v : Value} {w w' : World σ} :
    (names.evaluate host (Term.path p free).render).Returns w v w' ↔ p.Leads host names w v w'
  /-- When what is called and all arguments have their values, what is left is one call. -/
  calls {p : Dotted} {arguments : List Term} {v : Value} {values : List Value} {w w₁ w₂ : World σ} :
    p.Leads host names w v w₁ → w₁.heap.isCallable v = true →
    (Term.meaningAll host names arguments).Returns w₁ values w₂ →
    (names.evaluate host (Term.call p arguments).render).runIn w = (Act.call host v values).runIn w₂
  /-- Where a part that is reached fails, everything ends: nothing behind it is evaluated. -/
  stops {e part : Term} {text : String} {w w' w'' : World σ} {f : Fault} :
    e.Reaches host names e.render w part text w' → (part.meaning host names text).Fails w' f w'' →
    (names.evaluate host e.render).Fails w f w''
  /-- A path that leads nowhere, on its own or as what is called, is such a failure. -/
  dangling {e part : Term} {text : String} {p : Dotted} {w w' w'' : World σ} {f : Fault} :
    e.Reaches host names e.render w part text w' → part.target? = some p →
    p.Dangles host names w' f w'' → (names.evaluate host e.render).Fails w f w''
  /-- So is a call of what cannot be called; its arguments are not evaluated. -/
  uncallable {e : Term} {text : String} {p : Dotted} {arguments : List Term} {v : Value}
    {w w' w'' : World σ} :
    e.Reaches host names e.render w (.call p arguments) text w' →
    p.Leads host names w' v w'' → w''.heap.isCallable v = false →
    (names.evaluate host e.render).Fails w
      (.refused (.resolution text ("'" ++ p.render ++ "' is not callable"))) w''

/-- The value of a rendered term is its meaning. -/
theorem evaluation_follows_meaning (host : Host σ) (names : Names) : names.FollowsMeaning host where
  means := Term.evaluate_render
  alone e := by
    simp only [Names.evaluateAlone, e.parse_render, e.nesting_expression, e.eval_expression]
    split
    · rfl
    · rfl
  leads free := by
    rw [Term.evaluate_render]
    exact Dotted.returns_value_iff
  calls hcallee hcallable hvalues := by
    rw [Term.evaluate_render, Term.runIn_call hcallee hcallable, hvalues.runIn_bind]
  stops hreaches hpart := by
    rw [Term.evaluate_render]
    exact hreaches.fails hpart
  dangling {e part text p w w' w'' f} hreaches htarget hdangles := by
    rw [Term.evaluate_render]
    refine hreaches.fails ?_
    cases part with
    | path q free =>
      obtain rfl := Option.some.inj htarget
      exact hdangles.fails
    | call q arguments =>
      obtain rfl := Option.some.inj htarget
      exact hdangles.fails.bind _
    | _ => cases htarget
  uncallable hreaches hcallee hcallable := by
    rw [Term.evaluate_render]
    exact hreaches.fails (Term.fails_uncallable hcallee hcallable)

end Evaluating

/-! ## A run -/

namespace Term.Sample

def f : Identifier := ⟨['f'], by decide⟩

def settings : Identifier := ⟨['s', '$'], by decide⟩

def upper : Identifier := ⟨['u', 'p', 'p', 'e', 'r'], by decide⟩

def off : Identifier := ⟨['o', 'f', 'f'], by decide⟩

/-- A number, a call in parentheses and the method of a text. -/
def before : List Term := [
  .number ⟨false, false, [some ⟨15, true⟩, none, some ⟨15, false⟩], by decide⟩,
  .group (.group (.call ⟨f, []⟩ [.quoted ⟨.single, [',', ' '], by decide⟩, .keyword .null])),
  .path ⟨settings, [upper]⟩ (by intro k; cases k <;> decide)]

/-- A call with a member that is missing among its arguments, and another call behind it. -/
def term : Term := .call ⟨f, []⟩
  (before ++ .path ⟨settings, [off]⟩ (by intro k; cases k <;> decide) :: [.call ⟨f, []⟩ []])

def names : Names := [("f", .function ⟨0, "f"⟩), ("s$", .text "on" .shared)]

/-- A host that counts calls, and knows one method of texts. -/
def counting : Host Nat where
  call _ arguments := do
    modify fun w => { w with host := w.host + 1 }
    return .list arguments .shared
  fetch v name := match v, name with
    | .text _ _, "upper" => return some (.function ⟨1, "upper"⟩)
    | _, _ => return none

end Term.Sample

open Term.Sample in
/-- The inner call is made, the method is fetched, and then the member is missing; neither the last
call nor the outer one is made. -/
theorem evaluation_follows_meaning_of_sample :
    term.render = "f(0xF_f, ((f(', ', null))), s$.upper, s$.off, f())" ∧
      (Term.meaningAll counting names before).Returns ⟨{}, 0⟩ [.int 255 .shared,
        .list [.text (.ofChars [',', ' ']) .shared, .absent] .shared, .function ⟨1, "upper"⟩]
        ⟨{}, 1⟩ ∧
      (names.evaluate counting term.render).Fails ⟨{}, 0⟩
        (.refused (.resolution "s$.off" "no member 'off'")) ⟨{}, 1⟩ := by
  have hcallee : Dotted.Leads counting names ⟨f, []⟩ (⟨{}, 0⟩ : World Nat)
    (.function ⟨0, "f"⟩) ⟨{}, 0⟩ := ⟨_, rfl, .nil⟩
  have hbefore : (Term.meaningAll counting names before).Returns (⟨{}, 0⟩ : World Nat)
    [.int 255 .shared, .list [.text (.ofChars [',', ' ']) .shared, .absent] .shared,
      .function ⟨1, "upper"⟩] ⟨{}, 1⟩ := rfl
  have hfound : List.lookup settings.name names = some (.text "on" .shared) := rfl
  have hrest : (⟨settings, [off]⟩ : Dotted).rest = [] ++ off :: [] := rfl
  have hnone : Names.Finds counting off.name (.text "on" .shared) (⟨{}, 1⟩ : World Nat) none
    ⟨{}, 1⟩ := .lacking (.unreadable rfl rfl) rfl
  have hdangles : Dotted.Dangles counting names ⟨settings, [off]⟩ (⟨{}, 1⟩ : World Nat)
      (.refused (.resolution (⟨settings, [off]⟩ : Dotted).render
        ("no member '" ++ off.name ++ "'"))) ⟨{}, 1⟩ := .missing hrest hfound .nil hnone
  have hmessage : ("no member '" ++ off.name ++ "'" : Text) = ("no member 'off'" : Text) := rfl
  have hpath : (⟨settings, [off]⟩ : Dotted).render = "s$.off" := rfl
  rw [hmessage, hpath] at hdangles
  exact ⟨rfl, hbefore, (evaluation_follows_meaning counting names).dangling
    (.argument hcallee rfl hbefore .here) rfl hdangles⟩

end Undecorate
