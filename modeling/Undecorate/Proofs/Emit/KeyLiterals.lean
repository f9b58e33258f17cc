import Undecorate.Proofs.Classify.Structure
import Undecorate.Proofs.Emit.Keys
import Undecorate.Proofs.Expression.Literals
import Undecorate.Proofs.Realization.Initial

/-! # Key literals

Generated code writes a static name as a literal, where it defines the member and where it decorates
the property. The literal is read as the name, so that different names have different literals, and
both places name one property.

* `Key.unquote_encode`: the literal of a name is read as the name;
* `nameLiteral_inj`: different names of keys have different literals;
* `Declaration.Units.staticName?_eq`: the members of a unit have the name of the unit;
* `FunctionForm.mem_outline`, `FunctionForm.mem_objectLines`: where a method is defined;
* `key_literals_name_their_keys`: all that the literals of keys promise.
-/

namespace Undecorate

/-! ## Names -/

namespace Key

theorem unquote_encode {t : Text} (h : t.Joined) : unquote (Json.encode t) = t := by
  have hinner : inner ('\x22' :: (t.letters.flatMap Json.escapeLetter ++ ['\x22'])) =
      t.letters.flatMap Json.escapeLetter := by
    simp [inner]
  have hread := Json.decodeBody_escaped h
  unfold unquote Json.encode
  simp only [String.toList_ofList, hinner, hread, List.cons_append, List.head?_cons,
    Option.some.injEq, if_neg (show '\x22' ≠ '\x27' by decide)]

/-- What a literal is read as is joined, and so is the text between the quotes. -/
theorem joined_unquote (s : String) : (unquote s).Joined := by
  unfold unquote
  dsimp only
  split
  · rename_i t hread
    exact Json.joined_of_decodeBody hread
  · exact Text.joined_ofChars _

theorem joined_of_staticName? {k : Key} {name : Text} (h : k.staticName? = some name) :
    name.Joined := by
  unfold staticName? at h
  split at h
  · cases h
  · split at h
    · obtain rfl := Option.some.inj h
      exact joined_unquote k.text
    · obtain rfl := Option.some.inj h
      exact Text.joined_ofChars _
    · obtain rfl := Option.some.inj h
      exact Text.joined_ofChars _

/-- A text is read back from its literal iff it is joined. -/
theorem staticName?_ofLiteral_iff (t : Text) :
    (ofLiteral (nameLiteral (some t))).staticName? = some t ↔ t.Joined := by
  constructor
  · exact joined_of_staticName?
  · intro h
    exact congrArg some (unquote_encode h)

/-- A key and the literal that is written for it have one name. -/
theorem staticName?_nameLiteral {k : Key} (h : k.isComputed = false) :
    (ofLiteral (nameLiteral k.staticName?)).staticName? = k.staticName? := by
  have hne : k.staticName? ≠ none := by
    rw [Ne, staticName?_eq_none_iff, h]
    exact Bool.false_ne_true
  obtain ⟨name, hname⟩ := Option.ne_none_iff_exists'.1 hne
  rw [hname]
  exact (staticName?_ofLiteral_iff name).2 (joined_of_staticName? hname)

/-- Keys with one literal have one name; that of a computed key is no name. -/
theorem nameLiteral_inj {k k' : Key}
    (h : nameLiteral k.staticName? = nameLiteral k'.staticName?) :
    k.staticName? = k'.staticName? := by
  -- no literal reads like the word for no name
  have hword : ∀ t : Text, nameLiteral (some t) ≠ nameLiteral none := by
    intro t heq
    have hchars := congrArg String.toList heq
    simp [nameLiteral, Json.encode] at hchars
  cases hk : k.staticName? with
  | none =>
    cases hk' : k'.staticName? with
    | none => rfl
    | some name' =>
      rw [hk, hk'] at h
      exact absurd h.symm (hword name')
  | some name =>
    cases hk' : k'.staticName? with
    | none =>
      rw [hk, hk'] at h
      exact absurd h (hword name)
    | some name' =>
      rw [hk, hk'] at h
      exact congrArg some
        (Json.encode_injective (joined_of_staticName? hk) (joined_of_staticName? hk') h)

end Key

/-! ## Units -/

/-- A unit with a static name is made for the members of a group, and its decorated member has the
name. -/
theorem Classify.Makes.static_owner {isClass : Bool} {binding : String} {members : List Member}
    {g : Group} {s s' : Scope} {place : Nat} {u : Decoration} {name : Option Text}
    {initial : Descriptor Nat} {places : List Nat} (h : Makes isClass binding g s place u s')
    (hg : g ∈ groups isClass members)
    (hsub : u.subject = .property (.static name) initial places) :
    places = g.members.map (·.1) ∧ ∃ o, ∃ k : Key, (place, o) ∈ g.members ∧ o.isDecorated = true ∧
      k.identity = g.key.2 ∧ k.isComputed = false ∧ k.staticName? = name := by
  obtain ⟨o, key, initial', howner, hkey, -, hsub'⟩ := h.owner
  rw [hsub, Subject.property.injEq] at hsub'
  obtain ⟨rfl, -, hplaces⟩ := hsub'
  have hmem : (place, o) ∈ g.members.filter (·.2.isDecorated) := by
    rw [howner]
    exact List.mem_singleton.2 rfl
  obtain ⟨ho, hdecorated⟩ := List.mem_filter.1 hmem
  obtain ⟨-, k, hk, hidentity⟩ := groupKey?_eq_some ((mem_groups hg).key _ ho)
  rw [hk, Option.getD_some] at hkey
  refine ⟨hplaces, o, k, ho, hdecorated, hidentity, ?_⟩
  rcases key_of_propertyKey hkey with ⟨-, snapshot, heq⟩ | ⟨hcomputed, name', hname, heq⟩
  · cases heq
  · rw [PropertyKey.static.injEq] at heq
    exact ⟨hcomputed, hname.trans heq.symm⟩

namespace Declaration.Units

variable {d : Declaration} {ds : List Decoration} {u : Decoration} {initial : Descriptor Nat}
  {places : List Nat}

/-- The members of a unit with a static name have this name. -/
theorem staticName?_eq (h : d.Units ds) (hu : u ∈ ds) {name : Option Text}
    (hsub : u.subject = .property (.static name) initial places) :
    ∀ i ∈ places, ∃ m k, d.members[i]? = some m ∧ m.key = some k ∧ k.isComputed = false ∧
      k.staticName? = name := by
  have hplanned := h.planned.1 u hu _ _ _ hsub
  obtain ⟨binding, s, s', found, own, hfound, rfl, hown⟩ := h
  have hfirst := (Classify.memberDecorations_eq_ok_iff.1 hfound).1
  obtain ⟨made, hmade, hperm⟩ := Classify.memberDecorations_made hfound
  have hu : u ∈ found := by
    refine (List.mem_append.1 hu).resolve_right fun hu => ?_
    rw [hown u hu] at hsub
    cases hsub
  obtain ⟨p, hp, rfl⟩ := List.mem_map.1 (hperm.subset hu)
  obtain ⟨g, hg, s₁, s₂, hmakes⟩ := hmade.makes p hp
  obtain ⟨rfl, o, k, ho, hdecorated, hidentity, hcomputed, hname⟩ := hmakes.static_owner hg hsub
  -- the owner has the name of the unit, and the others have the identity of its key
  have hidden := Classify.identity_ne_hidden hfirst hg ho hdecorated
  intro i hi
  obtain ⟨m, k', hm, -, hk', hstatic⟩ := hplanned.keyed i hi
  obtain ⟨e, he, rfl⟩ := List.mem_map.1 hi
  obtain rfl : e.2 = m := Option.some.inj ((Classify.getElem?_of_mem_groups hg he).symm.trans hm)
  obtain ⟨-, k'', hk'', hidentity'⟩ :=
    Classify.groupKey?_eq_some ((Classify.mem_groups hg).key e he)
  obtain rfl : k'' = k' := Option.some.inj (hk''.symm.trans hk')
  refine ⟨e.2, k'', hm, hk', hstatic, ?_⟩
  have hsame := Realization.staticName?_of_identity (hidentity.trans hidentity'.symm) hcomputed
    (by rwa [hidentity])
  exact hsame.symm.trans hname

end Declaration.Units

/-! ## Statements -/

/-- The text of the key that a statement uses. -/
def Statement.key? : Statement → Option String
  | .readOwn _ _ key | .applyToProperty _ _ _ key _ _ | .install _ _ key _ => some key
  | .written _ | .evaluate _ _ | .applyToClass _ _ _ | .begin _ _ _ | .reset _ | .give _ => none

/-- All statements of a unit use the key of its property. -/
theorem Decoration.key_of_mem_statements {u : Decoration} {key : PropertyKey}
    {initial : Descriptor Nat} {places : List Nat}
    (hsub : u.subject = .property key initial places) {s : Scope} {st : Statement} {text : String}
    (hst : st ∈ (u.statements s).1) (htext : st.key? = some text) : text = key.render := by
  unfold Decoration.statements at hst
  split at hst
  · cases hst
  · simp only [hsub, List.mem_append, List.mem_map, List.mem_cons, List.not_mem_nil,
      or_false] at hst
    rcases hst with ((⟨p, -, rfl⟩ | rfl | rfl | rfl) | ⟨t, -, rfl⟩) | rfl
    all_goals
      first
      | exact (Option.some.inj htext).symm
      | cases htext

namespace FunctionForm

/-- The text that has the key of a member once its line has run. -/
def KeyUse.holder? : KeyUse → Option String
  | .named literal => some literal
  | .captured temporary _ | .recalled temporary => some temporary
  | .evaluated _ => none

variable {cls : String} {captures : List (Nat × Capture)} {m : Member} {i : Nat} {s s' : Scope}

/-- A method of a class has its definition. -/
theorem mem_outline {entries : List (Member × Nat)} {o : Outline}
    (h : outline cls captures entries s = (o, s')) (he : (m, i) ∈ entries)
    (hm : m.isFunction = true) :
    .define (if m.isStatic then cls else cls ++ ".prototype") (keyUse captures i m)
      (functionFields m false) ∈ o.definitions := by
  induction entries generalizing s o with
  | nil => cases he
  | cons e entries ih =>
    obtain ⟨m', i'⟩ := e
    rcases htemporary : (if holdsKey m' then s.fresh "field" else ("", s)) with ⟨temporary, s₁⟩
    rcases hrest : outline cls captures entries s₁ with ⟨rest, s₂⟩
    simp only [outline, htemporary, hrest, Prod.mk.injEq] at h
    obtain ⟨rfl, rfl⟩ := h
    refine List.mem_append.2 ?_
    rcases List.mem_cons.1 he with heq | he
    · obtain ⟨rfl, rfl⟩ := Prod.mk.inj heq
      refine .inl ?_
      unfold memberOutline
      unfold Member.isFunction at hm
      cases hkind : m.kind with
      | method | getter | setter => exact List.mem_singleton.2 rfl
      | _ =>
        rw [hkind] at hm
        cases hm
    · exact .inr (ih hrest he)

/-- So has a method of an object. -/
theorem mem_objectLines {lit : ObjectLiteral} (binding : String) (he : (m, i) ∈ lit.members.zipIdx)
    (hm : m.isFunction = true) :
    .define binding (keyUse captures i m) (functionFields m true) ∈
      objectLines lit captures binding := by
  refine List.mem_cons_of_mem _ (List.mem_flatMap.2 ⟨(m, i), he, ?_⟩)
  show _ ∈ objectOutline binding captures i m
  unfold Member.isFunction at hm
  unfold objectOutline
  cases hkind : m.kind with
  | method | getter | setter => exact List.mem_singleton.2 rfl
  | _ =>
    rw [hkind] at hm
    cases hm

end FunctionForm

/-! ## Definitions -/

/-- The key of a unit is that of its members: the statements of the unit use one text for it, which
holds the key of every member once the member has been defined. A static name is written there, in
the definitions too, as a literal that is read as the name of each member. -/
structure Decoration.KeyedAlike (u : Decoration) (d : Declaration) (l : Lowered) (key : PropertyKey)
    (places : List Nat) : Prop where
  statements : ∀ s, ∀ st ∈ (u.statements s).1, ∀ text, st.key? = some text → text = key.render
  definitions : ∀ i ∈ places, ∃ m target, ∃ use : FunctionForm.KeyUse, d.members[i]? = some m ∧
    .written (FunctionForm.defineCall target use.render
      (FunctionForm.functionFields m !d.isClass)) ∈ l.definition ∧
    use.holder? = some key.render ∧ (key.isComputed = false → use.render = key.render)
  names : key.isComputed = false → ∀ i ∈ places, ∃ m k, d.members[i]? = some m ∧ m.key = some k ∧
    (Key.ofLiteral key.render).staticName? = k.staticName?

/-- The line that defines a member of a declaration. -/
theorem Declaration.mem_definition {d : Declaration} {ds : List Decoration} {o : EmitOptions}
    {l : Lowered} {s s' : Scope} (hform : o.form = .constructorFunction)
    (hlower : d.lower o ds s = .ok (l, s')) {i : Nat} {m : Member} (hm : d.members[i]? = some m)
    (hfunction : m.isFunction = true) :
    ∃ target, .written (FunctionForm.defineCall target
      (FunctionForm.keyUse (captures ds) i m).render
      (FunctionForm.functionFields m !d.isClass)) ∈ l.definition := by
  have hentry : (m, i) ∈ d.members.zipIdx := List.mem_zipIdx_iff_getElem?.2 hm
  cases d with
  | cls c =>
    obtain ⟨opening, out, s₁, hlines, hdefinition, -⟩ := ClassDecl.lower_function_eq_ok hform hlower
    obtain ⟨s₂, s₃, hout, -⟩ := hlines.outline
    have hmem := FunctionForm.mem_outline hout hentry hfunction
    refine ⟨if m.isStatic then (c.binding s).1 else (c.binding s).1 ++ ".prototype", ?_⟩
    rw [hdefinition]
    exact List.mem_map.2 ⟨_, List.mem_append_left _ (List.mem_append_right _ hmem), rfl⟩
  | object lit =>
    obtain ⟨hdefinition, -⟩ := ObjectLiteral.lower_function_eq_ok hform hlower
    refine ⟨(s.shared "obj").1, ?_⟩
    rw [hdefinition]
    exact List.mem_map.2 ⟨_, FunctionForm.mem_objectLines _ hentry hfunction, rfl⟩

theorem Declaration.Units.keyedAlike {d : Declaration} {ds : List Decoration} (h : d.Units ds)
    {o : EmitOptions} {l : Lowered} {s s' : Scope} (hform : o.form = .constructorFunction)
    (hlower : d.lower o ds s = .ok (l, s')) {u : Decoration} (hu : u ∈ ds) {key : PropertyKey}
    {initial : Descriptor Nat} {places : List Nat}
    (hsub : u.subject = .property key initial places) : u.KeyedAlike d l key places where
  statements s st hst text htext := Decoration.key_of_mem_statements hsub hst htext
  definitions := by
    intro i hi
    obtain ⟨m, k, hm, hfunction, hk, hcomputed⟩ := (h.planned.1 u hu _ _ _ hsub).keyed i hi
    obtain ⟨target, hmem⟩ := Declaration.mem_definition hform hlower hm hfunction
    refine ⟨m, target, _, hm, hmem, ?_⟩
    cases key with
    | computed expression snapshot =>
      obtain ⟨e, snapshot', first, rest, hkey, rfl, hfirst, hrest⟩ :=
        h.captures_of_mem hu hsub rfl
      obtain ⟨rfl, rfl⟩ := PropertyKey.computed.inj hkey
      refine ⟨?_, nofun⟩
      unfold FunctionForm.keyUse
      rcases List.mem_cons.1 hi with rfl | hi
      · rw [hfirst]
        rfl
      · rw [(hrest i hi).2]
        rfl
    | static name =>
      obtain ⟨m', k', hm', hk', hstatic, hname⟩ := h.staticName?_eq hu hsub i hi
      obtain rfl : m = m' := Option.some.inj (hm.symm.trans hm')
      have hnone : (captures ds).lookup i = none := by
        rw [Option.eq_none_iff_forall_not_mem]
        intro c hc
        obtain ⟨m'', k'', hm'', -, hk'', hc⟩ := h.computed_of_captures hc
        obtain rfl : m = m'' := Option.some.inj (hm.symm.trans hm'')
        obtain rfl : k' = k'' := Option.some.inj (hk'.symm.trans hk'')
        exact absurd (hc.symm.trans hstatic) (by decide)
      have huse : FunctionForm.keyUse (captures ds) i m = .named (nameLiteral name) := by
        simp [FunctionForm.keyUse, hnone, hk', hstatic, hname]
      rw [huse]
      exact ⟨rfl, fun _ => rfl⟩
  names := by
    intro hstatic i hi
    cases key with
    | computed expression snapshot => cases hstatic
    | static name =>
      obtain ⟨m, k, hm, hk, hcomputed, rfl⟩ := h.staticName?_eq hu hsub i hi
      exact ⟨m, k, hm, hk, Key.staticName?_nameLiteral hcomputed⟩

/-- A name is read back from the literal that is emitted for it, keys with different names have
different literals, and the key of a unit is the one under which its members are defined. -/
theorem key_literals_name_their_keys :
    (∀ s : String, (Key.ofLiteral (PropertyKey.static (some (.ofString s))).render).staticName? =
      some (.ofString s)) ∧
    (∀ t : Text, (Key.ofLiteral (nameLiteral (some t))).staticName? = some t ↔ t.Joined) ∧
    (∀ k : Key, k.isComputed = false →
      (Key.ofLiteral (nameLiteral k.staticName?)).staticName? = k.staticName?) ∧
    (∀ k k' : Key, nameLiteral k.staticName? = nameLiteral k'.staticName? ↔
      k.staticName? = k'.staticName?) ∧
    ∀ (d : Declaration) (ds : List Decoration) (o : EmitOptions) (l : Lowered) (s s' : Scope),
      d.Units ds → o.form = .constructorFunction → d.lower o ds s = .ok (l, s') →
      ∀ u ∈ ds, ∀ key initial places, u.subject = .property key initial places →
        u.KeyedAlike d l key places := by
  refine ⟨?_, Key.staticName?_ofLiteral_iff, ?_, ?_, ?_⟩
  · intro s
    exact (Key.staticName?_ofLiteral_iff _).2 (Text.joined_ofChars _)
  · intro k hk
    exact Key.staticName?_nameLiteral hk
  · intro k k'
    exact ⟨Key.nameLiteral_inj, congrArg nameLiteral⟩
  · intro d ds o l s s' hunits hform hlower u hu key initial places hsub
    exact hunits.keyedAlike hform hlower hu hsub

namespace Sample

/-- A name with a quote and a character above the basic plane. -/
def quotedName : Text := .ofString "a\"😀"

/-- A class with a decorated method that has this name. -/
def quoted : ClassDecl where
  name := some "A"
  header := some "class A"
  members :=
    [{ kind := .method, key := some { text := "'a\"😀'", literal := some .string },
       body := some "\x7b\x7d", source := "'a\"😀'() \x7b\x7d", keySpan := some (0, 5),
       decorators := [{ text := "d", callee := some "d" }] }]

/-- The decoration of the method. -/
def quotedDecoration : Decoration where
  target := ⟨.prototype, "A"⟩
  decorators := [{ text := "d", callee := some "d" }]
  subject := .property (.static (some quotedName)) (.method (some 0)) [0]

end Sample

theorem key_literals_name_their_keys_of_sample :
    nameLiteral (some Sample.quotedName) = "\"a\\\"\\ud83d\\ude00\"" ∧
    (Key.ofLiteral "\"a\\\"\\ud83d\\ude00\"").staticName? = some Sample.quotedName ∧
    (Declaration.cls Sample.quoted).Units [Sample.quotedDecoration] ∧
    ∃ low s', (Declaration.cls Sample.quoted).lower { form := .constructorFunction }
        [Sample.quotedDecoration] (.avoiding "_" ["A", "d"]) = .ok (low, s') ∧
      Sample.quotedDecoration.KeyedAlike (.cls Sample.quoted) low
        (.static (some Sample.quotedName)) [0] := by
  have hliteral : nameLiteral (some Sample.quotedName) = "\"a\\\"\\ud83d\\ude00\"" := by
    decide +kernel
  have hunits : (Declaration.cls Sample.quoted).Units [Sample.quotedDecoration] := by
    have hds : (Declaration.cls Sample.quoted).decorations (.avoiding "_" ["A", "d"]) =
        .ok ([Sample.quotedDecoration], .avoiding "_" ["A", "d"]) := by decide +kernel
    exact Declaration.units hds
  have hok : ((Declaration.cls Sample.quoted).lower { form := .constructorFunction }
      [Sample.quotedDecoration] (.avoiding "_" ["A", "d"])).toBool = true := by decide +kernel
  obtain ⟨hread, -, -, -, hkeyed⟩ := key_literals_name_their_keys
  refine ⟨hliteral, hliteral ▸ hread "a\"😀", hunits, ?_⟩
  cases h : (Declaration.cls Sample.quoted).lower { form := .constructorFunction }
      [Sample.quotedDecoration] (.avoiding "_" ["A", "d"]) with
  | error e =>
    rw [h] at hok
    cases hok
  | ok p =>
    exact ⟨_, _, rfl, hkeyed _ _ _ _ _ _ hunits rfl h _ List.mem_cons_self _ _ _ rfl⟩

end Undecorate
