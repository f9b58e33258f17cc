import Undecorate.Proofs.Emit.Keys
import Undecorate.Proofs.Engine.Hygiene

/-! # Computed keys are evaluated once

There are three ways to define the members of a declaration: in the object model, in a class or
object literal that stays one, and by single properties after a constructor function. They evaluate
the same computed keys, in source order and once each, and the members of a decorated property have
the key of the first of them.

* `SharedKey`: what is known of the key of a decorated property;
* `computed_keys_are_evaluated_once`: the three ways agree;
* `pair_in_class_is_left_out`: the third has no place for pairs in a class, so their keys are not
  evaluated.
-/

namespace Undecorate

/-- The key of a decorated computed property with a snapshot, whose first member stands at `first`
and whose other members stand at `rest`. -/
structure SharedKey (d : Declaration) (ds : List Decoration) (snapshot : String) (first : Nat)
    (rest : List Nat) : Prop where
  /-- The snapshot is assigned before it is read. -/
  later : ∀ i ∈ rest, first < i
  /-- In the object model, all members have the value that is found for the first one. -/
  values : ∀ values : List Value, values.length = (keyExpressions ds d.members).length →
    ∃ v, (Realization.ownValues ds d.members values).lookup first = some v ∧
      ∀ i ∈ first :: rest, (Realization.keyTable ds d.members values).lookup i = some v
  /-- In a class or object literal, the first key assigns the snapshot and the others read it. -/
  texts : ∀ i ∈ first :: rest, ∃ m head text tail, d.members[i]? = some m ∧
    m.source = head ++ text ++ tail ∧
    m.keySpan = some ((head.length : Int), (head.length + text.length : Int)) ∧
    ClassForm.memberText (captures ds) i m = Layout.rebaseText (head ++
      (if i = first then "[" ++ snapshot ++ " = " ++ keyText d.members i ++ "]"
        else "[" ++ snapshot ++ "]") ++ tail)

/-- The computed keys of a declaration that was built from a tree and classified. The plans of its
decorated properties do not overlap and have different snapshots; which key expressions are
evaluated depends on the declaration only. The object model evaluates them in order, each once, and
then knows the keys of all members. A class or object literal has its members in order, with shared
keys as planned. So has a definition by single properties, which evaluates the expressions of the
members that it has a place for; decorators are applied after the definition. -/
theorem computed_keys_are_evaluated_once {r : Reading} {l : Located} {d : Declaration}
    (hd : r.declaration l = .ok d) {ds : List Decoration} (hds : d.Units ds) :
    ((captures ds).map (·.1)).Nodup ∧ (snapshots ds).Nodup ∧
    (∀ ds', d.Units ds' → keyExpressions ds' d.members = keyExpressions ds d.members) ∧
    (∀ {σ : Type} (host : Host σ) (names : Names),
      Realization.keysOf host names d.members ds = (do
        let values ← (keyExpressions ds d.members).mapM (names.evaluate host)
        return Realization.keyTable ds d.members values)) ∧
    (∀ u ∈ ds, ∀ key initial places, u.subject = .property key initial places →
      key.isComputed = true → ∃ expression snapshot first rest,
        key = .computed expression (some snapshot) ∧ places = first :: rest ∧
          SharedKey d ds snapshot first rest) ∧
    ∀ o s low s', d.lower o ds s = .ok (low, s') →
      low.statements = low.definition ++ (low.applications ++ [.give low.binding]) ∧
      (o.form = .classBased → ∃ header close, ∃ mark : Member → String,
        (∀ m, mark m ∈ ["", ";", ","]) ∧
        low.definition = [.written (Layout.blockText o.indentSize header
          (d.members.zipIdx.map fun e =>
            ClassForm.memberText (captures ds) e.2 e.1 ++ mark e.1) ++ close)]) ∧
      (o.form = .constructorFunction → ∃ lines fields, d.WrittenAs o ds low lines fields ∧
        lines.flatMap FunctionForm.Line.evaluates =
          (ownKeys ds (d.members.zipIdx.filter (d.rebuilds ·.1))).map (·.2) ∧
        fields.flatMap FunctionForm.Line.evaluates = [] ∧
        ∀ u ∈ ds, ∀ expression snapshot initial first rest,
          u.subject = .property (.computed expression (some snapshot)) initial (first :: rest) →
          FunctionForm.usesOf snapshot lines = .captured snapshot (keyText d.members first) ::
            rest.map (fun _ => FunctionForm.KeyUse.recalled snapshot) ∧
          FunctionForm.usesOf snapshot fields = []) := by
  have hw := declaration_written hd
  refine ⟨hds.nodup_captures, hds.nodup_snapshots, fun ds' h' => h'.keyExpressions_eq hds,
    Realization.keysOf_eq hds, ?_, ?_⟩
  · intro u hu key initial places hsub hcomputed
    obtain ⟨expression, snapshot, first, rest, rfl, rfl, -, hrest⟩ :=
      hds.captures_of_mem hu hsub hcomputed
    exact ⟨expression, snapshot, first, rest, rfl, rfl, fun i hi => (hrest i hi).1,
      fun values hlength => Realization.lookup_keyTable_of_mem hds hlength hu hsub rfl,
      hds.memberText hw hu hsub⟩
  · intro o s low s' hlower
    exact ⟨List.append_assoc _ _ _, fun hform => Declaration.lower_class_definition hform hlower,
      fun hform => hds.writtenAs hw hform hlower⟩

namespace Sample

/-- A key `[k()]` with the identities from `id` on. -/
def callKey (id start : Nat) (field : String) : Tree :=
  .node { id, kind := "computed_property_name", start, stop := start + 5, field }
    [.node { id := id + 1, kind := "call_expression", start := start + 1, stop := start + 4 }
      [leaf (id + 2) "identifier" (start + 1) (start + 2) "function",
        leaf (id + 3) "arguments" (start + 2) (start + 4) "arguments"]]

/-- A class with the two halves of an accessor, and a pair behind them. -/
def pairedClass : Tree :=
  .node { id := 1, kind := "class_declaration", start := 0, stop := 54 }
    [token 2 "class" 0 5, leaf 3 "identifier" 6 7 "name",
      .node { id := 4, kind := "class_body", start := 8, stop := 54, field := "body" }
        [.node { id := 5, kind := "method_definition", start := 10, stop := 27 }
          [.node { id := 6, kind := "decorator", start := 10, stop := 12 }
            [leaf 7 "identifier" 11 12 ""],
            token 8 "get" 13 16, callKey 9 17 "name",
            leaf 13 "formal_parameters" 22 24 "parameters",
            leaf 14 "statement_block" 25 27 "body"],
          .node { id := 15, kind := "method_definition", start := 28, stop := 43 }
          [token 16 "set" 28 31, callKey 17 32 "name",
            leaf 21 "formal_parameters" 37 40 "parameters",
            leaf 22 "statement_block" 41 43 "body"],
          .node { id := 23, kind := "pair", start := 44, stop := 52 }
          [callKey 24 44 "key", leaf 28 "number" 51 52 "value"]]]

/-- Its document. -/
def paired : Document := ofStatement
  "class A \x7b @d get [k()]() \x7b\x7d set [k()](v) \x7b\x7d [p()]: 1 \x7d" pairedClass

/-- The class in its document. -/
def pairedSite : Located := ⟨some paired.tree, pairedClass⟩

/-- The declaration that is built. -/
def pairedDecl : ClassDecl where
  name := some "A"
  header := some "class A"
  members :=
    [{ kind := .getter, key := some { text := "k()", isComputed := true }, body := some "\x7b\x7d",
       source := "get [k()]() \x7b\x7d", keySpan := some (4, 9),
       decorators := [{ text := "d", callee := some "d", range := some (onLine 10 12) }],
       range := some (onLine 13 27) },
      { kind := .setter, key := some { text := "k()", isComputed := true }, signature := "(v)",
        body := some "\x7b\x7d", source := "set [k()](v) \x7b\x7d", keySpan := some (4, 9),
        range := some (onLine 28 43) },
      { kind := .property, key := some { text := "p()", isComputed := true }, value := some "1",
        source := "[p()]: 1", keySpan := some (0, 5), range := some (onLine 44 52) }]
  range := some (onLine 0 54)

/-- The decoration of its accessor. -/
def pairedDecoration : Decoration where
  target := ⟨.prototype, "A"⟩
  decorators := [{ text := "d", callee := some "d", range := some (onLine 10 12) }]
  subject := .property (.computed "k()" (some "_key")) (.accessor (some 0) (some 1)) [0, 1]
  range := some (onLine 13 27)

/-- The scope after its classification. -/
def pairedScope : Scope := ((Scope.avoiding "_" ["A", "d", "k", "p"]).fresh "key").2

theorem pairedDecl_units :
    (Declaration.cls pairedDecl).decorations (.avoiding "_" ["A", "d", "k", "p"]) =
      .ok ([pairedDecoration], pairedScope) := by
  decide +kernel

end Sample

/-- The accessor shares its key in each of the three ways. -/
theorem computed_keys_are_evaluated_once_of_sample :
    (Reading.plain Sample.paired.source).declaration Sample.pairedSite =
      .ok (.cls Sample.pairedDecl) ∧
    (Declaration.cls Sample.pairedDecl).Units [Sample.pairedDecoration] ∧
    keyExpressions [Sample.pairedDecoration] Sample.pairedDecl.members = ["k()", "p()"] ∧
    SharedKey (.cls Sample.pairedDecl) [Sample.pairedDecoration] "_key" 0 [1] ∧
    ∃ low s', (Declaration.cls Sample.pairedDecl).lower { form := .constructorFunction }
        [Sample.pairedDecoration] Sample.pairedScope = .ok (low, s') ∧
      ∃ lines fields, (Declaration.cls Sample.pairedDecl).WrittenAs
          { form := .constructorFunction } [Sample.pairedDecoration] low lines fields ∧
        lines.flatMap FunctionForm.Line.evaluates = ["k()"] ∧
        FunctionForm.usesOf "_key" lines = [.captured "_key" "k()", .recalled "_key"] := by
  have hd : (Reading.plain Sample.paired.source).declaration Sample.pairedSite =
      .ok (.cls Sample.pairedDecl) := by decide +kernel
  have hds : (Declaration.cls Sample.pairedDecl).Units [Sample.pairedDecoration] :=
    Declaration.units Sample.pairedDecl_units
  have hok : ((Declaration.cls Sample.pairedDecl).lower { form := .constructorFunction }
      [Sample.pairedDecoration] Sample.pairedScope).toBool = true := by decide +kernel
  obtain ⟨-, -, -, -, hshared, hlower⟩ := computed_keys_are_evaluated_once hd hds
  refine ⟨hd, hds, by decide +kernel, ?_, ?_⟩
  · obtain ⟨expression, snapshot, first, rest, hkey, hplaces, hone⟩ :=
      hshared Sample.pairedDecoration List.mem_cons_self _ _ _ rfl rfl
    cases hkey
    cases hplaces
    exact hone
  · cases h : (Declaration.cls Sample.pairedDecl).lower { form := .constructorFunction }
        [Sample.pairedDecoration] Sample.pairedScope with
    | error e =>
      rw [h] at hok
      cases hok
    | ok p =>
      obtain ⟨lines, fields, hwritten, hevaluates, -, huses⟩ := (hlower _ _ _ _ h).2.2 rfl
      refine ⟨_, _, rfl, lines, fields, hwritten, ?_, ?_⟩
      · rw [hevaluates]
        decide +kernel
      · exact (huses _ List.mem_cons_self _ _ _ _ _ rfl).1

/-- The key of a pair in a class body is among the expressions to be evaluated, but a definition by
single properties does not have it. -/
theorem pair_in_class_is_left_out :
    (Reading.plain Sample.paired.source).declaration Sample.pairedSite =
      .ok (.cls Sample.pairedDecl) ∧
    (Declaration.cls Sample.pairedDecl).decorations (.avoiding "_" ["A", "d", "k", "p"]) =
      .ok ([Sample.pairedDecoration], Sample.pairedScope) ∧
    "p()" ∈ keyExpressions [Sample.pairedDecoration] Sample.pairedDecl.members ∧
    ∃ low s', (Declaration.cls Sample.pairedDecl).lower { form := .constructorFunction }
        [Sample.pairedDecoration] Sample.pairedScope = .ok (low, s') ∧
      ∀ t ∈ low.definition, ¬ "p()".toList <:+: t.render.toList := by
  have habsent : (((Declaration.cls Sample.pairedDecl).lower { form := .constructorFunction }
      [Sample.pairedDecoration] Sample.pairedScope).toOption.any fun p =>
        p.1.definition.all fun t => decide (¬ "p()".toList <:+: t.render.toList)) = true := by
    decide +kernel
  refine ⟨by decide +kernel, Sample.pairedDecl_units, by decide +kernel, ?_⟩
  cases h : (Declaration.cls Sample.pairedDecl).lower { form := .constructorFunction }
      [Sample.pairedDecoration] Sample.pairedScope with
  | error e =>
    rw [h] at habsent
    cases habsent
  | ok p =>
    rw [h] at habsent
    refine ⟨_, _, rfl, ?_⟩
    intro t ht
    exact of_decide_eq_true (List.all_eq_true.1 habsent t ht)


end Undecorate
