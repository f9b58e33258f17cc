import Undecorate.Proofs.Emit.Forms
import Undecorate.Proofs.Layout

/-! # What a definition that stays preserves

A class without decorators of its own stays a class, and an object literal stays one. Its definition
has the header and all members in their order, each with its captured key in the place of its own,
and is different from them in white space only.

* `Layout.erase_blockText`: what is set in braces, without white space;
* `ClassForm.erase_classDefinition`, `ClassForm.erase_objectDefinition`: the definitions;
* `definitions_preserve_sources`: for every class, literal and list of decorations.
-/

namespace Undecorate

open Text Layout

namespace Layout

theorem erase_rebaseText (s : String) : erase (rebaseText s).toList = erase s.toList := by
  unfold rebaseText onText
  rw [String.toList_ofList, erase_rebase]

theorem erase_blockText (size : Nat) (header : String) (entries : List String) :
    erase (blockText size header entries).toList = erase header.toList ++
      '\x7b' :: (entries.flatMap (fun e => erase e.toList) ++ ['\x7d']) := by
  unfold blockText
  rw [String.toList_ofList, erase_block, List.flatMap_map]

end Layout

namespace ClassForm

variable {size : Nat} {ds : List Decoration} {binding : String}

/-- A member as it is written before it is laid out: its source, with another key if its own is
captured. -/
def memberSource (captures : List (Nat × Capture)) (place : Nat) (m : Member) : String :=
  match captures.lookup place with
  | none => m.source
  | some c =>
    m.sourceWithKey <|
      if c.assigns then "[" ++ c.snapshot ++ " = " ++ (m.key.map (·.text)).getD "" ++ "]"
      else "[" ++ c.snapshot ++ "]"

/-- What stands behind a member of a class. -/
def terminator (m : Member) : String := if needsTerminator m then ";" else ""

/-- What stands behind a member of an object literal. -/
def separator (m : Member) : String := if m.kind = .comment then "" else ","

/-- The characters of all members in their order, each with a mark behind it. -/
def memberCharacters (captures : List (Nat × Capture)) (mark : Member → String)
    (members : List Member) : List Char :=
  members.zipIdx.flatMap fun (m, i) => erase (memberSource captures i m ++ mark m).toList

theorem memberText_eq (captures : List (Nat × Capture)) (place : Nat) (m : Member) :
    memberText captures place m = rebaseText (memberSource captures place m) := rfl

/-- Members that are laid out and marked keep their characters. -/
theorem erase_entries (captures : List (Nat × Capture)) (mark : Member → String)
    (members : List Member) :
    (members.zipIdx.map fun (m, i) => memberText captures i m ++ mark m).flatMap
        (fun e => erase e.toList) =
      memberCharacters captures mark members := by
  unfold memberCharacters
  rw [List.flatMap_map]
  refine List.flatMap_congr fun e _ => ?_
  dsimp only
  rw [String.toList_append, String.toList_append, erase_append, erase_append, memberText_eq,
    erase_rebaseText]

theorem erase_classDefinition {c : ClassDecl} (hname : c.name ≠ none) (hplain : c.decorators = []) :
    erase (classDefinition size c ds binding).toList = erase (header c).toList ++
      '\x7b' :: (memberCharacters (captures ds) terminator c.members ++ ['\x7d']) := by
  obtain ⟨name, hname⟩ := Option.ne_none_iff_exists'.1 hname
  unfold classDefinition
  rw [hplain, hname]
  dsimp only [List.isEmpty_nil]
  have hentries : (classEntries (captures ds) c.members).flatMap (fun e => erase e.toList) = _ :=
    erase_entries (captures ds) terminator c.members
  rw [if_pos rfl, erase_blockText, hentries]

theorem erase_objectDefinition {lit : ObjectLiteral} :
    erase (objectDefinition size lit ds binding).toList = erase binding.toList ++
      '=' :: '\x7b' :: (memberCharacters (captures ds) separator lit.members ++ ['\x7d', ';']) := by
  have hentries : (objectEntries (captures ds) lit.members).flatMap (fun e => erase e.toList) = _ :=
    erase_entries (captures ds) separator lit.members
  have hequals : erase " =".toList = ['='] := by decide
  have hend : erase ";".toList = [';'] := by decide
  unfold objectDefinition
  rw [String.toList_append, erase_append, erase_blockText, String.toList_append, erase_append,
    hentries, hequals, hend]
  simp only [List.append_assoc, List.cons_append, List.nil_append]

end ClassForm

open ClassForm in
/-- Laying out fragments, statements and blocks changes white space only. So does emitting a class
with a name and without decorators of its own, and emitting an object literal: each comes to one
definition, which has all members of its declaration in their order. -/
theorem definitions_preserve_sources :
    (∀ code, erase (rebase code) = erase code) ∧
    (∀ indent code, indent.all isBlank = true → erase (continueAt indent code) = erase code) ∧
    (∀ size levels statements,
      erase (indentLines size levels statements) = statements.flatMap erase) ∧
    (∀ size header entries, erase (block size header entries) =
      erase header ++ '\x7b' :: (entries.flatMap erase ++ ['\x7d'])) ∧
    (∀ (c : ClassDecl) (o : EmitOptions) (ds : List Decoration) (s : Scope),
      o.form = .classBased → c.name ≠ none → c.decorators = [] →
      ∃ l s' d, c.lower o ds s = .ok (l, s') ∧ l.definition = [.written d] ∧
        erase d.toList = erase (header c).toList ++
          '\x7b' :: (memberCharacters (captures ds) terminator c.members ++ ['\x7d'])) ∧
    ∀ (lit : ObjectLiteral) (o : EmitOptions) (ds : List Decoration) (s : Scope),
      o.form = .classBased →
      ∃ l s' d, lit.lower o ds s = .ok (l, s') ∧ l.definition = [.written d] ∧
        erase d.toList = erase l.binding.toList ++ '=' ::
          '\x7b' :: (memberCharacters (captures ds) separator lit.members ++ ['\x7d', ';']) := by
  refine ⟨erase_rebase, fun indent code h => erase_continueAt h code, erase_indentLines,
    erase_block, ?_, ?_⟩
  · intro c o ds s hform hname hplain
    exact ⟨_, _, _, ClassDecl.lower_class ds hform s, rfl, erase_classDefinition hname hplain⟩
  · intro lit o ds s hform
    exact ⟨_, _, _, ObjectLiteral.lower_class ds hform s, rfl, erase_objectDefinition⟩

namespace ClassForm.Sample

/-- A class with a computed key that a decoration captures, and with a field. -/
def cls : ClassDecl where
  name := some "A"
  header := some "class A extends B"
  members := [
    { kind := .method
      key := some { text := "k()", isComputed := true }
      source := "async [k()]() \x7b\n    return 1;\n  \x7d"
      keySpan := some (6, 11) },
    { kind := .field, key := some { text := "x" }, source := "x =\n      1" }]

def decoration : Decoration where
  target := ⟨.prototype, "A"⟩
  subject := .property (.computed "k()" (some "_key")) (.method (some 0)) [0]
  decorators := [{ text := "d" }]

end ClassForm.Sample

open ClassForm in
/-- The theorem at the class, and at a line that goes behind an indentation. -/
theorem definitions_preserve_sources_of_sample :
    erase (continueAt [' ', '\t'] "a \x7b\n b\n\x7d".toList) = "a\x7bb\x7d".toList ∧
    Sample.cls.name ≠ none ∧ Sample.cls.decorators = [] ∧
    ∃ l s' d, Sample.cls.lower {} [Sample.decoration] {} = .ok (l, s') ∧
      l.definition = [.written d] ∧
      erase d.toList = "classAextendsB\x7basync[_key=k()]()\x7breturn1;\x7dx=1;\x7d".toList := by
  obtain ⟨-, hcontinue, -, -, hcls, -⟩ := definitions_preserve_sources
  obtain ⟨l, s', d, hlower, hdefinition, herase⟩ :=
    hcls Sample.cls {} [Sample.decoration] {} rfl nofun rfl
  refine ⟨?_, nofun, rfl, l, s', d, hlower, hdefinition, ?_⟩
  · rw [hcontinue [' ', '\t'] _ (by decide)]
    decide
  · rw [herase]
    decide

end Undecorate
