import Undecorate.Proofs.Declaration.Attachment
import Undecorate.Proofs.Declaration.Members
import Undecorate.Proofs.Emit.Forms
import Undecorate.Proofs.Emit.Header
import Undecorate.Proofs.Engine.Nesting

/-! # Classes that are bound to a variable

A class with decorators of its own is defined as an anonymous class under a variable, so that its
body refers to what the decorators make of it. The class stays anonymous only as far as its name can
be taken out of the header, and that is told by the text around the name: a name behind blanks goes
away, and with a comment in front of it, it stays, as does an `abstract` with a comment behind it.

* `Reading.declaration_header`: where the header of a class comes from;
* `inner_names_go_behind_blanks`: the definition of a decorated class, and when it is anonymous.
-/

namespace Undecorate

open Text

/-- The class has a header of these parts, apart from blanks in front of its body. -/
structure Tree.Heads (t : Tree) (r : Reading) (p : Header.Parts) : Prop where
  name : ∃ node, t.child? "name" = some node ∧ r.text node = .ok (String.ofList p.name)
  header : ∃ body text, t.child? "body" = some body ∧
    r.textOf t.firstPlain.start body.start = .ok text ∧ trimEnd text.toList = p.text

section Headers

variable {r : Reading} {l : Located} {c : ClassDecl} {p : Header.Parts} {o : EmitOptions}

/-- The name and the header of a class are read from its node, and its decorators are those of the
node and of an export statement around it. -/
theorem Reading.declaration_header (h : r.declaration l = .ok (.cls c)) :
    r.text? (l.node.child? "name") = .ok c.name ∧
      (∃ body text, l.node.child? "body" = some body ∧
        r.textOf l.node.firstPlain.start body.start = .ok text ∧
        c.header = some (stripEnd text)) ∧
      l.classDecorators.mapM r.decorator = .ok c.decorators := by
  unfold Reading.declaration at h
  split at h
  · obtain ⟨cls, hcls, heq⟩ := map_eq_ok.1 h
    obtain rfl := Declaration.cls.inj heq
    simp only [Reading.classDecl, bind_eq_ok, pure_eq_ok, Reading.need_eq_ok] at hcls
    obtain ⟨name, hname, heritage, -, body, hbody, text, htext, ms, -, ds, hds, rfl⟩ := hcls
    exact ⟨hname, ⟨body, text, hbody, htext, rfl⟩, hds⟩
  · obtain ⟨lit, -, heq⟩ := map_eq_ok.1 h
    cases heq

/-- A class is built with the name and the header that its node has. -/
theorem Tree.Heads.eq_some (h : l.node.Heads r p) (hbuilt : r.declaration l = .ok (.cls c)) :
    c.name = some (String.ofList p.name) ∧ c.header = some (String.ofList p.text) := by
  obtain ⟨hname, ⟨body, text, hbody, htext, hheader⟩, -⟩ := Reading.declaration_header hbuilt
  obtain ⟨node, hnode, hread⟩ := h.name
  obtain ⟨body', text', hbody', htext', htrim⟩ := h.header
  constructor
  · rw [hnode, Reading.text?, hread] at hname
    exact (Except.ok.inj hname).symm
  · obtain rfl := Option.some.inj (hbody.symm.trans hbody')
    obtain rfl := Except.ok.inj (htext.symm.trans htext')
    rw [hheader, stripEnd, htrim]

theorem nonempty?_ofList {cs : List Char} (h : cs ≠ []) :
    nonempty? (some (String.ofList cs)) = some (String.ofList cs) := by
  simp [nonempty?, Option.filter, h]

/-- A named class with decorators of its own is bound to its name, with what is left of its
header. -/
theorem ClassForm.classDefinition_decorated {size : Nat} {ds : List Decoration} {binding : String}
    {name text : List Char} (hdecorated : c.decorators ≠ [])
    (hname : c.name = some (String.ofList name)) (hheader : c.header = some (String.ofList text))
    (hne : text ≠ []) :
    classDefinition size c ds binding = Layout.blockText size ("let " ++ binding ++ " = " ++
      String.ofList (Header.dropAbstract (Header.dropName name text)))
      (classEntries (captures ds) c.members) ++ ";" := by
  have hkept : header c = String.ofList text := by
    rw [header, hheader, nonempty?_ofList hne, Option.getD_some]
  have hempty : c.decorators.isEmpty = false := by simpa using hdecorated
  unfold classDefinition
  simp only [hempty, Bool.false_eq_true, if_false, hname, hkept, Layout.onText,
    String.toList_ofList]

/-- A class with decorators of its own becomes `let name = header body;`. The header loses the name
at the first mention of the class, and an `abstract` before a blank. Where the class is mentioned
nowhere else, exactly its `abstract` and its name are away if a blank stands behind the one and
blanks alone stand before the other; otherwise one of them stays. Whatever stands behind the name
stays. With nothing but blanks between the tokens the class is always anonymous. -/
theorem inner_names_go_behind_blanks (hbuilt : r.declaration l = .ok (.cls c))
    (hdecorated : l.classDecorators ≠ []) (hheads : l.node.Heads r p) (hlexed : p.Lexed)
    (hform : o.form = .classBased) (ds : List Decoration) (s : Scope) :
    ∃ out s' header, c.lower o ds s = .ok (out, s') ∧ out.binding = String.ofList p.name ∧
      out.definition = [.written (Layout.blockText o.indentSize
        ("let " ++ String.ofList p.name ++ " = " ++ String.ofList header)
        (ClassForm.classEntries (captures ds) c.members) ++ ";")] ∧
      (∃ kept, Header.Dropped p.name p.text kept ∧ header = Header.dropAbstract kept) ∧
      (p.Quiet → header = p.written ∧ (header = p.bare ↔ p.Plain)) ∧
      (p.Spaced → header = p.bare) := by
  obtain ⟨hname, hheader⟩ := hheads.eq_some hbuilt
  have hdecorators : c.decorators ≠ [] := by
    intro hnil
    have hlength := (mapM_eq_ok.1 (Reading.declaration_header hbuilt).2.2).length_eq
    rw [hnil] at hlength
    exact hdecorated (List.length_eq_zero_iff.1 hlength)
  have hbinding : (c.binding s).1 = String.ofList p.name := by
    rw [ClassDecl.binding, hname, nonempty?_ofList hlexed.name.ne_nil]
  have hne : p.text ≠ [] := by simp [Header.Parts.text, Header.keyword]
  have hkept := Header.dropped_dropName hlexed.name p.text
  have hquiet : p.Quiet → Header.dropAbstract (Header.dropName p.name p.text) = p.written :=
    fun hquiet => hlexed.dropAbstract_eq hquiet hkept
  refine ⟨_, _, Header.dropAbstract (Header.dropName p.name p.text),
    ClassDecl.lower_class ds hform s, hbinding, ?_, ⟨_, hkept, rfl⟩, ?_, ?_⟩
  · dsimp only
    rw [ClassForm.classDefinition_decorated hdecorators hname hheader hne, hbinding]
  · intro hq
    rw [hquiet hq]
    exact ⟨rfl, hlexed.written_eq_bare_iff⟩
  · intro hspaced
    rw [hquiet hspaced.quiet]
    exact hlexed.written_eq_bare_iff.2 (hlexed.plain hspaced)

end Headers

namespace Sample

/-- An abstract class with a comment in front of its name. -/
def commentedClass : Tree :=
  .node { id := 1, kind := "abstract_class_declaration", start := 0, stop := 46 }
    [.node { id := 2, kind := "decorator", start := 0, stop := 2, field := "decorator" }
      [token 3 "@" 0 1, leaf 4 "identifier" 1 2 ""],
      token 5 "abstract" 3 11, token 6 "class" 12 17, leaf 7 "comment" 18 25 "",
      leaf 8 "type_identifier" 26 27 "name", leaf 9 "type_parameters" 27 30 "type_parameters",
      .node { id := 10, kind := "class_heritage", start := 31, stop := 43 }
        [.node { id := 11, kind := "extends_clause", start := 31, stop := 43 }
          [token 12 "extends" 31 38, leaf 13 "identifier" 39 40 "value",
            leaf 14 "type_arguments" 40 43 "type_arguments"]],
      leaf 15 "class_body" 44 46 "body"]

/-- The text of this class. -/
def commentedText : List Char :=
  "@d abstract class /* c */ A<T> extends B<A> \x7b\x7d".toList

/-- The parts of its header. -/
def commentedParts : Header.Parts where
  modifier := some " ".toList
  gap := " /* c */ ".toList
  name := "A".toList
  tail := "<T> extends B<A>".toList

end Sample

/-- The theorem at the class with the comment: its `abstract` is taken away, and its name is not. -/
theorem commented_name_stays :
    ∃ c, (Reading.plain Sample.commentedText).declaration ⟨none, Sample.commentedClass⟩ =
        .ok (.cls c) ∧
      ∃ out s', c.lower { form := .classBased } [] (.avoiding "_" []) = .ok (out, s') ∧
        out.definition =
          [.written "let A = class /* c */ A<T> extends B<A> \x7b\x7d;"] ∧
        Sample.commentedParts.bare = "class /* c */ <T> extends B<A>".toList := by
  have hread : ∀ {a b : Nat} {cs : List Char}, Source.slice? Sample.commentedText a b = some cs →
      (Reading.plain Sample.commentedText).textOf a b = .ok (String.ofList cs) := by
    intro a b cs hslice
    simp [Reading.plain, hslice]
  have hheads : Sample.commentedClass.Heads (Reading.plain Sample.commentedText)
      Sample.commentedParts :=
    ⟨⟨_, rfl, hread (by decide +kernel)⟩,
      ⟨_, String.ofList "abstract class /* c */ A<T> extends B<A> ".toList, rfl,
        hread (by decide +kernel), by decide +kernel⟩⟩
  have hlexed : Sample.commentedParts.Lexed :=
    ⟨by unfold Header.WordStart; decide +kernel, by decide, Text.Tight.singleton (by decide),
      by decide⟩
  have hquiet : Sample.commentedParts.Quiet :=
    Header.Parts.quiet_of_dropName_eq hlexed.name (by decide +kernel)
  have hok : ((Reading.plain Sample.commentedText).declaration
      ⟨none, Sample.commentedClass⟩).isOk = true := by decide +kernel
  cases hbuilt : (Reading.plain Sample.commentedText).declaration
      ⟨none, Sample.commentedClass⟩ with
  | error f =>
    rw [hbuilt] at hok
    cases hok
  | ok d =>
    cases d with
    | object lit =>
      have hobject : Sample.commentedClass.isClass = false := (declaration_built hbuilt).own
      cases hobject
    | cls c =>
      have hmembers : c.members = [] := by
        have hall := declaration_members hbuilt
        have hrows : Located.rows ⟨none, Sample.commentedClass⟩ = [] := rfl
        rw [hrows] at hall
        exact List.forall₂_nil_left_iff.1 hall
      obtain ⟨out, s', header, hlower, -, hdefinition, -, hwritten, -⟩ :=
        inner_names_go_behind_blanks (o := { form := .classBased }) hbuilt (by decide) hheads
          hlexed rfl [] (.avoiding "_" [])
      refine ⟨c, rfl, out, s', hlower, ?_, by decide⟩
      rw [hdefinition, hmembers, (hwritten hquiet).1]
      decide +kernel

end Undecorate
