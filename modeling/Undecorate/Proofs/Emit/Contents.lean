import Undecorate.Proofs.Emit.Hygiene
import Undecorate.Proofs.Emit.Keys
import Undecorate.Proofs.Layout

/-! # What an emitted declaration shows

What the body or the value of a member says is found in the emitted text of its declaration, up to
the layout of lines. In a class or object literal that stays one all members are written out; a
constructor function has no place for some.

* `Shown`: a text is found in another one up to the layout of lines;
* `Member.Shows`: it is found in all that may be written of a member;
* `ClassForm.shown_lower`, `FunctionForm.shown_lower`: it is found in the definition;
* `Declaration.shown_emit`, `Declaration.shown_emit_of_decorator`: it is found in the emitted text.
-/

namespace Undecorate

open Text Layout

variable {t : List Char} {s u : String}

/-! ## Texts -/

/-- A text is found in a string, up to the layout of lines. -/
def Shown (t : List Char) (s : String) : Prop := content t <:+: content s.toList

namespace Shown

theorem of_isInfix (h : t <:+: s.toList) : Shown t s := content_isInfix_of_isInfix h

theorem trans (h : Shown t s) (hs : s.toList <:+: u.toList) : Shown t u :=
  List.IsInfix.trans h (content_isInfix_of_isInfix hs)

theorem append_left (h : Shown t s) (u : String) : Shown t (u ++ s) := by
  refine h.trans ?_
  rw [String.toList_append]
  exact (List.suffix_append _ _).isInfix

theorem append_right (h : Shown t s) (u : String) : Shown t (s ++ u) := by
  refine h.trans ?_
  rw [String.toList_append]
  exact (List.prefix_append _ _).isInfix

/-- Laying out a string may keep its content. -/
theorem onText {f : List Char → List Char} (h : Shown t s)
    (hf : content t <:+: content s.toList → content t <:+: content (f s.toList)) :
    Shown t (Layout.onText f s) := by
  unfold Shown Layout.onText
  rw [String.toList_ofList]
  exact hf h

theorem rebaseText (h : Shown t s) : Shown t (Layout.rebaseText s) :=
  h.onText fun hs => by rwa [content_rebase]

theorem continueAt (h : Shown t s) {indent : List Char} (hindent : indent.all isBlank = true) :
    Shown t (Layout.onText (Layout.continueAt indent) s) :=
  h.onText fun hs => by rwa [content_continueAt hindent]

theorem blockBody (h : Shown t s) (ht : Unbraced t) :
    Shown t (Layout.onText Layout.blockBody s) :=
  h.onText ht.content_blockBody

theorem blockText (h : Shown t s) (size : Nat) (header : String) {entries : List String}
    (hs : s ∈ entries) : Shown t (Layout.blockText size header entries) := by
  unfold Shown Layout.blockText
  rw [String.toList_ofList]
  exact List.IsInfix.trans h (content_block size _ (List.mem_map_of_mem hs))

theorem indentText (h : Shown t s) (size levels : Nat) {statements : List String}
    (hs : s ∈ statements) : Shown t (Layout.indentText size levels statements) := by
  unfold Shown Layout.indentText
  rw [String.toList_ofList]
  exact List.IsInfix.trans h (content_indentLines size levels (List.mem_map_of_mem hs))

theorem isEmpty_eq_false (h : Shown t s) (ht : Solid t) : s.isEmpty = false := by
  obtain ⟨t', ⟨a, b, hs⟩, -, c, hc, -⟩ := ht.exists_isInfix h
  rw [String.isEmpty_eq_false_iff]
  rintro rfl
  have hnil : a ++ t' ++ b = [] := hs
  simp only [List.append_eq_nil_iff] at hnil
  rw [hnil.1.2] at hc
  cases hc

end Shown

/-! ## Members -/

/-- What a member does or is: the body of a function or static block, or the value of a field or
property. -/
def Member.part? (m : Member) : Option String :=
  match m.kind with
  | .field | .property => m.value
  | .method | .getter | .setter | .construct | .staticBlock => m.body
  | _ => none

/-- A text is found in the part of a member, and wherever the member is written out. -/
structure Member.Shows (m : Member) (t : List Char) : Prop where
  source : Shown t m.source
  withKey : ∀ key, Shown t (m.sourceWithKey key)
  part : ∃ s, m.part? = some s ∧ Shown t s

theorem mem_zipIdx_of_mem {α : Type} {a : α} {as : List α} (h : a ∈ as) :
    ∃ i, (a, i) ∈ as.zipIdx := by
  obtain ⟨i, hi⟩ := List.mem_iff_getElem?.1 h
  exact ⟨i, List.mem_zipIdx_iff_getElem?.2 hi⟩

variable {m : Member} {d : Declaration} {o : EmitOptions} {ds : List Decoration} {l : Lowered}
  {p p' : Scope}

/-! ## Classes and object literals that stay -/

namespace ClassForm

theorem shown_memberText (h : m.Shows t) (captures : List (Nat × Capture)) (place : Nat) :
    Shown t (memberText captures place m) := by
  unfold memberText
  split
  · exact h.source.rebaseText
  · exact (h.withKey _).rebaseText

theorem shown_lower (hform : o.form = .classBased) (hlower : d.lower o ds p = .ok (l, p'))
    (hm : m ∈ d.members) (h : m.Shows t) : ∃ st ∈ l.definition, Shown t st.render := by
  obtain ⟨header, close, mark, -, hdefinition⟩ := Declaration.lower_class_definition hform hlower
  obtain ⟨i, hi⟩ := mem_zipIdx_of_mem hm
  rw [hdefinition]
  refine ⟨_, List.mem_singleton_self _, ?_⟩
  have hentry := (shown_memberText h (captures ds) i).append_right (mark m)
  refine (hentry.blockText o.indentSize header ?_).append_right close
  exact List.mem_map.2 ⟨(m, i), hi, rfl⟩

end ClassForm

/-! ## Constructor functions -/

namespace FunctionForm

variable {cls binding : String} {captures : List (Nat × Capture)} {place : Nat}

theorem shown_defineCall {target key fields : String} (h : Shown t fields) :
    Shown t (defineCall target key fields) := by
  unfold defineCall
  exact (h.append_left _).append_right _

theorem shown_dataFields (h : Shown t s) : Shown t (dataFields s) := by
  unfold dataFields
  exact (h.append_left _).append_right _

theorem shown_functionFields (hbody : m.body = some s) (h : Shown t s) (enumerable : Bool) :
    Shown t (functionFields m enumerable) := by
  have hfunction : Shown t (functionText m) := by
    unfold functionText
    rw [hbody, Option.getD_some]
    exact h.rebaseText.append_left _
  unfold functionFields
  dsimp only
  split
  · exact ((hfunction.append_left _).append_right _).append_right _
  · exact ((hfunction.append_left _).append_right _).append_right _
  · exact (((hfunction.append_left _).append_right _).append_right _).append_right _

/-- The lines of a class that show a text: they set fields, or stand on their own. -/
def Outline.Shows (out : Outline) (t : List Char) : Prop :=
  (∃ line ∈ out.fields, Shown t line.render) ∨
    ∃ line ∈ out.definitions ++ out.statics, Shown t line.render

theorem Outline.Shows.append_left {out : Outline} (h : out.Shows t) (before : Outline) :
    (before.append out).Shows t := by
  rcases h with ⟨line, hline, hshown⟩ | ⟨line, hline, hshown⟩
  · exact .inl ⟨line, List.mem_append_right _ hline, hshown⟩
  · refine .inr ⟨line, ?_, hshown⟩
    simp only [Outline.append, List.mem_append] at hline ⊢
    exact hline.imp .inr .inr

theorem Outline.Shows.append_right {out : Outline} (h : out.Shows t) (after : Outline) :
    (out.append after).Shows t := by
  rcases h with ⟨line, hline, hshown⟩ | ⟨line, hline, hshown⟩
  · exact .inl ⟨line, List.mem_append_left _ hline, hshown⟩
  · refine .inr ⟨line, ?_, hshown⟩
    simp only [Outline.append, List.mem_append] at hline ⊢
    exact hline.imp .inl .inl

/-- Every member but a constructor has its part in a line of its own. -/
theorem shows_memberOutline (h : m.Shows t) (hconstruct : m.kind ≠ .construct)
    (hproperty : m.kind ≠ .property) (temporary : String) :
    (memberOutline cls captures place m temporary).Shows t := by
  obtain ⟨part, hpart, hshown⟩ := h.part
  unfold Member.part? at hpart
  unfold memberOutline
  cases hkind : m.kind with
  | construct => exact absurd hkind hconstruct
  | property => exact absurd hkind hproperty
  | comment | shorthand | spread | other =>
    rw [hkind] at hpart
    cases hpart
  | field =>
    rw [hkind] at hpart
    have hvalue : (m.value.map Layout.rebaseText).getD "void 0" = Layout.rebaseText part := by
      rw [show m.value = some part from hpart]
      rfl
    dsimp only
    rw [hvalue]
    cases m.isStatic with
    | true =>
      refine .inr ⟨_, List.mem_append_right _ (List.mem_singleton_self _), ?_⟩
      exact shown_defineCall (shown_dataFields hshown.rebaseText)
    | false =>
      refine .inl ⟨_, List.mem_singleton_self _, ?_⟩
      exact (hshown.rebaseText.append_left _).append_right _
  | staticBlock =>
    rw [hkind] at hpart
    have hbody : m.body.getD "" = part := by
      rw [show m.body = some part from hpart]
      rfl
    refine .inr ⟨_, List.mem_append_right _ (List.mem_singleton_self _), ?_⟩
    rw [Line.render, hbody]
    refine Shown.append_right (Shown.append_right (Shown.append_right ?_ _) _) _
    exact hshown.rebaseText.append_left _
  | method | getter | setter =>
    rw [hkind] at hpart
    refine .inr ⟨_, List.mem_append_left _ (List.mem_singleton_self _), ?_⟩
    exact shown_defineCall (shown_functionFields hpart hshown false)

theorem shows_outline {entries : List (Member × Nat)} {out : Outline}
    (hout : outline cls captures entries p = (out, p')) (hm : (m, place) ∈ entries)
    (h : m.Shows t) (hconstruct : m.kind ≠ .construct) (hproperty : m.kind ≠ .property) :
    out.Shows t := by
  induction entries generalizing p p' out with
  | nil => cases hm
  | cons e entries ih =>
    obtain ⟨m', i⟩ := e
    unfold outline at hout
    dsimp only at hout
    obtain ⟨rfl, -⟩ := Prod.mk.inj hout
    rcases List.mem_cons.1 hm with heq | hm
    · obtain ⟨rfl, rfl⟩ := Prod.mk.inj heq
      exact (shows_memberOutline h hconstruct hproperty _).append_right _
    · exact (ih rfl hm).append_left _

theorem shown_derivedConstruct {size : Nat} {parent this : String} {fields : List String}
    (h : Shown t s) (hs : s ∈ fields) :
    Shown t (derivedConstruct size cls parent this fields) := by
  have hne : fields.isEmpty = false := by
    cases fields with
    | nil => cases hs
    | cons => rfl
  have hset : Shown t (Layout.blockText size "(function ()" fields ++ ").call(" ++ this ++ ");") :=
    (((h.blockText _ _ hs).append_right _).append_right _).append_right _
  unfold derivedConstruct
  rw [hne]
  exact hset.blockText _ _ (List.mem_append_left _ (List.mem_cons_of_mem _
    (List.mem_singleton_self _)))

/-- The fields of an instance are set in the function of the class. -/
theorem ClassLines.shown {size : Nat} {c : ClassDecl} {opening : List Line} {out : Outline}
    (hlines : ClassLines size c captures cls p opening out p') (h : out.Shows t) :
    ∃ line ∈ opening ++ out.definitions ++ out.statics, Shown t line.render := by
  rcases h with ⟨line, hline, hshown⟩ | ⟨line, hline, hshown⟩
  · have hfield : line.render ∈ out.fields.map (·.render) := List.mem_map_of_mem hline
    have hopening : ∃ line ∈ opening, Shown t line.render := by
      cases hlines with
      | base params body =>
        refine ⟨_, List.mem_singleton_self _, ?_⟩
        exact hshown.blockText _ _ (List.mem_append_left _ hfield)
      | derived =>
        refine ⟨_, List.mem_cons_of_mem _ List.mem_cons_self, ?_⟩
        exact shown_derivedConstruct hshown hfield
    obtain ⟨line, hline, hshown⟩ := hopening
    exact ⟨line, List.mem_append_left _ (List.mem_append_left _ hline), hshown⟩
  · rw [List.append_assoc]
    exact ⟨line, List.mem_append_right _ hline, hshown⟩

/-- The statements of a constructor are those of the function. -/
theorem shown_construct {size : Nat} {c : ClassDecl} {texts : List String}
    (hdefined : classDefinition size c ds cls p = .ok (texts, p')) (hm : c.construct? = some m)
    (ht : Unbraced t) (hbody : m.body = some s) (h : Shown t s) :
    ∃ text ∈ texts, Shown t text := by
  unfold classDefinition at hdefined
  cases hbad : inexpressible? c.members with
  | some f => simp [hbad, bind_eq_ok, throw, throwThe, MonadExceptOf.throw] at hdefined
  | none =>
    simp only [hbad] at hdefined
    cases hparent : c.parent? with
    | some heritage =>
      simp [hparent, hm, bind_eq_ok, throw, throwThe, MonadExceptOf.throw] at hdefined
    | none =>
      simp only [hparent, hm, bind_eq_ok, during_eq_ok, pure_eq_ok, Prod.mk.injEq] at hdefined
      obtain ⟨⟨pieces, p₁⟩, -, function, hfunction, rfl, rfl⟩ := hdefined
      refine ⟨function, List.mem_append_left _ List.mem_cons_self, ?_⟩
      simp only [baseConstruct, hbody, bind_eq_ok, pure_eq_ok] at hfunction
      obtain ⟨_, rfl, rfl⟩ := hfunction
      have hstatements := h.blockBody ht
      refine hstatements.blockText _ _ (List.mem_append_right _ ?_)
      rw [hstatements.isEmpty_eq_false ht.toSolid, if_neg Bool.false_ne_true]
      exact List.mem_singleton_self _

theorem shown_objectOutline (h : m.Shows t)
    (hplace : m.kind.isFunction = true ∨ m.kind = .property) :
    ∃ line ∈ objectOutline binding captures place m, Shown t line.render := by
  obtain ⟨part, hpart, hshown⟩ := h.part
  unfold Member.part? at hpart
  unfold objectOutline
  cases hkind : m.kind with
  | method | getter | setter =>
    rw [hkind] at hpart
    refine ⟨_, List.mem_singleton_self _, ?_⟩
    exact shown_defineCall (shown_functionFields hpart hshown true)
  | property =>
    rw [hkind] at hpart
    have hvalue : m.value.getD "" = part := by
      rw [show m.value = some part from hpart]
      rfl
    dsimp only
    rw [hvalue]
    split
    · refine ⟨_, List.mem_singleton_self _, ?_⟩
      exact (hshown.rebaseText.append_left _).append_right _
    · refine ⟨_, List.mem_singleton_self _, ?_⟩
      exact shown_defineCall (shown_dataFields hshown.rebaseText)
  | construct | field | staticBlock | comment | shorthand | spread | other =>
    rw [hkind] at hplace
    rcases hplace with hplace | hplace <;> cases hplace

end FunctionForm

/-- Whether a constructor function has a place for what a member does or is: a class has no pairs
and one constructor, and an object literal only has functions and pairs. -/
def Declaration.places (d : Declaration) (m : Member) : Prop :=
  match d with
  | .cls c => m.kind ≠ .property ∧ (m.kind = .construct → c.construct? = some m)
  | .object _ => m.kind.isFunction = true ∨ m.kind = .property

theorem FunctionForm.shown_lower (hform : o.form = .constructorFunction)
    (hlower : d.lower o ds p = .ok (l, p')) (hm : m ∈ d.members) (hplace : d.places m)
    (ht : Unbraced t) (h : m.Shows t) : ∃ st ∈ l.definition, Shown t st.render := by
  obtain ⟨i, hi⟩ := mem_zipIdx_of_mem hm
  cases d with
  | cls c =>
    by_cases hconstruct : m.kind = .construct
    · simp only [Declaration.lower, ClassDecl.lower, hform, bind_eq_ok, pure_eq_ok,
        Prod.mk.injEq] at hlower
      obtain ⟨⟨definition, p₁⟩, hdefinition, rfl, rfl⟩ := hlower
      obtain ⟨part, hpart, hshown⟩ := h.part
      rw [Member.part?, hconstruct] at hpart
      obtain ⟨text, htext, hshown⟩ :=
        FunctionForm.shown_construct hdefinition (hplace.2 hconstruct) ht hpart hshown
      exact ⟨_, List.mem_map_of_mem htext, hshown⟩
    · obtain ⟨opening, out, p₁, hlines, hdefinition, -⟩ :=
        ClassDecl.lower_function_eq_ok hform hlower
      obtain ⟨_, _, hout, -⟩ := hlines.outline
      obtain ⟨line, hline, hshown⟩ :=
        hlines.shown (FunctionForm.shows_outline hout hi h hconstruct hplace.1)
      rw [hdefinition]
      exact ⟨_, List.mem_map_of_mem hline, hshown⟩
  | object lit =>
    obtain ⟨hdefinition, -⟩ := ObjectLiteral.lower_function_eq_ok hform hlower
    obtain ⟨line, hline, hshown⟩ := FunctionForm.shown_objectOutline h hplace
    rw [hdefinition]
    refine ⟨_, List.mem_map_of_mem (List.mem_cons_of_mem _ ?_), hshown⟩
    exact List.mem_flatMap.2 ⟨(m, i), hi, hline⟩

/-! ## Decorators -/

/-- The expression of a decorator is evaluated. -/
theorem Decoration.shown_statements {u : Decoration} {e : Decorator} (he : e ∈ u.decorators)
    (h : Shown t e.text) : ∃ st ∈ (u.statements p).1, Shown t st.render := by
  have hne : u.decorators.isEmpty = false := by
    cases hu : u.decorators with
    | nil =>
      rw [hu] at he
      cases he
    | cons => rfl
  obtain ⟨i, hi, rfl⟩ := List.mem_iff_getElem.1 he
  have hlength := Scope.length_freshMany p "dec" u.decorators.length
  have hevaluation : ∃ st ∈ ((p.freshMany "dec" u.decorators.length).1.zip u.decorators).map
      fun x => Statement.evaluate x.1 x.2.text, Shown t st.render := by
    refine ⟨_, List.mem_map_of_mem (List.mem_iff_getElem.2 ⟨i, ?_, rfl⟩), ?_⟩
    · rw [List.length_zip, hlength, Nat.min_self]
      exact hi
    · rw [List.getElem_zip]
      exact (h.append_left _).append_right _
  obtain ⟨st, hst, hshown⟩ := hevaluation
  refine ⟨st, ?_, hshown⟩
  unfold Decoration.statements
  rw [hne, if_neg Bool.false_ne_true]
  dsimp only
  split
  · exact List.mem_append_left _ hst
  · exact List.mem_append_left _ (List.mem_append_left _ (List.mem_append_left _ hst))

theorem shown_decorationStatements {u : Decoration} {e : Decorator} (hu : u ∈ ds)
    (he : e ∈ u.decorators) (h : Shown t e.text) :
    ∃ st ∈ (decorationStatements ds p).1, Shown t st.render := by
  induction ds generalizing p with
  | nil => cases hu
  | cons u' ds ih =>
    unfold decorationStatements
    dsimp only
    rcases List.mem_cons.1 hu with rfl | hu
    · obtain ⟨st, hst, hshown⟩ := u.shown_statements he h
      exact ⟨st, List.mem_append_left _ hst, hshown⟩
    · obtain ⟨st, hst, hshown⟩ := ih hu
      exact ⟨st, List.mem_append_right _ hst, hshown⟩

/-! ## Whole declarations -/

theorem Lowered.shown_expression {st : Statement} (hst : st ∈ l.statements)
    (h : Shown t st.render) : Shown t (l.expression o p) := by
  have hline : st.render ∈ Lowered.declarations p ++ l.statements.map (·.render) :=
    List.mem_append_right _ (List.mem_map_of_mem hst)
  unfold Lowered.expression
  dsimp only
  split
  · exact ((h.indentText _ _ hline).append_left _).append_right _
  · exact ((h.indentText _ _ hline).append_left _).append_right _

theorem Declaration.shown_bind (d : Declaration) (binding : String) (h : Shown t s) :
    Shown t (d.bind binding s) := by
  cases d with
  | object => exact h
  | cls c =>
    have hstatement : Shown t ("let " ++ binding ++ " = " ++ s ++ ";") :=
      (h.append_left _).append_right _
    unfold Declaration.bind ClassDecl.bind
    dsimp only
    split
    · exact h
    · split
      · exact ((hstatement.append_right _).append_right _).append_right _
      · exact hstatement.append_left _
      · exact hstatement

/-- What a member shows is found in the emitted declaration, unless it is a constructor function
without a place for it. -/
theorem Declaration.shown_emit (ht : Unbraced t) (hemit : d.emit o ds p = .ok (s, p'))
    (hm : m ∈ d.members) (hplace : o.form = .constructorFunction → d.places m) (h : m.Shows t) :
    Shown t s := by
  obtain ⟨l, hlower, rfl⟩ := Declaration.emit_eq_ok.1 hemit
  have hdefinition : ∃ st ∈ l.definition, Shown t st.render := by
    cases hform : o.form with
    | classBased => exact ClassForm.shown_lower hform hlower hm h
    | constructorFunction => exact FunctionForm.shown_lower hform hlower hm (hplace hform) ht h
  obtain ⟨st, hst, hshown⟩ := hdefinition
  refine d.shown_bind _ (Lowered.shown_expression ?_ hshown)
  exact List.mem_append_left _ (List.mem_append_left _ hst)

/-- What the expression of a decorator shows is found in the emitted declaration. -/
theorem Declaration.shown_emit_of_decorator (hemit : d.emit o ds p = .ok (s, p')) {u : Decoration}
    {e : Decorator} (hu : u ∈ ds) (he : e ∈ u.decorators) (h : Shown t e.text) : Shown t s := by
  obtain ⟨l, hlower, rfl⟩ := Declaration.emit_eq_ok.1 hemit
  obtain ⟨-, _, _, p₁, -, happlications⟩ := Declaration.lower_eq_ok hlower
  obtain ⟨st, hst, hshown⟩ := shown_decorationStatements (p := p₁) hu he h
  rw [happlications] at hst
  refine d.shown_bind _ (Lowered.shown_expression ?_ hshown)
  exact List.mem_append_left _ (List.mem_append_right _ hst)

/-- Every emitted declaration calls a function. -/
theorem Declaration.shown_call (hemit : d.emit o ds p = .ok (s, p')) : Shown ['(', ')'] s := by
  obtain ⟨l, -, rfl⟩ := Declaration.emit_eq_ok.1 hemit
  refine d.shown_bind _ ?_
  unfold Lowered.expression
  dsimp only
  split
  · have hopening : Shown ['(', ')'] "(() => \x7b\n" :=
      .of_isInfix ⟨['('], " => \x7b\n".toList, rfl⟩
    exact (hopening.append_right _).append_right _
  · have hopening : Shown ['(', ')'] "(function () \x7b\n" :=
      .of_isInfix ⟨"(function ".toList, " \x7b\n".toList, rfl⟩
    exact (hopening.append_right _).append_right _

end Undecorate
