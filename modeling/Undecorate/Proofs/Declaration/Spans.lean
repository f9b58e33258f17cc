import Undecorate.Proofs.Declaration.Contents
import Undecorate.Proofs.Declaration.Failures
import Undecorate.Proofs.Engine.Locality
import Undecorate.Proofs.Engine.Sites
import Undecorate.Proofs.Source.Seams

/-! # Where the key of a member stands

A member is built from texts with nested sites that have been lowered already, so its key stands in
its source where neither the bytes nor the characters of the original text tell. The key is read on
its own, and as no nested site reaches across its ends, the source falls into what stands before the
key, the key, and what stands behind it.

* `member_split`: the three texts of a member with a key;
* `Row.leading_le`: the decorators in front of a member end before its source begins;
* `Buffer.Laid.faults`: between characters a buffer can be read;
* `member_spans`: a member whose key no replacement reaches across;
* `keys_stand_in_their_sources`: for every member of every declaration.
-/

namespace Undecorate

open Source

/-- The decorators in front of a member: those that stand before it, and those that it begins
with. -/
def Row.leading (row : Row) : List Tree :=
  row.preceding ++ (row.node.children.takeWhile
    fun c => !(c.kind != "decorator" && c.kind != "comment")).filter (·.kind == "decorator")

/-- The text at the place that a member gives for its key. -/
def Member.textAtKey? (m : Member) : Option String :=
  m.keySpan.map fun (start, stop) =>
    let cs := m.source.toList
    String.ofList ((cs.take (place cs.length stop)).drop (place cs.length start))

/-- The source of a member is the text from `start` to `stop`, and its key has the place in it that
the node `k` has there. -/
structure Member.Spans (m : Member) (r : Reading) (start : Nat) (k : Tree) (stop : Nat) : Prop where
  whole : r.textOf start stop = .ok m.source
  /-- What stands at the place of the key is the text of its node, and the source is the same with
  this text put there. -/
  key : ∃ text, r.textOf k.start k.stop = .ok text ∧ m.textAtKey? = some text ∧
    m.sourceWithKey text = m.source
  /-- Another text in the place of the key leaves what is around it. -/
  around : ∃ head tail, r.textOf start k.start = .ok head ∧ r.textOf k.stop stop = .ok tail ∧
    ∀ new, m.sourceWithKey new = head ++ new ++ tail

/-! ## The texts of a member -/

section Texts

variable {r : Reading} {t k : Tree} {m : Member} {inClass : Bool} {preceding : List Tree}

/-- The source of a member with a key is put together from three texts, and the place of the key is
that of the second one. -/
theorem member_split (hkey : t.keyNode? = some k) (h : r.member preceding inClass t = .ok m) :
    ∃ head text tail, r.textOf t.firstPlain.start k.start = .ok head ∧
      r.textOf k.start k.stop = .ok text ∧ r.textOf k.stop t.stop = .ok tail ∧
      m.source = head ++ text ++ tail ∧
      m.keySpan = some ((head.length : Int), (head.length + text.length : Int)) := by
  obtain ⟨decorators, parts, name, -, hparts, hsourced⟩ := Reading.member_cases h
  have hname : name = some k := hparts.name_eq.trans hkey
  cases hsourced with
  | shorthand hkind =>
    have hnone : name = none := hparts.of_shorthand hkind
    rw [hname] at hnone
    cases hnone
  | plain _ hnone =>
    rw [hname] at hnone
    cases hnone
  | keyed _ hk _ hhead htext htail =>
    obtain rfl := Option.some.inj (hk.symm.trans hname)
    exact ⟨_, _, _, hhead, htext, htail, rfl, rfl⟩

theorem Member.textAtKey?_of_split {head text tail : String}
    (hsource : m.source = head ++ text ++ tail)
    (hspan : m.keySpan = some ((head.length : Int), (head.length + text.length : Int))) :
    m.textAtKey? = some text := by
  have hcs : m.source.toList = head.toList ++ text.toList ++ tail.toList := by
    rw [hsource, String.toList_append, String.toList_append]
  have hlength : m.source.toList.length = head.length + text.length + tail.length := by
    simp only [hcs, List.length_append, String.length_toList]
  have htake : m.source.toList.take (head.length + text.length) = head.toList ++ text.toList := by
    rw [hcs, ← String.length_toList, ← String.length_toList, ← List.length_append, List.take_left]
  have hdrop : (head.toList ++ text.toList).drop head.length = text.toList := by
    rw [← String.length_toList, List.drop_left]
  unfold Member.textAtKey?
  rw [hspan, Option.map_some]
  dsimp only
  rw [← Int.natCast_add, Member.place_natCast (by omega), Member.place_natCast (by omega), htake,
    hdrop, String.ofList_toList]

end Texts

/-! ## Places -/

section Places

variable {l : Located} {row : Row} {t k d : Tree}

theorem Tree.Laid.start_le_firstPlain (h : t.Laid) : t.start ≤ t.firstPlain.start := by
  unfold Tree.firstPlain
  cases hfind : t.children.find? fun c => c.kind != "decorator" && c.kind != "comment" with
  | none => exact Nat.le_refl _
  | some first =>
    exact (h.within t t.self_mem_preorder first (List.mem_of_find?_eq_some hfind)).1

/-- Decorators and comments at the beginning of a node end before its first other child. -/
theorem Tree.Laid.stop_le_firstPlain (h : t.Laid) (hk : k ∈ t.children)
    (hplain : k.kind ∉ ["decorator", "comment"])
    (hd : d ∈ t.children.takeWhile fun c => !(c.kind != "decorator" && c.kind != "comment")) :
    d.stop ≤ t.firstPlain.start := by
  have hkplain : (k.kind != "decorator" && k.kind != "comment") = true := by
    simpa using hplain
  unfold Tree.firstPlain
  cases hfind : t.children.find? fun c => c.kind != "decorator" && c.kind != "comment" with
  | none => exact absurd hkplain (List.find?_eq_none.1 hfind k hk)
  | some first =>
    rw [Option.getD_some]
    obtain ⟨hfirst, before, after, hsplit, hbefore⟩ := List.find?_eq_some_iff_append.1 hfind
    have htake : (t.children.takeWhile fun c => !(c.kind != "decorator" && c.kind != "comment")) =
        before := by
      rw [hsplit, List.takeWhile_append_of_pos hbefore,
        List.takeWhile_cons_of_neg (by simp [hfirst]), List.append_nil]
    have hsiblings := h.siblings t t.self_mem_preorder
    rw [hsplit, List.pairwise_append] at hsiblings
    rw [htake] at hd
    exact hsiblings.2.2 d hd first List.mem_cons_self

/-- The decorators in front of a member end before its source begins. -/
theorem Row.leading_le (hlaid : l.node.Laid) (hrow : row ∈ l.rows) (hk : k ∈ row.node.children)
    (hplain : k.kind ∉ ["decorator", "comment"]) (hd : d ∈ row.leading) :
    d.stop ≤ row.node.firstPlain.start := by
  have hnode := hlaid.of_mem (Located.row_mem_preorder hrow).1
  rcases List.mem_append.1 hd with hd | hd
  · obtain ⟨q, hq, hsub⟩ := Located.exists_home_of_row hrow
    have hsiblings := (hlaid.siblings q (Located.home?_mem_preorder hq)).sublist hsub
    have hbefore := (List.pairwise_append.1 hsiblings).2.2 d hd row.node
      (List.mem_singleton_self _)
    exact Nat.le_trans hbefore hnode.start_le_firstPlain
  · exact hnode.stop_le_firstPlain hk hplain (List.mem_of_mem_filter hd)

end Places

/-! ## Members in a buffer -/

section Members

variable {b : Buffer} {l : Located} {row : Row} {t k : Tree} {m : Member} {inClass : Bool}
  {preceding : List Tree}

/-- Between the edges of nodes that are cut between characters, reading does not fail. -/
theorem Source.Buffer.Laid.faults (h : b.Laid) {N : Tree → Prop}
    (hcut : ∀ n, N n → Boundary b.source n.start ∧ Boundary b.source n.stop)
    (hbelow : ∀ p, N p → ∀ c ∈ p.children, N c) :
    (Document.bufferReading b).Faults (fun _ => False) N where
  below := hbelow
  text a c ha hc := by
    have hedge : ∀ i, Tree.Edge N i → Boundary b.source (i : Nat) := by
      rintro i ⟨n, hn, rfl | rfl⟩
      · exact (hcut n hn).1
      · exact (hcut n hn).2
    obtain ⟨out, hout⟩ := h.exists_read? (hedge a ha) (hedge c hc)
    rw [bufferReading_textOf, hout]
    exact failsOnly_ok _

/-- Texts that are read on both sides of a seam make up the text across it. -/
theorem Source.Buffer.Laid.textOf_append (h : b.Laid) {i j e : Nat} {x y : String}
    (hj : Boundary b.source j) (hij : i ≤ j) (hje : j ≤ e)
    (hseam : ∀ r ∈ b.replacements, r.Inside i e → r.stop ≤ j ∨ j ≤ r.start)
    (hx : (Document.bufferReading b).textOf i j = .ok x)
    (hy : (Document.bufferReading b).textOf j e = .ok y) :
    (Document.bufferReading b).textOf i e = .ok (x ++ y) := by
  rw [bufferReading_textOf, readable_eq_ok] at hx hy ⊢
  rw [h.read?_append hj (Int.natCast_nonneg i) (Int.ofNat_le.2 hij) (Int.ofNat_le.2 hje) hseam,
    hx, hy, Option.bind_some, Option.map_some, String.toList_append]

/-- A member whose key no replacement reaches across says where its key stands. -/
theorem member_spans (h : b.Laid) (hlaid : t.Laid) (hkey : t.keyNode? = some k)
    (hplain : k.kind ∉ ["decorator", "comment"])
    (hcut : Boundary b.source k.start ∧ Boundary b.source k.stop)
    (hcross : ∀ r ∈ b.replacements, r.Inside t.start t.stop → ¬r.Cut k.start k.stop)
    (hbuilt : (Document.bufferReading b).member preceding inClass t = .ok m) :
    m.Spans (Document.bufferReading b) t.firstPlain.start k t.stop := by
  obtain ⟨head, text, tail, hhead, htext, htail, hsource, hspan⟩ := member_split hkey hbuilt
  have hk := Tree.keyNode?_mem hkey
  have hfirst := hlaid.start_le_firstPlain
  have hhere := hlaid.firstPlain_le hk hplain
  have hforward := hlaid.forward k (Tree.child_mem_preorder hk)
  have hstop := (hlaid.within t t.self_mem_preorder k hk).2
  -- no replacement inside the member has an end of the key in its middle
  have hends : ∀ r ∈ b.replacements, r.Inside t.firstPlain.start t.stop →
      (r.stop ≤ k.start ∨ (k.start : Int) ≤ r.start) ∧
        (r.stop ≤ k.stop ∨ (k.stop : Int) ≤ r.start) := by
    intro r hr hin
    have hnot := hcross r hr ⟨by have := hin.1; omega, hin.2⟩
    unfold Replacement.Cut Replacement.Inside at hnot
    omega
  have hfront : (Document.bufferReading b).textOf t.firstPlain.start k.stop = .ok (head ++ text) :=
    h.textOf_append hcut.1 hhere hforward
      (fun r hr hin => (hends r hr ⟨hin.1, by have := hin.2; omega⟩).1) hhead htext
  have hwhole : (Document.bufferReading b).textOf t.firstPlain.start t.stop =
      .ok (head ++ text ++ tail) :=
    h.textOf_append hcut.2 (Nat.le_trans hhere hforward) hstop
      (fun r hr hin => (hends r hr hin).2) hfront htail
  have hreplaced := Member.sourceWithKey_of_split hsource hspan
  refine ⟨?_, ⟨text, htext, Member.textAtKey?_of_split hsource hspan, ?_⟩,
    ⟨head, tail, hhead, htail, hreplaced⟩⟩
  · rw [hwhole, hsource]
  · rw [hreplaced, hsource]

/-- Every member with a key is built, however many sites nested in it have been lowered before: its
source is the text from its first child that is no decorator or comment, and its key stands there
where its node stands. The decorators in front of the member end before this text, which does not
depend on anything before it. -/
theorem keys_stand_in_their_sources (hbuffer : b.Laid) (hlaid : l.node.Laid)
    (hcut : ∀ n ∈ l.node.preorder, Boundary b.source n.start ∧ Boundary b.source n.stop)
    (hrow : row ∈ l.rows) (hparts : row.node.HasParts) (hkey : row.node.keyNode? = some k)
    (hplain : k.kind ∉ ["decorator", "comment"])
    (hcross : ∀ r ∈ b.replacements, r.Inside row.node.start row.node.stop →
      ¬r.Cut k.start k.stop) :
    ∃ m, (Document.bufferReading b).member row.preceding l.node.isClass row.node = .ok m ∧
      m.Spans (Document.bufferReading b) row.node.firstPlain.start k row.node.stop ∧
      (∀ d ∈ row.leading, d.stop ≤ row.node.firstPlain.start) ∧
      ∀ before after other, b.source = before ++ after →
        byteLength before = row.node.firstPlain.start → byteLength other = byteLength before →
        (Document.bufferReading { b with source := other ++ after }).textOf
          row.node.firstPlain.start row.node.stop = .ok m.source := by
  obtain ⟨hnode, hpreceding⟩ := Located.row_mem_preorder hrow
  have hk := Tree.keyNode?_mem hkey
  have hbelow : ∀ p ∈ l.node.preorder, ∀ c ∈ p.children, c ∈ l.node.preorder :=
    fun p hp c hc => Tree.mem_preorder_trans (Tree.child_mem_preorder hc) hp
  obtain ⟨m, hm⟩ : ∃ m, (Document.bufferReading b).member row.preceding l.node.isClass row.node =
      .ok m :=
    ((hbuffer.faults hcut hbelow).member hnode hparts hpreceding l.node.isClass).exists_ok
  have hspans := member_spans hbuffer (hlaid.of_mem hnode) hkey hplain
    (hcut k (hbelow row.node hnode k hk)) hcross hm
  refine ⟨m, hm, hspans, fun d hd => Row.leading_le hlaid hrow hk hplain hd, ?_⟩
  intro before after other hsource hlength hother
  rw [← hspans.whole, bufferReading_textOf, bufferReading_textOf,
    hbuffer.read?_behind hsource hother.symm (by omega)]

end Members

namespace Sample

/-- A computed key with a site in it. -/
def keyedName : Tree :=
  .node { id := 12, kind := "computed_property_name", start := 36, stop := 55, field := "name" }
    [.node { id := 13, kind := "call_expression", start := 37, stop := 54 }
      [leaf 14 "object" 39 53 ""]]

/-- A method with this key, and with a site in its decorator and in its body. -/
def keyed : Tree :=
  .node { id := 5, kind := "method_definition", start := 11, stop := 80 }
    [.node { id := 6, kind := "decorator", start := 11, stop := 28 }
      [.node { id := 7, kind := "call_expression", start := 12, stop := 28 }
        [leaf 8 "identifier" 12 13 "function",
          .node { id := 9, kind := "arguments", start := 13, stop := 28, field := "arguments" }
            [leaf 10 "object" 14 27 ""]]],
      leaf 11 "static" 29 35 "", keyedName, leaf 15 "formal_parameters" 55 57 "parameters",
      .node { id := 16, kind := "statement_block", start := 58, stop := 80, field := "body" }
        [leaf 17 "object" 65 78 ""]]

/-- A class with this method. -/
def keyedClass : Tree :=
  .node { id := 1, kind := "class_declaration", start := 0, stop := 82 }
    [leaf 2 "class" 0 5 "", leaf 3 "identifier" 6 8 "name",
      .node { id := 4, kind := "class_body", start := 9, stop := 82, field := "body" } [keyed]]

/-- Its text, with the nested sites lowered. -/
def keyedBuffer : Buffer where
  source := String.toList <| "class É \x7b @d(\x7b @f a() \x7b\x7d \x7d) " ++
    "static [k(\x7b @f φ() \x7b\x7d \x7d)]() \x7b ñ = \x7b @f c() \x7b\x7d \x7d \x7d \x7d"
  replacements := [⟨14, 27, "(a)"⟩, ⟨39, 53, "(φ, ψ)"⟩, ⟨65, 78, "(ω, \n 2)"⟩]

end Sample

/-- The theorem at the method. -/
theorem keys_stand_in_their_sources_of_sample :
    Sample.keyedBuffer.Laid ∧ Sample.keyedClass.Laid ∧
    ∃ m, (Document.bufferReading Sample.keyedBuffer).member [] true Sample.keyed = .ok m ∧
      m.source = "static [k((φ, ψ))]() \x7b ñ = (ω, \n 2) \x7d" ∧
      m.textAtKey? = some "[k((φ, ψ))]" ∧
      m.sourceWithKey "[_k]" = "static [_k]() \x7b ñ = (ω, \n 2) \x7d" := by
  have hbuffer : Sample.keyedBuffer.Laid := by decide +kernel
  have hlaid : Sample.keyedClass.Laid := by decide +kernel
  have hrow : ⟨[], Sample.keyed⟩ ∈ Located.rows ⟨none, Sample.keyedClass⟩ := List.mem_cons_self
  have hkey : Sample.keyed.keyNode? = some Sample.keyedName := rfl
  obtain ⟨m, hm, hspans, -, -⟩ := keys_stand_in_their_sources (l := ⟨none, Sample.keyedClass⟩)
    hbuffer hlaid (by decide +kernel) hrow (by decide +kernel) hkey (by decide) (by decide +kernel)
  -- the replacements are listed in the order of the text, so they need no sorting
  have hsorted : Sample.keyedBuffer.replacements.mergeSort Buffer.outermostFirst =
      Sample.keyedBuffer.replacements :=
    List.mergeSort_of_pairwise (by decide)
  have hread : ∀ {a c : Nat} {s s' : String},
      (Document.bufferReading Sample.keyedBuffer).textOf a c = .ok s →
      Buffer.readFrom Sample.keyedBuffer.source c a Sample.keyedBuffer.replacements =
        some s'.toList → s = s' := by
    intro a c s s' hs hs'
    rw [bufferReading_textOf, readable_eq_ok, Buffer.read?, hsorted, hs'] at hs
    exact (String.toList_inj.1 (Option.some.inj hs)).symm
  obtain ⟨text, htext, hplace, -⟩ := hspans.key
  obtain ⟨head, tail, hhead, htail, haround⟩ := hspans.around
  have htext : text = "[k((φ, ψ))]" := hread htext (by decide +kernel)
  have hhead : head = "static " := hread hhead (by decide +kernel)
  have htail : tail = "() \x7b ñ = (ω, \n 2) \x7d" := hread htail (by decide +kernel)
  have hsource : m.source = "static [k((φ, ψ))]() \x7b ñ = (ω, \n 2) \x7d" :=
    hread hspans.whole (by decide +kernel)
  refine ⟨hbuffer, hlaid, m, hm, hsource, by rw [hplace, htext], ?_⟩
  rw [haround, hhead, htail]
  decide

end Undecorate
