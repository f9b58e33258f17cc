import Undecorate.Engine.Files
import Undecorate.Proofs.Json.Reader

/-! # What a merge does to the settings

Sections are merged one by one, and each is looked at only when its turn comes. So what a merge
leaves is what was given in front of the first section that is not a record, over the settings
before: everything that was given where all sections are records. A merge that is refused leaves the
settings as they were only if what it had merged by then was in them already.

* `get?_update`: what the settings hold after a merge of records;
* `update_stop`: a merge of records goes on, and stops at the first other section;
* `update_eq_self_iff`: the merges that change nothing;
* `merges_in_front_of_the_first_fault`: all of this for what is given and for what is loaded.
-/

namespace Undecorate

/-- Whether the value is a record. -/
def Data.isRecord : Data → Bool
  | .record _ => true
  | _ => false

namespace Settings

variable {s : Settings} {given : List (Text × Data)}

/-- What a mapping of sections has under a section and a key. -/
def given? (given : List (Text × Data)) (section' key : Text) : Option Data :=
  match given.lookup section' with
  | some (.record entries) => entries.lookup key
  | _ => none

theorem given?_cons (name : Text) (entries : Section) (rest : List (Text × Data))
    (section' key : Text) : given? ((name, .record entries) :: rest) section' key =
      if section' = name then entries.lookup key else given? rest section' key := by
  unfold given?
  rw [lookup_field_cons]
  split_ifs <;> rfl

/-- A section that is not named gives nothing. -/
theorem given?_eq_none {section' : Text} (h : section' ∉ given.map (·.1)) (key : Text) :
    given? given section' key = none := by
  rw [given?, lookup_eq_none_of_not_mem h]

/-! ## Single settings -/

theorem entries_set (s : Settings) (section' key : Text) (value : Data) (other : Text) :
    (s.set section' key value).entries other =
      if other = section' then setField key value (s.entries section') else s.entries other := by
  unfold entries set
  dsimp only
  rw [lookup_setField]
  split_ifs <;> rfl

theorem get?_set (s : Settings) (section' key : Text) (value : Data) (other otherKey : Text) :
    (s.set section' key value).get? other otherKey =
      if other = section' ∧ otherKey = key then some value else s.get? other otherKey := by
  unfold get?
  rw [entries_set]
  by_cases hsection : other = section'
  · rw [if_pos hsection, lookup_setField, hsection]
    simp
  · rw [if_neg hsection, if_neg fun h => hsection h.1]

/-- Setting what is set already changes nothing, the order of the settings included. -/
theorem set_eq_self {section' key : Text} {value : Data} (h : s.get? section' key = some value) :
    s.set section' key value = s := by
  have hsection : s.sections.lookup section' = some (s.entries section') := by
    unfold get? entries at h
    unfold entries
    cases hlookup : s.sections.lookup section' with
    | none => simp [hlookup] at h
    | some entries => rfl
  unfold set
  rw [setField_eq_self h, setField_eq_self hsection]

/-! ## Whole sections -/

theorem get?_setAll (s : Settings) (section' : Text) {entries : Section}
    (h : (entries.map (·.1)).Nodup) (other key : Text) :
    (s.setAll section' entries).get? other key =
      (if other = section' then entries.lookup key else none).or (s.get? other key) := by
  induction entries generalizing s with
  | nil => split_ifs <;> rfl
  | cons entry entries ih =>
    rw [List.map_cons, List.nodup_cons] at h
    -- the entries behind do not set the first one again
    have hrest : entries.lookup entry.1 = none := lookup_eq_none_of_not_mem h.1
    change ((s.set section' entry.1 entry.2).setAll section' entries).get? other key = _
    rw [ih _ h.2, get?_set, lookup_field_cons]
    by_cases hsection : other = section'
    · by_cases hkey : key = entry.1
      · simp [hsection, hkey, hrest]
      · simp [hsection, hkey]
    · simp [hsection]

theorem setAll_eq_self {section' : Text} {entries : Section}
    (h : ∀ entry ∈ entries, s.get? section' entry.1 = some entry.2) :
    s.setAll section' entries = s := by
  induction entries with
  | nil => rfl
  | cons entry entries ih =>
    rw [List.forall_mem_cons] at h
    change (s.set section' entry.1 entry.2).setAll section' entries = s
    rw [set_eq_self h.1, ih h.2]

/-! ## Merges -/

/-- A value that can be written is written into the report. -/
theorem invalid_of_isWritable {setting reason : Text} {value : Data}
    (h : value.isWritable = true) : invalid setting value reason none =
      .refused (.invalidSetting setting (.data value) reason) :=
  if_pos h

theorem update_record (s : Settings) (name : Text) (entries : Section)
    (rest : List (Text × Data)) :
    s.update ((name, .record entries) :: rest) = (s.setAll name entries).update rest :=
  rfl

/-- A merge goes through the records in front, and its fault is that of the rest. -/
theorem update_append (s : Settings) {before : List (Text × Data)}
    (h : ∀ p ∈ before, p.2.isRecord) (rest : List (Text × Data)) :
    s.update (before ++ rest) = (s.update before).1.update rest := by
  induction before generalizing s with
  | nil => rfl
  | cons p before ih =>
    rw [List.forall_mem_cons] at h
    obtain ⟨name, d⟩ := p
    cases d with
    | record entries => exact ih (s.setAll name entries) h.2
    | _ => exact absurd h.1 Bool.false_ne_true

theorem update_records (s : Settings) (h : ∀ p ∈ given, p.2.isRecord) :
    (s.update given).2 = none := by
  rw [← List.append_nil given, update_append s h]
  rfl

/-- A merge stops at a section that is no record, and keeps what it has merged so far. -/
theorem update_stop (s : Settings) {before : List (Text × Data)}
    (h : ∀ p ∈ before, p.2.isRecord) (name : Text) {bad : Data} (hbad : bad.isRecord = false)
    (after : List (Text × Data)) : s.update (before ++ (name, bad) :: after) =
      ((s.update before).1, some (invalid name bad "sections must be objects" none)) := by
  rw [update_append s h]
  cases bad with
  | record entries => cases hbad
  | _ => rfl

/-- What is there after a merge of records: what was given, and otherwise what was there before. -/
theorem get?_update (s : Settings) (hdistinct : (Data.record given).Distinct)
    (h : ∀ p ∈ given, p.2.isRecord) (section' key : Text) :
    (s.update given).1.get? section' key =
      (given? given section' key).or (s.get? section' key) := by
  induction given generalizing s with
  | nil => rfl
  | cons p rest ih =>
    obtain ⟨name, d⟩ := p
    rw [List.forall_mem_cons] at h
    cases d with
    | record entries =>
      have hentries : (entries.map (·.1)).Nodup := (hdistinct.field List.mem_cons_self).names
      have hname : given? rest name key = none :=
        given?_eq_none (List.nodup_cons.1 hdistinct.names).1 key
      rw [update_record, ih _ (hdistinct.sublist (List.sublist_cons_self _ _)) h.2,
        get?_setAll s name hentries, given?_cons]
      by_cases hsection : section' = name
      · simp [hsection, hname]
      · simp [hsection]
    | _ => exact absurd h.1 Bool.false_ne_true

/-- A merge of records changes nothing iff it only says again what the settings say. -/
theorem update_eq_self_iff (hdistinct : (Data.record given).Distinct)
    (h : ∀ p ∈ given, p.2.isRecord) : (s.update given).1 = s ↔
      ∀ section' key value, given? given section' key = some value →
        s.get? section' key = some value := by
  constructor
  · intro hself section' key value hgiven
    have hread := get?_update s hdistinct h section' key
    rwa [hself, hgiven, Option.some_or] at hread
  · intro hsaid
    induction given with
    | nil => rfl
    | cons p rest ih =>
      obtain ⟨name, d⟩ := p
      rw [List.forall_mem_cons] at h
      cases d with
      | record entries =>
        have hentries : ∀ entry ∈ entries, s.get? name entry.1 = some entry.2 := by
          intro entry hentry
          refine hsaid name entry.1 entry.2 ?_
          rw [given?_cons, if_pos rfl]
          exact lookup_of_mem (hdistinct.field List.mem_cons_self).names hentry
        -- the first section says nothing new, and the others do not name it again
        rw [update_record, setAll_eq_self hentries]
        refine ih (hdistinct.sublist (List.sublist_cons_self _ _)) h.2
          fun section' key value hgiven => hsaid section' key value ?_
        rw [given?_cons, if_neg, hgiven]
        rintro rfl
        rw [given?_eq_none (List.nodup_cons.1 hdistinct.names).1 key] at hgiven
        cases hgiven
      | _ => exact absurd h.1 Bool.false_ne_true

/-- What a merge of sections comes to. -/
inductive Merged (s : Settings) (given : List (Text × Data)) : Settings × Option Fault → Prop
  /-- All sections are records: what was given is there, and all else is as before. -/
  | all {s' : Settings} (records : ∀ p ∈ given, p.2.isRecord)
      (reads : ∀ section' key,
        s'.get? section' key = (given? given section' key).or (s.get? section' key)) :
      Merged s given (s', none)
  /-- The first other section is reported, unless it holds a whole number with too many digits to be
  written into the report. What was given in front of it is there, and all else is as before; so the
  settings are the same only where nothing new was given in front of it. -/
  | upTo {s' : Settings} {before after : List (Text × Data)} {name : Text} {bad : Data}
      {fault : Fault} (split : given = before ++ (name, bad) :: after)
      (records : ∀ p ∈ before, p.2.isRecord) (other : bad.isRecord = false)
      (reported : bad.isWritable = true →
        fault = .refused (.invalidSetting name (.data bad) "sections must be objects"))
      (unwritten : bad.isWritable = false → fault = .tooLong)
      (reads : ∀ section' key,
        s'.get? section' key = (given? before section' key).or (s.get? section' key))
      (same : s' = s ↔ ∀ section' key value, given? before section' key = some value →
        s.get? section' key = some value) :
      Merged s given (s', some fault)

/-- Either all sections are records, or there is a first one that is none. -/
theorem records_or_split (given : List (Text × Data)) : (∀ p ∈ given, p.2.isRecord) ∨
    ∃ before name bad after, given = before ++ (name, bad) :: after ∧
      (∀ p ∈ before, p.2.isRecord) ∧ bad.isRecord = false := by
  induction given with
  | nil => exact .inl (List.forall_mem_nil _)
  | cons p rest ih =>
    obtain ⟨name, d⟩ := p
    cases hd : d.isRecord with
    | false => exact .inr ⟨[], name, d, rest, rfl, List.forall_mem_nil _, hd⟩
    | true =>
      rcases ih with h | ⟨before, name', bad, after, rfl, h, hbad⟩
      · exact .inl (List.forall_mem_cons.2 ⟨hd, h⟩)
      · exact .inr ⟨(name, d) :: before, name', bad, after, rfl,
          List.forall_mem_cons.2 ⟨hd, h⟩, hbad⟩

theorem merged_update (s : Settings) (hdistinct : (Data.record given).Distinct) :
    Merged s given (s.update given) := by
  rcases records_or_split given with h | ⟨before, name, bad, after, rfl, h, hbad⟩
  · have hall : s.update given = ((s.update given).1, none) := Prod.ext rfl (update_records s h)
    rw [hall]
    exact .all h (get?_update s hdistinct h)
  · have hbefore : (Data.record before).Distinct :=
      hdistinct.sublist (List.sublist_append_left _ _)
    rw [update_stop s h name hbad after]
    exact .upTo rfl h hbad invalid_of_isWritable
      (fun hunwritten => if_neg (ne_true_of_eq_false hunwritten)) (get?_update s hbefore h)
      (update_eq_self_iff hbefore h)

/-! ## Files -/

/-- A document that reads as a record is merged like any mapping of sections. Every other document
is refused before anything is merged. -/
theorem load_cases (s : Settings) (path document : String) :
    (∃ fields, Json.read document.toList = .ok (.record fields) ∧
      s.load path document = s.update fields) ∨
    (∀ fields, Json.read document.toList ≠ .ok (.record fields)) ∧
      ∃ fault, s.load path document = (s, some fault) := by
  unfold load
  cases hread : Json.read document.toList with
  | error f => exact .inr ⟨nofun, _, rfl⟩
  | ok d =>
    cases d with
    | record fields => exact .inl ⟨fields, rfl, rfl⟩
    | _ => exact .inr ⟨nofun, _, rfl⟩

/-- What a merge of a file comes to: that of the sections in its document, or no change at all. -/
theorem loadFile_cases (s : Settings) (files : Store) (path : String) :
    (∃ text fields, files.read path = .ok text ∧ Json.read text.toList = .ok (.record fields) ∧
      s.loadFile files path = s.update fields) ∨
    (∀ text fields, files.read path = .ok text → Json.read text.toList ≠ .ok (.record fields)) ∧
      ∃ fault, s.loadFile files path = (s, some fault) := by
  unfold loadFile
  cases hfile : files.read path with
  | error f =>
    refine .inr ⟨nofun, ?_⟩
    -- a file that cannot be opened, and any other fault
    cases hkind : Fault.isSystemKind f.kindName
    · exact ⟨f, by simp [hkind]⟩
    · exact ⟨.refused (fileDiagnostic ("Cannot read configuration file: " ++ f.text) path),
        by simp [hkind]⟩
  | ok text =>
    rcases load_cases s path text with ⟨fields, hread, hload⟩ | ⟨hother, hload⟩
    · exact .inl ⟨text, fields, rfl, hread, hload⟩
    · refine .inr ⟨fun text' fields h => ?_, hload⟩
      cases h
      exact hother fields

/-- A merge of a mapping of sections, whatever the settings, takes all sections or those in front of
the first one that is no record. A file is merged in the same way if its document is a mapping,
which can always be written then, and changes nothing otherwise. -/
theorem merges_in_front_of_the_first_fault (s : Settings) :
    (∀ given, (Data.record given).Distinct → Merged s given (s.update given)) ∧
    ∀ files path,
      (∃ text fields result, files.read path = .ok text ∧
        Json.read text.toList = .ok (.record fields) ∧ (Data.record fields).isWritable = true ∧
        Merged s fields result ∧ s.loadFile files path = result) ∨
      (∀ text fields, files.read path = .ok text → Json.read text.toList ≠ .ok (.record fields)) ∧
        ∃ fault, s.loadFile files path = (s, some fault) := by
  refine ⟨fun given hdistinct => merged_update s hdistinct, fun files path => ?_⟩
  rcases loadFile_cases s files path with ⟨text, fields, hfile, hread, hload⟩ | hother
  · exact .inl ⟨text, fields, s.update fields, hfile, hread, Json.read_isWritable hread,
      merged_update s (Json.read_distinct hread), hload⟩
  · exact .inr hother

/-- A mapping whose second section is no record, behind one with a new indentation. -/
def halfGood : List (Text × Data) :=
  [("emission", .record [("indent_size", .int 4)]), ("parsing", .int 5)]

/-- The new indentation stays, though the merge is refused. -/
theorem half_good_merge_stays : Merged .defaults halfGood (Settings.defaults.update halfGood) ∧
    (Settings.defaults.update halfGood).2 =
      some (.refused (.invalidSetting "parsing" (.data (.int 5)) "sections must be objects")) ∧
    Settings.defaults.get? "emission" "indent_size" = some (.int 2) ∧
    (Settings.defaults.update halfGood).1.get? "emission" "indent_size" = some (.int 4) := by
  have hentries : (Data.record [("indent_size", .int 4)]).Distinct :=
    Data.Distinct.no_fields.setField (.int 4)
  have hgiven : (Data.record halfGood).Distinct :=
    .record (by decide) (List.forall_mem_cons.2 ⟨hentries, List.forall_mem_singleton.2 (.int 5)⟩)
  have hwritable : (Data.int 5).isWritable = true := by
    have hdigits : (5 : Int).natAbs = Number.decimalValue ['5'] := rfl
    rw [Data.isWritable]
    exact Number.isWritable_of_digits hdigits (by decide)
  have hfault : (Settings.defaults.update halfGood).2 =
      some (.refused (.invalidSetting "parsing" (.data (.int 5)) "sections must be objects")) := by
    have hfront : ∀ p ∈ [(Text.ofString "emission", Data.record [("indent_size", .int 4)])],
        p.2.isRecord := by decide
    have hother : (Data.int 5).isRecord = false := rfl
    have hstop := update_stop .defaults hfront "parsing" hother []
    rw [invalid_of_isWritable hwritable] at hstop
    exact congrArg Prod.snd hstop
  exact ⟨(merges_in_front_of_the_first_fault .defaults).1 halfGood hgiven,
    hfault, rfl, rfl⟩

end Settings

end Undecorate
