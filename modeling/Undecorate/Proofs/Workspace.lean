import Undecorate.Proofs.Batch
import Undecorate.Proofs.Engine.Recoverable
import Undecorate.Proofs.Files.Store
import Undecorate.Workspace
import Mathlib.Data.List.Induction

/-! # Lowering the files of a workspace

The files of a workspace are read and written in one store, one after the other. Every file comes
to what its own content comes to, with one exception: when a file that was lowered before it has
been written to the place where it is read from, it comes to what that content comes to.

* `endOf_lowerOne`: one file is read, lowered and written, or the store stays as it is;
* `Passed.step`: what one more file adds to what is known of the files before it;
* `files_lower_independently`: what every file comes to, and what is left in the store.
-/

namespace Undecorate

/-! ## Reading files -/

namespace Store

variable {s : Store} {path : String}

theorem load_of_lookup {p : Place} {content : Content} (hplace : s.place path = .ok p)
    (hfile : s.files.lookup p = some content) : s.load path = content.read := by
  have hhas : s.has path = true := by simp [has, hplace, isFile, hfile]
  rw [load, if_pos hhas, read, hplace]
  simp only [hfile]

theorem load_of_place_error {f : PathFault} (hplace : s.place path = .error f) :
    s.load path =
      .error (.raised "FileNotFoundError" (.ofString ("File not found: " ++ path))) := by
  have hhas : ¬s.has path = true := by simp [has, hplace]
  rw [load, if_neg hhas]

theorem failsOnly_load (s : Store) (path : String) : FailsOnly Fault.Recoverable (s.load path) := by
  cases hplace : s.place path with
  | error f =>
    rw [load_of_place_error hplace]
    exact failsOnly_error rfl
  | ok p =>
    cases hfile : s.files.lookup p with
    | some content =>
      rw [load_of_lookup hplace hfile]
      cases content with
      | text text => exact failsOnly_ok _
      | octets bytes =>
        rw [Content.read]
        split
        · exact failsOnly_ok _
        · exact failsOnly_error rfl
    | none =>
      refine failsOnly_ite (fun _ => ?_) fun _ => failsOnly_error rfl
      rw [read, hplace]
      simp only [hfile]
      split
      · exact failsOnly_error rfl
      · exact failsOnly_error rfl

/-- The path leads to a file with this text. -/
def Holds (s : Store) (path text : String) : Prop :=
  ∃ p, s.place path = .ok p ∧ s.files.lookup p = some (.text text)

/-- The paths lead to one place. -/
def SamePlace (s : Store) (path path' : String) : Prop :=
  ∃ p, s.place path = .ok p ∧ s.place path' = .ok p

end Store

namespace Settings

theorem recoverable_invalid {setting reason : Text} {value : Data} {issues : Option (List Issue)}
    (h : value.isWritable = true) : (invalid setting value reason issues).Recoverable := by
  have hobstacle : (Diagnostic.invalidSetting setting (.data value) reason).obstacle = none :=
    Diagnostic.obstacle_make (List.forall_mem_cons.2 ⟨rfl, List.forall_mem_cons.2
      ⟨if_pos h, List.forall_mem_singleton.2 rfl⟩⟩)
  rw [invalid, if_pos h]
  exact Fault.recoverable_of_obstacle hobstacle

/-- Options that are refused are recorded, unless they cannot be written. -/
theorem failsOnly_emitOptions {settings : Settings} {form : Option Data}
    (h : settings.emitOptions form ≠ .error .tooLong) :
    FailsOnly Fault.Recoverable (settings.emitOptions form) := by
  unfold emitOptions at h ⊢
  dsimp only at h ⊢
  split
  · exact failsOnly_ok _
  · rename_i issues hread
    refine failsOnly_error (recoverable_invalid ?_)
    by_contra hunwritten
    rw [hread] at h
    exact h (congrArg Except.error (if_neg hunwritten))

end Settings

/-- An engine that is asked for by the name of a language is made if there are options for it. -/
theorem Engine.make_eq (settings : Settings) (language : Language) (form : Option Data) :
    make settings (some (.text language.name)) form none = (do
      let options ← settings.emitOptions form
      return { language, options }) := by
  cases language <;> rfl

/-- A file is read and lowered before anything is written. -/
theorem Engine.endOf_lowerFile {parse : Parser} {path target : String} {s : Store} (e : Engine)
    (htarget : target ≠ "") : endOf (e.lowerFile parse path (some target)) s =
      match s.load path >>= e.lowerText parse with
      | .error err => (.error err, s)
      | .ok text => ((endOf (writeText target text) s).1.map fun _ => text,
          (endOf (writeText target text) s).2) := by
  have hnonempty : nonempty? (some target) = some target := by simp [nonempty?, htarget]
  rw [lowerFile, run_bind, run_get]
  dsimp only
  rw [run_bind, run_liftExcept]
  cases s.load path with
  | error err => rfl
  | ok text =>
    dsimp only
    rw [run_bind, run_liftExcept, ok_bind]
    cases e.lowerText parse text with
    | error err => rfl
    | ok lowered =>
      dsimp only
      rw [hnonempty]
      dsimp only
      rw [run_bind]
      rcases endOf (writeText target lowered) s with ⟨err | u, t⟩
      · rfl
      · rfl

namespace Workspace

variable {w : Workspace} {settings : Settings} {parse : Parser} {output : String}
  {form : Option Data} {s t : Store} {file : Place × Language}

/-! ## One file -/

/-- What a content in a language comes to. -/
def lowerContent (settings : Settings) (parse : Parser) (form : Option Data) (language : Language)
    (content : Content) : Except Fault String := do
  let engine ← Engine.make settings (some (.text language.name)) form none
  let text ← content.read
  engine.lowerText parse text

/-- What a file comes to when it is read from a store. -/
def lowering (w : Workspace) (settings : Settings) (parse : Parser) (form : Option Data)
    (s : Store) (file : Place × Language) : Except Fault String := do
  let engine ← Engine.make settings (some (.text file.2.name)) form none
  let text ← s.load (Path.below w.root file.1)
  engine.lowerText parse text

theorem lowering_of_lookup {p : Place} {content : Content}
    (hplace : s.place (Path.below w.root file.1) = .ok p)
    (hfile : s.files.lookup p = some content) : w.lowering settings parse form s file =
      lowerContent settings parse form file.2 content := by
  rw [lowering, Store.load_of_lookup hplace hfile, lowerContent]

theorem failsOnly_lowering (hoptions : settings.emitOptions form ≠ .error .tooLong)
    (hparse : ∀ language text, (parse language text).Complete) :
    FailsOnly Fault.Recoverable (w.lowering settings parse form s file) := by
  have hmake : FailsOnly Fault.Recoverable
      (Engine.make settings (some (.text file.2.name)) form none) := by
    rw [Engine.make_eq]
    exact (Settings.failsOnly_emitOptions hoptions).bind fun _ _ => failsOnly_ok _
  refine hmake.bind fun engine _ => ?_
  refine (s.failsOnly_load _).bind fun text _ => ?_
  exact Document.lower_failsOnly (hparse engine.language text) engine.options

/-- A file that cannot be lowered leaves the store as it is; otherwise its text is written. -/
theorem endOf_lowerOne : endOf (w.lowerOne settings parse output form file) s =
    match w.lowering settings parse form s file with
    | .error e => (.error e, s)
    | .ok text => ((endOf (writeText (Path.below output file.1) text) s).1.map
        fun _ => Path.below output file.1,
      (endOf (writeText (Path.below output file.1) text) s).2) := by
  rw [lowerOne, lowering, run_bind, run_liftExcept]
  cases Engine.make settings (some (.text file.2.name)) form none with
  | error e => rfl
  | ok engine =>
    dsimp only
    rw [run_bind, engine.endOf_lowerFile (Path.below_ne_empty _ _)]
    rw [ok_bind]
    cases s.load (Path.below w.root file.1) >>= engine.lowerText parse with
    | error e => rfl
    | ok text =>
      dsimp only
      rcases endOf (writeText (Path.below output file.1) text) s with ⟨e | u, t⟩
      · rfl
      · rfl

/-! ## The files in order -/

/-- Every text that is to be written can be written: for each file, in the store that the files
before it leave. -/
def WritesSucceed (w : Workspace) (settings : Settings) (parse : Parser) (output : String)
    (form : Option Data) (s : Store) : Prop :=
  ∀ before file after, w.files = before ++ file :: after →
    ∀ t, t = (endOf ({ w with files := before }.lowerAll settings parse output form) s).2 →
      ∀ text, w.lowering settings parse form t file = .ok text →
        ∃ u, endOf (writeText (Path.below output file.1) text) t = (.ok (), u)

/-- A file that has been lowered was written to the place where a file is read from. -/
def Overwritten (w : Workspace) (output : String) (t : Store)
    (outcome : Place × Language → Except Fault String) (before : List (Place × Language))
    (file : Place × Language) : Prop :=
  ∃ other ∈ before, (outcome other).isOk = true ∧
    t.SamePlace (Path.below output other.1) (Path.below w.root file.1)

/-- What lowering the files of a workspace comes to, from the store `s` to the store `t`. -/
structure Lowered (w : Workspace) (settings : Settings) (parse : Parser) (output : String)
    (form : Option Data) (s t : Store) (written : List String) (failures : List Failure)
    (outcome : Place × Language → Except Fault String) : Prop where
  /-- No file is listed twice. -/
  nodup : (w.files.map (·.1)).Nodup
  /-- The files that are lowered are listed in order by the paths they are written to. -/
  written : written = w.files.filterMap fun file => match outcome file with
    | .ok _ => some (Path.below output file.1)
    | .error _ => none
  /-- The other files are recorded in order with their faults. -/
  failures : failures = w.files.filterMap fun file => match outcome file with
    | .ok _ => none
    | .error fault => some ⟨noteOf file.1, some "desugar", fault⟩
  /-- What a file comes to is what its target holds in the end. -/
  holds : ∀ file ∈ w.files, ∀ text, outcome file = .ok text →
    t.Holds (Path.below output file.1) text
  /-- A file comes to what its first content comes to. -/
  independent : ∀ before file after, w.files = before ++ file :: after →
    ¬w.Overwritten output t outcome before file →
      ∀ p, s.place (Path.below w.root file.1) = .ok p → ∃ content,
        s.files.lookup p = some content ∧
          outcome file = lowerContent settings parse form file.2 content
  /-- A file that was overwritten comes to what its new content comes to. -/
  dependent : ∀ before file after, w.files = before ++ file :: after →
    w.Overwritten output t outcome before file →
      ∀ p, s.place (Path.below w.root file.1) = .ok p → ∃ content,
        t.files.lookup p = some content ∧
          outcome file = lowerContent settings parse form file.2 content
  /-- A file whose path is none, as when it is too long, is recorded. -/
  unreachable : ∀ file ∈ w.files, ∀ f, s.place (Path.below w.root file.1) = .error f →
    (outcome file).isOk = false

/-- A file of a folder, in a store with such files. -/
structure Indexed (s : Store) (root : String) (file : Place × Language) : Prop where
  names : ∀ name ∈ file.1, IsName name
  nonempty : file.1 ≠ []
  found : ∃ folder content, s.place (Path.tidy root) = .ok folder ∧
    s.files.lookup (folder ++ file.1) = some content

/-- A path that leads to a file of a folder leads to a content. -/
theorem Indexed.lookup (h : Indexed s w.root file) {p : Place}
    (hplace : s.place (Path.below w.root file.1) = .ok p) :
    ∃ content, s.files.lookup p = some content := by
  obtain ⟨folder, content, hfolder, hcontent⟩ := h.found
  rcases Store.place_below_of_mem h.names h.nonempty hfolder (mem_of_lookup hcontent) with
    hbelow | ⟨f, hf⟩
  · cases hplace.symm.trans hbelow
    exact ⟨content, hcontent⟩
  · cases hplace.symm.trans (hf s)

/-- A path that leads to no file of a folder never leads to one. -/
theorem Indexed.place_error (h : Indexed s w.root file) {f : PathFault}
    (hplace : s.place (Path.below w.root file.1) = .error f) :
    ∃ g, t.place (Path.below w.root file.1) = .error g := by
  obtain ⟨folder, content, hfolder, hcontent⟩ := h.found
  rcases Store.place_below_of_mem h.names h.nonempty hfolder (mem_of_lookup hcontent) with
    hbelow | ⟨g, hg⟩
  · cases hplace.symm.trans hbelow
  · exact ⟨g, hg t⟩

theorem indexed_of_mem (hs : s.Sound) {root : String} {extensions : List String}
    (h : file ∈ (ofFolder s root extensions).files) : Indexed s root file := by
  obtain ⟨p, hp, hfile⟩ := List.mem_filterMap.1 h
  have hplace : file.1 = p := by
    split at hfile
    · obtain ⟨language, -, rfl⟩ := Option.map_eq_some_iff.1 hfile
      rfl
    · cases hfile
  obtain ⟨folder, content, hfolder, hmem, hne⟩ := Store.mem_filesBelow.1 hp
  rw [← hplace] at hmem hne
  refine ⟨fun name hname => ?_, hne, folder, content, hfolder, lookup_of_mem hs.places hmem⟩
  exact hs.names _ hmem name (List.mem_append_right folder hname)

theorem nodup_ofFolder (hs : s.Sound) (root : String) (extensions : List String) :
    ((ofFolder s root extensions).files.map (·.1)).Nodup := by
  rw [ofFolder, List.map_filterMap]
  refine List.Nodup.filterMap ?_ (s.nodup_filesBelow hs (Path.tidy root))
  intro p q b hp hq
  have hself : ∀ r, b ∈ Option.map (·.1) (if isWanted (extensions.map extensionOf) r then
      (Language.ofPath? (nameOf r)).map (r, ·) else none) → b = r := by
    intro r hr
    split at hr
    · simp only [Option.map_map, Option.mem_def, Option.map_eq_some_iff] at hr
      obtain ⟨_, -, rfl⟩ := hr
      rfl
    · cases hr
  exact (hself p hp).symm.trans (hself q hq)

section Passed

variable {outcome : Place × Language → Except Fault String} {before after : List (Place × Language)}

/-- The store that files leave when they are lowered one after the other. -/
def storeAfter (w : Workspace) (settings : Settings) (parse : Parser) (output : String)
    (form : Option Data) (s : Store) (files : List (Place × Language)) : Store :=
  (turns (w.lowerOne settings parse output form) files s).2

/-- What a file comes to when the files before it have been lowered. -/
def outcomeOf (w : Workspace) (settings : Settings) (parse : Parser) (output : String)
    (form : Option Data) (s : Store) (file : Place × Language) : Except Fault String :=
  w.lowering settings parse form
    (w.storeAfter settings parse output form s (w.files.takeWhile (· ≠ file))) file

/-- Where a file is written to: below where the output path leads. -/
def targetOf (output : String) (file : Place × Language) : Place :=
  Place.after [] (Path.parts output) ++ file.1

/-- What is known when some of the files have been lowered. -/
structure Passed (w : Workspace) (settings : Settings) (parse : Parser) (output : String)
    (form : Option Data) (s : Store) (outcome : Place × Language → Except Fault String)
    (files : List (Place × Language)) (t : Store) : Prop where
  ends : turns (w.lowerOne settings parse output form) files s =
    (files.map fun file => (outcome file).map fun _ => Path.below output file.1, t)
  grows : s.Grows t
  frame : ∀ p, (∀ file ∈ files, (outcome file).isOk = true → targetOf output file ≠ p) →
    t.files.lookup p = s.files.lookup p
  held : ∀ file ∈ files, ∀ text, outcome file = .ok text →
    t.place (Path.below output file.1) = .ok (targetOf output file) ∧
      t.files.lookup (targetOf output file) = some (.text text)

theorem Passed.start : Passed w settings parse output form s outcome [] s where
  ends := rfl
  grows := Store.Grows.refl s
  frame := fun _ _ => rfl
  held := by simp

/-- One more file: it is read from the store that the files before it left, and only the place of
its target changes. -/
theorem Passed.step (h : Passed w settings parse output form s outcome before t)
    (hfile : Indexed s w.root file) (hnew : file.1 ∉ before.map (·.1))
    (houtcome : outcome file = w.lowering settings parse form t file)
    (hwrite : ∀ text, outcome file = .ok text →
      ∃ u, endOf (writeText (Path.below output file.1) text) t = (.ok (), u)) :
    ∃ u, Passed w settings parse output form s outcome (before ++ [file]) u := by
  have hturn : turns (w.lowerOne settings parse output form) (before ++ [file]) s =
      (before.map (fun file => (outcome file).map fun _ => Path.below output file.1) ++
        [(endOf (w.lowerOne settings parse output form file) t).1],
        (endOf (w.lowerOne settings parse output form file) t).2) := by
    rw [turns_append, h.ends]
    rfl
  rw [endOf_lowerOne, ← houtcome] at hturn
  cases hres : outcome file with
  | error e =>
    rw [hres] at hturn
    refine ⟨t, ?_, h.grows, ?_, ?_⟩
    · rw [hturn, List.map_append, List.map_singleton, hres]
      rfl
    · intro p hp
      exact h.frame p fun other hother => hp other (List.mem_append_left _ hother)
    · intro other hother text htext
      rcases List.mem_append.1 hother with hother | hother
      · exact h.held other hother text htext
      · rw [List.mem_singleton.1 hother, hres] at htext
        cases htext
  | ok text =>
    obtain ⟨u, hu⟩ := hwrite text hres
    obtain ⟨p, hwrote⟩ := Store.endOf_writeText hu
    obtain rfl : p = targetOf output file :=
      Store.place_below hfile.names hfile.nonempty hwrote.place
    -- the targets of different files are different places
    have hapart : ∀ other ∈ before, targetOf output other ≠ targetOf output file := by
      intro other hother heq
      have hplace : other.1 = file.1 := List.append_cancel_left heq
      exact hnew (hplace ▸ List.mem_map_of_mem hother)
    rw [hres] at hturn
    dsimp only at hturn
    rw [hu] at hturn
    refine ⟨u, ?_, h.grows.trans hwrote.grows, ?_, ?_⟩
    · rw [hturn, List.map_append, List.map_singleton, hres]
      rfl
    · intro p hp
      rw [hwrote.lookup_of_ne p,
        h.frame p fun other hother => hp other (List.mem_append_left _ hother)]
      exact (hp file (by simp) (by rw [hres]; rfl)).symm
    · intro other hother text' htext
      rcases List.mem_append.1 hother with hother | hother
      · obtain ⟨hplace, hlookup⟩ := h.held other hother text' htext
        refine ⟨Store.place_of_grows hwrote.grows hplace, ?_⟩
        rw [hwrote.lookup_of_ne _ (hapart other hother), hlookup]
      · rw [List.mem_singleton.1 hother] at htext ⊢
        cases hres.symm.trans htext
        exact ⟨hwrote.place, hwrote.lookup_self⟩

theorem Passed.recorded (h : Passed w settings parse output form s outcome before t)
    (hfails : ∀ file ∈ before, FailsOnly Fault.Recoverable (outcome file)) (e : Fault)
    (he : .error e ∈ (turns (w.lowerOne settings parse output form) before s).1) :
    e.ending? Fault.isRecoverable = none := by
  rw [h.ends] at he
  obtain ⟨file, hfile, heq⟩ := List.mem_map.1 he
  cases hres : outcome file with
  | ok text =>
    rw [hres] at heq
    cases heq
  | error f =>
    rw [hres] at heq
    obtain rfl : f = e := Except.error.inj heq
    exact hfails file hfile f hres

/-- What a batch over files returns when they have been passed. -/
theorem Passed.endOf_processBatch (h : Passed w settings parse output form s outcome before t)
    (hfails : ∀ file ∈ before, FailsOnly Fault.Recoverable (outcome file)) :
    endOf ({ w with files := before }.lowerAll settings parse output form) s =
      (.ok (before.filterMap fun file => match outcome file with
          | .ok _ => some (Path.below output file.1)
          | .error _ => none,
        before.filterMap fun file => match outcome file with
          | .ok _ => none
          | .error fault => some ⟨noteOf file.1, some "desugar", fault⟩), t) := by
  refine (processBatch_of_recorded (h.recorded hfails)).trans ?_
  rw [h.ends, sorted_map]
  congr 4
  · funext file
    cases outcome file <;> rfl
  · funext file
    cases outcome file <;> rfl

theorem not_mem_before (hnodup : (w.files.map (·.1)).Nodup)
    (hsplit : w.files = before ++ file :: after) : file.1 ∉ before.map (·.1) := by
  rw [hsplit, List.map_append, List.map_cons] at hnodup
  intro hmem
  exact List.disjoint_of_nodup_append hnodup hmem List.mem_cons_self

/-- A file is read from the store that the files before it leave. -/
theorem outcomeOf_eq (hnodup : (w.files.map (·.1)).Nodup)
    (hsplit : w.files = before ++ file :: after) :
    w.outcomeOf settings parse output form s file =
      w.lowering settings parse form (w.storeAfter settings parse output form s before) file := by
  have hbefore : w.files.takeWhile (· ≠ file) = before := by
    rw [hsplit, List.takeWhile_append_of_pos, List.takeWhile_cons_of_neg (by simp),
      List.append_nil]
    intro other hother
    rw [decide_eq_true_eq]
    rintro rfl
    exact not_mem_before hnodup hsplit (List.mem_map_of_mem hother)
  rw [outcomeOf, hbefore]

/-- Every first part of the files is passed. -/
theorem passed_of_append (hoptions : settings.emitOptions form ≠ .error .tooLong)
    (hparse : ∀ language text, (parse language text).Complete)
    (hindexed : ∀ file ∈ w.files, Indexed s w.root file) (hnodup : (w.files.map (·.1)).Nodup)
    (hwrites : w.WritesSucceed settings parse output form s)
    (hsplit : w.files = before ++ after) :
    Passed w settings parse output form s (w.outcomeOf settings parse output form s) before
      (w.storeAfter settings parse output form s before) := by
  induction before using List.reverseRecOn generalizing after with
  | nil => exact Passed.start
  | append_singleton before file ih =>
    rw [List.append_assoc, List.singleton_append] at hsplit
    have hpassed := ih hsplit
    have hfails : ∀ other ∈ before,
        FailsOnly Fault.Recoverable (w.outcomeOf settings parse output form s other) :=
      fun _ _ => failsOnly_lowering hoptions hparse
    have houtcome : w.outcomeOf settings parse output form s file = w.lowering settings parse form
        (w.storeAfter settings parse output form s before) file := outcomeOf_eq hnodup hsplit
    obtain ⟨u, hu⟩ := hpassed.step (hindexed file (by simp [hsplit]))
      (not_mem_before hnodup hsplit) houtcome fun text htext =>
        hwrites before file after hsplit _ (by rw [hpassed.endOf_processBatch hfails]) text
          (houtcome.symm.trans htext)
    have hstore : w.storeAfter settings parse output form s (before ++ [file]) = u := by
      rw [storeAfter, hu.ends]
    rw [hstore]
    exact hu

end Passed

/-- What the files of a folder come to when they are lowered one after the other. -/
theorem lowered_of_indexed (hoptions : settings.emitOptions form ≠ .error .tooLong)
    (hparse : ∀ language text, (parse language text).Complete)
    (hindexed : ∀ file ∈ w.files, Indexed s w.root file) (hnodup : (w.files.map (·.1)).Nodup)
    (hwrites : w.WritesSucceed settings parse output form s) :
    ∃ written failures t outcome,
      endOf (w.lowerAll settings parse output form) s = (.ok (written, failures), t) ∧
        w.Lowered settings parse output form s t written failures outcome := by
  have hpassed : ∀ {before after}, w.files = before ++ after →
      Passed w settings parse output form s (w.outcomeOf settings parse output form s) before
        (w.storeAfter settings parse output form s before) :=
    passed_of_append hoptions hparse hindexed hnodup hwrites
  have hall := hpassed (List.append_nil w.files).symm
  refine ⟨_, _, _, _, hall.endOf_processBatch fun _ _ => failsOnly_lowering hoptions hparse,
    hnodup, rfl, rfl, ?_, ?_, ?_, ?_⟩
  · intro file hfile text htext
    exact ⟨_, hall.held file hfile text htext⟩
  · intro before file after hsplit hover p hplace
    have hbefore := hpassed hsplit
    obtain ⟨content, hcontent⟩ := (hindexed file (by simp [hsplit])).lookup hplace
    refine ⟨content, hcontent, ?_⟩
    rw [outcomeOf_eq hnodup hsplit]
    refine lowering_of_lookup (Store.place_of_grows hbefore.grows hplace) ?_
    -- no target of the files before it is the place that it is read from
    rw [hbefore.frame p, hcontent]
    rintro other hother hok rfl
    obtain ⟨text, htext⟩ := exists_of_isOk hok
    have hheld := hall.held other (by simp [hsplit, hother]) text htext
    exact hover ⟨other, hother, hok, _, hheld.1, Store.place_of_grows hall.grows hplace⟩
  · rintro before file after hsplit ⟨other, hother, hok, q, htarget, hsource⟩ p hplace
    have hbefore := hpassed hsplit
    obtain ⟨text, htext⟩ := exists_of_isOk hok
    have hheld := hall.held other (by simp [hsplit, hother]) text htext
    -- the file is read from the target of the other one
    cases htarget.symm.trans hheld.1
    cases hsource.symm.trans (Store.place_of_grows hall.grows hplace)
    refine ⟨.text text, hheld.2, ?_⟩
    rw [outcomeOf_eq hnodup hsplit]
    exact lowering_of_lookup (Store.place_of_grows hbefore.grows hplace)
      (hbefore.held other hother text htext).2
  · intro file hfile f hplace
    obtain ⟨before, after, hsplit⟩ := List.append_of_mem hfile
    obtain ⟨g, hg⟩ := (hindexed file hfile).place_error
      (t := w.storeAfter settings parse output form s before) hplace
    rw [outcomeOf_eq hnodup hsplit, lowering, Store.load_of_place_error hg]
    cases Engine.make settings (some (.text file.2.name)) form none with
    | error e => rfl
    | ok engine => rfl

/-- Options that are refused and cannot be written end the run of a workspace at its first file, and
nothing has been written. -/
theorem endOf_lowerAll_of_tooLong (hoptions : settings.emitOptions form = .error .tooLong)
    (hfiles : w.files ≠ []) :
    endOf (w.lowerAll settings parse output form) s = (.error .tooLong, s) := by
  obtain ⟨file, after, hsplit⟩ := List.exists_cons_of_ne_nil hfiles
  have hone : endOf (w.lowerOne settings parse output form file) s = (.error .tooLong, s) := by
    rw [endOf_lowerOne, lowering, Engine.make_eq, hoptions]
    rfl
  rw [lowerAll, hsplit]
  have hfirst : ∀ e, .error e ∈ (turns (w.lowerOne settings parse output form) [] s).1 →
      e.ending? Fault.isRecoverable = none := fun e he => by cases he
  exact processBatch_of_ending hfirst hone rfl

/-- Files of a folder, in any order, are lowered one after the other, where every text that is to be
written can be written and the trees of the parser are complete. Every file is written or recorded,
in order. A target holds what its file comes to. This is what the first content of the file comes
to, unless a file that was lowered before it has been written over it. Only options that are refused
and hold a number with too many digits to be written into the report are not recorded: they end the
run before anything is written. -/
theorem files_lower_independently (s : Store) (root : String) (extensions : List String)
    (files : List (Place × Language)) (settings : Settings) (parse : Parser) (output : String)
    (form : Option Data) (hs : s.Sound)
    (hfiles : files.Subperm (ofFolder s root extensions).files)
    (hparse : ∀ language text, (parse language text).Complete)
    (hwrites : WritesSucceed ⟨root, files⟩ settings parse output form s) :
    (settings.emitOptions form ≠ .error .tooLong → ∃ written failures t outcome,
      endOf (lowerAll ⟨root, files⟩ settings parse output form) s = (.ok (written, failures), t) ∧
        Lowered ⟨root, files⟩ settings parse output form s t written failures outcome) ∧
    (settings.emitOptions form = .error .tooLong → files ≠ [] →
      endOf (lowerAll ⟨root, files⟩ settings parse output form) s = (.error .tooLong, s)) := by
  refine ⟨fun hoptions => ?_, endOf_lowerAll_of_tooLong (w := ⟨root, files⟩)⟩
  refine lowered_of_indexed hoptions hparse (fun file hfile => ?_) ?_ hwrites
  · exact indexed_of_mem hs (hfiles.subset hfile)
  · obtain ⟨files', hperm, hsub⟩ := hfiles
    rw [← (hperm.map (·.1)).nodup_iff]
    exact (nodup_ofFolder hs root extensions).sublist (hsub.map _)

end Workspace

namespace Sample

/-- A folder with a file, and a folder in it with a file of the same name. -/
def folders : Store where
  files := [(["in", "a.js"], .text "1;"), (["in", "sub", "a.js"], .text "2;")]

/-- Takes every text for a program without decorators. -/
def bareParser : Parser := fun language text =>
  ⟨language, text.toList,
    .node { id := 0, kind := "program", start := 0, stop := text.utf8ByteSize } [], false⟩

theorem complete_bareParser (language : Language) (text : String) :
    (bareParser language text).Complete := by
  rintro - u hu
  have hself : u = (bareParser language text).tree := by
    simpa [bareParser, Tree.preorder_eq, Tree.children] using hu
  subst hself
  refine ⟨?_, ?_, ?_, ?_⟩ <;> simp [bareParser, Tree.kind, Tree.label, Tree.isClass]

/-- The files of the folder. -/
def workspace : Workspace := ⟨"in", [(["a.js"], .javascript), (["sub", "a.js"], .javascript)]⟩

/-- The store when the first file has been written over the second one. -/
def overwritten : Store where
  files := [(["in", "a.js"], .text "1;"), (["in", "sub", "a.js"], .text "1;")]

theorem files_folders : (Workspace.ofFolder folders "in" []).files = workspace.files := by
  have hplace : folders.place (Path.tidy "in") = .ok ["in"] := by decide +kernel
  have hbelow : folders.filesBelow (Path.tidy "in") = [["a.js"], ["sub", "a.js"]] := by
    rw [Store.filesBelow, hplace]
    exact List.mergeSort_of_pairwise (by decide +kernel)
  rw [Workspace.ofFolder, hbelow]
  decide +kernel

theorem write_first : endOf (writeText (Path.below "in/sub" ["a.js"]) "1;") folders =
    (.ok (), overwritten) := by decide +kernel

theorem write_second : endOf (writeText (Path.below "in/sub" ["sub", "a.js"]) "1;") overwritten =
    (.ok (), { overwritten with
      files := overwritten.files ++ [(["in", "sub", "sub", "a.js"], .text "1;")]
      folders := [["in", "sub", "sub"]] }) := by decide +kernel

theorem folders_writesSucceed :
    workspace.WritesSucceed .defaults bareParser "in/sub" none folders := by
  rintro before file after hsplit t ht text htext
  match before, hsplit with
  | [], hsplit =>
    obtain ⟨rfl, -⟩ := List.cons.inj hsplit
    have hlower : workspace.lowering .defaults bareParser none folders (["a.js"], .javascript) =
        .ok "1;" := by decide +kernel
    obtain rfl : t = folders := ht
    rw [hlower] at htext
    cases htext
    exact ⟨_, write_first⟩
  | [_], hsplit =>
    obtain ⟨rfl, hrest⟩ := List.cons.inj hsplit
    obtain ⟨rfl, -⟩ := List.cons.inj hrest
    have hstore : (endOf ({ workspace with files := [(["a.js"], .javascript)] }.lowerAll .defaults
        bareParser "in/sub" none) folders).2 = overwritten := by decide +kernel
    have hlower : workspace.lowering .defaults bareParser none overwritten
        (["sub", "a.js"], .javascript) = .ok "1;" := by decide +kernel
    rw [ht, hstore, hlower] at htext
    cases htext
    rw [ht, hstore]
    exact ⟨_, write_second⟩
  | _ :: _ :: before, hsplit =>
    have hlength := congrArg List.length hsplit
    simp [workspace] at hlength

end Sample

/-- Lowered into the inner folder, the outer file is written over the inner one. -/
theorem files_lower_independently_of_sample :
    Sample.folders.Sound ∧
    Sample.workspace.files.Subperm (Workspace.ofFolder Sample.folders "in" []).files ∧
    (∀ language text, (Sample.bareParser language text).Complete) ∧
    Sample.workspace.WritesSucceed .defaults Sample.bareParser "in/sub" none Sample.folders ∧
    Settings.defaults.emitOptions none ≠ .error .tooLong ∧
    ∃ written failures t outcome,
      endOf (Sample.workspace.lowerAll .defaults Sample.bareParser "in/sub" none) Sample.folders =
        (.ok (written, failures), t) ∧
      Sample.workspace.Lowered .defaults Sample.bareParser "in/sub" none Sample.folders t written
        failures outcome := by
  have hsound : Sample.folders.Sound := by decide +kernel
  have hfiles :
      Sample.workspace.files.Subperm (Workspace.ofFolder Sample.folders "in" []).files := by
    rw [Sample.files_folders]
  have hoptions : Settings.defaults.emitOptions none ≠ .error .tooLong := by
    intro h
    cases h
  refine ⟨hsound, hfiles, Sample.complete_bareParser, Sample.folders_writesSucceed, hoptions, ?_⟩
  exact (Workspace.files_lower_independently Sample.folders "in" [] _ .defaults Sample.bareParser
    "in/sub" none hsound hfiles Sample.complete_bareParser Sample.folders_writesSucceed).1 hoptions

end Undecorate
