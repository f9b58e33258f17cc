import Undecorate.Files.Store
import Undecorate.Proofs.Except
import Undecorate.Proofs.Files.Path
import Undecorate.Proofs.Lookup
import Undecorate.Proofs.Stateful

/-! # What operations do to a store

Folders are only ever added to a store, so a path that leads to a place goes on leading there.
Writing a file changes the content of that one place.

* `place_of_grows`: a path that leads to a place leads there in every later store;
* `place_below`: a path below a folder leads below where the folder's path leads;
* `endOf_writeText`: what a write that succeeds leaves behind;
* `mem_filesBelow`: which files are below a folder.
-/

namespace Undecorate

/-- Where steps lead from a place if all folders are there. -/
def Place.after : Place → List String → Place
  | here, [] => here
  | here, step :: rest =>
    if step = "." then after here rest
    else if step = ".." && !Store.isAbove here then after here.dropLast rest
    else after (here ++ [step]) rest

/-- A name that a file or folder can have. -/
structure IsName (name : String) : Prop extends Path.IsPart name where
  ne_dot : name ≠ "."
  ne_dots : name ≠ ".."
  size : name.utf8ByteSize ≤ Store.nameLimit

instance (name : String) : Decidable (IsName name) :=
  decidable_of_iff (name ≠ "" ∧ '/' ∉ name.toList ∧ name ≠ "." ∧ name ≠ ".." ∧
      name.utf8ByteSize ≤ Store.nameLimit)
    ⟨fun h => ⟨⟨h.1, h.2.1⟩, h.2.2.1, h.2.2.2.1, h.2.2.2.2⟩,
      fun h => ⟨h.nonempty, h.noSlash, h.ne_dot, h.ne_dots, h.size⟩⟩

theorem Place.after_append (here : Place) (xs ys : List String) :
    Place.after here (xs ++ ys) = Place.after (Place.after here xs) ys := by
  fun_induction Place.after here xs with
  | case1 here => rfl
  | case2 here rest ih => rw [List.cons_append, Place.after, if_pos rfl, ih]
  | case3 here step rest hdot hup ih =>
    rw [List.cons_append, Place.after, if_neg hdot, if_pos hup, ih]
  | case4 here step rest hdot hup ih =>
    rw [List.cons_append, Place.after, if_neg hdot, if_neg hup, ih]

theorem Place.after_names {names : List String} (h : ∀ n ∈ names, IsName n) (here : Place) :
    Place.after here names = here ++ names := by
  induction names generalizing here with
  | nil => simp [Place.after]
  | cons name names ih =>
    have hname := h name List.mem_cons_self
    rw [Place.after, if_neg hname.ne_dot, if_neg (by simp [hname.ne_dots]),
      ih fun n hn => h n (List.mem_cons_of_mem name hn), List.append_assoc, List.singleton_append]

namespace Store

variable {s t u : Store}

/-! ## Stores that grow -/

/-- Every folder of the one store is a folder of the other one. -/
def Grows (s t : Store) : Prop := ∀ p, s.isFolder p = true → t.isFolder p = true

theorem Grows.refl (s : Store) : Grows s s := fun _ h => h

theorem Grows.trans (h : Grows s t) (h' : Grows t u) : Grows s u := fun p hp => h' p (h p hp)

/-- Where a walk ends is a matter of its steps. -/
theorem eq_after_of_walk {here p : Place} {steps : List String} (h : s.walk here steps = .ok p) :
    p = Place.after here steps := by
  induction steps generalizing here with
  | nil =>
    cases h
    rfl
  | cons step rest ih =>
    rw [walk] at h
    rw [Place.after]
    split_ifs at h ⊢
    all_goals exact ih h

theorem walk_of_grows (hg : Grows s t) {here p : Place} {steps : List String}
    (h : s.walk here steps = .ok p) : t.walk here steps = .ok p := by
  induction steps generalizing here with
  | nil => exact h
  | cons step rest ih =>
    rw [walk] at h ⊢
    by_cases hf : s.isFolder here = true
    · rw [if_pos hf] at h
      rw [if_pos (hg here hf)]
      split_ifs at h ⊢
      all_goals exact ih h
    · rw [if_neg hf] at h
      split_ifs at h

theorem walk_append {here p : Place} {xs ys : List String} (h : s.walk here xs = .ok p) :
    s.walk here (xs ++ ys) = s.walk p ys := by
  induction xs generalizing here with
  | nil =>
    cases h
    rfl
  | cons step rest ih =>
    rw [walk] at h
    rw [List.cons_append, walk]
    split_ifs at h ⊢
    all_goals exact ih h

theorem place_of_grows (hg : Grows s t) {path : String} {p : Place} (h : s.place path = .ok p) :
    t.place path = .ok p := by
  rw [place] at h ⊢
  split_ifs at h ⊢
  exact walk_of_grows hg h

/-- A file makes folders of all places above it. -/
theorem isFolder_of_mem {folder rest : Place} {content : Content}
    (h : (folder ++ rest, content) ∈ s.files) (hne : rest ≠ []) : s.isFolder folder = true := by
  have hlt : 0 < rest.length := List.length_pos_iff.2 hne
  simp only [isFolder, Bool.or_eq_true, List.any_eq_true]
  refine .inr ⟨_, h, ?_⟩
  simp [hlt]

/-- Names lead down to a file that is there. -/
theorem walk_names {names : List String} (hnames : ∀ n ∈ names, IsName n) {here : Place}
    {content : Content} (h : (here ++ names, content) ∈ s.files) :
    s.walk here names = .ok (here ++ names) := by
  induction names generalizing here with
  | nil => simp [walk]
  | cons name names ih =>
    have hname := hnames name List.mem_cons_self
    have hstep : here ++ [name] ++ names = here ++ name :: names := by simp
    rw [walk, if_pos (isFolder_of_mem h (List.cons_ne_nil name names)),
      if_neg (Nat.not_lt.2 hname.size), if_neg hname.ne_dot, if_neg (by simp [hname.ne_dots]),
      ih (fun n hn => hnames n (List.mem_cons_of_mem name hn)) (by rw [hstep]; exact h), hstep]

/-! ## Paths below a folder -/

section Below

variable {folder : String} {relative : Place}

/-- A path that leads anywhere starts where one is. -/
theorem not_isAbsolute_of_place {path : String} {p : Place} (h : s.place path = .ok p) :
    Path.isAbsolute path = false := by
  rw [place] at h
  split_ifs at h with _ _ habsolute
  rw [Bool.or_eq_true, not_or] at habsolute
  simpa using habsolute.2

theorem walk_parts_of_place {p : Place} (h : s.place (Path.tidy folder) = .ok p) :
    s.walk [] (Path.parts folder) = .ok p := by
  have habsolute := not_isAbsolute_of_place h
  rw [Path.isAbsolute_tidy] at habsolute
  rw [place] at h
  split_ifs at h
  rw [Path.steps_tidy habsolute] at h
  split_ifs at h with hnil
  · have hdot : s.walk [] ["."] = .ok [] := by
      rw [walk, if_pos (by rfl), if_neg (by decide), if_pos rfl, walk]
    cases hdot.symm.trans h
    rw [hnil]
    rfl
  · exact h

/-- Wherever a path below a folder leads, it is below where the folder's path leads. -/
theorem place_below {p : Place} (hnames : ∀ n ∈ relative, IsName n) (hne : relative ≠ [])
    (h : s.place (Path.below folder relative) = .ok p) :
    p = Place.after [] (Path.parts folder) ++ relative := by
  have hparts : ∀ n ∈ relative, Path.IsPart n := fun n hn => (hnames n hn).toIsPart
  have hdots : ∀ n ∈ relative, n ≠ "." := fun n hn => (hnames n hn).ne_dot
  have habsolute := not_isAbsolute_of_place h
  rw [Path.isAbsolute_below hparts hdots] at habsolute
  rw [place] at h
  split_ifs at h
  rw [Path.steps_below hparts hdots hne habsolute] at h
  rw [eq_after_of_walk h, Place.after_append, Place.after_names hnames]

/-- The path of a file below a folder leads to that file, unless it is none at all. -/
theorem place_below_of_mem {p : Place} {content : Content} (hnames : ∀ n ∈ relative, IsName n)
    (hne : relative ≠ []) (hfolder : s.place (Path.tidy folder) = .ok p)
    (h : (p ++ relative, content) ∈ s.files) :
    s.place (Path.below folder relative) = .ok (p ++ relative) ∨
      ∃ f, ∀ t : Store, t.place (Path.below folder relative) = .error f := by
  have hparts : ∀ n ∈ relative, Path.IsPart n := fun n hn => (hnames n hn).toIsPart
  have hdots : ∀ n ∈ relative, n ≠ "." := fun n hn => (hnames n hn).ne_dot
  have habsolute := not_isAbsolute_of_place hfolder
  rw [Path.isAbsolute_tidy] at habsolute
  have hwalk : s.walk [] (Path.steps (Path.below folder relative)) = .ok (p ++ relative) := by
    rw [Path.steps_below hparts hdots hne habsolute, walk_append (walk_parts_of_place hfolder),
      walk_names hnames h]
  simp only [place]
  split_ifs
  · exact .inr ⟨_, fun _ => rfl⟩
  · exact .inr ⟨_, fun _ => rfl⟩
  · exact .inr ⟨_, fun _ => rfl⟩
  · exact .inl hwalk

end Below

/-! ## Writing -/

/-- Replacing the content of one file changes no other one. -/
theorem lookup_map_put (files : List (Place × Content)) (p q : Place) (content : Content) :
    (files.map fun (r, c) => if r = p then (r, content) else (r, c)).lookup q =
      if q = p then (files.lookup q).map fun _ => content else files.lookup q := by
  induction files with
  | nil => simp
  | cons e files ih =>
    obtain ⟨r, c⟩ := e
    rw [List.map_cons]
    by_cases hqr : q = r
    · subst hqr
      by_cases hqp : q = p <;> simp [hqp]
    · have hbeq : (q == r) = false := beq_eq_false_iff_ne.2 hqr
      have hkey : (if r = p then (r, content) else (r, c)).1 = r := by split <;> rfl
      rw [List.lookup_cons, hkey, hbeq, ih, List.lookup_cons, hbeq]

theorem lookup_put (s : Store) (p q : Place) (content : Content) :
    (s.put p content).files.lookup q = if q = p then some content else s.files.lookup q := by
  rw [put]
  split
  · rename_i hfile
    obtain ⟨old, hold⟩ := Option.isSome_iff_exists.1 hfile
    rw [lookup_map_put]
    split
    · rename_i hq
      rw [hq, hold]
      rfl
    · rfl
  · rename_i hfile
    have hnone : s.files.lookup p = none := by
      rw [isFile, Bool.not_eq_true, Option.isSome_eq_false_iff, Option.isNone_iff_eq_none] at hfile
      exact hfile
    rw [lookup_append_singleton]
    by_cases hq : q = p
    · subst hq
      simp [hnone]
    · simp [hq, Ne.symm hq]

theorem grows_put (s : Store) (p : Place) (content : Content) : Grows s (s.put p content) := by
  intro q hq
  simp only [isFolder, Bool.or_eq_true, List.any_eq_true] at hq ⊢
  rcases hq with hq | ⟨⟨r, c⟩, hmem, hr⟩
  · rw [put]
    split <;> exact .inl hq
  · refine .inr ?_
    rw [put]
    split
    · refine ⟨_, List.mem_map.2 ⟨(r, c), hmem, rfl⟩, ?_⟩
      dsimp only
      split <;> exact hr
    · exact ⟨(r, c), List.mem_append_left _ hmem, hr⟩

theorem makeFolder_eq_ok {path : String} (h : s.makeFolder path = .ok t) :
    t.files = s.files ∧ Grows s t := by
  rw [makeFolder, bind_eq_ok] at h
  obtain ⟨p, -, h⟩ := h
  split at h
  · cases h
  obtain ⟨_, -, h⟩ := bind_eq_ok.1 h
  cases pure_eq_ok.1 h
  refine ⟨rfl, fun q hq => ?_⟩
  simp only [isFolder, Bool.or_eq_true, List.any_append] at hq ⊢
  tauto

/-- Making folders adds folders and nothing else. -/
theorem files_makeFolders (s : Store) (steps : List String) :
    (s.makeFolders steps).1.files = s.files ∧ Grows s (s.makeFolders steps).1 := by
  induction steps generalizing s with
  | nil => exact ⟨rfl, Grows.refl s⟩
  | cons last above ih =>
    rw [makeFolders]
    -- the folders above come first, and then the last one unless one of them failed
    generalize hupper : (if (above.isEmpty || s.has (Path.ofParts above.reverse)) = true then
      (s, none) else s.makeFolders above) = upper
    have hup : upper.1.files = s.files ∧ Grows s upper.1 := by
      rw [← hupper]
      split
      · exact ⟨rfl, Grows.refl s⟩
      · exact ih s
    obtain ⟨r, failed⟩ := upper
    dsimp only at hup ⊢
    split
    · exact hup
    · split
      · rename_i hmade
        have hone := makeFolder_eq_ok hmade
        exact ⟨hone.1.trans hup.1, hup.2.trans hone.2⟩
      · exact hup

theorem write_eq_ok {path text : String} (h : s.write path text = .ok t) :
    ∃ p, s.place path = .ok p ∧ t = s.put p (.text text) := by
  rw [write, mapError_eq_ok, bind_eq_ok] at h
  obtain ⟨p, hp, h⟩ := h
  refine ⟨p, hp, ?_⟩
  split at h
  · cases h
  · obtain ⟨_, -, h⟩ := bind_eq_ok.1 h
    exact (pure_eq_ok.1 h).symm

/-- After a text was written, the path leads to it; all other files are as they were. -/
structure Wrote (s : Store) (path text : String) (t : Store) (p : Place) : Prop where
  place : t.place path = .ok p
  lookup_self : t.files.lookup p = some (.text text)
  lookup_of_ne : ∀ q, q ≠ p → t.files.lookup q = s.files.lookup q
  grows : Grows s t

theorem endOf_writeText {path text : String} (h : endOf (writeText path text) s = (.ok (), t)) :
    ∃ p, Wrote s path text t p := by
  rw [writeText] at h
  split at h
  · cases h
  rw [run_bind, run_modifyGet] at h
  obtain ⟨hfiles, hgrows⟩ := files_makeFolders s (Path.steps (Path.folderOf path)).reverse
  generalize s.makeFolders (Path.steps (Path.folderOf path)).reverse = made at h hfiles hgrows
  obtain ⟨r, failed⟩ := made
  cases failed with
  | some f => cases h
  | none =>
    simp only [Prod.swap_prod_mk] at h
    rw [run_bind, run_get] at h
    cases hwrite : r.write path text with
    | error f =>
      simp only [hwrite, run_throw] at h
      cases h
    | ok u =>
      simp only [hwrite, run_set, Prod.mk.injEq] at h
      obtain ⟨-, rfl⟩ := h
      obtain ⟨p, hp, rfl⟩ := write_eq_ok hwrite
      refine ⟨p, place_of_grows (grows_put r p _) hp, ?_, ?_, hgrows.trans (grows_put r p _)⟩
      · rw [lookup_put, if_pos rfl]
      · intro q hq
        rw [lookup_put, if_neg hq, hfiles]

/-! ## The files below a folder -/

/-- Files are told apart by their places, which are made of names. -/
structure Sound (s : Store) : Prop where
  places : (s.files.map (·.1)).Nodup
  names : ∀ e ∈ s.files, ∀ name ∈ e.1, IsName name

instance (s : Store) : Decidable s.Sound :=
  decidable_of_iff ((s.files.map (·.1)).Nodup ∧ ∀ e ∈ s.files, ∀ name ∈ e.1, IsName name)
    ⟨fun h => ⟨h.1, h.2⟩, fun h => ⟨h.places, h.names⟩⟩

theorem mem_filesBelow {path : String} {p : Place} : p ∈ s.filesBelow path ↔
    ∃ folder content, s.place path = .ok folder ∧ (folder ++ p, content) ∈ s.files ∧ p ≠ [] := by
  unfold filesBelow
  cases hplace : s.place path with
  | error f => simp
  | ok folder =>
    simp only [List.mem_mergeSort, List.mem_map, List.mem_filter, Bool.and_eq_true,
      List.isPrefixOf_iff_prefix, decide_eq_true_eq, Except.ok.injEq, Prod.exists]
    constructor
    · rintro ⟨q, content, ⟨hmem, ⟨rest, rfl⟩, hlt⟩, rfl⟩
      rw [List.drop_left]
      refine ⟨folder, content, rfl, hmem, ?_⟩
      rintro rfl
      simp at hlt
    · rintro ⟨folder, content, rfl, hmem, hne⟩
      refine ⟨_, content, ⟨hmem, List.prefix_append _ _, ?_⟩, List.drop_left⟩
      simpa using List.length_pos_iff.2 hne

theorem nodup_filesBelow (hs : s.Sound) (path : String) : (s.filesBelow path).Nodup := by
  unfold filesBelow
  cases s.place path with
  | error f => exact List.nodup_nil
  | ok folder =>
    simp only
    rw [(List.mergeSort_perm _ _).nodup_iff, ← Function.comp_def (fun p => List.drop _ p) Prod.fst,
      ← List.map_map]
    refine List.Nodup.map_on ?_ (hs.places.sublist (List.filter_sublist.map _))
    -- below one folder, what follows the folder tells places apart
    intro p hp q hq heq
    simp only [List.mem_map, List.mem_filter, Bool.and_eq_true, List.isPrefixOf_iff_prefix] at hp hq
    obtain ⟨⟨_, _⟩, ⟨-, ⟨rest, rfl⟩, -⟩, rfl⟩ := hp
    obtain ⟨⟨_, _⟩, ⟨-, ⟨rest', rfl⟩, -⟩, rfl⟩ := hq
    simpa using heq

end Store

end Undecorate
