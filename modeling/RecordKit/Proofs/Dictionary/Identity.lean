import RecordKit.Dictionary.Directory
import RecordKit.Proofs.Shared.KeyMap

/-!
# The identity of dictionaries

A dictionary changes only through requests to its number.  What a list of commands does to
it is what these requests do, each at its time (`DictLibrary.run_dict`), whatever the
directories list in the meantime.  A directory changes only through what commands list in
it or take out of it (`DictLibrary.run_directory`), and it lists dictionaries that are
there; `DictLibrary.step_directories` says what one command can do to directories.
`DictLibrary.run_createDirectory_identity` puts both together.
-/

namespace RecordKit

/-- A command with its answer. -/
abbrev LibraryEvent (τ ν : Type) := LibraryCommand τ ν × LibraryAnswer τ ν

variable {τ ν : Type}

/-- What a command asks of the dictionary of a number. -/
def LibraryCommand.request? (ref : DictRef) : LibraryCommand τ ν → Option (DictRequest τ ν)
  | .use ref' request => if ref' = ref then some request else none
  | _ => none

/-- The key of a directory that a command has changed, and the dictionary that it has put or
made there, if any.  The answer tells whether the command has done so. -/
def listing? (dir : DirectoryRef) : LibraryEvent τ ν → Option (String × Option DictRef)
  | (.put dir' key ref, .done) => if dir' = dir then some (key, some ref) else none
  | (.getOrInsertWith dir' key _, .obtained ref true) =>
      if dir' = dir then some (key, some ref) else none
  | (.remove dir' key, .removed _) => if dir' = dir then some (key, none) else none
  | _ => none

/-- What a command has done to a key of a directory, if it concerned the key. -/
def listed? (dir : DirectoryRef) (e : LibraryEvent τ ν) (key : String) : Option (Option DictRef) :=
  (listing? dir e).bind fun (key', ref?) => if key' = key then some ref? else none

/-- One of the commands has put or made the dictionary under the key of the directory, and
none after that has replaced it or taken it out. -/
def LastListed (dir : DirectoryRef) (transcript : List (LibraryEvent τ ν)) (key : String)
    (ref : DictRef) : Prop :=
  LastSet (listed? dir) transcript key ref

/-- The directory with a dictionary listed under a key, or with nothing there. -/
def Directory.list (directory : Directory) (key : String) : Option DictRef → Directory
  | some ref => directory.insert key ref
  | none => directory.erase key

/-- The directory after a command with its answer. -/
def Directory.change (dir : DirectoryRef) (directory : Directory) (e : LibraryEvent τ ν) :
    Directory :=
  match listing? dir e with
  | some (key, ref?) => directory.list key ref?
  | none => directory

theorem Directory.get?_list (directory : Directory) (key other : String) (ref? : Option DictRef) :
    (directory.list key ref?).get? other = if key = other then ref? else directory.get? other := by
  simp only [eq_comm (a := key)]
  cases ref? with
  | some ref => exact KeyMap.get?_insert directory key other ref
  | none => exact KeyMap.get?_erase directory key other

theorem Directory.get?_change (dir : DirectoryRef) (directory : Directory)
    (e : LibraryEvent τ ν) (key : String) :
    (directory.change dir e).get? key = (listed? dir e key).getD (directory.get? key) := by
  unfold change listed?
  cases listing? dir e with
  | none => rfl
  | some found =>
      simp only [get?_list, Option.bind_some]
      split <;> rfl

theorem Directory.find_eq_ok_iff {directory : Directory} {key : String} {ref : DictRef} :
    directory.find key = .ok ref ↔ directory.get? key = some ref := by
  unfold find
  cases directory.get? key <;> simp

theorem Directory.find_eq_error_iff {directory : Directory} {key : String} :
    directory.find key = .error ⟨key⟩ ↔ directory.get? key = none := by
  unfold find
  cases directory.get? key <;> simp

theorem Directory.ascending_change {dir : DirectoryRef} {directory : Directory}
    (h : directory.Ascending) (e : LibraryEvent τ ν) : (directory.change dir e).Ascending := by
  unfold change
  split
  · next key ref? _ =>
      cases ref? with
      | some ref => exact h.insert key ref
      | none => exact h.erase key
  · exact h

theorem Directory.ascending_foldl_change (dir : DirectoryRef)
    (transcript : List (LibraryEvent τ ν)) :
    (transcript.foldl (change dir) KeyMap.empty).Ascending :=
  List.foldlRecOn transcript _ KeyMap.ascending_empty fun _ h e _ => ascending_change h e

section

variable {α : Type} {lib lib' : DictLibrary α} {ref : DictRef} {d : Dict α}

/-- To get a dictionary from its source leaves everything alone that exists. -/
structure DictLibrary.Obtained (lib : DictLibrary α) (ref : DictRef)
    (lib' : DictLibrary α) : Prop where
  exists_dict : ∃ d, lib'.dicts.get? ref = some d
  dicts : ∀ other d, lib.dicts.get? other = some d → lib'.dicts.get? other = some d
  directories : lib'.directories = lib.directories

theorem DictLibrary.get?_create_old (hd : lib.dicts.get? ref = some d) (d' : Dict α) :
    (lib.create d').2.dicts.get? ref = some d :=
  (lib.dicts.get?_add_old d' (List.getElem?_eq_some_iff.mp hd).1).trans hd

theorem DictLibrary.obtained_of_obtain? {source : DictSource α}
    (h : lib.obtain? source = some (ref, lib')) : Obtained lib ref lib' := by
  cases source with
  | new d =>
      cases h
      exact ⟨⟨d, lib.dicts.get?_add_new d⟩, fun _ _ hother => get?_create_old hother d, rfl⟩
  | held ref' =>
      obtain ⟨d, hd, h⟩ := Option.map_eq_some_iff.mp h
      cases h
      exact ⟨⟨d, hd⟩, fun _ _ => id, rfl⟩

end

variable [DecidableEq τ]

/-- The dictionary after requests, each with its time. -/
def Dict.after (d : Dict (TypedValue τ ν)) (requests : List (Instant × DictRequest τ ν)) :
    Dict (TypedValue τ ν) :=
  requests.foldl (fun d r => (r.2.answer r.1 d).2) d

namespace DictLibrary

/-- The requests that a list of commands makes to the dictionary of a number, each with its
time. -/
def requests (lib : DictLibrary (TypedValue τ ν)) (ref : DictRef) :
    List (LibraryCommand τ ν) → List (Instant × DictRequest τ ν)
  | [] => []
  | c :: rest =>
      ((c.request? ref).map (lib.now, ·)).toList ++ (lib.step c).2.requests ref rest

/-- A list of commands with their answers. -/
def transcript (lib : DictLibrary (TypedValue τ ν)) :
    List (LibraryCommand τ ν) → List (LibraryEvent τ ν)
  | [] => []
  | c :: rest => (c, (lib.step c).1) :: (lib.step c).2.transcript rest

variable {lib : DictLibrary (TypedValue τ ν)} {ref : DictRef} {d : Dict (TypedValue τ ν)}

theorem run_append (before after : List (LibraryCommand τ ν)) :
    lib.run (before ++ after) = (lib.run before).run after :=
  List.foldl_append

/-! ## Dictionaries -/

/-- A command does to a dictionary what its request to it does, if there is one. -/
theorem step_dict (hd : lib.dicts.get? ref = some d) (c : LibraryCommand τ ν) :
    (lib.step c).2.dicts.get? ref =
      some (d.after ((c.request? ref).map (lib.now, ·)).toList) := by
  cases c with
  | use other request =>
      by_cases href : other = ref
      · subst href
        simp only [step, hd, LibraryCommand.request?, if_true]
        exact lib.dicts.get?_set_self _ (List.getElem?_eq_some_iff.mp hd).1
      · simp only [step, LibraryCommand.request?, href, if_false]
        split
        · exact (lib.dicts.get?_set_other _ href).trans hd
        · exact hd
  | create d' => exact get?_create_old hd d'
  | getOrInsertWith dir key make =>
      simp only [step]
      split
      · split
        · exact hd
        · split
          · next hobtain => exact (obtained_of_obtain? hobtain).dicts ref d hd
          · exact hd
      · exact hd
  | advance span | createDirectory => exact hd
  | put dir key other | get dir key | remove dir key | keys dir | size dir | isEmpty dir =>
      simp only [step]
      split <;> exact hd

theorem run_dict (hd : lib.dicts.get? ref = some d) (commands : List (LibraryCommand τ ν)) :
    (lib.run commands).dicts.get? ref = some (d.after (lib.requests ref commands)) := by
  induction commands generalizing lib d with
  | nil => exact hd
  | cons c rest ih =>
      rw [requests, Dict.after, List.foldl_append]
      exact ih (step_dict hd c)

/-- A handle stands for a dictionary: requests to it are answered from the dictionary and
change nothing else. -/
structure Serves (lib : DictLibrary (TypedValue τ ν)) (ref : DictRef)
    (d : Dict (TypedValue τ ν)) : Prop where
  dict : lib.dicts.get? ref = some d
  answer : ∀ request, (lib.step (.use ref request)).1 = .used (request.answer lib.now d).1
  others : ∀ request other, other ≠ ref →
    (lib.step (.use ref request)).2.dicts.get? other = lib.dicts.get? other
  directories : ∀ request, (lib.step (.use ref request)).2.directories = lib.directories
  now : ∀ request, (lib.step (.use ref request)).2.now = lib.now

theorem serves_of_get? (hd : lib.dicts.get? ref = some d) : lib.Serves ref d := by
  have huse : ∀ request, lib.step (.use ref request) =
      (.used (request.answer lib.now d).1, lib.setDict ref (request.answer lib.now d).2) := by
    intro request
    simp only [step, hd]
  refine ⟨hd, ?_, ?_, ?_, ?_⟩
  · intro request
    rw [huse]
  · intro request other hother
    rw [huse]
    exact lib.dicts.get?_set_other _ hother.symm
  · intro request
    rw [huse]
    rfl
  · intro request
    rw [huse]
    rfl

/-! ## Directories -/

variable {dir : DirectoryRef} {directory : Directory} {key : String}

/-- A command leaves all directories alone and lists nothing, or it lists a dictionary that is
there, or nothing, under a key of one directory. -/
theorem step_directories (lib : DictLibrary (TypedValue τ ν)) (c : LibraryCommand τ ν) :
    ((∀ dir, listing? dir (c, (lib.step c).1) = none) ∧
      ∀ dir directory, lib.directories.get? dir = some directory →
        (lib.step c).2.directories.get? dir = some directory) ∨
    ∃ changed directory key ref?, lib.directories.get? changed = some directory ∧
      (∀ dir, listing? dir (c, (lib.step c).1) =
        if changed = dir then some (key, ref?) else none) ∧
      (lib.step c).2.directories = lib.directories.set changed (directory.list key ref?) ∧
      ∀ ref, ref? = some ref → ∃ d, (lib.step c).2.dicts.get? ref = some d := by
  cases c with
  | put dir key ref =>
      simp only [step]
      split
      · next directory d hdir hd =>
          refine Or.inr ⟨dir, directory, key, some ref, hdir, fun _ => rfl, rfl, ?_⟩
          rintro _ ⟨⟩
          exact ⟨d, hd⟩
      · exact Or.inl ⟨fun _ => rfl, fun _ _ => id⟩
  | getOrInsertWith dir key make =>
      simp only [step]
      split
      · next directory hdir =>
          split
          · exact Or.inl ⟨fun _ => rfl, fun _ _ => id⟩
          · split
            · next ref lib' hobtain =>
                have h := obtained_of_obtain? hobtain
                refine Or.inr ⟨dir, directory, key, some ref, hdir, fun _ => rfl, ?_, ?_⟩
                · rw [setDirectory, h.directories]
                  rfl
                · rintro _ ⟨⟩
                  exact h.exists_dict
            · exact Or.inl ⟨fun _ => rfl, fun _ _ => id⟩
      · exact Or.inl ⟨fun _ => rfl, fun _ _ => id⟩
  | remove dir key =>
      simp only [step]
      split
      · next directory hdir =>
          exact Or.inr ⟨dir, directory, key, none, hdir, fun _ => rfl, rfl, nofun⟩
      · exact Or.inl ⟨fun _ => rfl, fun _ _ => id⟩
  | createDirectory =>
      refine Or.inl ⟨fun _ => rfl, ?_⟩
      intro dir directory hdir
      have hlt : dir < lib.directories.objects.length := (List.getElem?_eq_some_iff.mp hdir).1
      exact (lib.directories.get?_add_old _ hlt).trans hdir
  | advance span | create d => exact Or.inl ⟨fun _ => rfl, fun _ _ => id⟩
  | use ref request | get dir key | keys dir | size dir | isEmpty dir =>
      simp only [step]
      split <;> exact Or.inl ⟨fun _ => rfl, fun _ _ => id⟩

/-- A command does to a directory what it lists in it or takes out of it. -/
theorem step_directory (hdir : lib.directories.get? dir = some directory)
    (c : LibraryCommand τ ν) :
    (lib.step c).2.directories.get? dir = some (directory.change dir (c, (lib.step c).1)) := by
  rcases lib.step_directories c with ⟨hnone, hkeeps⟩ |
    ⟨changed, old, key, ref?, hold, hlisting, hset, -⟩
  · simp only [Directory.change, hnone]
    exact hkeeps dir directory hdir
  · simp only [Directory.change, hlisting]
    rw [hset]
    by_cases hsame : changed = dir
    · subst hsame
      obtain rfl : old = directory := Option.some.inj (hold.symm.trans hdir)
      simp only [if_true]
      exact lib.directories.get?_set_self _ (List.getElem?_eq_some_iff.mp hdir).1
    · simp only [hsame, if_false]
      exact (lib.directories.get?_set_other _ hsame).trans hdir

theorem run_directory (hdir : lib.directories.get? dir = some directory)
    (commands : List (LibraryCommand τ ν)) :
    (lib.run commands).directories.get? dir =
      some ((lib.transcript commands).foldl (Directory.change dir) directory) := by
  induction commands generalizing lib directory with
  | nil => exact hdir
  | cons c rest ih => exact ih (step_directory hdir c)

/-- What a command lists is a dictionary that is there. -/
theorem exists_dict_of_listing {c : LibraryCommand τ ν}
    (h : listing? dir (c, (lib.step c).1) = some (key, some ref)) :
    ∃ d, (lib.step c).2.dicts.get? ref = some d := by
  rcases lib.step_directories c with ⟨hnone, -⟩ | ⟨changed, old, key', ref?, -, hlisting, -, hd⟩
  · rw [hnone] at h
    cases h
  · rw [hlisting, Option.ite_none_right_eq_some] at h
    exact hd ref (Prod.mk.inj (Option.some.inj h.2)).2

theorem exists_dict_of_mem_transcript {commands : List (LibraryCommand τ ν)}
    {e : LibraryEvent τ ν} (he : e ∈ lib.transcript commands)
    (hlisting : listing? dir e = some (key, some ref)) :
    ∃ d, (lib.run commands).dicts.get? ref = some d := by
  induction commands generalizing lib with
  | nil => cases he
  | cons c rest ih =>
      rcases List.mem_cons.mp he with rfl | he
      · obtain ⟨d, hd⟩ := exists_dict_of_listing hlisting
        exact ⟨_, run_dict hd rest⟩
      · exact ih he

theorem exists_dict_of_lastListed {commands : List (LibraryCommand τ ν)}
    (h : LastListed dir (lib.transcript commands) key ref) :
    ∃ d, (lib.run commands).dicts.get? ref = some d := by
  obtain ⟨before, e, after, hsplit, hset, -⟩ := h
  obtain ⟨⟨key', ref?⟩, hlisting, hkey⟩ := Option.bind_eq_some_iff.mp hset
  obtain ⟨-, hkey⟩ := Option.ite_none_right_eq_some.mp hkey
  obtain rfl : ref? = some ref := Option.some.inj hkey
  have he : e ∈ lib.transcript commands := by simp [hsplit]
  exact exists_dict_of_mem_transcript he hlisting

/-! ## Keys -/

theorem step_get_eq_ok_iff (hdir : lib.directories.get? dir = some directory) :
    lib.step (.get dir key) = (.found (.ok ref), lib) ↔ directory.get? key = some ref := by
  rw [← Directory.find_eq_ok_iff]
  simp [step, hdir]

theorem step_get_eq_error_iff (hdir : lib.directories.get? dir = some directory) :
    lib.step (.get dir key) = (.found (.error ⟨key⟩), lib) ↔ directory.get? key = none := by
  rw [← Directory.find_eq_error_iff]
  simp [step, hdir]

/-- A dictionary that is made for a key is put there. -/
theorem step_getOrInsertWith_of_none (hdir : lib.directories.get? dir = some directory)
    (hnone : directory.get? key = none) (make : String → DictSource (TypedValue τ ν)) :
    lib.step (.getOrInsertWith dir key make) =
      match lib.obtain? (make key) with
      | some (ref, lib') => (.obtained ref true, (lib'.step (.put dir key ref)).2)
      | none => (.unknown, lib) := by
  simp only [step, hdir, hnone]
  cases hobtain : lib.obtain? (make key) with
  | none => rfl
  | some found =>
      obtain ⟨ref, lib'⟩ := found
      have h := obtained_of_obtain? hobtain
      obtain ⟨d, hd⟩ := h.exists_dict
      simp only [h.directories, hdir, hd]

/-! ## Both together -/

/-- Let commands reach a new directory and any dictionaries through any of their handles.

* A key answers the dictionary that was last put or made under it and that has not been
  replaced or taken out since, and otherwise that there is none.
* A dictionary is what it was at any earlier moment, changed by the requests to its handle
  since and by nothing else, whatever the directory lists it under or has ceased to.  A
  request is answered from it and changes no other dictionary, no directory and not the
  time.  A new dictionary has a handle of its own, whatever its name.
* A dictionary is made for a key only if there is none under it, and then it is put there.
  Otherwise nothing changes.
* The keys ascend, are those that answer a dictionary, and are as many as the size says. -/
theorem run_createDirectory_identity (start : DictLibrary (TypedValue τ ν))
    (commands : List (LibraryCommand τ ν)) :
    let dir := start.directories.objects.length
    let opened := (start.step .createDirectory).2
    let lib := opened.run commands
    let listed := LastListed dir (opened.transcript commands)
    (start.step .createDirectory).1 = .directory dir ∧
      (∀ key,
        (∀ ref, lib.step (.get dir key) = (.found (.ok ref), lib) ↔ listed key ref) ∧
        (lib.step (.get dir key) = (.found (.error ⟨key⟩), lib) ↔ ∀ ref, ¬listed key ref) ∧
        ∀ ref, listed key ref → ∃ d, lib.dicts.get? ref = some d) ∧
      (∀ before after, commands = before ++ after →
        let earlier := opened.run before
        ∀ ref d, earlier.dicts.get? ref = some d →
          lib.Serves ref (d.after (earlier.requests ref after))) ∧
      (∀ d, ∃ ref, lib.dicts.get? ref = none ∧ (lib.step (.create d)).1 = .created ref ∧
        (lib.step (.create d)).2.dicts.get? ref = some d) ∧
      (∀ key make,
        (∀ ref, listed key ref →
          lib.step (.getOrInsertWith dir key make) = (.obtained ref false, lib)) ∧
        ((∀ ref, ¬listed key ref) →
          lib.step (.getOrInsertWith dir key make) =
            match lib.obtain? (make key) with
            | some (ref, lib') => (.obtained ref true, (lib'.step (.put dir key ref)).2)
            | none => (.unknown, lib))) ∧
      ∃ keys, lib.step (.keys dir) = (.keys keys, lib) ∧ keys.Pairwise keyLt ∧
        (∀ key, key ∈ keys ↔ ∃ ref, lib.step (.get dir key) = (.found (.ok ref), lib)) ∧
        lib.step (.size dir) = (.count keys.length, lib) := by
  intro dir opened lib listed
  let directory : Directory :=
    (opened.transcript commands).foldl (Directory.change dir) KeyMap.empty
  have hopened : opened.directories.get? dir = some KeyMap.empty :=
    start.directories.get?_add_new _
  have hdir : lib.directories.get? dir = some directory := run_directory hopened commands
  have hlisted : ∀ key ref, directory.get? key = some ref ↔ listed key ref :=
    fun _ _ => KeyMap.get?_changed_iff (Directory.get?_change dir)
  have hunlisted : ∀ key, directory.get? key = none ↔ ∀ ref, ¬listed key ref := by
    intro key
    rw [Option.eq_none_iff_forall_ne_some]
    exact forall_congr' fun ref => not_congr (hlisted key ref)
  refine ⟨rfl, ?_, ?_, ?_, ?_, directory.keys, ?_, ?_, ?_, ?_⟩
  · intro key
    refine ⟨?_, (step_get_eq_error_iff hdir).trans (hunlisted key), ?_⟩
    · exact fun ref => (step_get_eq_ok_iff hdir).trans (hlisted key ref)
    · exact fun ref => exists_dict_of_lastListed
  · intro before after hsplit earlier ref d hd
    apply serves_of_get?
    simp only [lib, hsplit, run_append]
    exact run_dict hd after
  · intro d
    exact ⟨lib.dicts.objects.length, List.getElem?_eq_none (Nat.le_refl _), rfl,
      lib.dicts.get?_add_new d⟩
  · intro key make
    constructor
    · intro ref href
      simp only [step, hdir, (hlisted key ref).mpr href]
    · intro hnone
      exact step_getOrInsertWith_of_none hdir ((hunlisted key).mpr hnone) make
  · simp only [step, hdir]
  · exact Directory.ascending_foldl_change dir _
  · intro key
    rw [KeyMap.mem_keys_iff]
    exact exists_congr fun ref => (step_get_eq_ok_iff hdir).symm
  · simp only [step, hdir, KeyMap.keys, KeyMap.size, List.length_map]

/-- A table that is listed twice, and another of the same name. -/
def twoTables : List (LibraryCommand String Nat) :=
  [.create (Dict.new "table"), .put 0 "a" 0, .put 0 "b" 0, .create (Dict.new "table")]

/-- The first table is replaced under one key, taken out under the other, and then put under
a third by its handle.  In the meantime something is recorded in it. -/
def relisting : List (LibraryCommand String Nat) :=
  [ .put 0 "a" 1, .remove 0 "b", .use 0 (.recordValue "k" ⟨"nat", 7⟩),
    .getOrInsertWith 0 "c" fun _ => .held 0 ]

/-- What was recorded is found in the first table, and the second has nothing of it. -/
theorem run_twoTables_relisting :
    let opened := ((empty : DictLibrary (TypedValue String Nat)).step .createDirectory).2
    let lib := opened.run (twoTables ++ relisting)
    let listed := LastListed 0 (opened.transcript (twoTables ++ relisting))
    listed "a" 1 ∧ (∀ ref, ¬listed "b" ref) ∧ listed "c" 0 ∧
      (lib.step (.use 0 (.find "k"))).1 = .used (.value (some ⟨"nat", 7⟩)) ∧
      (lib.step (.use 1 (.find "k"))).1 = .used (.value none) ∧
      lib.step (.getOrInsertWith 0 "a" fun key => .new (Dict.new key)) =
        (.obtained 1 false, lib) := by
  intro opened lib listed
  obtain ⟨-, hget, hdict, -, hmake, -⟩ :=
    run_createDirectory_identity (empty : DictLibrary (TypedValue String Nat))
      (twoTables ++ relisting)
  have ha : listed "a" 1 := ((hget "a").1 1).mp rfl
  have hb : ∀ ref, ¬listed "b" ref := (hget "b").2.1.mp rfl
  have hc : listed "c" 0 := ((hget "c").1 0).mp rfl
  have hfirst := hdict twoTables relisting rfl 0 (Dict.new "table") rfl
  have hsecond := hdict twoTables relisting rfl 1 (Dict.new "table") rfl
  exact ⟨ha, hb, hc, hfirst.answer (.find "k"), hsecond.answer (.find "k"), (hmake "a" _).1 1 ha⟩

end DictLibrary

end RecordKit
