import Sprig.Proofs.Format.Arguments

/-!
# Modes of the formatter

Files are handled in the order of their names, up to the first one that is missing or cannot be
formatted. A run in place formats the files that it handles, and leaves every other path as it is.
A run that checks or prints changes nothing: checking succeeds where a run in place would succeed
and change nothing, and what is printed is what a run in place would leave in the files.
-/

namespace Sprig.Format

variable {maxBlank : Binary64} {store store' middle : FileStore} {s : Settings}
  {names arguments : List Text} {name new : Text} {paths paths' : List Path} {path : Path}
  {node : FileNode} {bytes : List UInt8} {clean : Bool}

/-! ### Files that are handled -/

/-- Whether this is a file whose text can be laid out. -/
def isFormattable (maxBlank : Binary64) : FileNode → Bool
  | .file bytes => (script maxBlank (Utf8.decode bytes)).isOk
  | .directory => false

/-- Whether a path leads to a file that can be formatted. -/
def canFormat (maxBlank : Binary64) (store : FileStore) (path : Path) : Bool :=
  (store.find? path).any (isFormattable maxBlank)

/-- A file after it has been formatted: the laid out text if that is another one, and else the old
bytes. One that cannot be formatted stays as it is. -/
def settle (maxBlank : Binary64) : FileNode → FileNode
  | .file bytes =>
    match script maxBlank (Utf8.decode bytes) with
    | .ok new => .file (if Utf8.decode bytes = new then bytes else Utf8.encode new)
    | .error _ => .file bytes
  | .directory => .directory

/-- The names before the first one whose file is missing or cannot be formatted. -/
def handled (maxBlank : Binary64) (store : FileStore) (names : List Text) : List Text :=
  names.takeWhile fun name => canFormat maxBlank store (store.resolve name)

lemma settle_of_script (h : script maxBlank (Utf8.decode bytes) = .ok new) :
    settle maxBlank (.file bytes) =
      .file (if Utf8.decode bytes = new then bytes else Utf8.encode new) := by
  simp only [settle, h]

/-- What is formatted is read back as it was laid out. -/
lemma exists_settle_of_script (h : script maxBlank (Utf8.decode bytes) = .ok new) :
    ∃ bytes', settle maxBlank (.file bytes) = .file bytes' ∧ Utf8.decode bytes' = new := by
  refine ⟨_, settle_of_script h, ?_⟩
  split_ifs with hold
  · exact hold
  · exact (decode_encode_of_script h).1

lemma exists_script_of_isFormattable (h : isFormattable maxBlank node) :
    ∃ bytes new, node = .file bytes ∧ script maxBlank (Utf8.decode bytes) = .ok new := by
  cases node with
  | directory => cases h
  | file bytes =>
    cases hscript : script maxBlank (Utf8.decode bytes) with
    | error e =>
      rw [isFormattable, hscript] at h
      cases h
    | ok new => exact ⟨bytes, new, rfl, hscript⟩

lemma exists_script_of_canFormat (h : canFormat maxBlank store path = true) :
    ∃ bytes new, store.find? path = some (.file bytes) ∧
      script maxBlank (Utf8.decode bytes) = .ok new := by
  rw [canFormat] at h
  cases hnode : store.find? path with
  | none =>
    rw [hnode] at h
    cases h
  | some node =>
    rw [hnode] at h
    obtain ⟨bytes, new, rfl, hscript⟩ := exists_script_of_isFormattable h
    exact ⟨bytes, new, rfl, hscript⟩

lemma settle_of_not_isFormattable (h : isFormattable maxBlank node = false) :
    settle maxBlank node = node := by
  cases node with
  | directory => rfl
  | file bytes =>
    cases hscript : script maxBlank (Utf8.decode bytes) with
    | error e => simp only [settle, hscript]
    | ok new =>
      rw [isFormattable, hscript] at h
      cases h

lemma isFormattable_settle (maxBlank : Binary64) (node : FileNode) :
    isFormattable maxBlank (settle maxBlank node) = isFormattable maxBlank node := by
  cases hnode : isFormattable maxBlank node with
  | false => rw [settle_of_not_isFormattable hnode, hnode]
  | true =>
    obtain ⟨bytes, new, rfl, hscript⟩ := exists_script_of_isFormattable hnode
    obtain ⟨bytes', hsettle, hdecode⟩ := exists_settle_of_script hscript
    rw [hsettle, isFormattable, hdecode, (decode_encode_of_script hscript).2]
    rfl

/-- Formatting a file once is enough. -/
lemma settle_settle (maxBlank : Binary64) (node : FileNode) :
    settle maxBlank (settle maxBlank node) = settle maxBlank node := by
  cases hnode : isFormattable maxBlank node with
  | false => rw [settle_of_not_isFormattable hnode, settle_of_not_isFormattable hnode]
  | true =>
    obtain ⟨bytes, new, rfl, hscript⟩ := exists_script_of_isFormattable hnode
    obtain ⟨bytes', hsettle, hdecode⟩ := exists_settle_of_script hscript
    have hscript' : script maxBlank (Utf8.decode bytes') = .ok new := by
      rw [hdecode]
      exact (decode_encode_of_script hscript).2
    rw [hsettle, settle_of_script hscript', if_pos hdecode]

/-! ### Formatting some paths -/

/-- Of two stores the second has the files at some paths formatted, and is as the first one at every
other path. -/
structure Formats (maxBlank : Binary64) (paths : List Path) (store store' : FileStore) : Prop where
  workingDirectory_eq : store'.workingDirectory = store.workingDirectory
  find?_eq (path : Path) : store'.find? path =
    if path ∈ paths then (store.find? path).map (settle maxBlank) else store.find? path

namespace Formats

lemma nil (maxBlank : Binary64) (store : FileStore) : Formats maxBlank [] store store :=
  ⟨rfl, by simp⟩

lemma append (h : Formats maxBlank paths store middle)
    (h' : Formats maxBlank paths' middle store') :
    Formats maxBlank (paths ++ paths') store store' where
  workingDirectory_eq := h'.workingDirectory_eq.trans h.workingDirectory_eq
  find?_eq path := by
    rw [h'.find?_eq, h.find?_eq]
    by_cases hpath : path ∈ paths <;> by_cases hpath' : path ∈ paths' <;>
      simp [hpath, hpath', Function.comp_def, settle_settle]

lemma resolve_eq (h : Formats maxBlank paths store store') (name : Text) :
    store'.resolve name = store.resolve name :=
  FileStore.resolve_congr h.workingDirectory_eq name

/-- Formatting some files does not change which ones can be formatted. -/
lemma handled_eq (h : Formats maxBlank paths store store') (names : List Text) :
    handled maxBlank store' names = handled maxBlank store names := by
  rw [handled, handled]
  congr 1
  funext name
  rw [canFormat, canFormat, h.resolve_eq, h.find?_eq]
  split_ifs
  · cases store.find? (store.resolve name) with
    | none => rfl
    | some node => simp [isFormattable_settle]
  · rfl

/-- One that cannot be formatted is left as it is. -/
lemma find?_of_not_canFormat (h : Formats maxBlank paths store store')
    (hpath : canFormat maxBlank store path = false) :
    store'.find? path = store.find? path := by
  rw [canFormat] at hpath
  rw [h.find?_eq]
  cases hnode : store.find? path with
  | none => simp
  | some node =>
    rw [hnode] at hpath
    simp [settle_of_not_isFormattable hpath]

end Formats

/-! ### The end of a run -/

lemma handled_cons_of_pos
    (h : canFormat maxBlank store (store.resolve name) = true) :
    handled maxBlank store (name :: names) = name :: handled maxBlank store names :=
  List.takeWhile_cons_of_pos h

lemma handled_cons_of_neg
    (h : canFormat maxBlank store (store.resolve name) = false) :
    handled maxBlank store (name :: names) = [] :=
  List.takeWhile_cons_of_neg (by simp [h])

/-- A run that fails without doing anything but telling so. -/
structure Fails (store : FileStore) (r : Run) : Prop where
  exit_ne : r.exit ≠ .ok 0
  store_eq : r.store = store
  events : ∀ e ∈ r.events, ∃ line, e = .err line

/-- The first file that is missing or cannot be formatted ends the run. -/
lemma fails_takeFiles
    (h : canFormat s.maxBlank store (store.resolve name) = false) (clean : Bool)
    (names : List Text) :
    Fails store (takeFiles s clean (name :: names) store) := by
  rw [canFormat] at h
  rw [takeFiles]
  cases hnode : store.find? (store.resolve name) with
  | none => exact ⟨by simp, rfl, by simp⟩
  | some node =>
    rw [hnode] at h
    cases node with
    | directory => exact ⟨by simp, rfl, by simp⟩
    | file bytes =>
      cases hscript : script s.maxBlank (Utf8.decode bytes) with
      | error e => exact ⟨by simp [hscript], by simp [hscript], by simp [hscript]⟩
      | ok new =>
        rw [Option.any_some, isFormattable, hscript] at h
        cases h

/-! ### Runs in place -/

/-- What a run in place does. It handles the files in order, as long as they can be formatted, and
formats those that it handles. It succeeds if these are all, and tells of every file that it has
changed. -/
structure InPlace (maxBlank : Binary64) (names : List Text) (store : FileStore) (r : Run) :
    Prop where
  formats : Formats maxBlank ((handled maxBlank store names).map store.resolve) store r.store
  exit_eq_iff : r.exit = .ok 0 ↔ handled maxBlank store names = names
  exists_reports : ∃ reports ending, r.events = reports ++ ending ∧
    List.Forall₂ (fun name e => e = .out (("Formatted: " : Text) ++ name) ∨
      e = .out (("Unchanged: " : Text) ++ name)) (handled maxBlank store names) reports ∧
    ∀ e ∈ ending, ∃ line, e = .err line
  reported : ∀ path, r.store.find? path ≠ store.find? path →
    ∃ name ∈ handled maxBlank store names, store.resolve name = path ∧
      .out (("Formatted: " : Text) ++ name) ∈ r.events

namespace InPlace

variable {r : Run} {event : Event}

lemma of_fails (hname : canFormat maxBlank store (store.resolve name) = false)
    (h : Fails store r) : InPlace maxBlank (name :: names) store r where
  formats := by
    rw [handled_cons_of_neg hname, h.store_eq]
    exact .nil maxBlank store
  exit_eq_iff := by simp [handled_cons_of_neg hname, h.exit_ne]
  exists_reports := by
    rw [handled_cons_of_neg hname]
    exact ⟨[], r.events, rfl, .nil, h.events⟩
  reported path hpath := absurd (by rw [h.store_eq]) hpath

/-- One file more in front of a run. -/
lemma after (hname : canFormat maxBlank store (store.resolve name) = true)
    (hformats : Formats maxBlank [store.resolve name] store middle)
    (hevent : event = .out (("Formatted: " : Text) ++ name) ∨
      event = .out (("Unchanged: " : Text) ++ name) ∧ middle = store)
    (h : InPlace maxBlank names middle r) :
    InPlace maxBlank (name :: names) store (r.after [event]) := by
  obtain ⟨hrest, hexit, ⟨reports, ending, hevents, hreports, hending⟩, hreported⟩ := h
  have hresolve : middle.resolve = store.resolve := funext hformats.resolve_eq
  rw [hformats.handled_eq] at hrest hexit hreports
  rw [hresolve] at hrest
  constructor
  · rw [handled_cons_of_pos hname]
    exact hformats.append hrest
  · rw [handled_cons_of_pos hname]
    simpa using hexit
  · rw [handled_cons_of_pos hname]
    refine ⟨event :: reports, ending, by simp [hevents], .cons ?_ hreports, hending⟩
    exact hevent.imp_right And.left
  · intro path hpath
    rw [handled_cons_of_pos hname]
    by_cases hlater : r.store.find? path = middle.find? path
    · -- the first file has been changed
      have hchanged : middle.find? path ≠ store.find? path := by
        rwa [← hlater]
      have hpath' : path = store.resolve name := by
        by_contra hne
        exact hchanged (by simp [hformats.find?_eq, hne])
      rcases hevent with rfl | ⟨-, rfl⟩
      · exact ⟨name, List.mem_cons_self, hpath'.symm, by simp⟩
      · exact absurd rfl hchanged
    · obtain ⟨name', hname', hpath', hmem⟩ := hreported path hlater
      rw [hformats.handled_eq] at hname'
      rw [hresolve] at hpath'
      exact ⟨name', List.mem_cons_of_mem _ hname', hpath', by simp [hmem]⟩

end InPlace

/-- A file is formatted by writing it, unless its text is laid out already. -/
lemma formats_of_script (hfile : store.find? path = some (.file bytes))
    (hscript : script maxBlank (Utf8.decode bytes) = .ok new) :
    Formats maxBlank [path] store
      (if Utf8.decode bytes = new then store else store.write path (Utf8.encode new)) where
  workingDirectory_eq := by split_ifs <;> rfl
  find?_eq q := by
    simp only [List.mem_singleton]
    by_cases hq : q = path
    · subst hq
      rw [if_pos rfl, hfile, Option.map_some, settle_of_script hscript]
      split_ifs
      · exact hfile
      · exact FileStore.find?_write_self hfile _
    · rw [if_neg hq]
      split_ifs
      · rfl
      · exact FileStore.find?_write_of_ne hq store _

/-- A run in place formats the first file, if that can be, and goes on with the others. -/
lemma takeFiles_cons_of_isFormattable (hcheck : s.check = false) (hprint : s.print = false)
    (hname : canFormat s.maxBlank store (store.resolve name) = true)
    (clean : Bool) (names : List Text) :
    ∃ middle event, takeFiles s clean (name :: names) store =
        (takeFiles s clean names middle).after [event] ∧
      Formats s.maxBlank [store.resolve name] store middle ∧
      (event = .out (("Formatted: " : Text) ++ name) ∨
        event = .out (("Unchanged: " : Text) ++ name) ∧ middle = store) := by
  obtain ⟨bytes, new, hfile, hscript⟩ := exists_script_of_canFormat hname
  have hformats := formats_of_script hfile hscript
  by_cases hold : Utf8.decode bytes = new
  · rw [if_pos hold] at hformats
    refine ⟨store, .out (("Unchanged: " : Text) ++ name), ?_, hformats, Or.inr ⟨rfl, rfl⟩⟩
    simp only [takeFiles, hfile, hscript, hcheck, hprint, if_pos hold, Bool.false_eq_true, if_false]
  · rw [if_neg hold] at hformats
    refine ⟨store.write (store.resolve name) (Utf8.encode new),
      .out (("Formatted: " : Text) ++ name), ?_, hformats, Or.inl rfl⟩
    simp only [takeFiles, hfile, hscript, hcheck, hprint, if_neg hold, Bool.false_eq_true, if_false]

/-- By induction on the names: what comes before a file has been formatted does not change which
others can be. -/
theorem inPlace_takeFiles (hcheck : s.check = false) (hprint : s.print = false)
    (names : List Text) (store : FileStore) :
    InPlace s.maxBlank names store (takeFiles s clean names store) := by
  induction names generalizing store with
  | nil =>
    refine ⟨.nil s.maxBlank store, ?_, ⟨[], [], rfl, .nil, by simp⟩, ?_⟩
    · simp [takeFiles, hcheck, handled]
    · intro path hpath
      exact absurd rfl hpath
  | cons name names ih =>
    cases hname : canFormat s.maxBlank store (store.resolve name) with
    | false => exact .of_fails hname (fails_takeFiles hname clean names)
    | true =>
      obtain ⟨middle, event, hrun, hformats, hevent⟩ :=
        takeFiles_cons_of_isFormattable hcheck hprint hname clean names
      rw [hrun]
      exact .after hname hformats hevent (ih middle)

/-! ### Runs that change nothing -/

/-- What a run that prints does: it writes the laid out text of every file that it handles. -/
structure Prints (maxBlank : Binary64) (names : List Text) (store : FileStore) (r : Run) :
    Prop where
  store_eq : r.store = store
  exists_texts : ∃ texts ending, r.events = texts.map .write ++ ending ∧
    List.Forall₂ (fun name text => ∃ bytes, store.find? (store.resolve name) = some (.file bytes) ∧
      script maxBlank (Utf8.decode bytes) = .ok text) (handled maxBlank store names) texts ∧
    ∀ e ∈ ending, ∃ line, e = .err line

theorem prints_takeFiles (hcheck : s.check = false) (hprint : s.print = true)
    (names : List Text) (store : FileStore) :
    Prints s.maxBlank names store (takeFiles s clean names store) := by
  induction names with
  | nil => exact ⟨rfl, [], [], rfl, .nil, by simp⟩
  | cons name names ih =>
    cases hname : canFormat s.maxBlank store (store.resolve name) with
    | false =>
      have hfails := fails_takeFiles hname clean names
      refine ⟨hfails.store_eq, [], _, rfl, ?_, hfails.events⟩
      rw [handled_cons_of_neg hname]
      exact .nil
    | true =>
      obtain ⟨bytes, new, hfile, hscript⟩ := exists_script_of_canFormat hname
      obtain ⟨hstore, texts, ending, hevents, htexts, hending⟩ := ih
      have hrun : takeFiles s clean (name :: names) store =
          (takeFiles s clean names store).after [.write new] := by
        simp only [takeFiles, hfile, hscript, hcheck, hprint, Bool.false_eq_true, if_false, if_true]
      rw [hrun]
      refine ⟨hstore, new :: texts, ending, by simp [hevents], ?_, hending⟩
      rw [handled_cons_of_pos hname]
      exact .cons ⟨bytes, hfile, hscript⟩ htexts

lemma IsSettled.canFormat_eq (h : IsSettled maxBlank store path) :
    canFormat maxBlank store path = true := by
  obtain ⟨bytes, hfile, hscript⟩ := h
  rw [canFormat, hfile, Option.any_some, isFormattable, hscript]
  rfl

lemma isSettled_iff_of_script (hfile : store.find? path = some (.file bytes))
    (hscript : script maxBlank (Utf8.decode bytes) = .ok new) :
    IsSettled maxBlank store path ↔ Utf8.decode bytes = new := by
  constructor
  · rintro ⟨bytes', hfile', hscript'⟩
    rw [hfile] at hfile'
    cases hfile'
    exact Except.ok.inj (hscript'.symm.trans hscript)
  · rintro rfl
    exact ⟨bytes, hfile, hscript⟩

/-- A run that checks changes nothing, and succeeds if all files are settled. -/
theorem takeFiles_check (hcheck : s.check = true) (clean : Bool) (names : List Text)
    (store : FileStore) :
    (takeFiles s clean names store).store = store ∧
    ((takeFiles s clean names store).exit = .ok 0 ↔
      clean = true ∧ ∀ name ∈ names, IsSettled s.maxBlank store (store.resolve name)) := by
  induction names generalizing clean with
  | nil => cases clean <;> simp [takeFiles, hcheck]
  | cons name names ih =>
    cases hname : canFormat s.maxBlank store (store.resolve name) with
    | false =>
      have hfails := fails_takeFiles hname clean names
      refine ⟨hfails.store_eq, iff_of_false hfails.exit_ne ?_⟩
      rintro ⟨-, hall⟩
      have hsettled := (hall name List.mem_cons_self).canFormat_eq
      rw [hname] at hsettled
      cases hsettled
    | true =>
      obtain ⟨bytes, new, hfile, hscript⟩ := exists_script_of_canFormat hname
      rw [List.forall_mem_cons, isSettled_iff_of_script hfile hscript]
      by_cases hold : Utf8.decode bytes = new
      · obtain ⟨hstore, hexit⟩ := ih clean
        have hrun : takeFiles s clean (name :: names) store =
            (takeFiles s clean names store).after
              [.out (("Already formatted: " : Text) ++ name)] := by
          simp only [takeFiles, hfile, hscript, hcheck, if_pos hold, if_true]
        rw [hrun, Run.store_after, Run.exit_after, hstore, hexit]
        simp [hold]
      · obtain ⟨hstore, hexit⟩ := ih false
        have hrun : takeFiles s clean (name :: names) store =
            (takeFiles s false names store).after
              [.out (("Would reformat: " : Text) ++ name)] := by
          simp only [takeFiles, hfile, hscript, hcheck, if_neg hold, if_true]
        rw [hrun, Run.store_after, Run.exit_after, hstore, hexit]
        simp [hold]

lemma store_takeFiles (h : s.check = true ∨ s.print = true) (clean : Bool) (names : List Text)
    (store : FileStore) : (takeFiles s clean names store).store = store := by
  cases hcheck : s.check with
  | true => exact (takeFiles_check hcheck clean names store).1
  | false =>
    have hprint := h.resolve_left (by simp [hcheck])
    exact (prints_takeFiles hcheck hprint names store).store_eq

/-- A run in place that succeeds changes nothing if and only if all files are settled. -/
lemma takeFiles_changes_nothing_iff (hcheck : s.check = false) (hprint : s.print = false)
    (names : List Text) (store : FileStore) :
    (takeFiles s true names store).exit = .ok 0 ∧ (takeFiles s true names store).store = store ↔
      ∀ name ∈ names, IsSettled s.maxBlank store (store.resolve name) := by
  constructor
  · rintro ⟨hexit, hstore⟩
    have hsettles := (takeFiles_settles hcheck hprint hexit).2
    rwa [hstore] at hsettles
  · intro hall
    rw [takeFiles_of_isSettled hprint hall]
    exact ⟨rfl, rfl⟩

/-! ### Runs of the program -/

/-- Arguments that are accepted, name files, and do not ask for help. -/
structure NamesFiles (arguments : List Text) : Prop where
  asksForHelp_eq : asksForHelp arguments = false
  not_hasInvalidOption : ¬HasInvalidOption arguments
  fileNames_ne_nil : fileNames arguments ≠ []

/-- What such arguments ask for. -/
def settingsOf (arguments : List Text) : Settings where
  check := arguments.contains ("--check" : Text)
  print := arguments.contains ("--stdout" : Text)
  maxBlank := maxBlankOf defaultMaxBlank arguments
  names := fileNames arguments

lemma NamesFiles.run_eq (h : NamesFiles arguments) (store : FileStore) :
    run arguments store = takeFiles (settingsOf arguments) true (fileNames arguments) store :=
  run_eq_takeFiles h.asksForHelp_eq
    (readArguments_of_not_hasInvalidOption h.not_hasInvalidOption {}) h.fileNames_ne_nil store

lemma store_run_of_not_namesFiles (h : ¬NamesFiles arguments) (store : FileStore) :
    (run arguments store).store = store := by
  rw [run]
  split_ifs with hhelp
  · rfl
  by_cases hinvalid : HasInvalidOption arguments
  · obtain ⟨message, hread⟩ := exists_error_of_hasInvalidOption hinvalid {}
    rw [hread]
    rfl
  · have hnames : fileNames arguments = [] := by
      by_contra hne
      exact h ⟨by simpa using hhelp, hinvalid, hne⟩
    rw [readArguments_of_not_hasInvalidOption hinvalid, hnames]
    rfl

/-- Without a request for a check or a print the run is one in place. -/
lemma NamesFiles.inPlace_run (h : NamesFiles arguments) (hcheck : ("--check" : Text) ∉ arguments)
    (hprint : ("--stdout" : Text) ∉ arguments) (store : FileStore) :
    InPlace (maxBlankOf defaultMaxBlank arguments) (fileNames arguments) store
      (run arguments store) := by
  rw [h.run_eq]
  exact inPlace_takeFiles (s := settingsOf arguments) (by simpa [settingsOf] using hcheck)
    (by simpa [settingsOf] using hprint) _ store

/-- The arguments name the same files, and ask for as many blank lines. -/
structure SameFiles (arguments others : List Text) : Prop where
  namesFiles : NamesFiles others
  fileNames_eq : fileNames others = fileNames arguments
  maxBlankOf_eq : maxBlankOf defaultMaxBlank others = maxBlankOf defaultMaxBlank arguments

/-- What a run that prints writes is what a run in place leaves in the files. -/
lemma exists_texts_of_prints {printed formatted : Run}
    (hprints : Prints maxBlank names store printed)
    (hformats : Formats maxBlank ((handled maxBlank store names).map store.resolve) store
      formatted.store) :
    ∃ texts ending, printed.events = texts.map .write ++ ending ∧
      (∀ e ∈ ending, ∃ line, e = .err line) ∧
      List.Forall₂ (fun name text => ∃ bytes,
          formatted.store.find? (store.resolve name) = some (.file bytes) ∧
          Utf8.decode bytes = text)
        (handled maxBlank store names) texts := by
  obtain ⟨-, texts, ending, hevents, htexts, hending⟩ := hprints
  refine ⟨texts, ending, hevents, hending, ?_⟩
  have hmem := (List.forall₂_and_left _ _).mpr ⟨fun name (hname : name ∈ _) => hname, htexts⟩
  refine hmem.imp fun name text ⟨hname, bytes, hfile, hscript⟩ => ?_
  obtain ⟨bytes', hsettle, hdecode⟩ := exists_settle_of_script hscript
  refine ⟨bytes', ?_, hdecode⟩
  rw [hformats.find?_eq, if_pos (List.mem_map_of_mem hname), hfile, Option.map_some, hsettle]

/-- Files of which the second cannot be formatted. -/
def mixedFiles : FileStore :=
  ⟨[], [([("a" : Text)], Utf8.encode "( a )"), ([("b" : Text)], Utf8.encode "$"),
    ([("c" : Text)], Utf8.encode "( c )")], []⟩

end Sprig.Format
