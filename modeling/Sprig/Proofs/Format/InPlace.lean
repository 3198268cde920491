import Sprig.Format.Program
import Sprig.Proofs.Format.Script
import Sprig.Proofs.Text.Utf8

/-!
# Formatting files in place

A file is settled if formatting leaves its text as it is. In a text that is decoded no half of a
surrogate pair stands alone, nor in what formatting makes of it. So a file that has been written
reads back as it was meant, and is settled. A run in place settles the files that it takes, one
after the other, and what was settled before stays so. A second run finds nothing to do.
-/

namespace Sprig

namespace FileStore

variable {store store' : FileStore} {p q : Path} {bytes : List UInt8}

lemma resolve_congr (h : store'.workingDirectory = store.workingDirectory) (name : Text) :
    store'.resolve name = store.resolve name := by
  rw [resolve, resolve, h]

lemma lookup_write (store : FileStore) (p q : Path) (bytes : List UInt8) :
    (store.write p bytes).files.lookup q =
      if q = p then (store.files.lookup q).map fun _ => bytes else store.files.lookup q := by
  simp only [write]
  induction store.files with
  | nil => simp
  | cons f files ih =>
    obtain ⟨r, old⟩ := f
    have hhead : (if r = p then (p, bytes) else (r, old)) = (r, if r = p then bytes else old) := by
      split_ifs with hr
      · rw [hr]
      · rfl
    rw [List.map_cons, hhead, List.lookup_cons, List.lookup_cons, ih]
    by_cases hq : q = r
    · subst hq
      by_cases hp : q = p <;> simp [hp]
    · have hne : (q == r) = false := by simpa using hq
      rw [hne]

lemma map_fst_write (store : FileStore) (p : Path) (bytes : List UInt8) :
    (store.write p bytes).files.map Prod.fst = store.files.map Prod.fst := by
  rw [write, List.map_map]
  refine List.map_congr_left fun f _ => ?_
  by_cases hf : f.1 = p <;> simp [hf]

lemma find?_eq_file_iff :
    store.find? p = some (.file bytes) ↔ store.files.lookup p = some bytes := by
  rw [find?]
  cases store.files.lookup p with
  | none =>
    simp only [reduceCtorEq, iff_false]
    split_ifs <;> simp
  | some old => simp

/-- A file has the contents that were written last. -/
lemma find?_write_self (h : store.find? p = some (.file bytes)) (new : List UInt8) :
    (store.write p new).find? p = some (.file new) := by
  rw [find?_eq_file_iff] at h ⊢
  simp [lookup_write, h]

/-- Writing a file changes no other path. -/
lemma find?_write_of_ne (hne : q ≠ p) (store : FileStore) (new : List UInt8) :
    (store.write p new).find? q = store.find? q := by
  rw [find?, lookup_write, if_neg hne, map_fst_write]
  rfl

end FileStore

namespace Format

variable {source formatted : Text} {maxBlank : Binary64} {store store' : FileStore}
  {s s' : Settings} {names arguments : List Text} {name : Text} {path : Path} {clean : Bool}
  {bytes : List UInt8}

/-! ### Halves of surrogate pairs -/

lemma isPaired_texts {ts : List Token} (h : Token.AreRead ts []) : (Token.texts ts).IsPaired := by
  refine Text.isPaired_of_forall fun u hu => ?_
  obtain ⟨t, ht, hut⟩ := List.mem_flatMap.mp hu
  rw [Text.isSurrogate_eq_false_iff]
  rcases Token.mem_text (h.accepts t ht) hut with ⟨-, rfl⟩ | rfl | rfl | rfl | hu
  · decide
  · decide
  · decide
  · decide
  · simp only [CodeUnit.isAlphanumeric_iff, CodeUnit.isLetter_iff, CodeUnit.isDigit_iff] at hu
    omega

/-- Formatting a line takes no pair apart. -/
lemma isPaired_of_line {t u : Text} (h : line t = .ok (some u)) (ht : t.IsPaired) :
    u.IsPaired := by
  rcases line_eq_some_iff.mp h with ⟨-, rfl⟩ | ⟨hkind, hexpression⟩
  · exact ht.trim
  · obtain ⟨ts, last, -, hread, rfl⟩ := exists_laid_of_lineKind hkind hexpression
    exact isPaired_texts hread

/-- Formatting a script takes no pair apart. -/
lemma isPaired_of_script (h : script maxBlank source = .ok formatted) (hsource : source.IsPaired) :
    formatted.IsPaired := by
  obtain ⟨rows, hrows, rfl⟩ := (script_eq_ok_iff maxBlank).mp h
  refine Text.isPaired_unlines fun t ht => ?_
  rcases mem_arrange ht with rfl | hmem
  · exact Text.isPaired_nil
  · obtain ⟨w, hw, hline⟩ := exists_line_of_mem_rows hrows hmem
    exact isPaired_of_line hline (hsource.of_mem_lines hw)

/-- A script that is formatted and written is read back as it was, and formatted no more. -/
lemma decode_encode_of_script (h : script maxBlank (Utf8.decode bytes) = .ok formatted) :
    Utf8.decode (Utf8.encode formatted) = formatted ∧
      script maxBlank formatted = .ok formatted := by
  have hpaired := isPaired_of_script h (Utf8.isPaired_decode bytes)
  obtain ⟨rows, hrows, rfl⟩ := (script_eq_ok_iff maxBlank).mp h
  exact ⟨Utf8.decode_encode hpaired, script_unlines_arrange hrows⟩

/-! ### Settled files -/

/-- Formatting leaves the file at a path as it is. -/
def IsSettled (maxBlank : Binary64) (store : FileStore) (path : Path) : Prop :=
  ∃ bytes, store.find? path = some (.file bytes) ∧
    script maxBlank (Utf8.decode bytes) = .ok (Utf8.decode bytes)

/-- Files that are settled stay so, and names lead to the same paths. -/
structure Settles (maxBlank : Binary64) (store store' : FileStore) : Prop where
  workingDirectory_eq : store'.workingDirectory = store.workingDirectory
  isSettled : ∀ path, IsSettled maxBlank store path → IsSettled maxBlank store' path

lemma Settles.refl (maxBlank : Binary64) (store : FileStore) : Settles maxBlank store store :=
  ⟨rfl, fun _ h => h⟩

lemma Settles.trans {middle : FileStore} (h : Settles maxBlank store middle)
    (h' : Settles maxBlank middle store') : Settles maxBlank store store' where
  workingDirectory_eq := h'.workingDirectory_eq.trans h.workingDirectory_eq
  isSettled path hpath := h'.isSettled path (h.isSettled path hpath)

lemma Settles.resolve_eq (h : Settles maxBlank store store') (name : Text) :
    store'.resolve name = store.resolve name :=
  FileStore.resolve_congr h.workingDirectory_eq name

/-- A file that is formatted and written is settled. -/
lemma isSettled_write (hfile : store.find? path = some (.file bytes))
    (h : script maxBlank (Utf8.decode bytes) = .ok formatted) :
    IsSettled maxBlank (store.write path (Utf8.encode formatted)) path := by
  obtain ⟨hdecode, hscript⟩ := decode_encode_of_script h
  exact ⟨Utf8.encode formatted, FileStore.find?_write_self hfile _, by rwa [hdecode]⟩

lemma settles_write (hfile : store.find? path = some (.file bytes))
    (h : script maxBlank (Utf8.decode bytes) = .ok formatted) :
    Settles maxBlank store (store.write path (Utf8.encode formatted)) where
  workingDirectory_eq := rfl
  isSettled q hq := by
    by_cases heq : q = path
    · subst heq
      exact isSettled_write hfile h
    · obtain ⟨bytes', hfile', hscript⟩ := hq
      exact ⟨bytes', by rwa [FileStore.find?_write_of_ne heq], hscript⟩

/-! ### Runs -/

/-- A run in place that succeeds settles its first file and goes on with the others. -/
lemma takeFiles_cons_of_exit (hcheck : s.check = false) (hprint : s.print = false)
    (h : (takeFiles s clean (name :: names) store).exit = .ok 0) :
    ∃ store' event, takeFiles s clean (name :: names) store =
        (takeFiles s clean names store').after [event] ∧
      Settles s.maxBlank store store' ∧ IsSettled s.maxBlank store' (store.resolve name) := by
  rw [takeFiles] at h ⊢
  cases hfile : store.find? (store.resolve name) with
  | none => simp [hfile] at h
  | some node =>
    cases node with
    | directory => simp [hfile] at h
    | file bytes =>
      cases hscript : script s.maxBlank (Utf8.decode bytes) with
      | error e => simp [hfile, hscript] at h
      | ok new =>
        by_cases hold : Utf8.decode bytes = new
        · subst hold
          refine ⟨store, .out (("Unchanged: " : Text) ++ name), ?_, .refl _ _, bytes, hfile,
            hscript⟩
          simp [hscript, hcheck, hprint]
        · refine ⟨store.write (store.resolve name) (Utf8.encode new),
            .out (("Formatted: " : Text) ++ name), ?_, settles_write hfile hscript,
            isSettled_write hfile hscript⟩
          simp [hscript, hcheck, hprint, hold]

/-- A run in place that succeeds settles all its files. -/
theorem takeFiles_settles (hcheck : s.check = false) (hprint : s.print = false)
    (h : (takeFiles s clean names store).exit = .ok 0) :
    Settles s.maxBlank store (takeFiles s clean names store).store ∧
      ∀ name ∈ names,
        IsSettled s.maxBlank (takeFiles s clean names store).store (store.resolve name) := by
  induction names generalizing store with
  | nil => exact ⟨.refl _ _, by simp⟩
  | cons name names ih =>
    obtain ⟨store', event, hrun, hsettles, hsettled⟩ := takeFiles_cons_of_exit hcheck hprint h
    rw [hrun] at h ⊢
    obtain ⟨hrest, hall⟩ := ih h
    refine ⟨hsettles.trans hrest, List.forall_mem_cons.mpr ⟨hrest.isSettled _ hsettled, ?_⟩⟩
    simpa [hsettles.resolve_eq] using hall

/-- What a run that prints nothing says of a file that is settled. -/
def settledMessage (check : Bool) (name : Text) : Text :=
  (if check then ("Already formatted: " : Text) else ("Unchanged: " : Text)) ++ name

/-- A run over settled files changes none of them. -/
theorem takeFiles_of_isSettled (hprint : s.print = false)
    (h : ∀ name ∈ names, IsSettled s.maxBlank store (store.resolve name)) :
    takeFiles s true names store =
      .print 0 (names.map fun name => .out (settledMessage s.check name)) store := by
  induction names with
  | nil => simp [takeFiles]
  | cons name names ih =>
    obtain ⟨⟨bytes, hfile, hscript⟩, hnames⟩ := List.forall_mem_cons.mp h
    cases hcheck : s.check <;>
      simp [takeFiles, hfile, hscript, hprint, hcheck, ih hnames, settledMessage, Run.after,
        Run.print]

/-! ### Arguments -/

/-- The arguments that name files: those that are no options, nor the value of one. -/
def fileNames : List Text → List Text
  | [] => []
  | a :: rest =>
    if a = ("--max-blank" : Text) then
      match rest with
      | [] => []
      | _ :: rest => fileNames rest
    else if a.head? = some CodeUnit.minus then fileNames rest
    else a :: fileNames rest

lemma fileNames_cons_of_minus {a : Text} (hblank : a ≠ ("--max-blank" : Text))
    (hminus : a.head? = some CodeUnit.minus) (rest : List Text) :
    fileNames (a :: rest) = fileNames rest := by
  rw [fileNames.eq_def]
  simp [hblank, hminus]

lemma fileNames_cons_of_name {a : Text} (hblank : a ≠ ("--max-blank" : Text))
    (hminus : a.head? ≠ some CodeUnit.minus) (rest : List Text) :
    fileNames (a :: rest) = a :: fileNames rest := by
  rw [fileNames.eq_def]
  simp [hblank, hminus]

/-- What is read off the arguments. -/
lemma of_readArguments (h : readArguments s arguments = .ok s') :
    s'.names = s.names ++ fileNames arguments ∧
      (("--check" : Text) ∉ arguments → s'.check = s.check) ∧
      (("--stdout" : Text) ∉ arguments → s'.print = s.print) := by
  fun_induction readArguments s arguments with
  | case1 s =>
    obtain rfl := Except.ok.inj h
    simp [fileNames]
  | case2 s rest ih =>
    obtain ⟨hnames, -, hprint⟩ := ih h
    rw [fileNames_cons_of_minus (by decide) (by decide)]
    exact ⟨hnames, by simp, fun hmem => hprint (List.not_mem_of_not_mem_cons hmem)⟩
  | case3 s rest hcheck ih =>
    obtain ⟨hnames, hcheck, -⟩ := ih h
    rw [fileNames_cons_of_minus (by decide) (by decide)]
    exact ⟨hnames, fun hmem => hcheck (List.not_mem_of_not_mem_cons hmem), by simp⟩
  | case4 s hcheck hprint => cases h
  | case5 s value rest x hvalue hcheck hprint ih =>
    obtain ⟨hnames, hcheck, hprint⟩ := ih h
    have hrest : fileNames (("--max-blank" : Text) :: value :: rest) = fileNames rest := by
      simp [fileNames]
    refine ⟨by rw [hnames, hrest], fun hmem => hcheck ?_, fun hmem => hprint ?_⟩ <;>
      exact List.not_mem_of_not_mem_cons (List.not_mem_of_not_mem_cons hmem)
  | case6 s value rest hvalue hcheck hprint => cases h
  | case7 s a rest hcheck hprint hblank hminus => cases h
  | case8 s a rest hcheck hprint hblank hminus ih =>
    obtain ⟨hnames, hcheck, hprint⟩ := ih h
    rw [fileNames_cons_of_name hblank hminus]
    refine ⟨by simp [hnames], fun hmem => hcheck ?_, fun hmem => hprint ?_⟩ <;>
      exact List.not_mem_of_not_mem_cons hmem

/-- Checking reads the other arguments as before. -/
lemma readArguments_check (s : Settings) (arguments : List Text) :
    readArguments { s with check := true } arguments =
      (readArguments s arguments).map fun s => { s with check := true } := by
  fun_induction readArguments s arguments with
  | case1 s => rfl
  | case2 s rest ih =>
    rw [readArguments.eq_def]
    simpa using ih
  | case3 s rest hcheck ih =>
    rw [readArguments.eq_def]
    simpa [hcheck] using ih
  | case4 s hcheck hprint => rfl
  | case5 s value rest x hvalue hcheck hprint ih =>
    rw [readArguments.eq_def]
    simpa [hcheck, hprint, hvalue] using ih
  | case6 s value rest hvalue hcheck hprint =>
    rw [readArguments.eq_def]
    simp [hcheck, hprint, hvalue, Except.map]
  | case7 s a rest hcheck hprint hblank hminus =>
    rw [readArguments.eq_def]
    simp [hcheck, hprint, hblank, hminus, Except.map]
  | case8 s a rest hcheck hprint hblank hminus ih =>
    rw [readArguments.eq_def]
    simpa [hcheck, hprint, hblank, hminus] using ih

/-! ### Programs -/

lemma asksForHelp_eq_false_iff :
    asksForHelp arguments = false ↔
      arguments ≠ [] ∧ ("--help" : Text) ∉ arguments ∧ ("-h" : Text) ∉ arguments := by
  rw [← Bool.not_eq_true]
  simp only [asksForHelp, Bool.or_eq_true, List.isEmpty_iff, List.any_eq_true, decide_eq_true_eq,
    and_or_left, exists_or, exists_eq_right, not_or]

lemma run_eq_takeFiles (hhelp : asksForHelp arguments = false)
    (hread : readArguments {} arguments = .ok s) (hnames : s.names ≠ []) (store : FileStore) :
    run arguments store = takeFiles s true s.names store := by
  simp [run, hhelp, hread, hnames]

/-- A run that succeeds without printing the help text has files to take. -/
lemma exists_settings_of_run (hhelp : asksForHelp arguments = false)
    (hexit : (run arguments store).exit = .ok 0) :
    ∃ s, readArguments {} arguments = .ok s ∧ s.names ≠ [] := by
  cases hread : readArguments {} arguments with
  | error message => simp [run, hhelp, hread] at hexit
  | ok s =>
    refine ⟨s, rfl, fun hnames => ?_⟩
    simp [run, hhelp, hread, hnames] at hexit

/-- Formatting in place converges in one run. After a run over some files that succeeds, checking
the same files finds all of them formatted, and a second run in place leaves all of them
unchanged. -/
theorem run_converges (hne : arguments ≠ [])
    (hoptions : ∀ option ∈ (["--help", "-h", "--check", "--stdout"] : List Text),
      option ∉ arguments)
    (hexit : (run arguments store).exit = .ok 0) :
    fileNames arguments ≠ [] ∧
    run (("--check" : Text) :: arguments) (run arguments store).store =
      .print 0 ((fileNames arguments).map fun name => .out (("Already formatted: " : Text) ++ name))
        (run arguments store).store ∧
    run arguments (run arguments store).store =
      .print 0 ((fileNames arguments).map fun name => .out (("Unchanged: " : Text) ++ name))
        (run arguments store).store := by
  obtain ⟨hlong, hshort, hcheck, hprint⟩ :
      ("--help" : Text) ∉ arguments ∧ ("-h" : Text) ∉ arguments ∧
        ("--check" : Text) ∉ arguments ∧ ("--stdout" : Text) ∉ arguments := by
    simpa using hoptions
  have hhelp := asksForHelp_eq_false_iff.mpr ⟨hne, hlong, hshort⟩
  have hhelp' : asksForHelp (("--check" : Text) :: arguments) = false := by
    refine asksForHelp_eq_false_iff.mpr ⟨by simp, ?_, ?_⟩ <;>
      exact List.not_mem_cons_of_ne_of_not_mem (by decide) (by assumption)
  obtain ⟨s, hread, hnonempty⟩ := exists_settings_of_run hhelp hexit
  have hread' : readArguments {} (("--check" : Text) :: arguments) =
      .ok { s with check := true } := by
    have hcheck := readArguments_check {} arguments
    rw [hread] at hcheck
    rw [readArguments.eq_def]
    exact hcheck
  obtain ⟨hnames, hcheck', hprint'⟩ := of_readArguments hread
  rw [List.nil_append] at hnames
  rw [run_eq_takeFiles hhelp hread hnonempty] at hexit ⊢
  obtain ⟨hsettles, hall⟩ := takeFiles_settles (hcheck' hcheck) (hprint' hprint) hexit
  generalize (takeFiles s true s.names store).store = settled at hsettles hall ⊢
  simp only [← hsettles.resolve_eq] at hall
  have hchecked := takeFiles_of_isSettled (s := { s with check := true }) (hprint' hprint) hall
  have hrepeated := takeFiles_of_isSettled (hprint' hprint) hall
  rw [run_eq_takeFiles hhelp hread hnonempty, run_eq_takeFiles hhelp' hread' hnonempty, hchecked,
    hrepeated, hcheck' hcheck, ← hnames]
  exact ⟨hnonempty, rfl, rfl⟩

/-- A file that is taken twice. Its comment has a byte order mark before it, and in it a byte that
starts no character and a character beyond the basic plane. -/
theorem run_converges_comment :
    (run ["a", "--max-blank", "2", "./a"]
      ⟨[], [([("a" : Text)], [0xEF, 0xBB, 0xBF, 0x3B, 0xFF, 0xF0, 0x9F, 0x98, 0x80, 0x20, 0x0D,
        0x0A, 0x0A, 0x28, 0x20, 0x61, 0x29])], []⟩).exit = .ok 0 ∧
    run ["--check", "a", "--max-blank", "2", "./a"]
      ⟨[], [([("a" : Text)], [0x3B, 0xEF, 0xBF, 0xBD, 0xF0, 0x9F, 0x98, 0x80, 0x0A, 0x0A, 0x28,
        0x61, 0x29, 0x0A])], []⟩ =
      .print 0 [.out "Already formatted: a", .out "Already formatted: ./a"]
        ⟨[], [([("a" : Text)], [0x3B, 0xEF, 0xBF, 0xBD, 0xF0, 0x9F, 0x98, 0x80, 0x0A, 0x0A, 0x28,
          0x61, 0x29, 0x0A])], []⟩ := by
  have hexit : (run ["a", "--max-blank", "2", "./a"]
      ⟨[], [([("a" : Text)], [0xEF, 0xBB, 0xBF, 0x3B, 0xFF, 0xF0, 0x9F, 0x98, 0x80, 0x20, 0x0D,
        0x0A, 0x0A, 0x28, 0x20, 0x61, 0x29])], []⟩).exit = .ok 0 := by
    decide +kernel
  have hstore : (run ["a", "--max-blank", "2", "./a"]
      ⟨[], [([("a" : Text)], [0xEF, 0xBB, 0xBF, 0x3B, 0xFF, 0xF0, 0x9F, 0x98, 0x80, 0x20, 0x0D,
        0x0A, 0x0A, 0x28, 0x20, 0x61, 0x29])], []⟩).store =
      ⟨[], [([("a" : Text)], [0x3B, 0xEF, 0xBF, 0xBD, 0xF0, 0x9F, 0x98, 0x80, 0x0A, 0x0A, 0x28,
        0x61, 0x29, 0x0A])], []⟩ := by
    decide +kernel
  have hnames : fileNames ["a", "--max-blank", "2", "./a"] = ["a", "./a"] := by decide +kernel
  obtain ⟨-, hcheck, -⟩ := run_converges (by simp) (by decide +kernel) hexit
  rw [hstore, hnames] at hcheck
  exact ⟨hexit, hcheck⟩

/-- Without any arguments the help text is printed, which succeeds as well, but then there is no
file that could be checked. -/
theorem not_forall_check_succeeds :
    ¬ ∀ (arguments : List Text) (store : FileStore),
      (∀ option ∈ (["--help", "-h", "--check", "--stdout"] : List Text), option ∉ arguments) →
      (run arguments store).exit = .ok 0 →
      (run (("--check" : Text) :: arguments) (run arguments store).store).exit = .ok 0 := by
  intro hall
  have hcheck := hall [] ⟨[], [], []⟩ (by simp) (by decide +kernel)
  exact absurd hcheck (by decide +kernel)

end Format

end Sprig
