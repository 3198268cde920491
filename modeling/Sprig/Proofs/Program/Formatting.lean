import Sprig.Program.Interpreter
import Sprig.Proofs.Format.Content
import Sprig.Proofs.Format.Modes
import Sprig.Proofs.Options.Document

/-!
# Running a script after formatting it

A script runs without an error if every expression in it has a value. Such a script can be
formatted, and its expressions have the same values after it. Formatting changes no other file. It
does not change the options either: a configuration file that is accepted starts with a brace, which
no expression does, so a script that runs is no such file.
-/

namespace Sprig

variable {limit : Nat} {source formatted file : Text} {maxBlank : Binary64} {store : FileStore}
  {limitVariable : Option Text} {input : List Text} {bytes : List UInt8} {values : List Int}
  {options : Options}

/-! ### The values of a script -/

/-- The values of the expressions of a script, in order. -/
def HasValues (limit : Nat) (source : Text) (values : List Int) : Prop :=
  List.Forall₂ (fun l value => evaluate limit l.text = .ok value) (ScriptLine.expressions source)
    values

lemma exists_forall₂ {α β : Type} {r : α → β → Prop} {xs : List α} (h : ∀ x ∈ xs, ∃ y, r x y) :
    ∃ ys, List.Forall₂ r xs ys := by
  induction xs with
  | nil => exact ⟨[], .nil⟩
  | cons x xs ih =>
    obtain ⟨⟨y, hy⟩, hxs⟩ := List.forall_mem_cons.mp h
    obtain ⟨ys, hys⟩ := ih hxs
    exact ⟨y :: ys, .cons hy hys⟩

lemma exists_values (h : (evaluateLines limit source).all fun o => o.2.isOk) :
    ∃ values, HasValues limit source values := by
  rw [evaluateLines, List.all_map, List.all_eq_true] at h
  refine exists_forall₂ fun l hl => ?_
  have hok := h l hl
  rw [Function.comp_apply] at hok
  cases hvalue : evaluate limit l.text with
  | ok value => exact ⟨value, rfl⟩
  | error e =>
    rw [hvalue] at hok
    cases hok

namespace HasValues

lemma all_isOk (h : HasValues limit source values) :
    (evaluateLines limit source).all fun o => o.2.isOk := by
  rw [HasValues] at h
  rw [evaluateLines, List.all_map]
  generalize ScriptLine.expressions source = ls at h ⊢
  induction h with
  | nil => rfl
  | @cons l value _ _ hvalue _ ih =>
    rw [List.all_cons, ih, Function.comp_apply, hvalue]
    rfl

lemma map_lineEvent (h : HasValues limit source values) (file : Text) :
    (evaluateLines limit source).map (Program.lineEvent file) =
      values.map fun value => .out (Text.ofInt value) := by
  rw [HasValues] at h
  rw [evaluateLines, List.map_map]
  generalize ScriptLine.expressions source = ls at h ⊢
  induction h with
  | nil => rfl
  | @cons l value _ _ hvalue _ ih =>
    rw [List.map_cons, List.map_cons, ih, Function.comp_apply, hvalue]
    rfl

lemma exists_value (h : HasValues limit source values) {t : Text} (ht : t ∈ source.lines)
    (hkind : t.lineKind = .expression) : ∃ value, evaluate limit t = .ok value := by
  have hmem : t ∈ (ScriptLine.expressions source).map ScriptLine.text := by
    rw [ScriptLine.map_text_expressions]
    exact List.mem_filter.mpr ⟨ht, by simpa using hkind⟩
  obtain ⟨l, hl, rfl⟩ := List.mem_map.mp hmem
  obtain ⟨i, hi, rfl⟩ := List.mem_iff_getElem.mp hl
  have hlength := List.Forall₂.length_eq h
  exact ⟨_, List.Forall₂.get h hi (by omega)⟩

/-- A script whose expressions have values can be formatted. -/
lemma exists_script (h : HasValues limit source values) (maxBlank : Binary64) :
    ∃ formatted, Format.script maxBlank source = .ok formatted := by
  have hlines : ∀ t ∈ source.lines, ∃ r, Format.line t = .ok r := by
    intro t ht
    cases hkind : t.lineKind with
    | blank => exact ⟨none, Format.line_eq_none_iff.mpr hkind⟩
    | comment => exact ⟨some t.trim, Format.line_eq_some_iff.mpr (Or.inl ⟨hkind, rfl⟩)⟩
    | expression =>
      obtain ⟨value, hvalue⟩ := h.exists_value ht hkind
      obtain ⟨f, hf, -⟩ := exists_formatted_of_evaluate hvalue
      exact ⟨some f, Format.line_eq_some_iff.mpr (Or.inr ⟨hkind, hf⟩)⟩
  obtain ⟨rows, hrows⟩ := exists_forall₂ hlines
  exact ⟨_, (Format.script_eq_ok_iff maxBlank).mpr ⟨rows, hrows, rfl⟩⟩

/-- The expressions of a formatted script have the values that they had before. -/
lemma of_script (h : HasValues limit source values)
    (hformat : Format.script maxBlank source = .ok formatted) :
    HasValues limit formatted values := by
  have hexpressions := Format.forall₂_expressions (Format.forall₂_keeps_of_script hformat)
  rw [HasValues] at h ⊢
  generalize ScriptLine.expressions source = ls at h hexpressions
  generalize ScriptLine.expressions formatted = ls' at hexpressions ⊢
  induction h generalizing ls' with
  | nil =>
    cases hexpressions
    exact .nil
  | @cons l value _ _ hvalue _ ih =>
    cases hexpressions with
    | cons hl hls =>
      obtain ⟨f, hf, hvalue'⟩ := exists_formatted_of_evaluate hvalue
      obtain rfl := Except.ok.inj (hf.symm.trans hl)
      exact .cons hvalue' (ih _ hls)

/-- No expression has a brace in it, so what stands first in the script is another unit. -/
lemma head?_trimStart_ne (h : HasValues limit source values) :
    source.trimStart.head? ≠ some Json.openBrace := by
  intro hhead
  obtain ⟨l, hl, hbrace⟩ := Text.exists_mem_lines hhead
  have hmem : Json.openBrace ∈ l := (List.dropWhile_sublist _).subset (List.mem_of_mem_head? hbrace)
  have htrim : l.trim ≠ [] := by
    intro hnil
    have hin := Text.mem_trim hmem (by decide)
    rw [hnil] at hin
    cases hin
  have hkind : l.lineKind = .expression := by
    rw [Text.lineKind, if_neg htrim, Text.isComment, hbrace]
    rfl
  obtain ⟨value, hvalue⟩ := h.exists_value hl hkind
  obtain ⟨lead, body, rfl, hlead, hread, -⟩ := exists_tokens_of_evaluate hvalue
  rcases List.mem_append.mp hmem with hmem | hmem
  · rcases hlead with hlead | hlead <;> rw [hlead] at hmem <;> revert hmem <;> decide
  · obtain ⟨t, ht, hu⟩ := List.mem_flatMap.mp hmem
    rcases Token.mem_text (hread.accepts t ht) hu with ⟨-, h⟩ | h | h | h | h <;>
      exact absurd h (by decide)

end HasValues

/-! ### Formatting one file -/

namespace Format

/-- The run of the formatter over one file, without options. -/
lemma inPlace_run_singleton (hname : file.head? ≠ some CodeUnit.minus) (store : FileStore) :
    InPlace defaultMaxBlank [file] store (run [file] store) := by
  have hne : ∀ option : Text, option.head? = some CodeUnit.minus → option ≠ file := by
    rintro option hoption rfl
    exact hname hoption
  have hblank : file ≠ ("--max-blank" : Text) := (hne _ (by decide)).symm
  have hnames : fileNames [file] = [file] := fileNames_cons_of_name hblank hname []
  have hinvalid : ¬HasInvalidOption [file] := by
    intro h
    cases h with
    | unknown hminus => exact hname hminus
    | noValue => exact hblank rfl
    | after _ h => cases h
  have hhelp : asksForHelp [file] = false := by
    refine asksForHelp_eq_false_iff.mpr ⟨by simp, ?_, ?_⟩ <;>
      exact List.mem_singleton.not.mpr (hne _ (by decide))
  have hrun := NamesFiles.inPlace_run ⟨hhelp, hinvalid, by simp [hnames]⟩
    (List.mem_singleton.not.mpr (hne _ (by decide)))
    (List.mem_singleton.not.mpr (hne _ (by decide))) store
  rwa [hnames, maxBlankOf_cons hblank] at hrun

/-- Formatting a file leaves it with the formatted text, and every other file as it is. -/
lemma run_singleton_of_script (hname : file.head? ≠ some CodeUnit.minus)
    (hfile : store.find? (store.resolve file) = some (.file bytes))
    (hformat : script defaultMaxBlank (Utf8.decode bytes) = .ok formatted) :
    (run [file] store).exit = .ok 0 ∧
    (run [file] store).store.workingDirectory = store.workingDirectory ∧
    (∃ new, (run [file] store).store.find? (store.resolve file) = some (.file new) ∧
      Utf8.decode new = formatted) ∧
    ∀ path ≠ store.resolve file, (run [file] store).store.find? path = store.find? path := by
  obtain ⟨hformats, hexit, -, -⟩ := inPlace_run_singleton hname store
  have hcan : canFormat defaultMaxBlank store (store.resolve file) = true := by
    rw [canFormat, hfile, Option.any_some, isFormattable, hformat]
    rfl
  have hhandled : handled defaultMaxBlank store [file] = [file] := handled_cons_of_pos hcan
  rw [hhandled] at hformats hexit
  obtain ⟨new, hsettle, hdecode⟩ := exists_settle_of_script hformat
  refine ⟨hexit.mpr rfl, hformats.workingDirectory_eq, ⟨new, ?_, hdecode⟩, ?_⟩
  · rw [hformats.find?_eq, if_pos (by simp), hfile, Option.map_some, hsettle]
  · intro path hpath
    rw [hformats.find?_eq, if_neg (by simpa using hpath)]

end Format

/-! ### Running one file -/

namespace Program

lemma run_of_hasValues (hload : Options.loadFrom store limitVariable = .ok options)
    (hfile : store.find? (store.resolve file) = some (.file bytes))
    (hvalues : HasValues options.maxDepth (Utf8.decode bytes) values) (input : List Text) :
    run ["run", file] limitVariable input store =
      .print 0 (values.map fun value => .out (Text.ofInt value)) store := by
  have hcommand : Command.ofArguments ["run", file] = .task (.run file) := rfl
  rw [run, hcommand, runCommand, hload]
  dsimp only
  rw [runTask, runScript, hfile]
  dsimp only
  rw [if_pos hvalues.all_isOk, hvalues.map_lineEvent]

lemma exists_hasValues_of_run
    (h : (run ["run", file] limitVariable input store).exit = .ok 0) :
    ∃ options bytes values, Options.loadFrom store limitVariable = .ok options ∧
      store.find? (store.resolve file) = some (.file bytes) ∧
      HasValues options.maxDepth (Utf8.decode bytes) values := by
  have hcommand : Command.ofArguments ["run", file] = .task (.run file) := rfl
  rw [run, hcommand, runCommand] at h
  cases hload : Options.loadFrom store limitVariable with
  | error e =>
    rw [hload] at h
    cases h
  | ok options =>
    simp only [hload, runTask, runScript] at h
    cases hfile : store.find? (store.resolve file) with
    | none =>
      rw [hfile] at h
      cases h
    | some node =>
      cases node with
      | directory =>
        rw [hfile] at h
        cases h
      | file bytes =>
        simp only [hfile, Run.exit_print] at h
        split_ifs at h with hall
        · obtain ⟨values, hvalues⟩ := exists_values hall
          exact ⟨options, bytes, values, rfl, rfl, hvalues⟩
        · cases h

/-- A script that runs is no configuration file. -/
lemma resolve_ne_of_hasValues (hload : Options.loadFrom store limitVariable = .ok options)
    (hfile : store.find? (store.resolve file) = some (.file bytes))
    (hvalues : HasValues limit (Utf8.decode bytes) values) :
    store.resolve configFileName ≠ store.resolve file := by
  intro hsame
  rw [Options.loadFrom, hsame, hfile, Options.load] at hload
  cases hwith : Options.withFile Options.noReason (some (.file bytes)) {} with
  | error e =>
    rw [hwith] at hload
    cases hload
  | ok o => exact hvalues.head?_trimStart_ne (Options.head?_trimStart_of_withFile hwith)

/-- Formatting a script never breaks running it. If a file runs without an error, then it can be
formatted, and it runs as before after it. -/
theorem format_keeps_run (hname : file.head? ≠ some CodeUnit.minus)
    (h : (run ["run", file] limitVariable input store).exit = .ok 0) :
    (run ["fmt", file] limitVariable input store).exit = .ok 0 ∧
    (run ["run", file] limitVariable input
      (run ["fmt", file] limitVariable input store).store).exit = .ok 0 ∧
    (run ["run", file] limitVariable input
      (run ["fmt", file] limitVariable input store).store).events =
      (run ["run", file] limitVariable input store).events := by
  obtain ⟨options, bytes, values, hload, hfile, hvalues⟩ := exists_hasValues_of_run h
  obtain ⟨formatted, hformat⟩ := hvalues.exists_script Format.defaultMaxBlank
  have hformatting : run ["fmt", file] limitVariable input store = Format.run [file] store := rfl
  obtain ⟨hexit, hdirectory, ⟨new, hnew, hdecode⟩, hother⟩ :=
    Format.run_singleton_of_script hname hfile hformat
  rw [hformatting, run_of_hasValues hload hfile hvalues]
  generalize (Format.run [file] store).store = store' at hdirectory hnew hother ⊢
  have hresolve := FileStore.resolve_congr hdirectory
  have hload' : Options.loadFrom store' limitVariable = .ok options := by
    rw [Options.loadFrom, hresolve, hother _ (resolve_ne_of_hasValues hload hfile hvalues)]
    exact hload
  have hvalues' : HasValues options.maxDepth (Utf8.decode new) values := by
    rw [hdecode]
    exact hvalues.of_script hformat
  rw [run_of_hasValues hload' (by rwa [hresolve]) hvalues']
  exact ⟨hexit, rfl, rfl⟩

/-- Files of which one is a script, and one the configuration. -/
def scriptStore (bytes : List UInt8) : FileStore :=
  ⟨[], [([("a" : Text)], bytes), ([configFileName], Utf8.encode "\x7b\"maxDepth\":2\x7d")], []⟩

/-- A byte order mark, and a byte that starts no character, are in the comment before a sum. The sum
has a space before it, and is nested as deep as the configuration allows. -/
theorem format_keeps_run_comment :
    (run ["run", "a"] none [] (scriptStore ([0xEF, 0xBB, 0xBF, 0x3B, 0xFF, 0x0D, 0x0A] ++
      Utf8.encode " (add 1 2)"))).exit = .ok 0 ∧
    (run ["fmt", "a"] none [] (scriptStore ([0xEF, 0xBB, 0xBF, 0x3B, 0xFF, 0x0D, 0x0A] ++
      Utf8.encode " (add 1 2)"))).store =
      scriptStore ([0x3B, 0xEF, 0xBF, 0xBD, 0x0A] ++ Utf8.encode "(add 1 2)\n") ∧
    (run ["run", "a"] none [] (scriptStore ([0x3B, 0xEF, 0xBF, 0xBD, 0x0A] ++
      Utf8.encode "(add 1 2)\n"))).events = [.out "3"] := by
  have hrun : (run ["run", "a"] none [] (scriptStore ([0xEF, 0xBB, 0xBF, 0x3B, 0xFF, 0x0D, 0x0A] ++
      Utf8.encode " (add 1 2)"))).exit = .ok 0 := by
    decide +kernel
  have hevents : (run ["run", "a"] none [] (scriptStore ([0xEF, 0xBB, 0xBF, 0x3B, 0xFF, 0x0D,
      0x0A] ++ Utf8.encode " (add 1 2)"))).events = [.out "3"] := by
    decide +kernel
  have hstore : (run ["fmt", "a"] none [] (scriptStore ([0xEF, 0xBB, 0xBF, 0x3B, 0xFF, 0x0D,
      0x0A] ++ Utf8.encode " (add 1 2)"))).store =
      scriptStore ([0x3B, 0xEF, 0xBF, 0xBD, 0x0A] ++ Utf8.encode "(add 1 2)\n") := by
    decide +kernel
  obtain ⟨-, -, hagain⟩ := format_keeps_run (by decide) hrun
  rw [hstore, hevents] at hagain
  exact ⟨hrun, hstore, hagain⟩

end Program

end Sprig
