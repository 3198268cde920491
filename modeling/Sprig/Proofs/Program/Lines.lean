import Sprig.Program.Interpreter
import Sprig.Proofs.Script.Lines

/-!
# Running a file line by line

To run a file is to evaluate each of its expressions alone: a line prints what its expression prints
by itself, an error with the name of the file and the number of the line before it. So no line
depends on what the others do.
-/

namespace Sprig

/-- The first arguments that are not taken for the name of a file. -/
def Command.words : List Text :=
  ["--help", "-h", "fmt", "repl", "demo", "--eval", "-e", "run"]

namespace Program

variable {limit : Nat} {file : Text} {store : FileStore} {limitVariable : Option Text}
  {bytes : List UInt8} {options : Options} {arguments : List Text}

/-! ### Commands -/

/-- Arguments that ask to run a file. -/
inductive RunsFile (file : Text) : List Text → Prop where
  | word (rest : List Text) : RunsFile file ("run" :: file :: rest)
  | name (h : file ∉ Command.words) (rest : List Text) : RunsFile file (file :: rest)

lemma RunsFile.ofArguments_eq (h : RunsFile file arguments) :
    Command.ofArguments arguments = .task (.run file) := by
  cases h with
  | word rest => rfl
  | name h rest =>
    simp only [Command.words, List.mem_cons, not_or, List.not_mem_nil, not_false_eq_true,
      and_true] at h
    obtain ⟨hhelp, hh, hfmt, hrepl, hdemo, heval, he, hrun⟩ := h
    simp only [Command.ofArguments, hhelp, hh, hfmt, hrepl, hdemo, heval, he, hrun, or_self,
      if_false]

/-- The event of a line of a file, from the run of its expression alone. -/
inductive IsEventOf (file : Text) (number : Nat) (r : Run) : Event → Prop where
  | value {v : Text} (hexit : r.exit = .ok 0) (hevents : r.events = [.out v]) :
    IsEventOf file number r (.out v)
  | error {message : Text} (hexit : r.exit = .ok 1) (hevents : r.events = [.err message]) :
    IsEventOf file number r
      (.err (file ++ (":" : Text) ++ Text.ofNat number ++ (": " : Text) ++ message))

/-! ### Runs -/

lemma run_eval (hload : Options.loadFrom store limitVariable = .ok options) (t : Text)
    (input : List Text) :
    run ["--eval", t] limitVariable input store = runExpression options.maxDepth t store := by
  have hcommand : Command.ofArguments ["--eval", t] = .task (.eval t) := rfl
  rw [run, hcommand, runCommand, hload]
  rfl

lemma run_file (hload : Options.loadFrom store limitVariable = .ok options)
    (hfile : store.find? (store.resolve file) = some (.file bytes))
    (harguments : RunsFile file arguments) (input : List Text) :
    run arguments limitVariable input store =
      .print (if (evaluateLines options.maxDepth (Utf8.decode bytes)).all fun o => o.2.isOk
          then 0 else 1)
        ((evaluateLines options.maxDepth (Utf8.decode bytes)).map (lineEvent file)) store := by
  rw [run, harguments.ofArguments_eq, runCommand, hload]
  dsimp only
  rw [runTask, runScript, hfile]

lemma isEventOf_lineEvent (limit : Nat) (file : Text) (store : FileStore) (l : ScriptLine) :
    IsEventOf file l.number (runExpression limit l.text store)
      (lineEvent file (l, evaluate limit l.text)) := by
  rw [runExpression]
  cases evaluate limit l.text with
  | ok value => exact .value rfl rfl
  | error e => exact .error rfl rfl

lemma exit_runExpression_eq_one_iff {t : Text} :
    (runExpression limit t store).exit = .ok 1 ↔ (evaluate limit t).isOk = false := by
  rw [runExpression]
  cases evaluate limit t with
  | ok value => simp [Except.isOk, Except.toBool]
  | error e => simp [Except.isOk, Except.toBool]

lemma events_run_file (hload : Options.loadFrom store limitVariable = .ok options)
    (hfile : store.find? (store.resolve file) = some (.file bytes))
    (harguments : RunsFile file arguments) (input : List Text) :
    (run arguments limitVariable input store).events =
      (ScriptLine.expressions (Utf8.decode bytes)).map fun l =>
        lineEvent file (l, evaluate options.maxDepth l.text) := by
  rw [run_file hload hfile harguments, Run.events_print, evaluateLines, List.map_map]
  rfl

/-- The run of a file ends with the code zero or one, and with one if the run of one of its
expressions does. -/
lemma exit_run_file (hload : Options.loadFrom store limitVariable = .ok options)
    (hfile : store.find? (store.resolve file) = some (.file bytes))
    (harguments : RunsFile file arguments) (input : List Text) :
    ((run arguments limitVariable input store).exit = .ok 0 ∨
      (run arguments limitVariable input store).exit = .ok 1) ∧
    ((run arguments limitVariable input store).exit = .ok 1 ↔
      ∃ l ∈ ScriptLine.expressions (Utf8.decode bytes),
        (run ["--eval", l.text] limitVariable input store).exit = .ok 1) := by
  simp only [run_eval hload, exit_runExpression_eq_one_iff, run_file hload hfile harguments,
    Run.exit_print]
  have hall : ((evaluateLines options.maxDepth (Utf8.decode bytes)).all fun o => o.2.isOk) = false ↔
      ∃ l ∈ ScriptLine.expressions (Utf8.decode bytes),
        (evaluate options.maxDepth l.text).isOk = false := by
    simp [evaluateLines]
  rw [← hall]
  cases (evaluateLines options.maxDepth (Utf8.decode bytes)).all fun o => o.2.isOk <;> simp

/-- To run a file is to evaluate its expressions one by one. Every expression has one event, in the
order of the lines: what it prints if it is evaluated alone, after the name of the file and the
number of its line if that is an error. The run fails if one of them does. The event of a line is
the same in every file that has the line at this place. -/
theorem run_eq_eval_lines (hload : Options.loadFrom store limitVariable = .ok options)
    (hfile : store.find? (store.resolve file) = some (.file bytes))
    (harguments : RunsFile file arguments) (input : List Text) :
    (List.Forall₂
      (fun l => IsEventOf file l.number (run ["--eval", l.text] limitVariable input store))
      (ScriptLine.expressions (Utf8.decode bytes))
      (run arguments limitVariable input store).events) ∧
    ((ScriptLine.expressions (Utf8.decode bytes)).Pairwise fun l l' => l.number < l'.number) ∧
    (∀ l, l ∈ ScriptLine.expressions (Utf8.decode bytes) ↔ 1 ≤ l.number ∧
      (Utf8.decode bytes).lines[l.number - 1]? = some l.text ∧ l.text.lineKind = .expression) ∧
    ((run arguments limitVariable input store).exit = .ok 0 ∨
      (run arguments limitVariable input store).exit = .ok 1) ∧
    ((run arguments limitVariable input store).exit = .ok 1 ↔
      ∃ l ∈ ScriptLine.expressions (Utf8.decode bytes),
        (run ["--eval", l.text] limitVariable input store).exit = .ok 1) ∧
    ∀ (store' : FileStore) (bytes' : List UInt8),
      Options.loadFrom store' limitVariable = .ok options →
      store'.find? (store'.resolve file) = some (.file bytes') → ∀ i j : Nat,
      (ScriptLine.expressions (Utf8.decode bytes))[i]? =
        (ScriptLine.expressions (Utf8.decode bytes'))[j]? →
      (run arguments limitVariable input store).events[i]? =
        (run arguments limitVariable input store').events[j]? := by
  refine ⟨?_, ScriptLine.pairwise_number_expressions _, fun _ => ScriptLine.mem_expressions_iff,
    (exit_run_file hload hfile harguments input).1, (exit_run_file hload hfile harguments input).2,
    ?_⟩
  · rw [events_run_file hload hfile harguments, List.forall₂_map_right_iff, List.forall₂_same]
    intro l _
    rw [run_eval hload]
    exact isEventOf_lineEvent options.maxDepth file store l
  · intro store' bytes' hload' hfile' i j hline
    rw [events_run_file hload hfile harguments, events_run_file hload' hfile' harguments,
      List.getElem?_map, List.getElem?_map, hline]

/-- A file with a comment and a blank line, and with a name that is not bound on its fourth line. -/
def unboundStore : FileStore := ⟨[], [(["a"], Utf8.encode "1\r\n; two\n\n(add 2 x)\n3")], []⟩

/-- A name that is not bound stops its own line only. -/
theorem run_eq_eval_lines_unbound :
    (run ["a"] none [] unboundStore).events =
      [.out "1", .err "a:4: EvaluationError: undefined variable 'x'", .out "3"] ∧
    (run ["a"] none [] unboundStore).exit = .ok 1 ∧
    IsEventOf "a" 4 (run ["--eval", "(add 2 x)"] none [] unboundStore)
      (.err "a:4: EvaluationError: undefined variable 'x'") := by
  have hevents : (run ["a"] none [] unboundStore).events =
      [.out "1", .err "a:4: EvaluationError: undefined variable 'x'", .out "3"] := by
    decide +kernel
  have hload : Options.loadFrom unboundStore none = .ok {} := by decide +kernel
  have hfile : unboundStore.find? (unboundStore.resolve "a") =
      some (.file (Utf8.encode "1\r\n; two\n\n(add 2 x)\n3")) := by
    decide +kernel
  have hlines : ScriptLine.expressions (Utf8.decode (Utf8.encode "1\r\n; two\n\n(add 2 x)\n3")) =
      [⟨1, "1"⟩, ⟨4, "(add 2 x)"⟩, ⟨5, "3"⟩] := by
    decide +kernel
  obtain ⟨heach, -, -, -, hexit, -⟩ :=
    run_eq_eval_lines hload hfile (.name (by decide) []) []
  rw [hlines] at heach hexit
  rw [hevents] at heach
  cases heach with
  | cons _ heach =>
    cases heach with
    | cons hunbound _ =>
      exact ⟨hevents, hexit.mpr ⟨⟨4, "(add 2 x)"⟩, by simp, by decide +kernel⟩, hunbound⟩

end Program

end Sprig
