import Sprig.Proofs.Format.InPlace

/-!
# Arguments of the formatter

Arguments are read if every option among them is known, and every `--max-blank` has a number after
it. What is read then is said without regard to their order: whether the options that take no value
occur, the last number of blank lines, and the arguments that name files.
-/

namespace Sprig.Format

/-! ### Options that are not accepted -/

/-- An option is unknown, or has no number after it that it needs. -/
inductive HasInvalidOption : List Text → Prop
  | unknown {a : Text} (hminus : a.head? = some CodeUnit.minus)
      (hknown : a ∉ (["--check", "--stdout", "--max-blank"] : List Text)) (rest : List Text) :
      HasInvalidOption (a :: rest)
  | noValue : HasInvalidOption ["--max-blank"]
  | badValue {value : Text} (h : maxBlank? value = none) (rest : List Text) :
      HasInvalidOption (("--max-blank" : Text) :: value :: rest)
  | afterValue {rest : List Text} (value : Text) (h : HasInvalidOption rest) :
      HasInvalidOption (("--max-blank" : Text) :: value :: rest)
  | after {a : Text} {rest : List Text} (ha : a ≠ ("--max-blank" : Text))
      (h : HasInvalidOption rest) : HasInvalidOption (a :: rest)

/-- The number of blank lines that the last option for it asks for, or the given one if there is
none. -/
def maxBlankOf : Binary64 → List Text → Binary64
  | maxBlank, [] => maxBlank
  | maxBlank, a :: rest =>
    if a = ("--max-blank" : Text) then
      match rest with
      | [] => maxBlank
      | value :: rest => maxBlankOf ((maxBlank? value).getD maxBlank) rest
    else maxBlankOf maxBlank rest

variable {arguments : List Text} {a : Text}

lemma maxBlankOf_cons (h : a ≠ ("--max-blank" : Text)) (maxBlank : Binary64) (rest : List Text) :
    maxBlankOf maxBlank (a :: rest) = maxBlankOf maxBlank rest := by
  rw [maxBlankOf.eq_def]
  simp [h]

lemma maxBlankOf_cons_cons (maxBlank : Binary64) (value : Text) (rest : List Text) :
    maxBlankOf maxBlank (("--max-blank" : Text) :: value :: rest) =
      maxBlankOf ((maxBlank? value).getD maxBlank) rest := by
  rw [maxBlankOf.eq_def]
  simp

lemma fileNames_cons_cons (value : Text) (rest : List Text) :
    fileNames (("--max-blank" : Text) :: value :: rest) = fileNames rest := by
  rw [fileNames.eq_def]
  simp

/-! ### What is read -/

lemma check_ne_stdout : ("--check" : Text) ≠ ("--stdout" : Text) := by decide

lemma check_ne_maxBlank : ("--check" : Text) ≠ ("--max-blank" : Text) := by decide

lemma stdout_ne_maxBlank : ("--stdout" : Text) ≠ ("--max-blank" : Text) := by decide

/-- An option that is not accepted is found wherever it stands. -/
lemma exists_error_of_hasInvalidOption (h : HasInvalidOption arguments) (s : Settings) :
    ∃ message, readArguments s arguments = .error message := by
  induction h generalizing s with
  | @unknown a hminus hknown rest =>
    obtain ⟨hcheck, hprint, hblank, -⟩ : a ≠ ("--check" : Text) ∧ a ≠ ("--stdout" : Text) ∧
        a ≠ ("--max-blank" : Text) ∧ True := by
      simpa using hknown
    rw [readArguments.eq_def]
    simp [hcheck, hprint, hblank, hminus]
  | noValue => exact ⟨_, rfl⟩
  | badValue h rest =>
    rw [readArguments.eq_def]
    simp [h, check_ne_maxBlank.symm, stdout_ne_maxBlank.symm]
  | @afterValue rest value h ih =>
    rw [readArguments.eq_def]
    cases hvalue : maxBlank? value with
    | none => simp [hvalue, check_ne_maxBlank.symm, stdout_ne_maxBlank.symm]
    | some x =>
      simpa [hvalue, check_ne_maxBlank.symm, stdout_ne_maxBlank.symm] using
        ih { s with maxBlank := x }
  | @after a rest ha h ih =>
    rw [readArguments.eq_def]
    by_cases hcheck : a = ("--check" : Text)
    · simpa [hcheck] using ih { s with check := true }
    by_cases hprint : a = ("--stdout" : Text)
    · simpa [hprint, check_ne_stdout.symm] using ih { s with print := true }
    by_cases hminus : a.head? = some CodeUnit.minus
    · simp [hcheck, hprint, ha, hminus]
    · simpa [hcheck, hprint, ha, hminus] using ih { s with names := s.names ++ [a] }

/-- What is read off arguments whose options are all accepted. -/
lemma readArguments_of_not_hasInvalidOption (h : ¬HasInvalidOption arguments) (s : Settings) :
    readArguments s arguments = .ok
      { check := s.check || arguments.contains ("--check" : Text)
        print := s.print || arguments.contains ("--stdout" : Text)
        maxBlank := maxBlankOf s.maxBlank arguments
        names := s.names ++ fileNames arguments } := by
  fun_induction readArguments s arguments with
  | case1 s => simp [maxBlankOf, fileNames]
  | case2 s rest ih =>
    rw [ih fun hrest => h (.after (by decide) hrest), maxBlankOf_cons (by decide),
      fileNames_cons_of_minus (by decide) (by decide)]
    simp [check_ne_stdout.symm]
  | case3 s rest hcheck ih =>
    rw [ih fun hrest => h (.after (by decide) hrest), maxBlankOf_cons (by decide),
      fileNames_cons_of_minus (by decide) (by decide)]
    simp [Ne.symm hcheck]
  | case4 s hcheck hprint => exact absurd .noValue h
  | case5 s value rest x hvalue hcheck hprint ih =>
    -- the value of the option is a number, so it is no option itself
    have hcheck' : value ≠ ("--check" : Text) := by
      rintro rfl
      have hnone : maxBlank? "--check" = none := by decide +kernel
      rw [hnone] at hvalue
      cases hvalue
    have hprint' : value ≠ ("--stdout" : Text) := by
      rintro rfl
      have hnone : maxBlank? "--stdout" = none := by decide +kernel
      rw [hnone] at hvalue
      cases hvalue
    rw [ih fun hrest => h (.afterValue value hrest), maxBlankOf_cons_cons, fileNames_cons_cons,
      hvalue]
    simp [Ne.symm hcheck, Ne.symm hprint, Ne.symm hcheck', Ne.symm hprint']
  | case6 s value rest hvalue hcheck hprint => exact absurd (.badValue hvalue rest) h
  | case7 s a rest hcheck hprint hblank hminus =>
    exact absurd (.unknown hminus (by simp [hcheck, hprint, hblank]) rest) h
  | case8 s a rest hcheck hprint hblank hminus ih =>
    rw [ih fun hrest => h (.after hblank hrest), maxBlankOf_cons hblank,
      fileNames_cons_of_name hblank hminus]
    simp [Ne.symm hcheck, Ne.symm hprint]

lemma hasInvalidOption_iff :
    HasInvalidOption arguments ↔ (readArguments {} arguments).isOk = false := by
  constructor
  · intro h
    obtain ⟨message, hread⟩ := exists_error_of_hasInvalidOption h {}
    rw [hread]
    rfl
  · intro hread
    by_contra h
    rw [readArguments_of_not_hasInvalidOption h] at hread
    cases hread

instance : Decidable (HasInvalidOption arguments) := decidable_of_iff _ hasInvalidOption_iff.symm

end Sprig.Format
