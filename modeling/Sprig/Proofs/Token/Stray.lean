import Mathlib.Data.Nat.Find
import Sprig.Proofs.Token.Position

/-!
# Units that start no token

Lexing fails only where a token should start, and every unit inside a token could start one of its
own. So whether it fails can be seen from single units, each with the one after it, and from no
more: a text that has a stray unit anywhere fails at the first one.
-/

namespace Sprig

/-- A unit at a place of a text that neither separates tokens nor belongs to one: no parenthesis, no
letter, no digit, and no minus sign directly before a digit. -/
structure Text.IsStray (separates : CodeUnit → Bool) (source : Text) (p : Nat) (unit : CodeUnit) :
    Prop where
  getElem?_eq : source[p]? = some unit
  separates_eq : separates unit = false
  ne_openParen : unit ≠ CodeUnit.openParen
  ne_closeParen : unit ≠ CodeUnit.closeParen
  isLetter_eq : unit.isLetter = false
  isDigit_eq : unit.isDigit = false
  not_sign : ¬ (unit = CodeUnit.minus ∧ source[p + 1]?.any CodeUnit.isDigit)

/-- The first of the stray units of a text. -/
structure Text.IsFirstStray (separates : CodeUnit → Bool) (source : Text) (p : Nat)
    (unit : CodeUnit) : Prop where
  isStray : source.IsStray separates p unit
  first : ∀ q < p, ∀ other, ¬ source.IsStray separates q other

/-- An error that names a unit and its place, and shows no token. -/
structure SyntaxError.NamesUnit (c : SyntaxError) (unit : CodeUnit) (p : Nat) : Prop where
  position?_eq : c.position? = some (p : Int)
  expected?_eq : c.expected? = none
  found?_eq : c.found? = none
  message_eq : c.message = ("SyntaxError [position " : Text) ++ Text.ofNat p ++
    ("]: unexpected character " : Text) ++ Text.quoted [unit]

lemma SyntaxError.namesUnit_unexpectedUnit (unit : CodeUnit) (p : Nat) :
    (unexpectedUnit unit p).NamesUnit unit p where
  position?_eq := rfl
  expected?_eq := rfl
  found?_eq := rfl
  message_eq := by
    have hstart : ("SyntaxError" : Text) ++ (" [position " : Text) =
        ("SyntaxError [position " : Text) := by decide
    have hend : ("]" : Text) ++ ((": " : Text) ++ ("unexpected character " : Text)) =
        ("]: unexpected character " : Text) := by decide
    simp only [message, position?, description, Text.ofInt, ← hstart, ← hend, List.append_assoc]

namespace Text

variable {separates : CodeUnit → Bool} {source rest rest' : Text} {u unit : CodeUnit} {p : Nat}

/-! ### One unit -/

/-- Only the unit and the digit after it count. -/
lemma lexeme?_cons_eq_none_iff : lexeme? (u :: rest) = none ↔
    u ≠ CodeUnit.space ∧ u ≠ CodeUnit.openParen ∧ u ≠ CodeUnit.closeParen ∧ u.isLetter = false ∧
      u.isDigit = false ∧ ¬ (u = CodeUnit.minus ∧ rest.head?.any CodeUnit.isDigit) := by
  simp only [lexeme?, startsWithDigit, Bool.or_eq_true, Bool.and_eq_true, decide_eq_true_eq]
  split_ifs with hspace hopen hclose hinteger hletter
  · simp [hspace]
  · simp [hopen]
  · simp [hclose]
  · rcases hinteger with hdigit | hsign
    · simp [hdigit]
    · simp [hsign]
  · simp [hletter]
  · rw [not_or, Bool.not_eq_true] at hinteger
    simpa [hspace, hopen, hclose, hletter] using hinteger

lemma lexeme?_cons_congr (h : rest.head?.any CodeUnit.isDigit = rest'.head?.any CodeUnit.isDigit) :
    lexeme? (u :: rest) = none ↔ lexeme? (u :: rest') = none := by
  rw [lexeme?_cons_eq_none_iff, lexeme?_cons_eq_none_iff, h]

/-- A stray unit is one at which no token can start. -/
lemma isStray_iff (hspace : separates CodeUnit.space) : source.IsStray separates p unit ↔
    source[p]? = some unit ∧ separates unit = false ∧ lexeme? (source.drop p) = none := by
  have hdrop (h : source[p]? = some unit) : source.drop p = unit :: source.drop (p + 1) := by
    obtain ⟨hlt, rfl⟩ := List.getElem?_eq_some_iff.mp h
    exact List.drop_eq_getElem_cons hlt
  constructor
  · rintro ⟨hunit, hseparates, hopen, hclose, hletter, hdigit, hsign⟩
    have hne : unit ≠ CodeUnit.space := (CodeUnit.ne_of_holds hspace hseparates).symm
    refine ⟨hunit, hseparates, ?_⟩
    rw [hdrop hunit, lexeme?_cons_eq_none_iff, List.head?_drop]
    exact ⟨hne, hopen, hclose, hletter, hdigit, hsign⟩
  · rintro ⟨hunit, hseparates, hnone⟩
    rw [hdrop hunit, lexeme?_cons_eq_none_iff, List.head?_drop] at hnone
    obtain ⟨-, hopen, hclose, hletter, hdigit, hsign⟩ := hnone
    exact ⟨hunit, hseparates, hopen, hclose, hletter, hdigit, hsign⟩

lemma IsStray.exists_append (h : source.IsStray separates p unit) :
    ∃ before rest : Text, source = before ++ unit :: rest ∧ p = before.length := by
  obtain ⟨hlt, rfl⟩ := List.getElem?_eq_some_iff.mp h.getElem?_eq
  refine ⟨source.take p, source.drop (p + 1), ?_, (List.length_take_of_le hlt.le).symm⟩
  rw [← List.drop_eq_getElem_cons hlt, List.take_append_drop]

/-- A unit with what stands before and after it. -/
lemma isStray_append_iff (hspace : separates CodeUnit.space) (before : Text) :
    (before ++ unit :: rest).IsStray separates before.length unit ↔
      separates unit = false ∧ lexeme? (unit :: rest) = none := by
  simp [isStray_iff hspace]

lemma exists_isFirstStray (h : source.IsStray separates p unit) :
    ∃ q first, source.IsFirstStray separates q first := by
  classical
  have hstray : ∃ q first, source.IsStray separates q first := ⟨p, unit, h⟩
  obtain ⟨first, hfirst⟩ := Nat.find_spec hstray
  exact ⟨_, first, hfirst, fun q hq other hother => Nat.find_min hstray hq ⟨other, hother⟩⟩

end Text

/-! ### Lexing -/

/-- A scan without faults has come past every unit. -/
lemma Lexer.Reads.lexeme?_ne_none_of_scan {source : Text} {l : Lexer} (h : l.Reads source)
    (hfault : l.scan.fault = none) (p : Nat) : Text.lexeme? (source.drop p) ≠ none := by
  refine scan_induction (motive := fun l s => l.Reads source → s.fault = none →
    Text.lexeme? (source.drop p) ≠ none) ?_ ?_ ?_ l h hfault
  · simp
  · intro l t l' hnext hkind h _
    have hend : source.length ≤ l.position := by
      rw [← List.drop_eq_nil_iff, ← h.rest_eq]
      exact rest_eq_nil_of_next hnext hkind
    by_cases hp : p < l.position
    · exact h.starts p hp
    · rw [List.drop_eq_nil_of_le (hend.trans (not_lt.mp hp))]
      exact Option.some_ne_none _
  · intro l t l' hnext _ ih h hfault
    exact ih (h.next hnext) hfault

namespace Text

variable {separates : CodeUnit → Bool} {source : Text} {c : SyntaxError} {p : Nat}
  {unit : CodeUnit}

lemma IsFault.eq {q : Nat} (h : source.IsFault p) (h' : source.IsFault q) : p = q := by
  by_contra hne
  rcases Nat.lt_or_gt_of_ne hne with hlt | hlt
  · exact h'.first p hlt h.lexeme?_drop
  · exact h.first q hlt h'.lexeme?_drop

/-- Lexing fails where no token can start first. -/
lemma tokens_eq_error_iff : source.tokens = .error c ↔
    ∃ unit p, source.IsFault p ∧ source[p]? = some unit ∧ c = .unexpectedUnit unit p := by
  have hreads := Lexer.reads_ofText source
  rw [tokens_eq_scan, Scan.toExcept_eq_error_iff]
  constructor
  · intro hfault
    obtain ⟨unit, p, hc, hunit, hplace⟩ := hreads.isFault_of_scan hfault
    exact ⟨unit, p, hplace, hunit, hc⟩
  · rintro ⟨unit, p, hplace, hunit, rfl⟩
    cases hfault : (Lexer.ofText source).scan.fault with
    | none => exact absurd hplace.lexeme?_drop (hreads.lexeme?_ne_none_of_scan hfault p)
    | some c =>
      obtain ⟨unit', q, rfl, hunit', hplace'⟩ := hreads.isFault_of_scan hfault
      obtain rfl := hplace.eq hplace'
      obtain rfl : unit = unit' := Option.some.inj (hunit.symm.trans hunit')
      rfl

lemma isStray_space_iff :
    source.IsStray (· = CodeUnit.space) p unit ↔
      source[p]? = some unit ∧ lexeme? (source.drop p) = none := by
  rw [isStray_iff (by simp)]
  constructor
  · rintro ⟨hunit, -, hnone⟩
    exact ⟨hunit, hnone⟩
  · rintro ⟨hunit, hnone⟩
    have hne : unit ≠ CodeUnit.space := by
      rintro rfl
      obtain ⟨hlt, hunit⟩ := List.getElem?_eq_some_iff.mp hunit
      rw [List.drop_eq_getElem_cons hlt, hunit] at hnone
      cases hnone
    exact ⟨hunit, by simpa using hne, hnone⟩

lemma isFault_of_isFirstStray (h : source.IsFirstStray (· = CodeUnit.space) p unit) :
    source.IsFault p where
  lexeme?_drop := (isStray_space_iff.mp h.isStray).2
  first := by
    intro q hq hnone
    have hlt : q < source.length := by
      by_contra hle
      rw [List.drop_eq_nil_of_le (not_lt.mp hle)] at hnone
      cases hnone
    exact h.first q hq _ (isStray_space_iff.mpr ⟨List.getElem?_eq_getElem hlt, hnone⟩)

/-- What fails at the first stray unit, and at nothing else, fails if and only if there is one. -/
lemma fails_iff_isStray {α : Type} {result : Except SyntaxError α} {place : Nat → Nat}
    (hfirst : ∀ p unit, source.IsFirstStray separates p unit →
      result = .error (.unexpectedUnit unit (place p)))
    (hstray : ∀ c, result = .error c → ∃ p unit, source.IsStray separates p unit) :
    ((∃ c, result = .error c) ↔ ∃ p unit, source.IsStray separates p unit) ∧
    ∀ c, result = .error c →
      ∃ p unit, source.IsFirstStray separates p unit ∧ c.NamesUnit unit (place p) := by
  constructor
  · constructor
    · rintro ⟨c, h⟩
      exact hstray c h
    · rintro ⟨p, unit, h⟩
      obtain ⟨q, first, h⟩ := exists_isFirstStray h
      exact ⟨_, hfirst q first h⟩
  · intro c h
    obtain ⟨p, unit, hunit⟩ := hstray c h
    obtain ⟨q, first, hunit⟩ := exists_isFirstStray hunit
    obtain rfl := Except.error.inj ((hfirst q first hunit).symm.trans h)
    exact ⟨q, first, hunit, SyntaxError.namesUnit_unexpectedUnit first (place q)⟩

lemma tokens_eq_error_of_isFirstStray (h : source.IsFirstStray (· = CodeUnit.space) p unit) :
    source.tokens = .error (.unexpectedUnit unit p) :=
  tokens_eq_error_iff.mpr ⟨unit, p, isFault_of_isFirstStray h, h.isStray.getElem?_eq, rfl⟩

lemma exists_isStray_of_tokens (h : source.tokens = .error c) :
    ∃ p unit, source.IsStray (· = CodeUnit.space) p unit := by
  obtain ⟨unit, p, hplace, hunit, -⟩ := tokens_eq_error_iff.mp h
  exact ⟨p, unit, isStray_space_iff.mpr ⟨hunit, hplace.lexeme?_drop⟩⟩

/-- Lexing fails if and only if the text has a stray unit, and the error names the first one. -/
theorem exists_tokens_eq_error_iff (source : Text) :
    ((∃ c, source.tokens = .error c) ↔ ∃ p unit, source.IsStray (· = CodeUnit.space) p unit) ∧
    ∀ c, source.tokens = .error c →
      ∃ p unit, source.IsFirstStray (· = CodeUnit.space) p unit ∧ c.NamesUnit unit p := by
  apply fails_iff_isStray
  · intro p unit h
    exact tokens_eq_error_of_isFirstStray h
  · intro c h
    exact exists_isStray_of_tokens h

/-- Of two minus signs in a row only the second one can start an integer. -/
theorem exists_tokens_eq_error_iff_minus :
    (∃ p unit, ("a--1 $" : Text).IsStray (· = CodeUnit.space) p unit) ∧
    ∃ c, ("a--1 $" : Text).tokens = .error c ∧
      ("a--1 $" : Text).IsFirstStray (· = CodeUnit.space) 1 CodeUnit.minus ∧
      c.NamesUnit CodeUnit.minus 1 := by
  have htokens : ("a--1 $" : Text).tokens = .error (.unexpectedUnit CodeUnit.minus 1) := by
    decide +kernel
  obtain ⟨hiff, hnames⟩ := exists_tokens_eq_error_iff "a--1 $"
  obtain ⟨p, unit, hstray, hunit⟩ := hnames _ htokens
  obtain rfl : 1 = p := Int.ofNat.inj (Option.some.inj hunit.position?_eq)
  obtain rfl : CodeUnit.minus = unit := Option.some.inj hstray.isStray.getElem?_eq
  exact ⟨hiff.mp ⟨_, htokens⟩, _, htokens, hstray, hunit⟩

end Text

end Sprig
