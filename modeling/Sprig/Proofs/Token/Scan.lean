import Sprig.Proofs.Token.Lexeme

/-!
# Scanning

All tokens of a text as a list: those up to the end of the input, or up to the first unit that
starts no token, together with the error that this unit gives. Reading tokens one by one, as a
cursor does, follows this list; a list of lexemes that end where they have to is scanned piece by
piece.
-/

namespace Sprig

/-- The units of tokens, one after the other. -/
def Token.texts (ts : List Token) : Text := ts.flatMap Token.text

namespace Token

@[simp] lemma texts_nil : texts [] = [] := rfl

@[simp] lemma texts_cons (t : Token) (ts : List Token) : texts (t :: ts) = t.text ++ texts ts := by
  simp [texts]

@[simp] lemma texts_append (ts ts' : List Token) : texts (ts ++ ts') = texts ts ++ texts ts' := by
  simp [texts]

/-- Tokens that a text starts with, if it goes on after their units like this. -/
def AreRead : List Token → Text → Prop
  | [], _ => True
  | t :: ts, rest =>
    t.kind ≠ .endOfFile ∧ t.kind.accepts t.text ∧ t.kind.endsBefore (texts ts ++ rest) ∧
      AreRead ts rest

lemma AreRead.accepts {ts : List Token} {rest : Text} (h : AreRead ts rest) :
    ∀ t ∈ ts, t.kind.accepts t.text := by
  induction ts with
  | nil => simp
  | cons t ts ih =>
    obtain ⟨-, haccepts, -, hts⟩ := h
    simpa using ⟨haccepts, ih hts⟩

lemma AreRead.kind_ne {ts : List Token} {rest : Text} (h : AreRead ts rest) :
    ∀ t ∈ ts, t.kind ≠ .endOfFile := by
  induction ts with
  | nil => simp
  | cons t ts ih =>
    obtain ⟨hkind, -, -, hts⟩ := h
    simpa using ⟨hkind, ih hts⟩

lemma areRead_append {ts us : List Token} {rest : Text} :
    AreRead (ts ++ us) rest ↔ AreRead ts (texts us ++ rest) ∧ AreRead us rest := by
  induction ts with
  | nil => simp [AreRead]
  | cons t ts ih => simp [AreRead, ih, and_assoc]

lemma space_notMem_text {t : Token} (h : t.kind.accepts t.text) (hkind : t.kind ≠ .space) :
    CodeUnit.space ∉ t.text := by
  intro hspace
  rcases mem_text h hspace with ⟨hkind', -⟩ | hopen | hclose | hminus | halphanumeric
  · exact hkind hkind'
  · exact absurd hopen (by decide)
  · exact absurd hclose (by decide)
  · exact absurd hminus (by decide)
  · exact absurd halphanumeric (by decide)

/-- A space in the units of tokens is a token. -/
lemma exists_append_of_texts_eq {ts : List Token} (haccepts : ∀ t ∈ ts, t.kind.accepts t.text)
    {before after : Text} (h : texts ts = before ++ CodeUnit.space :: after) :
    ∃ us t vs, ts = us ++ t :: vs ∧ t.kind = .space ∧ texts us = before ∧ texts vs = after := by
  induction ts generalizing before with
  | nil => simp at h
  | cons t ts ih =>
    have ht : t.kind.accepts t.text := haccepts t (by simp)
    have hts : ∀ u ∈ ts, u.kind.accepts u.text :=
      fun u hu => haccepts u (List.mem_cons_of_mem _ hu)
    rw [texts_cons] at h
    rcases List.append_eq_append_iff.mp h with ⟨w, rfl, hw⟩ | ⟨w, hw, hrest⟩
    · obtain ⟨us, u, vs, rfl, hkind, rfl, rfl⟩ := ih hts hw
      exact ⟨t :: us, u, vs, rfl, hkind, by simp, rfl⟩
    · cases w with
      | nil =>
        have hw' : texts ts = [] ++ CodeUnit.space :: after := hrest.symm
        obtain ⟨us, u, vs, rfl, hkind, hus, rfl⟩ := ih hts hw'
        exact ⟨t :: us, u, vs, rfl, hkind, by simp [hw, hus], rfl⟩
      | cons v w =>
        obtain ⟨rfl, rfl⟩ := List.cons_eq_cons.mp hrest
        have hkind : t.kind = .space := by
          by_contra hkind
          exact space_notMem_text ht hkind (by simp [hw])
        have hlength := congrArg List.length hw
        simp only [text_eq_space ht hkind, List.length_append, List.length_cons,
          List.length_nil] at hlength
        obtain rfl : before = [] := List.length_eq_zero_iff.mp (by omega)
        obtain rfl : w = [] := List.length_eq_zero_iff.mp (by omega)
        exact ⟨[], t, ts, rfl, hkind, rfl, rfl⟩

end Token

/-- The tokens of a text as far as it has any, and what is wrong where they stop. -/
structure Scan where
  tokens : List Token
  fault : Option SyntaxError
  deriving DecidableEq, Repr

namespace Scan

/-- Puts tokens before a scan. -/
def after (ts : List Token) (s : Scan) : Scan := { s with tokens := ts ++ s.tokens }

@[simp] lemma tokens_after (ts : List Token) (s : Scan) : (s.after ts).tokens = ts ++ s.tokens :=
  rfl

@[simp] lemma fault_after (ts : List Token) (s : Scan) : (s.after ts).fault = s.fault := rfl

@[simp] lemma after_nil (s : Scan) : s.after [] = s := rfl

lemma after_after (ts ts' : List Token) (s : Scan) :
    (s.after ts').after ts = s.after (ts ++ ts') := by
  simp [after]

end Scan

namespace Lexer

/-! ### Reading one token -/

lemma next_eq_ok_iff {l l' : Lexer} {t : Token} :
    l.next = .ok (t, l') ↔
      l.rest = t.text ++ l'.rest ∧ t.position = l.position ∧
        l'.position = l.position + t.text.length ∧ t.kind.accepts t.text ∧
        t.kind.endsBefore l'.rest := by
  obtain ⟨p, rest⟩ := l
  obtain ⟨p', rest'⟩ := l'
  obtain ⟨kind, text, q⟩ := t
  simp only [next]
  constructor
  · intro h
    split at h
    · next k w hfind =>
      obtain ⟨tail, rfl, haccepts, hends⟩ := Text.lexeme?_eq_some_iff.mp hfind
      simp only [skip, List.drop_left, Except.ok.injEq, Prod.mk.injEq, Token.mk.injEq,
        Lexer.mk.injEq] at h
      obtain ⟨⟨rfl, rfl, rfl⟩, rfl, rfl⟩ := h
      exact ⟨rfl, rfl, rfl, haccepts, hends⟩
    · cases h
  · rintro ⟨rfl, rfl, rfl, haccepts, hends⟩
    rw [Text.lexeme?_append haccepts hends]
    simp [skip]

lemma next_of_lexeme {l : Lexer} {kind : TokenKind} {w : Text}
    (h : l.rest.lexeme? = some (kind, w)) :
    l.next = .ok (⟨kind, w, l.position⟩, l.skip w.length) := by
  simp only [next, h]

/-- Reading fails only at a unit that starts no token. -/
lemma next_eq_error_iff {l : Lexer} {c : SyntaxError} :
    l.next = .error c ↔
      l.rest.lexeme? = none ∧ c = .unexpectedUnit (l.rest.headD 0) l.position := by
  cases hlexeme : l.rest.lexeme? with
  | none => simp [next, hlexeme, eq_comm]
  | some lexeme => simp [next_of_lexeme hlexeme]

lemma next_append {kind : TokenKind} {w rest : Text} (p : Nat) (hw : kind.accepts w)
    (hrest : kind.endsBefore rest) :
    (⟨p, w ++ rest⟩ : Lexer).next = .ok (⟨kind, w, p⟩, ⟨p + w.length, rest⟩) :=
  next_eq_ok_iff.mpr ⟨rfl, rfl, rfl, hw, hrest⟩

lemma next_space (p : Nat) (rest : Text) :
    (⟨p, CodeUnit.space :: rest⟩ : Lexer).next =
      .ok (⟨.space, [CodeUnit.space], p⟩, ⟨p + 1, rest⟩) :=
  rfl

lemma next_openParen (p : Nat) (rest : Text) :
    (⟨p, CodeUnit.openParen :: rest⟩ : Lexer).next =
      .ok (⟨.openParen, [CodeUnit.openParen], p⟩, ⟨p + 1, rest⟩) :=
  rfl

lemma next_closeParen (p : Nat) (rest : Text) :
    (⟨p, CodeUnit.closeParen :: rest⟩ : Lexer).next =
      .ok (⟨.closeParen, [CodeUnit.closeParen], p⟩, ⟨p + 1, rest⟩) :=
  rfl

/-- Only the end of the input has no units. -/
lemma text_ne_nil_of_accepts {kind : TokenKind} {w : Text} (hkind : kind ≠ .endOfFile)
    (hw : kind.accepts w) : w ≠ [] := by
  rintro rfl
  cases kind with
  | endOfFile => exact hkind rfl
  | openParen | closeParen | space => simp [TokenKind.accepts] at hw
  | integer | identifier => exact absurd hw (by decide)

lemma rest_eq_nil_of_next {l l' : Lexer} {t : Token} (h : l.next = .ok (t, l'))
    (hkind : t.kind = .endOfFile) : l.rest = [] := by
  obtain ⟨hrest, -, -, haccepts, hends⟩ := next_eq_ok_iff.mp h
  rw [hkind] at hends
  have hnil : l'.rest = [] := by simpa [TokenKind.endsBefore] using hends
  rw [hrest, Token.text_eq_nil haccepts hkind, hnil, List.append_nil]

lemma length_rest_lt_of_next {l l' : Lexer} {t : Token} (h : l.next = .ok (t, l'))
    (hkind : t.kind ≠ .endOfFile) : l'.rest.length < l.rest.length := by
  obtain ⟨hrest, -, -, haccepts, -⟩ := next_eq_ok_iff.mp h
  have := List.length_pos_iff.mpr (text_ne_nil_of_accepts hkind haccepts)
  rw [hrest, List.length_append]
  omega

/-! ### Reading all tokens -/

/-- The tokens that are left. -/
def scan (l : Lexer) : Scan :=
  match _h : l.next with
  | .error e => ⟨[], some e⟩
  | .ok (t, l') => if _hkind : t.kind = .endOfFile then ⟨[t], none⟩ else (scan l').after [t]
termination_by l.rest.length
decreasing_by exact length_rest_lt_of_next ‹_› ‹_›

section Steps

variable {l l' : Lexer} {t : Token}

lemma scan_of_error {e : SyntaxError} (h : l.next = .error e) : l.scan = ⟨[], some e⟩ := by
  rw [scan]
  split <;> simp_all

lemma scan_of_endOfFile (h : l.next = .ok (t, l')) (hkind : t.kind = .endOfFile) :
    l.scan = ⟨[t], none⟩ := by
  rw [scan]
  split <;> simp_all

lemma scan_of_ok (h : l.next = .ok (t, l')) (hkind : t.kind ≠ .endOfFile) :
    l.scan = l'.scan.after [t] := by
  rw [scan]
  split <;> simp_all

end Steps

/-- The end of the input is the only token there. -/
@[simp] lemma scan_nil (p : Nat) : (⟨p, []⟩ : Lexer).scan = ⟨[⟨.endOfFile, [], p⟩], none⟩ :=
  scan_of_endOfFile rfl rfl

/-- A lexeme that ends where it has to is the first token. -/
lemma scan_append {kind : TokenKind} {w rest : Text} (p : Nat) (hkind : kind ≠ .endOfFile)
    (hw : kind.accepts w) (hrest : kind.endsBefore rest) :
    (⟨p, w ++ rest⟩ : Lexer).scan = (⟨p + w.length, rest⟩ : Lexer).scan.after [⟨kind, w, p⟩] :=
  scan_of_ok (next_append p hw hrest) hkind

/-- The tokens of a text are read one after the other, each from where the last one ended. -/
theorem scan_induction {motive : Lexer → Scan → Prop}
    (fault : ∀ l e, l.next = .error e → motive l ⟨[], some e⟩)
    (last : ∀ l t l', l.next = .ok (t, l') → t.kind = .endOfFile → motive l ⟨[t], none⟩)
    (token : ∀ l t l', l.next = .ok (t, l') → t.kind ≠ .endOfFile → motive l' l'.scan →
      motive l (l'.scan.after [t]))
    (l : Lexer) : motive l l.scan := by
  induction l using scan.induct with
  | case1 l e h => rw [scan_of_error h]; exact fault l e h
  | case2 l t l' h hkind => rw [scan_of_endOfFile h hkind]; exact last l t l' h hkind
  | case3 l t l' h hkind ih => rw [scan_of_ok h hkind]; exact token l t l' h hkind ih

/-- Every token that is found is made of the units that its kind allows. -/
lemma accepts_of_mem_scan (l : Lexer) : ∀ t ∈ l.scan.tokens, t.kind.accepts t.text := by
  refine scan_induction (motive := fun _ s => ∀ t ∈ s.tokens, t.kind.accepts t.text) ?_ ?_ ?_ l
  · simp
  · intro l t l' h _
    simpa using (next_eq_ok_iff.mp h).2.2.2.1
  · intro l t l' h _ ih u hu
    rcases List.mem_cons.mp hu with rfl | hu
    · exact (next_eq_ok_iff.mp h).2.2.2.1
    · exact ih u hu

/-- A text without faults is what its tokens spell. -/
lemma texts_scan (l : Lexer) (h : l.scan.fault = none) : Token.texts l.scan.tokens = l.rest := by
  refine scan_induction
    (motive := fun l s => s.fault = none → Token.texts s.tokens = l.rest) ?_ ?_ ?_ l h
  · simp
  · intro l t l' hnext hkind _
    obtain ⟨-, -, -, haccepts, -⟩ := next_eq_ok_iff.mp hnext
    simp [rest_eq_nil_of_next hnext hkind, Token.text_eq_nil haccepts hkind]
  · intro l t l' hnext _ ih hfault
    obtain ⟨hrest, -⟩ := next_eq_ok_iff.mp hnext
    simp [hrest, ih hfault]

/-- What is wrong where the tokens stop is a unit. -/
lemma found?_of_fault {l : Lexer} {e : SyntaxError} (h : l.scan.fault = some e) :
    e.found? = none := by
  refine scan_induction (motive := fun _ s => s.fault = some e → e.found? = none) ?_ ?_ ?_ l h
  · intro l e' hnext hfault
    cases hfault
    obtain ⟨-, rfl⟩ := next_eq_error_iff.mp hnext
    rfl
  · simp
  · intro l t l' _ _ ih hfault
    exact ih hfault

/-- The last token of a text without faults is the end of the input. -/
lemma exists_scan_eq_append (l : Lexer) (h : l.scan.fault = none) :
    ∃ ts t, l.scan = ⟨ts ++ [t], none⟩ ∧ t.kind = .endOfFile := by
  refine scan_induction (motive := fun _ s => s.fault = none →
    ∃ ts t, s = ⟨ts ++ [t], none⟩ ∧ t.kind = .endOfFile) ?_ ?_ ?_ l h
  · simp
  · intro l t l' _ hkind _
    exact ⟨[], t, rfl, hkind⟩
  · intro l t l' _ _ ih hfault
    obtain ⟨ts, u, hscan, hkind⟩ := ih hfault
    exact ⟨t :: ts, u, by simp [hscan, Scan.after], hkind⟩

/-- The first token that is left is the next one. -/
lemma exists_next_of_scan {l : Lexer} {t : Token} {ts : List Token} {fault : Option SyntaxError}
    (h : l.scan = ⟨t :: ts, fault⟩) : ∃ l', l.next = .ok (t, l') := by
  cases hnext : l.next with
  | error e => simp [scan_of_error hnext] at h
  | ok r =>
    obtain ⟨t', l'⟩ := r
    by_cases hkind : t'.kind = .endOfFile
    · obtain ⟨⟨rfl, -⟩, -⟩ := by simpa [scan_of_endOfFile hnext hkind] using h
      exact ⟨l', rfl⟩
    · obtain ⟨⟨rfl, -⟩, -⟩ := by simpa [scan_of_ok hnext hkind, Scan.after] using h
      exact ⟨l', rfl⟩

/-- After some of the tokens the rest of them is left. -/
lemma exists_scan_of_append {l : Lexer} {ts us : List Token} {fault : Option SyntaxError}
    (h : l.scan = ⟨ts ++ us, fault⟩) (hleft : us ≠ [] ∨ fault ≠ none) :
    ∃ l' : Lexer, l.rest = Token.texts ts ++ l'.rest ∧ l'.scan = ⟨us, fault⟩ ∧
      Token.AreRead ts l'.rest := by
  induction ts generalizing l with
  | nil => exact ⟨l, by simp, h, trivial⟩
  | cons t ts ih =>
    cases hnext : l.next with
    | error e => simp [scan_of_error hnext] at h
    | ok r =>
      obtain ⟨t', l'⟩ := r
      by_cases hkind : t'.kind = .endOfFile
      · simp only [scan_of_endOfFile hnext hkind, List.cons_append, Scan.mk.injEq,
          List.cons.injEq, List.nil_eq, List.append_eq_nil_iff] at h
        obtain ⟨⟨rfl, rfl, rfl⟩, rfl⟩ := h
        simp at hleft
      · have hscan := scan_of_ok hnext hkind
        rw [h] at hscan
        simp only [Scan.after, List.cons_append, List.nil_append, Scan.mk.injEq,
          List.cons.injEq] at hscan
        obtain ⟨⟨rfl, htokens⟩, hfault⟩ := hscan
        obtain ⟨hrest, -, -, haccepts, hends⟩ := next_eq_ok_iff.mp hnext
        obtain ⟨l'', hrest', hscan', hread⟩ := ih (l := l') (by rw [htokens, hfault])
        exact ⟨l'', by simp [hrest, hrest'], hscan', hkind, haccepts, hrest' ▸ hends, hread⟩

end Lexer

/-! ### The list of tokens -/

/-- The outcome of a scan, if all of the text is wanted. -/
def Scan.toExcept (s : Scan) : Except SyntaxError (List Token) :=
  match s.fault with
  | none => .ok s.tokens
  | some e => .error e

lemma Scan.toExcept_eq_ok_iff {s : Scan} {ts : List Token} :
    s.toExcept = .ok ts ↔ s.fault = none ∧ s.tokens = ts := by
  rw [toExcept]
  cases s.fault <;> simp

lemma Scan.toExcept_eq_error_iff {s : Scan} {c : SyntaxError} :
    s.toExcept = .error c ↔ s.fault = some c := by
  rw [toExcept]
  cases s.fault <;> simp

namespace Lexer

lemma readAll_eq_scan (count : Nat) (l : Lexer) (h : l.rest.length ≤ count) :
    l.readAll count = l.scan.toExcept := by
  induction count generalizing l with
  | zero =>
    obtain ⟨p, rest⟩ := l
    obtain rfl : rest = [] := by simpa using h
    simp [readAll, Scan.toExcept]
  | succ count ih =>
    cases hnext : l.next with
    | error e => simp [readAll, hnext, scan_of_error hnext, Scan.toExcept, bind, Except.bind]
    | ok r =>
      obtain ⟨t, l'⟩ := r
      by_cases hkind : t.kind = .endOfFile
      · simp [readAll, hnext, hkind, scan_of_endOfFile hnext hkind, Scan.toExcept, bind,
          Except.bind, pure, Except.pure]
      · have hread : l'.readAll count = l'.scan.toExcept :=
          ih l' (by have := length_rest_lt_of_next hnext hkind; omega)
        simp only [readAll, hnext, bind, Except.bind, hkind, if_false, hread,
          scan_of_ok hnext hkind, Scan.toExcept, Scan.fault_after]
        cases l'.scan.fault <;> rfl

end Lexer

theorem Text.tokens_eq_scan (t : Text) : t.tokens = (Lexer.ofText t).scan.toExcept :=
  Lexer.readAll_eq_scan t.length (Lexer.ofText t) le_rfl

end Sprig
