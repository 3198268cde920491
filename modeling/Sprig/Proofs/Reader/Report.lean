import Sprig.Proofs.Number.Literal
import Sprig.Proofs.Reader.Refusal
import Sprig.Proofs.Reader.Run

/-!
# What a refusal reports

A syntax error that a reader fails with reports one of the tokens it has been given: the one that is
refused, or the space before it where a form of two operands should have been closed. What is
reported is never of the kind that was required, or it is an integer that is no word. All other
failures of a reader are errors of the evaluation, and a nesting that is too deep.
-/

namespace Sprig

variable {limit : Nat}

/-- What a syntax error says of a token. -/
inductive SyntaxError.Reports (t : Token) : SyntaxError → Prop
  /-- It stands where another kind is required, if any kind is. -/
  | found {c : SyntaxError} (hposition : c.position? = some t.position)
    (hfound : c.found? = some t) (hexpected : c.expected? ≠ some t.kind) : Reports t c
  /-- It is an integer that is no word. -/
  | literal (hkind : t.kind = .integer) (hvalue : Word.ofText? t.text = none) :
    Reports t (.literalOutOfRange t)

/-- The errors that a reader of some tokens can fail with. -/
inductive Error.IsRefusal (limit : Nat) (ts : List Token) : Error → Prop
  | malformed {c : SyntaxError} {t : Token} (ht : t ∈ ts) (hreports : c.Reports t) :
    IsRefusal limit ts (.malformed c)
  | unboundName (name : Text) : IsRefusal limit ts (.unboundName name)
  | unknownOperator (name : Text) : IsRefusal limit ts (.unknownOperator name)
  | tooDeep : IsRefusal limit ts (.tooDeep limit)

lemma Error.IsRefusal.mono {ts us : List Token} {e : Error} (h : e.IsRefusal limit ts)
    (hsubset : ts ⊆ us) : e.IsRefusal limit us := by
  cases h with
  | malformed ht hreports => exact .malformed (hsubset ht) hreports
  | unboundName name => exact .unboundName name
  | unknownOperator name => exact .unknownOperator name
  | tooDeep => exact .tooDeep

namespace Reader

variable {r : Reader} {frames : List Frame} {ts : List Token} {t : Token} {l : Lexer} {e : Error}

lemma isRefusal_of_bars (h : Bars limit frames t e) (ht : t ∈ ts) : e.IsRefusal limit ts := by
  cases h with
  | tooDeep => exact .tooDeep
  | literal hkind hvalue => exact .malformed ht (.literal hkind hvalue)
  | ends => exact .malformed ht (.found rfl rfl (by simp [SyntaxError.expected?]))
  | token => exact .malformed ht (.found rfl rfl (by simp [SyntaxError.expected?]))

/-- The space after a second operand is the last token that has been taken. -/
lemma mem_of_extra {op : Operator} {space : Token} (h : start.feedAll limit ts = .ok r)
    (hstage : r.stage = .extra op space) : space ∈ ts := by
  have hlast : ∀ op space, r.stage = .extra op space → space ∈ ts := by
    refine feedAll_induction
      (motive := fun r ts => ∀ op space, r.stage = .extra op space → space ∈ ts) ?_ ?_ h
    · intro r₁ r₂ taken u _ hmoves _ op space hstage
      cases hmoves with
      | extra => simp_all
      | first _ henters | expression _ henters | body _ _ henters => cases henters <;> cases hstage
      | _ => cases hstage
    · intro op space hstage
      cases hstage
  exact hlast op space hstage

/-- A reader that has taken some tokens and refuses the next one reports one of them all, or fails
by the evaluation. -/
theorem isRefusal_of_feed (htaken : start.feedAll limit ts = .ok r)
    (h : r.feed limit t = .error e) : e.IsRefusal limit (ts ++ [t]) := by
  have hgenuine := isGenuine_of_feedAll htaken
  have ht : t ∈ ts ++ [t] := by simp
  cases refuses_of_feed h with
  | first _ hbars | expression hbars | body _ _ hbars => exact isRefusal_of_bars hbars ht
  | word => exact .unknownOperator _
  | nameTooDeep => exact .tooDeep
  | nameBody _ _ hvalue =>
    obtain rfl := eq_unboundName_of_find hvalue
    exact .unboundName _
  | late =>
    obtain ⟨name, rfl⟩ := hgenuine
    exact .unboundName name
  | empty | noBody => exact .malformed ht (.found rfl rfl (by simp [SyntaxError.expected?]))
  | head hkind | operator hkind | letHead hkind | bound _ hkind | trailing hkind | left hkind
  | right _ hkind | bind _ hkind | close hkind | third hkind =>
    exact .malformed ht (.found rfl rfl (by simpa [SyntaxError.expected?, eq_comm] using hkind))
  | @extra op space =>
    have hspace : space.kind = .space := hgenuine
    have hmem : space ∈ ts ++ [t] := by simp [mem_of_extra htaken rfl]
    exact .malformed hmem (.found rfl rfl (by simp [SyntaxError.expected?, hspace]))

/-- A run fails by what is reported of one of the tokens, or at the unit that starts no token. -/
theorem isRefusal_of_run (h : start.run limit l = .error e) :
    e.IsRefusal limit l.scan.tokens ∨ ∃ c, l.scan.fault = some c ∧ e = .malformed c := by
  obtain ⟨taken, left, t, r, htokens, htaken, hfeed⟩ | hfault := exists_scan_of_run_eq_error h
  · refine Or.inl ((isRefusal_of_feed htaken hfeed).mono ?_)
    rw [htokens]
    intro u hu
    simp only [List.mem_append, List.mem_cons, List.not_mem_nil, or_false] at hu ⊢
    exact hu.imp_right Or.inl
  · exact Or.inr hfault

end Reader

end Sprig
