import Sprig.Proofs.Reader.Replay

/-!
# Cutting a text into tokens

Lexing loses nothing and is greedy: the units of the tokens are the text, every token stands where
the units before it end, and none could be followed by what the next one starts with. There is only
one list of tokens of which this is true, so the text and the classes of lexemes decide it, and not
the order in which a lexer tries them.
-/

namespace Sprig

namespace Token

/-- The next token does not start with a unit that could be one more of this one. -/
def EndsBefore (t next : Token) : Prop :=
  (t.kind = .integer → ∀ u ∈ next.text.head?, u.isDigit = false) ∧
  (t.kind = .identifier → ∀ u ∈ next.text.head?, u.isAlphanumeric = false)

/-- Every token stands where the units of those before it end. -/
def AreInPlace (ts : List Token) : Prop :=
  ∀ before t after, ts = before ++ t :: after → t.position = (texts before).length

end Token

/-- A text that is cut into tokens: they spell it, they stand where they are in it, the last one and
no other is the end of the input, all are made of the units of their kinds, and none could be
longer. -/
structure Text.IsCutInto (source : Text) (ts : List Token) : Prop where
  texts_eq : Token.texts ts = source
  areInPlace : Token.AreInPlace ts
  endOfFile : ∃ us, ts = us ++ [⟨.endOfFile, [], source.length⟩] ∧
    ∀ t ∈ us, t.kind ≠ .endOfFile
  accepts : ∀ t ∈ ts, t.kind.accepts t.text
  endsBefore : ts.IsChain Token.EndsBefore

namespace Token

variable {t u : Token} {ts : List Token} {p : Nat}

/-! ### Places -/

lemma placed_eq_self_iff : placed p ts = ts ↔
    ∀ before t after, ts = before ++ t :: after → t.position = p + (texts before).length := by
  induction ts generalizing p with
  | nil => simp [placed]
  | cons t ts ih =>
    rw [placed, List.cons.injEq, ih]
    constructor
    · rintro ⟨ht, hts⟩ before u after h
      cases before with
      | nil =>
        obtain ⟨rfl, -⟩ := List.cons_eq_cons.mp h
        exact (congrArg Token.position ht).symm
      | cons v before =>
        obtain ⟨rfl, h'⟩ := List.cons_eq_cons.mp h
        rw [hts before u after h', texts_cons, List.length_append, Nat.add_assoc]
    · intro h
      refine ⟨?_, ?_⟩
      · have ht : t.position = p := h [] t ts rfl
        rw [← ht]
      · intro before u after hts
        rw [h (t :: before) u after (by rw [hts, List.cons_append]), texts_cons,
          List.length_append, Nat.add_assoc]

lemma areInPlace_iff : AreInPlace ts ↔ placed 0 ts = ts := by
  simp only [AreInPlace, placed_eq_self_iff, Nat.zero_add]

/-- The end of the input is in its place after all units. -/
lemma areInPlace_append_iff {source : Text} (h : texts ts = source) :
    AreInPlace (ts ++ [⟨.endOfFile, [], source.length⟩]) ↔ placed 0 ts = ts := by
  rw [areInPlace_iff, placed_append, h, Nat.zero_add]
  exact List.append_left_inj _

/-! ### Ends -/

lemma endsBefore_iff (hne : u.text ≠ []) (hkind : t.kind ≠ .endOfFile) (rest : Text) :
    t.kind.endsBefore (u.text ++ rest) ↔ EndsBefore t u := by
  obtain ⟨v, w, hw⟩ := List.exists_cons_of_ne_nil hne
  rw [EndsBefore, hw]
  cases h : t.kind <;> simp_all [TokenKind.endsBefore]

/-- Every token has come to its end where the input ends. -/
lemma endsBefore_of_text_eq_nil (hu : u.text = []) : EndsBefore t u := by
  simp [EndsBefore, hu]

lemma endsBefore_nil (hkind : t.kind ≠ .endOfFile) : t.kind.endsBefore [] := by
  cases h : t.kind <;> simp_all [TokenKind.endsBefore]

/-- Tokens can be read up to the end of the input if each ends where the next one starts. -/
lemma areRead_nil_iff (last : Token) (hlast : last.text = []) : AreRead ts [] ↔
    (∀ t ∈ ts, t.kind ≠ .endOfFile ∧ t.kind.accepts t.text) ∧
      (ts ++ [last]).IsChain EndsBefore := by
  induction ts with
  | nil => simp [AreRead]
  | cons t ts ih =>
    rw [AreRead, ih, List.forall_mem_cons, List.append_nil]
    cases ts with
    | nil =>
      have hends : EndsBefore t last := endsBefore_of_text_eq_nil hlast
      simp only [texts_nil, List.nil_append, List.cons_append, List.isChain_cons_cons]
      constructor
      · rintro ⟨hkind, haccepts, -, h, hchain⟩
        exact ⟨⟨⟨hkind, haccepts⟩, h⟩, hends, hchain⟩
      · rintro ⟨⟨⟨hkind, haccepts⟩, h⟩, -, hchain⟩
        exact ⟨hkind, haccepts, endsBefore_nil hkind, h, hchain⟩
    | cons u us =>
      simp only [texts_cons, List.cons_append, List.isChain_cons_cons, List.forall_mem_cons]
      have hne (hu : u.kind ≠ .endOfFile ∧ u.kind.accepts u.text) : u.text ≠ [] :=
        Lexer.text_ne_nil_of_accepts hu.1 hu.2
      constructor
      · rintro ⟨hkind, haccepts, hends, ⟨hu, hus⟩, hchain⟩
        exact ⟨⟨⟨hkind, haccepts⟩, hu, hus⟩, (endsBefore_iff (hne hu) hkind _).mp hends, hchain⟩
      · rintro ⟨⟨⟨hkind, haccepts⟩, hu, hus⟩, hends, hchain⟩
        exact ⟨hkind, haccepts, (endsBefore_iff (hne hu) hkind _).mpr hends, ⟨hu, hus⟩, hchain⟩

end Token

namespace Text

variable {source : Text} {ts us : List Token}

lemma tokens_of_areRead (hread : Token.AreRead us []) (htexts : Token.texts us = source) :
    source.tokens = .ok (Token.placed 0 us ++ [⟨.endOfFile, [], source.length⟩]) := by
  have hscan := Lexer.scan_texts 0 hread
  rw [List.append_nil, htexts, Nat.zero_add, Lexer.scan_nil] at hscan
  rw [tokens_eq_scan, Lexer.ofText, hscan]
  rfl

/-- The tokens of a text are those that can be read up to its end, and the end. -/
lemma tokens_eq_ok_iff_areRead : source.tokens = .ok ts ↔
    ∃ us, Token.AreRead us [] ∧ Token.texts us = source ∧ Token.placed 0 us = us ∧
      ts = us ++ [⟨.endOfFile, [], source.length⟩] := by
  constructor
  · intro h
    rw [tokens_eq_scan, Scan.toExcept_eq_ok_iff] at h
    obtain ⟨hfault, rfl⟩ := h
    obtain ⟨us, last, hlast, hkind⟩ := Lexer.exists_scan_eq_append _ hfault
    have haccepts : last.kind.accepts last.text :=
      Lexer.accepts_of_mem_scan (Lexer.ofText source) last (by simp [hlast])
    obtain ⟨l, hrest, hl, hread⟩ := Lexer.exists_scan_of_append hlast (Or.inl (by simp))
    have hnil : l.rest = [] := by
      rw [← Lexer.texts_scan l (by rw [hl]), hl]
      simp [Token.text_eq_nil haccepts hkind]
    rw [hnil] at hread
    rw [hnil, List.append_nil] at hrest
    have htexts : Token.texts us = source := hrest.symm
    -- The scan gives the tokens that were read, and gives them at their places.
    have hsame : us ++ [last] = Token.placed 0 us ++ [⟨.endOfFile, [], source.length⟩] := by
      have htokens := tokens_of_areRead hread htexts
      rw [tokens_eq_scan, hlast] at htokens
      exact Except.ok.inj htokens
    have hplaced : us = Token.placed 0 us := (List.append_inj' hsame rfl).1
    exact ⟨us, hread, htexts, hplaced.symm, by rw [hlast, hsame, ← hplaced]⟩
  · rintro ⟨us, hread, htexts, hplaced, rfl⟩
    rw [tokens_of_areRead hread htexts, hplaced]

/-- What can be read up to the end of a text is what the text is cut into. -/
lemma isCutInto_iff : source.IsCutInto ts ↔
    ∃ us, Token.AreRead us [] ∧ Token.texts us = source ∧ Token.placed 0 us = us ∧
      ts = us ++ [⟨.endOfFile, [], source.length⟩] := by
  constructor
  · rintro ⟨htexts, hplaces, ⟨us, rfl, hkinds⟩, haccepts, hchain⟩
    have htexts' : Token.texts us = source := by simpa using htexts
    refine ⟨us, (Token.areRead_nil_iff _ rfl).mpr ⟨?_, hchain⟩, htexts',
      (Token.areInPlace_append_iff htexts').mp hplaces, rfl⟩
    intro t ht
    exact ⟨hkinds t ht, haccepts t (List.mem_append_left _ ht)⟩
  · rintro ⟨us, hread, htexts, hplaced, rfl⟩
    obtain ⟨htokens, hchain⟩ :=
      (Token.areRead_nil_iff ⟨.endOfFile, [], source.length⟩ rfl).mp hread
    refine ⟨by simpa using htexts, (Token.areInPlace_append_iff htexts).mpr hplaced,
      ⟨us, rfl, fun t ht => (htokens t ht).1⟩, ?_, hchain⟩
    intro t ht
    rcases List.mem_append.mp ht with ht | ht
    · exact (htokens t ht).2
    · obtain rfl := List.mem_singleton.mp ht
      rfl

/-- Lexing succeeds with the only list of tokens that a text is cut into. -/
theorem tokens_eq_ok_iff (source : Text) (ts : List Token) :
    source.tokens = .ok ts ↔ ∀ us, source.IsCutInto us ↔ us = ts := by
  have hcut (us : List Token) : source.IsCutInto us ↔ source.tokens = .ok us :=
    isCutInto_iff.trans tokens_eq_ok_iff_areRead.symm
  constructor
  · intro h us
    rw [hcut, h, Except.ok.injEq, eq_comm]
  · intro h
    exact (hcut ts).mp ((h ts).mpr rfl)

/-- An integer ends where a letter follows, and a name where a minus sign does. -/
theorem tokens_eq_ok_iff_adjacent :
    ("12ab-3" : Text).tokens = .ok [⟨.integer, "12", 0⟩, ⟨.identifier, "ab", 2⟩,
      ⟨.integer, "-3", 4⟩, ⟨.endOfFile, [], 6⟩] ∧
    ∀ us, ("12ab-3" : Text).IsCutInto us ↔ us = [⟨.integer, "12", 0⟩, ⟨.identifier, "ab", 2⟩,
      ⟨.integer, "-3", 4⟩, ⟨.endOfFile, [], 6⟩] := by
  have htokens : ("12ab-3" : Text).tokens = .ok [⟨.integer, "12", 0⟩, ⟨.identifier, "ab", 2⟩,
      ⟨.integer, "-3", 4⟩, ⟨.endOfFile, [], 6⟩] := by
    decide +kernel
  exact ⟨htokens, (tokens_eq_ok_iff _ _).mp htokens⟩

end Text

end Sprig
