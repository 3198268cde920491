import Sprig.Proofs.Evaluation.Soundness
import Sprig.Proofs.Reader.Depth
import Sprig.Proofs.Reader.Refusal
import Sprig.Proofs.Text.Blank

/-!
# Complete inputs

A session counts parentheses to find out whether an input goes on in the next line. This agrees
with the evaluation: what has a value has all its parentheses closed, and an evaluation that fails
because the text ends has one that is open, unless there is nothing in the text.
-/

namespace Sprig

/-! ### Failures at the end of the input -/

namespace Reader

variable {limit : Nat} {r : Reader} {ts : List Token} {t u : Token} {c : SyntaxError}

/-- The token that is reported is the one that was refused, or a space before it. -/
lemma found?_of_feed (hgenuine : r.stage.IsGenuine)
    (h : r.feed limit t = .error (.malformed c)) (hu : c.found? = some u) :
    u = t ∨ u.kind = .space := by
  cases refuses_of_feed h with
  | first _ hbars | expression hbars | body _ _ hbars =>
    obtain he | ⟨c', he, hfound⟩ := hbars.eq_tooDeep_or
    · cases he
    · cases he
      rcases hfound with hfound | ⟨lexeme, rfl⟩
      · exact Or.inl (Option.some.inj (hu.symm.trans hfound))
      · cases hu
  | nameBody _ _ hvalue => cases eq_unboundName_of_find hvalue
  | late =>
    obtain ⟨name, hname⟩ := hgenuine
    cases hname
  | extra =>
    obtain rfl := Option.some.inj hu
    exact Or.inr hgenuine
  | _ => exact Or.inl (Option.some.inj hu).symm

/-- The end of the input is malformed only inside a form, or where nothing but a space is before
it. -/
lemma depth_of_feed_endOfFile (hgenuine : r.stage.IsGenuine) (hkind : t.kind = .endOfFile)
    (h : r.feed limit t = .error (.malformed c)) :
    0 < r.depth ∨ r.frames = [] ∧ (r.stage = .start ∨ ∃ env, r.stage = .expression env) := by
  rcases Nat.eq_zero_or_pos r.depth with hdepth | hdepth
  · right
    have hframes : r.frames = [] := by
      have : r.frames.length ≤ r.depth := Nat.le_add_right _ _
      exact List.length_eq_zero_iff.mp (by omega)
    refine ⟨hframes, ?_⟩
    cases refuses_of_feed h with
    | first => exact Or.inl rfl
    | expression => exact Or.inr ⟨_, rfl⟩
    | late =>
      obtain ⟨name, hname⟩ := hgenuine
      cases hname
    | trailing hend => exact absurd hkind hend
    | left | right | noBody | bind | close => simp at hframes
    | _ => simp [depth, Stage.isBetween] at hdepth
  · exact Or.inl hdepth

/-- Nothing but a space is read before a whole expression. -/
lemma texts_of_feedAll {rest : Text} (h : start.feedAll limit ts = .ok r) (hne : ts ≠ [])
    (hread : Token.AreRead ts rest) (hframes : r.frames = [])
    (hstage : r.stage = .start ∨ ∃ env, r.stage = .expression env) :
    Token.texts ts = [] ∨ Token.texts ts = [CodeUnit.space] := by
  obtain ⟨lead, body, rfl, hlead, hbody, hfeed⟩ := exists_feedAll_expression h hne hread
  have hspells := spells_of_feedAll hbody.accepts hfeed
  have hnil : Token.texts body = [] := by
    obtain ⟨stage, frames⟩ := r
    obtain rfl : frames = [] := hframes
    generalize Token.texts body = text at hspells
    rcases hstage with hstage | ⟨env, hstage⟩
    · obtain rfl : stage = .start := hstage
      cases hspells
    · obtain rfl : stage = .expression env := hstage
      cases hspells with
      | expression h =>
        cases h
        rfl
  simpa [hnil] using hlead

end Reader

section Evaluations

variable {limit : Nat} {source : Text}

/-- What has a value has closed its parentheses. -/
lemma openDepth_of_evaluate {value : Int} (h : evaluate limit source = .ok value) :
    source.openDepth = 0 := by
  obtain ⟨lead, body, rfl, hlead, hread, hbody⟩ := exists_tokens_of_evaluate h
  have hdepth := Reader.openDepth_texts_of_feedAll hread.accepts hbody
  have hzero : (Token.texts body).openDepth = 0 := by
    simpa [Reader.depth, Stage.isBetween] using hdepth
  rcases hlead with hlead | hlead
  · simpa [hlead] using hzero
  · rw [Text.openDepth_append, hzero, hlead]
    rfl

/-- Where the end of the input is met too early there is an open parenthesis. -/
lemma kind_ne_endOfFile_of_evaluate (hnil : source ≠ []) (hspace : source ≠ [CodeUnit.space])
    (hdepth : source.openDepth ≤ 0) {c : SyntaxError} {t : Token}
    (h : evaluate limit source = .error (.malformed c)) (hfound : c.found? = some t) :
    t.kind ≠ .endOfFile := by
  intro hkind
  rw [evaluate_eq_run] at h
  obtain ⟨taken, u, r, l, l', hrest, hread, hnext, htaken, hfeed⟩ | ⟨c', hfault, he⟩ :=
    Reader.exists_tokens_of_run_eq_error h
  · have hgenuine := Reader.isGenuine_of_feedAll htaken
    have hend : u.kind = .endOfFile := by
      rcases Reader.found?_of_feed hgenuine hfeed hfound with rfl | hspace
      · exact hkind
      · rw [hkind] at hspace
        cases hspace
    rw [Lexer.rest_eq_nil_of_next hnext hend] at hrest hread
    have hsource : source = Token.texts taken := by simpa [Lexer.ofText] using hrest
    have hopen : source.openDepth = r.depth := by
      simpa [hsource, Reader.start, Reader.depth, Stage.isBetween] using
        Reader.openDepth_texts_of_feedAll hread.accepts htaken
    obtain hpos | ⟨hframes, hstage⟩ := Reader.depth_of_feed_endOfFile hgenuine hend hfeed
    · omega
    · have hne : taken ≠ [] := by
        rintro rfl
        exact hnil hsource
      exact (Reader.texts_of_feedAll htaken hne hread hframes hstage).elim
        (fun h => hnil (hsource.trans h)) fun h => hspace (hsource.trans h)
  · cases he
    rw [Lexer.found?_of_fault hfault] at hfound
    cases hfound

/-- The same for a text that a session can evaluate. -/
lemma kind_ne_endOfFile_of_trim (htrim : source.trim = source) (hne : source.trim ≠ [])
    (hdepth : source.openDepth ≤ 0) {c : SyntaxError} {t : Token}
    (h : evaluate limit source = .error (.malformed c)) (hfound : c.found? = some t) :
    t.kind ≠ .endOfFile := by
  have hspace : source ≠ [CodeUnit.space] := by
    rintro rfl
    exact hne (by decide)
  exact kind_ne_endOfFile_of_evaluate (htrim ▸ hne) hspace hdepth h hfound

end Evaluations

/-! ### Sessions -/

namespace Session

variable {s : Session} {limit : Nat} {line : Text}

/-- The input that a session has with a further line. -/
def input (s : Session) (line : Text) : Text :=
  List.intercalate [CodeUnit.space] (s.collect line.trim)

/-- A session after some lines. -/
def after (s : Session) (lines : List Text) : Session :=
  lines.foldl (fun s line => (s.take line).2) s

/-- Whether a line is taken as a command. -/
def isCommand (s : Session) (line : Text) : Bool :=
  !s.isPending && line.trim.head? = some CodeUnit.colon

lemma take_of_isCommand (h : s.isCommand line) :
    s.take line = (answerCommand s.limit line.trim, s) := by
  simp only [isCommand] at h
  simp only [take, h, if_true]

lemma take_of_pos (hcommand : s.isCommand line = false) (hdepth : 0 < (s.input line).openDepth) :
    s.take line = (⟨.more, [], []⟩, { s with pending := s.collect line.trim }) := by
  simp only [isCommand] at hcommand
  simp only [input] at hdepth
  simp [take, hcommand, hdepth]

lemma take_of_le (hcommand : s.isCommand line = false) (hdepth : (s.input line).openDepth ≤ 0) :
    s.take line = (s.answer (s.input line), { s with pending := [] }) := by
  simp only [isCommand] at hcommand
  simp only [input] at hdepth ⊢
  simp [take, hcommand, not_lt.mpr hdepth]

lemma action_showTokens (source : Text) : (showTokens source).action = .proceed := by
  simp only [showTokens]
  split
  · rfl
  · split <;> rfl

lemma action_answerCommand (limit : Nat) (line : Text) :
    (answerCommand limit line).action ≠ .more := by
  simp only [answerCommand]
  split_ifs <;> simp [Reply.ofLines, action_showTokens]

lemma action_answer (s : Session) (input : Text) : (s.answer input).action = .proceed := by
  simp only [answer]
  split
  · rfl
  · split <;> rfl

/-- Only trimmed lines are pending. -/
def IsTidy (s : Session) : Prop := ∀ line ∈ s.pending, line.IsTrimmed

lemma isTrimmed_of_mem_collect (h : s.IsTidy) : ∀ t ∈ s.collect line.trim, t.IsTrimmed := by
  intro t ht
  simp only [collect] at ht
  split_ifs at ht with hempty
  · exact h t ht
  · rcases List.mem_append.mp ht with ht | ht
    · exact h t ht
    · obtain rfl := List.mem_singleton.mp ht
      exact Text.isTrimmed_trim (by simpa using hempty)

lemma isTidy_take (h : s.IsTidy) (line : Text) : (s.take line).2.IsTidy := by
  by_cases hcommand : s.isCommand line
  · rw [take_of_isCommand hcommand]
    exact h
  rw [Bool.not_eq_true] at hcommand
  by_cases hdepth : 0 < (s.input line).openDepth
  · rw [take_of_pos hcommand hdepth]
    exact isTrimmed_of_mem_collect h
  · rw [take_of_le hcommand (not_lt.mp hdepth)]
    exact fun t ht => absurd ht (by simp)

lemma limit_take (s : Session) (line : Text) : (s.take line).2.limit = s.limit := by
  by_cases hcommand : s.isCommand line
  · rw [take_of_isCommand hcommand]
  rw [Bool.not_eq_true] at hcommand
  by_cases hdepth : 0 < (s.input line).openDepth
  · rw [take_of_pos hcommand hdepth]
  · rw [take_of_le hcommand (not_lt.mp hdepth)]

/-- Whatever lines a session has taken, only trimmed ones are pending. -/
theorem isTidy_after (h : s.IsTidy) (lines : List Text) : (s.after lines).IsTidy := by
  induction lines generalizing s with
  | nil => exact h
  | cons line lines ih => exact ih (isTidy_take h line)

lemma limit_after (s : Session) (lines : List Text) : (s.after lines).limit = s.limit := by
  induction lines generalizing s with
  | nil => rfl
  | cons line lines ih => exact (ih (s.take line).2).trans (limit_take s line)

lemma isTidy_start (limit : Nat) : (start limit).IsTidy := fun _ h => absurd h (by simp [start])

/-- An input is as it is when it is trimmed. -/
lemma isTrimmed_input (h : s.IsTidy) (hne : s.input line ≠ []) : (s.input line).IsTrimmed := by
  refine Text.isTrimmed_intercalate ?_ (isTrimmed_of_mem_collect h) _
  intro hnil
  exact hne (by simp [input, hnil])

/-- A session goes on collecting lines only if they have no value yet. -/
lemma action_take_of_evaluate {value : Int} (h : evaluate limit (s.input line) = .ok value) :
    (s.take line).1.action ≠ .more := by
  by_cases hcommand : s.isCommand line
  · rw [take_of_isCommand hcommand]
    exact action_answerCommand _ _
  · rw [Bool.not_eq_true] at hcommand
    rw [take_of_le hcommand (openDepth_of_evaluate h).le, action_answer]
    simp

/-- A session that does not wait for more has no parenthesis open. -/
lemma openDepth_input_of_action (hcommand : s.isCommand line = false)
    (haction : (s.take line).1.action ≠ .more) : (s.input line).openDepth ≤ 0 := by
  by_contra hdepth
  rw [take_of_pos hcommand (not_le.mp hdepth)] at haction
  exact haction rfl

/-- A session evaluates no input that ends too early. -/
lemma kind_ne_endOfFile_of_take (htidy : s.IsTidy) (hcommand : s.isCommand line = false)
    (haction : (s.take line).1.action ≠ .more) (hne : s.input line ≠ []) {c : SyntaxError}
    {t : Token} (h : evaluate limit (s.input line) = .error (.malformed c))
    (hfound : c.found? = some t) : t.kind ≠ .endOfFile := by
  have hspace : s.input line ≠ [CodeUnit.space] := by
    intro hinput
    have hhead := (isTrimmed_input htidy hne).head
    rw [hinput] at hhead
    exact absurd hhead (by decide)
  exact kind_ne_endOfFile_of_evaluate hne hspace (openDepth_input_of_action hcommand haction) h
    hfound

/-- Counting parentheses finds out when an input is complete: one with a value has none open, one
with none open does not end too early. So a session that has taken any lines never waits for more
of an input that has a value, and never evaluates one that ends too early. -/
theorem openDepth_complete (limit : Nat) :
    (∀ source value, evaluate limit source = .ok value → source.openDepth = 0) ∧
    (∀ source : Text, source.trim ≠ [] → source.trim = source → source.openDepth ≤ 0 →
      ∀ c t, evaluate limit source = .error (.malformed c) → c.found? = some t →
        t.kind ≠ .endOfFile) ∧
    ∀ (lines : List Text) (line : Text) (s : Session), s = (start limit).after lines →
      (∀ value, evaluate limit (s.input line) = .ok value → (s.take line).1.action ≠ .more) ∧
      (s.isCommand line = false → (s.take line).1.action ≠ .more → s.input line ≠ [] →
        s.take line = (s.answer (s.input line), start limit) ∧
        ∀ c t, evaluate limit (s.input line) = .error (.malformed c) → c.found? = some t →
          t.kind ≠ .endOfFile) := by
  refine ⟨fun _ _ => openDepth_of_evaluate, ?_, ?_⟩
  · intro source hne htrim hdepth c t h hfound
    exact kind_ne_endOfFile_of_trim htrim hne hdepth h hfound
  · rintro lines line s rfl
    refine ⟨fun _ => action_take_of_evaluate, fun hcommand haction hne => ⟨?_, ?_⟩⟩
    · have hdepth := openDepth_input_of_action hcommand haction
      rw [take_of_le hcommand hdepth, limit_after]
      rfl
    · intro c t h hfound
      exact kind_ne_endOfFile_of_take (isTidy_after (isTidy_start limit) lines) hcommand haction
        hne h hfound

/-- A sum has no open parenthesis, and one without its second operand does not end too early. -/
theorem openDepth_complete_add :
    evaluate 2 "(add 1 2)" = .ok 3 ∧ Text.openDepth "(add 1 2)" = 0 ∧
    evaluate 2 "(add 1)" =
      .error (.malformed (.missing .space (.betweenOperands .add) ⟨.closeParen, ")", 6⟩)) ∧
    TokenKind.closeParen ≠ .endOfFile := by
  have hsum : evaluate 2 "(add 1 2)" = .ok 3 := by decide +kernel
  have hopen : evaluate 2 "(add 1)" =
      .error (.malformed (.missing .space (.betweenOperands .add) ⟨.closeParen, ")", 6⟩)) := by
    decide +kernel
  refine ⟨hsum, (openDepth_complete 2).1 _ _ hsum, hopen, ?_⟩
  exact (openDepth_complete 2).2.1 "(add 1)" (by decide) (by decide) (by decide) _ _ hopen rfl

end Session

end Sprig
