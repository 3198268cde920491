import Mathlib.Data.List.Infix
import Sprig.Proofs.Evaluation.Simulation
import Sprig.Proofs.Reader.Depth
import Sprig.Proofs.Reader.Refusal

/-!
# The limit of nesting

The limit does nothing but end an evaluation: where it is not exceeded a higher one gives the same
outcome. It is exceeded only where as many parentheses are open as it allows forms, since a reader
is never inside more forms than that.
-/

namespace Sprig

namespace Reader

variable {limit limit' : Nat} {r r' : Reader} {env : Bindings} {frames : List Frame}
  {ts : List Token} {t : Token} {l : Lexer} {n : Int}

/-! ### A higher limit -/

lemma enter_of_limit_le (hle : limit ≤ limit')
    (h : enter limit env frames t ≠ .error (.tooDeep limit)) :
    enter limit' env frames t = enter limit env frames t := by
  by_cases hdepth : limit ≤ frames.length
  · exact absurd (by simp [enter, hdepth]) h
  · have hdepth' : ¬ limit' ≤ frames.length := by
      intro h'
      exact hdepth (hle.trans h')
    simp [enter, hdepth, hdepth']

/-- A token that does not exceed the limit is taken or refused alike under a higher one. -/
lemma feed_of_limit_le (hle : limit ≤ limit') (h : r.feed limit t ≠ .error (.tooDeep limit)) :
    r.feed limit' t = r.feed limit t := by
  obtain ⟨stage, frames⟩ := r
  cases stage with
  | start =>
    by_cases hkind : t.kind = .space
    · simp [feed, hkind]
    · simp only [feed, hkind, if_false] at h ⊢
      exact enter_of_limit_le hle h
  | expression env => exact enter_of_limit_le hle h
  | inside env =>
    by_cases hkind : t.kind = .identifier
    · simp [feed, hkind]
    · by_cases hclose : t.kind = .closeParen
      · simp [feed, hclose]
      · simp only [feed, hkind, hclose, if_false] at h ⊢
        exact enter_of_limit_le hle h
  | name env name =>
    by_cases hclose : t.kind = .closeParen
    · by_cases hdepth : limit ≤ frames.length + 1
      · exact absurd (by simp [feed, hclose, hdepth]) h
      · have hdepth' : ¬ limit' ≤ frames.length + 1 := by
          intro h'
          exact hdepth (hle.trans h')
        simp [feed, hclose, hdepth, hdepth']
    · simp [feed, hclose]
  | head | word | value | extra => rfl

lemma feedAll_of_limit_le (hle : limit ≤ limit')
    (h : r.feedAll limit ts ≠ .error (.tooDeep limit)) :
    r.feedAll limit' ts = r.feedAll limit ts := by
  induction ts generalizing r with
  | nil => rfl
  | cons t ts ih =>
    rw [feedAll_cons] at h ⊢
    rw [feedAll_cons]
    have hfeed : r.feed limit' t = r.feed limit t := by
      apply feed_of_limit_le hle
      intro hdepth
      rw [hdepth] at h
      exact h rfl
    rw [hfeed]
    cases htaken : r.feed limit t with
    | error e => rfl
    | ok r₁ =>
      rw [htaken] at h
      exact ih h

lemma run_of_limit_le (hle : limit ≤ limit') (h : r.run limit l ≠ .error (.tooDeep limit)) :
    r.run limit' l = r.run limit l := by
  have htokens : r.feedAll limit' l.scan.tokens = r.feedAll limit l.scan.tokens := by
    apply feedAll_of_limit_le hle
    intro hdepth
    rw [run, hdepth] at h
    exact h rfl
  rw [run, run, htokens]

/-! ### Where the limit is exceeded -/

/-- An opening parenthesis is taken only inside fewer forms than the limit allows. -/
lemma depth_lt_of_moves (h : Moves limit r t r') (hkind : t.kind = .openParen) :
    r.depth < limit := by
  cases h with
  | first hdepth | expression hdepth | body _ hdepth =>
    simpa [depth, Stage.isBetween] using hdepth
  | _ => simp_all

lemma depth_le_of_moves (h : Moves limit r t r') (hdepth : r.depth ≤ limit) :
    r'.depth ≤ limit := by
  have hchange := depth_of_moves h
  cases hkind : t.kind with
  | openParen =>
    have hlt := depth_lt_of_moves h hkind
    simp only [hkind, TokenKind.openDepth] at hchange
    omega
  | closeParen | identifier | integer | space | endOfFile =>
    simp only [hkind, TokenKind.openDepth] at hchange
    omega

/-- A reader is never inside more forms than the limit allows. -/
theorem depth_le_of_feedAll (h : start.feedAll limit ts = .ok r) : r.depth ≤ limit := by
  have hstart : start.depth ≤ limit := Nat.zero_le limit
  refine feedAll_induction (motive := fun r _ => r.depth ≤ limit) ?_ hstart h
  intro r₁ r₂ taken t _ hmoves hdepth
  exact depth_le_of_moves hmoves hdepth

lemma le_depth_of_feed (hgenuine : r.stage.IsGenuine)
    (h : r.feed limit t = .error (.tooDeep n)) : n = limit ∧ limit ≤ r.depth := by
  cases refuses_of_feed h with
  | first _ hbars | expression hbars | body _ _ hbars =>
    cases hbars with
    | tooDeep hdepth => exact ⟨rfl, by simpa [depth, Stage.isBetween] using hdepth⟩
  | nameTooDeep _ hdepth => exact ⟨rfl, by simpa [depth, Stage.isBetween] using hdepth⟩
  | nameBody _ _ hvalue => cases eq_unboundName_of_find hvalue
  | late =>
    obtain ⟨name, hname⟩ := hgenuine
    cases hname

end Reader

/-! ### Evaluations under two limits -/

section Evaluations

variable {limit limit' : Nat} {source : Text} {n : Int}

lemma evaluate_of_limit_le (hle : limit ≤ limit')
    (h : ∀ n, evaluate limit source ≠ .error (.tooDeep n)) :
    evaluate limit' source = evaluate limit source := by
  simp only [evaluate_eq_run] at h ⊢
  exact Reader.run_of_limit_le hle (h limit)

lemma exists_prefix_of_evaluate_tooDeep (h : evaluate limit source = .error (.tooDeep n)) :
    n = limit ∧ ∃ opened, opened <+: source ∧ Text.openDepth opened = limit := by
  rw [evaluate_eq_run] at h
  obtain ⟨taken, t, r, l, l', hrest, hread, -, htaken, hfeed⟩ | ⟨c, -, hc⟩ :=
    Reader.exists_tokens_of_run_eq_error h
  · obtain ⟨hn, hle⟩ := Reader.le_depth_of_feed (Reader.isGenuine_of_feedAll htaken) hfeed
    have hdepth : r.depth = limit := le_antisymm (Reader.depth_le_of_feedAll htaken) hle
    have hopen := Reader.openDepth_texts_of_feedAll hread.accepts htaken
    rw [hdepth, show Reader.start.depth = 0 from rfl] at hopen
    exact ⟨hn, Token.texts taken, ⟨l.rest, hrest.symm⟩, by simpa using hopen⟩
  · cases hc

/-- The limit of nesting only ever ends an evaluation. An outcome within it is that of every higher
limit; where it is exceeded, the text starts with a piece in which as many parentheses are open as
the limit says. So a text in which never that many are open does not exceed it. -/
theorem evaluate_limit (hle : limit ≤ limit') (source : Text) :
    ((∀ n, evaluate limit source ≠ .error (.tooDeep n)) →
      evaluate limit' source = evaluate limit source) ∧
    (∀ n, evaluate limit source = .error (.tooDeep n) →
      n = limit ∧ ∃ opened, opened <+: source ∧ Text.openDepth opened = limit) ∧
    ((∀ opened, opened <+: source → Text.openDepth opened < limit) →
      ∀ n, evaluate limit source ≠ .error (.tooDeep n)) := by
  refine ⟨evaluate_of_limit_le hle, fun n => exists_prefix_of_evaluate_tooDeep, ?_⟩
  intro hopened n h
  obtain ⟨-, opened, hprefix, hdepth⟩ := exists_prefix_of_evaluate_tooDeep h
  have hlt := hopened opened hprefix
  omega

/-- A product in a sum needs a limit of three, and another one beside it no more. -/
theorem evaluate_limit_mult :
    evaluate 2 "(add (mult 2 3) (mult 4 5))" = .error (.tooDeep 2) ∧
    (∃ opened, opened <+: ("(add (mult 2 3) (mult 4 5))" : Text) ∧ Text.openDepth opened = 2) ∧
    evaluate 3 "(add (mult 2 3) (mult 4 5))" = .ok 26 ∧
    evaluate 2000 "(add (mult 2 3) (mult 4 5))" = .ok 26 := by
  have hdeep : evaluate 2 "(add (mult 2 3) (mult 4 5))" = .error (.tooDeep 2) := by
    decide +kernel
  have hvalue : evaluate 3 "(add (mult 2 3) (mult 4 5))" = .ok 26 := by decide +kernel
  have hwithin : ∀ opened ∈ List.inits ("(add (mult 2 3) (mult 4 5))" : Text),
      Text.openDepth opened < 3 := by
    decide +kernel
  have hlimit := evaluate_limit (show 3 ≤ 2000 by decide) "(add (mult 2 3) (mult 4 5))"
  refine ⟨hdeep, ?_, hvalue, ?_⟩
  · exact ((evaluate_limit (le_refl 2) _).2.1 2 hdeep).2
  · rw [hlimit.1 (hlimit.2.2 fun opened h => hwithin opened ((List.mem_inits _ _).mpr h)), hvalue]

end Evaluations

end Sprig
