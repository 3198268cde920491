import Sprig.Proofs.Reader.Basic

/-!
# Refused tokens

The ways in which a reader refuses a token, with the error that each gives, next to the moves by
which it takes one.
-/

namespace Sprig.Reader

/-- Why no expression starts with a token. -/
inductive Bars (limit : Nat) (frames : List Frame) (t : Token) : Error → Prop
  | tooDeep (hdepth : limit ≤ frames.length) : Bars limit frames t (.tooDeep limit)
  | literal (hkind : t.kind = .integer) (hvalue : Word.ofText? t.text = none) :
    Bars limit frames t (.malformed (.literalOutOfRange t))
  | ends (hkind : t.kind = .endOfFile) : Bars limit frames t (.malformed (.unexpectedEnd t))
  | token (hkind : t.kind = .closeParen ∨ t.kind = .space) :
    Bars limit frames t (.malformed (.unexpectedToken t))

/-- Where an expression is missing, the token that stands there is reported, if any is. -/
lemma Bars.eq_tooDeep_or {limit : Nat} {frames : List Frame} {t : Token} {e : Error}
    (h : Bars limit frames t e) :
    e = .tooDeep limit ∨
      ∃ c, e = .malformed c ∧ (c.found? = some t ∨ ∃ lexeme, c = .literalOutOfRange lexeme) := by
  cases h with
  | tooDeep => exact Or.inl rfl
  | literal => exact Or.inr ⟨_, rfl, Or.inr ⟨_, rfl⟩⟩
  | ends => exact Or.inr ⟨_, rfl, Or.inl rfl⟩
  | token => exact Or.inr ⟨_, rfl, Or.inl rfl⟩

/-- The refusals of a reader, one for each way in which a token is not taken. -/
inductive Refuses (limit : Nat) : Reader → Token → Error → Prop
  | first {frames t e} (hkind : t.kind ≠ .space) (h : Bars limit frames t e) :
    Refuses limit ⟨.start, frames⟩ t e
  | expression {env frames t e} (h : Bars limit frames t e) :
    Refuses limit ⟨.expression env, frames⟩ t e
  | head {env frames t} (hkind : t.kind ≠ .identifier) :
    Refuses limit ⟨.head env, frames⟩ t (.malformed (.noHead t))
  | operator {env op frames t} (hkind : t.kind ≠ .space) :
    Refuses limit ⟨.word env op.name, frames⟩ t
      (.malformed (.missing .space (.afterOperator op) t))
  | letHead {env frames t} (hkind : t.kind ≠ .space) :
    Refuses limit ⟨.word env letName, frames⟩ t (.malformed (.missing .space .afterLet t))
  | word {env word frames t} (hop : Operator.ofName? word = none) (hlet : word ≠ letName) :
    Refuses limit ⟨.word env word, frames⟩ t (.unknownOperator word)
  | empty {env frames t} (hkind : t.kind = .closeParen) :
    Refuses limit ⟨.inside env, frames⟩ t (.malformed (.noBody t))
  | body {env frames t e} (hkind : t.kind ≠ .identifier) (hclose : t.kind ≠ .closeParen)
    (h : Bars limit (.body :: frames) t e) : Refuses limit ⟨.inside env, frames⟩ t e
  | nameTooDeep {env name frames t} (hkind : t.kind = .closeParen)
    (hdepth : limit ≤ frames.length + 1) :
    Refuses limit ⟨.name env name, frames⟩ t (.tooDeep limit)
  | nameBody {env name frames t e} (hkind : t.kind = .closeParen)
    (hdepth : frames.length + 1 < limit) (hvalue : env.find name = .error e) :
    Refuses limit ⟨.name env name, frames⟩ t e
  | bound {env name frames t} (hclose : t.kind ≠ .closeParen) (hkind : t.kind ≠ .space) :
    Refuses limit ⟨.name env name, frames⟩ t (.malformed (.noValue name t))
  | late {e : Error} {frames t} : Refuses limit ⟨.value (.error e), frames⟩ t e
  | trailing {value : Int} {t} (hkind : t.kind ≠ .endOfFile) :
    Refuses limit ⟨.value (.ok value), []⟩ t (.malformed (.trailing t))
  | left {value : Int} {op env frames t} (hkind : t.kind ≠ .space) :
    Refuses limit ⟨.value (.ok value), .left op env :: frames⟩ t
      (.malformed (.missing .space (.betweenOperands op) t))
  | right {value left : Int} {op frames t} (hspace : t.kind ≠ .space)
    (hkind : t.kind ≠ .closeParen) :
    Refuses limit ⟨.value (.ok value), .right op left :: frames⟩ t
      (.malformed (.missing .closeParen (.afterSecondOperand op) t))
  | noBody {value : Int} {env name frames t} (hkind : t.kind = .closeParen) :
    Refuses limit ⟨.value (.ok value), .binding env name :: frames⟩ t (.malformed (.noBody t))
  | bind {value : Int} {env name frames t} (hclose : t.kind ≠ .closeParen)
    (hkind : t.kind ≠ .space) :
    Refuses limit ⟨.value (.ok value), .binding env name :: frames⟩ t
      (.malformed (.missing .space (.afterValue name) t))
  | close {value : Int} {frames t} (hkind : t.kind ≠ .closeParen) :
    Refuses limit ⟨.value (.ok value), .body :: frames⟩ t
      (.malformed (.missing .closeParen .endOfLet t))
  | extra {op space frames t} (hkind : t.kind = .closeParen ∨ t.kind = .endOfFile) :
    Refuses limit ⟨.extra op space, frames⟩ t
      (.malformed (.missing .closeParen (.afterSecondOperand op) space))
  | third {op space frames t} (hclose : t.kind ≠ .closeParen) (hend : t.kind ≠ .endOfFile) :
    Refuses limit ⟨.extra op space, frames⟩ t
      (.malformed (.missing .closeParen (.afterSecondOperand op) t))

variable {limit : Nat} {r : Reader} {env : Bindings} {frames : List Frame} {t : Token} {e : Error}

/-- A name fails only by not being bound. -/
lemma eq_unboundName_of_find {name : Text} (h : env.find name = .error e) :
    e = .unboundName name := by
  cases hlookup : env.lookup name with
  | some value => simp [Bindings.find, hlookup] at h
  | none => simpa [Bindings.find, hlookup, eq_comm] using h

lemma demand_eq_error_iff {kind : TokenKind} {place : Place} {next : Reader} :
    demand kind place t next = .error e ↔
      t.kind ≠ kind ∧ e = .malformed (.missing kind place t) := by
  simp only [demand]
  split_ifs with h <;> simp [h, eq_comm]

lemma bars_of_enter (h : enter limit env frames t = .error e) : Bars limit frames t e := by
  simp only [enter] at h
  split_ifs at h with hdepth
  · cases h
    exact .tooDeep hdepth
  split at h
  · next hkind =>
    split at h
    · cases h
    · next hvalue =>
      cases h
      exact .literal hkind hvalue
  · cases h
  · cases h
  · next hkind =>
    cases h
    exact .ends hkind
  · next hkind =>
    cases h
    exact .token (Or.inl hkind)
  · next hkind =>
    cases h
    exact .token (Or.inr hkind)

lemma refuses_of_leave {value : Int} (h : leave value frames t = .error e) :
    Refuses limit ⟨.value (.ok value), frames⟩ t e := by
  match frames with
  | [] =>
    simp only [leave] at h
    split_ifs at h with hkind
    cases h
    exact .trailing hkind
  | .left op env :: frames =>
    obtain ⟨hkind, rfl⟩ := demand_eq_error_iff.mp h
    exact .left hkind
  | .right op left :: frames =>
    simp only [leave] at h
    split_ifs at h with hspace
    obtain ⟨hkind, rfl⟩ := demand_eq_error_iff.mp h
    exact .right hspace hkind
  | .binding env name :: frames =>
    simp only [leave] at h
    split_ifs at h with hclose
    · cases h
      exact .noBody hclose
    · obtain ⟨hkind, rfl⟩ := demand_eq_error_iff.mp h
      exact .bind hclose hkind
  | .body :: frames =>
    obtain ⟨hkind, rfl⟩ := demand_eq_error_iff.mp h
    exact .close hkind

/-- A token that is not taken is refused in one of the ways. -/
theorem refuses_of_feed (h : r.feed limit t = .error e) : Refuses limit r t e := by
  obtain ⟨stage, frames⟩ := r
  cases stage with
  | start =>
    simp only [feed] at h
    split_ifs at h with hkind
    exact .first hkind (bars_of_enter h)
  | expression env => exact .expression (bars_of_enter h)
  | head env =>
    simp only [feed] at h
    split_ifs at h with hkind
    cases h
    exact .head hkind
  | word env word =>
    simp only [feed] at h
    split at h
    · next op hop =>
      obtain rfl := Operator.eq_name_of_ofName? hop
      obtain ⟨hkind, rfl⟩ := demand_eq_error_iff.mp h
      exact .operator hkind
    · next hop =>
      split_ifs at h with hlet
      · subst hlet
        obtain ⟨hkind, rfl⟩ := demand_eq_error_iff.mp h
        exact .letHead hkind
      · cases h
        exact .word hop hlet
  | inside env =>
    simp only [feed] at h
    split_ifs at h with hkind hclose
    · cases h
      exact .empty hclose
    · exact .body hkind hclose (bars_of_enter h)
  | name env name =>
    simp only [feed] at h
    split_ifs at h with hclose hdepth hspace
    · cases h
      exact .nameTooDeep hclose hdepth
    · cases hfind : env.find name with
      | error e' =>
        simp only [hfind, Except.map, Except.error.injEq] at h
        subst h
        exact .nameBody hclose (not_le.mp hdepth) hfind
      | ok value => simp [hfind, Except.map] at h
    · cases h
      exact .bound hclose hspace
  | value result =>
    cases result with
    | error e' =>
      obtain rfl : e' = e := by simpa [feed, Except.bind] using h
      exact .late
    | ok value => exact refuses_of_leave h
  | extra op space =>
    simp only [feed, Except.error.injEq] at h
    subst h
    by_cases hkind : t.kind = .closeParen ∨ t.kind = .endOfFile
    · rw [if_pos hkind]
      exact .extra hkind
    · rw [if_neg hkind]
      rw [not_or] at hkind
      exact .third hkind.1 hkind.2

end Sprig.Reader
