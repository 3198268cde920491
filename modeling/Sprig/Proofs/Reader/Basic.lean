import Sprig.Expr.Value
import Sprig.Proofs.Token.Scan

/-!
# Readers

An evaluation as a machine that is fed one token after the other. The forms that are still open
are kept as frames, the innermost first, each with what it will do with the value of the part that
is being read; the stage says where in the innermost form the next token stands. Names are bound
in lists of bindings that never change.

Nothing is looked ahead at. What the evaluator decides by the token after the current one, a reader
decides when that token is fed to it: whether a name in a `let` is bound or is the body, whether a
third operand follows, and, since that token has to be one at all, whether a name has a value.
-/

namespace Sprig

/-- What an open form does with the part that is being read. -/
inductive Frame where
  /-- It is the left operand. -/
  | left (op : Operator) (env : Bindings)
  /-- It is the right operand; the left one has a value. -/
  | right (op : Operator) (value : Int)
  /-- It is the value of a name. -/
  | binding (env : Bindings) (name : Text)
  /-- It is the body of a `let`. -/
  | body
  deriving DecidableEq, Repr

/-- What has just been read. -/
inductive Stage where
  /-- Nothing: a space may come first. -/
  | start
  /-- All that comes before an expression. -/
  | expression (env : Bindings)
  /-- An opening parenthesis. -/
  | head (env : Bindings)
  /-- The word at the head of a form. -/
  | word (env : Bindings) (word : Text)
  /-- All that comes before a name or the body of a `let`. -/
  | inside (env : Bindings)
  /-- A name in a `let`: one that is bound, or the body. -/
  | name (env : Bindings) (name : Text)
  /-- An expression. If it is a name, this one may be unbound. -/
  | value (result : Except Error Int)
  /-- A space after a second operand. -/
  | extra (op : Operator) (space : Token)
  deriving DecidableEq, Repr

/-- An evaluation between two tokens. -/
structure Reader where
  stage : Stage
  frames : List Frame
  deriving DecidableEq, Repr

lemma Operator.eq_name_of_ofName? {op : Operator} {word : Text} (h : ofName? word = some op) :
    word = op.name := by
  simp only [ofName?] at h
  split_ifs at h with hadd hmult
  · cases h
    exact hadd
  · cases h
    exact hmult

/-- The value of a name. -/
def Bindings.find (env : Bindings) (name : Text) : Except Error Int :=
  match env.lookup name with
  | some value => .ok value
  | none => .error (.unboundName name)

namespace Reader

/-! ### Tokens one by one -/

/-- A reader of which nothing has been fed yet. -/
def start : Reader := ⟨.start, []⟩

/-- Goes on if a token is of the kind that is required at a place. -/
def demand (kind : TokenKind) (place : Place) (t : Token) (next : Reader) : Except Error Reader :=
  if t.kind = kind then .ok next else .error (.malformed (.missing kind place t))

/-- Takes the first token of an expression. -/
def enter (limit : Nat) (env : Bindings) (frames : List Frame) (t : Token) :
    Except Error Reader :=
  if limit ≤ frames.length then .error (.tooDeep limit)
  else
    match t.kind with
    | .integer =>
      match Word.ofText? t.text with
      | some value => .ok ⟨.value (.ok value), frames⟩
      | none => .error (.malformed (.literalOutOfRange t))
    | .identifier => .ok ⟨.value (env.find t.text), frames⟩
    | .openParen => .ok ⟨.head env, frames⟩
    | .endOfFile => .error (.malformed (.unexpectedEnd t))
    | .closeParen | .space => .error (.malformed (.unexpectedToken t))

/-- Takes the token after an expression that has a value. -/
def leave (value : Int) : List Frame → Token → Except Error Reader
  | [], t =>
    if t.kind = .endOfFile then .ok ⟨.value (.ok value), []⟩ else .error (.malformed (.trailing t))
  | .left op env :: frames, t =>
    demand .space (.betweenOperands op) t ⟨.expression env, .right op value :: frames⟩
  | .right op left :: frames, t =>
    if t.kind = .space then .ok ⟨.extra op t, frames⟩
    else
      demand .closeParen (.afterSecondOperand op) t
        ⟨.value (.ok (op.apply left value)), frames⟩
  | .binding env name :: frames, t =>
    if t.kind = .closeParen then .error (.malformed (.noBody t))
    else demand .space (.afterValue name) t ⟨.inside ((name, value) :: env), frames⟩
  | .body :: frames, t => demand .closeParen .endOfLet t ⟨.value (.ok value), frames⟩

/-- Takes a token. The limit is that of the nesting. -/
def feed (limit : Nat) (r : Reader) (t : Token) : Except Error Reader :=
  match r.stage with
  | .start =>
    if t.kind = .space then .ok ⟨.expression [], r.frames⟩ else enter limit [] r.frames t
  | .expression env => enter limit env r.frames t
  | .head env =>
    if t.kind = .identifier then .ok ⟨.word env t.text, r.frames⟩
    else .error (.malformed (.noHead t))
  | .word env word =>
    match Operator.ofName? word with
    | some op => demand .space (.afterOperator op) t ⟨.expression env, .left op env :: r.frames⟩
    | none =>
      if word = letName then demand .space .afterLet t ⟨.inside env, r.frames⟩
      else .error (.unknownOperator word)
  | .inside env =>
    if t.kind = .identifier then .ok ⟨.name env t.text, r.frames⟩
    else if t.kind = .closeParen then .error (.malformed (.noBody t))
    else enter limit env (.body :: r.frames) t
  | .name env name =>
    if t.kind = .closeParen then
      if limit ≤ r.frames.length + 1 then .error (.tooDeep limit)
      else (env.find name).map fun value => ⟨.value (.ok value), r.frames⟩
    else if t.kind = .space then .ok ⟨.expression env, .binding env name :: r.frames⟩
    else .error (.malformed (.noValue name t))
  | .value result => result.bind fun value => leave value r.frames t
  | .extra op space =>
    let found := if t.kind = .closeParen ∨ t.kind = .endOfFile then space else t
    .error (.malformed (.missing .closeParen (.afterSecondOperand op) found))

/-! ### All tokens -/

/-- Takes tokens up to the first one that is refused. -/
def feedAll (limit : Nat) (r : Reader) (ts : List Token) : Except Error Reader :=
  ts.foldlM (feed limit) r

/-- The value of a whole text. Before the end of the input there is none, nor is it asked for. -/
def result (r : Reader) : Except Error Int :=
  match r.stage with
  | .value result => result
  | _ => .error (.general [])

/-- What becomes of a reader when there are no more tokens. -/
def conclude (fault : Option SyntaxError) (r : Reader) : Except Error Int :=
  match fault with
  | none => r.result
  | some e => .error (.malformed e)

/-- Takes all tokens that a lexer has left. -/
def run (limit : Nat) (r : Reader) (l : Lexer) : Except Error Int :=
  (r.feedAll limit l.scan.tokens).bind (conclude l.scan.fault)

section Runs

variable {limit : Nat} {r r' : Reader} {l l' : Lexer} {t : Token} {e : Error}

@[simp] lemma feedAll_nil (limit : Nat) (r : Reader) : r.feedAll limit [] = .ok r := rfl

@[simp] lemma feedAll_cons (limit : Nat) (r : Reader) (t : Token) (ts : List Token) :
    r.feedAll limit (t :: ts) = (r.feed limit t).bind fun r' => r'.feedAll limit ts := by
  simp only [feedAll, List.foldlM_cons, bind]

lemma feedAll_append (limit : Nat) (r : Reader) (ts us : List Token) :
    r.feedAll limit (ts ++ us) = (r.feedAll limit ts).bind fun r' => r'.feedAll limit us := by
  simp only [feedAll, List.foldlM_append, bind]

lemma feedAll_singleton (limit : Nat) (r : Reader) (t : Token) :
    r.feedAll limit [t] = r.feed limit t := by
  cases hfeed : r.feed limit t <;> simp [hfeed, Except.bind]

lemma feedAll_append_eq_ok_iff {ts us : List Token} :
    r.feedAll limit (ts ++ us) = .ok r' ↔
      ∃ r₁, r.feedAll limit ts = .ok r₁ ∧ r₁.feedAll limit us = .ok r' := by
  rw [feedAll_append]
  cases r.feedAll limit ts <;> simp [Except.bind]

lemma feedAll_cons_eq_ok_iff {ts : List Token} :
    r.feedAll limit (t :: ts) = .ok r' ↔
      ∃ r₁, r.feed limit t = .ok r₁ ∧ r₁.feedAll limit ts = .ok r' := by
  rw [feedAll_cons]
  cases r.feed limit t <;> simp [Except.bind]

lemma run_eq_ok_iff {value : Int} :
    r.run limit l = .ok value ↔
      l.scan.fault = none ∧
        ∃ r', r.feedAll limit l.scan.tokens = .ok r' ∧ r'.result = .ok value := by
  rw [run]
  cases r.feedAll limit l.scan.tokens <;> cases l.scan.fault <;> simp [Except.bind, conclude]

/-- A unit that starts no token stops every reader. -/
lemma run_of_fault {c : SyntaxError} (h : l.next = .error c) :
    r.run limit l = .error (.malformed c) := by
  rw [run, Lexer.scan_of_error h]
  rfl

lemma run_of_error (h : l.next = .ok (t, l')) (hfeed : r.feed limit t = .error e) :
    r.run limit l = .error e := by
  by_cases hkind : t.kind = .endOfFile
  · simp [run, Lexer.scan_of_endOfFile h hkind, hfeed, Except.bind]
  · simp [run, Lexer.scan_of_ok h hkind, hfeed, Except.bind]

lemma run_of_ok (h : l.next = .ok (t, l')) (hkind : t.kind ≠ .endOfFile)
    (hfeed : r.feed limit t = .ok r') : r.run limit l = r'.run limit l' := by
  simp [run, Lexer.scan_of_ok h hkind, hfeed, Except.bind]

lemma run_of_endOfFile (h : l.next = .ok (t, l')) (hkind : t.kind = .endOfFile)
    (hfeed : r.feed limit t = .ok r') : r.run limit l = r'.result := by
  simp [run, Lexer.scan_of_endOfFile h hkind, hfeed, Except.bind, conclude]

/-- Readers that take the next token alike come to the same outcome. -/
lemma run_congr (h : l.next = .ok (t, l')) (hfeed : r.feed limit t = r'.feed limit t) :
    r.run limit l = r'.run limit l := by
  by_cases hkind : t.kind = .endOfFile
  · simp [run, Lexer.scan_of_endOfFile h hkind, hfeed]
  · simp [run, Lexer.scan_of_ok h hkind, hfeed]

end Runs

/-! ### The body of a `let` -/

/-- The body of a `let` starts here: it is no name, or a name before the closing parenthesis. -/
def IsBody (l : Lexer) : Prop :=
  ∀ t l', l.next = .ok (t, l') → t.kind = .identifier →
    ∃ u l'', l'.next = .ok (u, l'') ∧ u.kind = .closeParen

section Body

variable {limit : Nat} {env : Bindings} {frames : List Frame} {l : Lexer}

/-- Where the body of a `let` starts, a reader may take the next token as that of an expression
right away, also if it is a name, which it takes as the body only one token later. -/
lemma run_inside_of_isBody (hbody : IsBody l) {t : Token} {l₁ : Lexer}
    (hnext : l.next = .ok (t, l₁)) (hclose : t.kind ≠ .closeParen) :
    run limit ⟨.inside env, frames⟩ l =
      run limit ⟨.expression env, .body :: frames⟩ l := by
  by_cases hkind : t.kind = .identifier
  · obtain ⟨u, l₂, hnext₁, hu⟩ := hbody t l₁ hnext hkind
    have hne : t.kind ≠ .endOfFile := by simp [hkind]
    have hname : feed limit ⟨.inside env, frames⟩ t =
        .ok ⟨.name env t.text, frames⟩ := by
      simp [feed, hkind]
    rw [run_of_ok hnext hne hname]
    by_cases hdepth : limit ≤ frames.length + 1
    · rw [run_of_error hnext₁ (e := .tooDeep limit), run_of_error hnext]
      · simp [feed, enter, hdepth]
      · simp [feed, hu, hdepth]
    · have hvalue : feed limit ⟨.expression env, .body :: frames⟩ t =
          .ok ⟨.value (env.find t.text), .body :: frames⟩ := by
        simp [feed, enter, hdepth, hkind]
      rw [run_of_ok hnext hne hvalue]
      have hfeed : feed limit ⟨.name env t.text, frames⟩ u =
          feed limit ⟨.value (env.find t.text), .body :: frames⟩ u := by
        cases hfind : env.find t.text <;>
          simp [feed, leave, demand, hu, hdepth, hfind, Except.bind,
            Except.map]
      exact run_congr hnext₁ hfeed
  · have hfeed : feed limit ⟨.inside env, frames⟩ t =
        feed limit ⟨.expression env, .body :: frames⟩ t := by
      simp [feed, hkind, hclose]
    exact run_congr hnext hfeed

end Body

/-! ### The moves of a reader -/

/-- What a token starts in an expression. -/
inductive Enters (limit : Nat) (env : Bindings) (frames : List Frame) (t : Token) : Reader → Prop
  | integer {value : Int} (hkind : t.kind = .integer) (hvalue : Word.ofText? t.text = some value) :
    Enters limit env frames t ⟨.value (.ok value), frames⟩
  | name (hkind : t.kind = .identifier) :
    Enters limit env frames t ⟨.value (env.find t.text), frames⟩
  | form (hkind : t.kind = .openParen) : Enters limit env frames t ⟨.head env, frames⟩

/-- The moves of a reader, one for each way in which a token is taken. -/
inductive Moves (limit : Nat) : Reader → Token → Reader → Prop
  | skip {frames t} (hkind : t.kind = .space) :
    Moves limit ⟨.start, frames⟩ t ⟨.expression [], frames⟩
  | first {frames t r} (hdepth : frames.length < limit) (h : Enters limit [] frames t r) :
    Moves limit ⟨.start, frames⟩ t r
  | expression {env frames t r} (hdepth : frames.length < limit)
    (h : Enters limit env frames t r) : Moves limit ⟨.expression env, frames⟩ t r
  | head {env frames t} (hkind : t.kind = .identifier) :
    Moves limit ⟨.head env, frames⟩ t ⟨.word env t.text, frames⟩
  | operator {env op frames t} (hkind : t.kind = .space) :
    Moves limit ⟨.word env op.name, frames⟩ t ⟨.expression env, .left op env :: frames⟩
  | letHead {env frames t} (hkind : t.kind = .space) :
    Moves limit ⟨.word env letName, frames⟩ t ⟨.inside env, frames⟩
  | name {env frames t} (hkind : t.kind = .identifier) :
    Moves limit ⟨.inside env, frames⟩ t ⟨.name env t.text, frames⟩
  | body {env frames t r} (hkind : t.kind ≠ .identifier) (hdepth : frames.length + 1 < limit)
    (h : Enters limit env (.body :: frames) t r) : Moves limit ⟨.inside env, frames⟩ t r
  | bound {env name frames t} (hkind : t.kind = .space) :
    Moves limit ⟨.name env name, frames⟩ t ⟨.expression env, .binding env name :: frames⟩
  | nameBody {env name frames t} {value : Int} (hkind : t.kind = .closeParen)
    (hdepth : frames.length + 1 < limit) (hvalue : env.find name = .ok value) :
    Moves limit ⟨.name env name, frames⟩ t ⟨.value (.ok value), frames⟩
  | finish {value : Int} {t} (hkind : t.kind = .endOfFile) :
    Moves limit ⟨.value (.ok value), []⟩ t ⟨.value (.ok value), []⟩
  | left {value : Int} {op env frames t} (hkind : t.kind = .space) :
    Moves limit ⟨.value (.ok value), .left op env :: frames⟩ t
      ⟨.expression env, .right op value :: frames⟩
  | right {value left : Int} {op frames t} (hkind : t.kind = .closeParen) :
    Moves limit ⟨.value (.ok value), .right op left :: frames⟩ t
      ⟨.value (.ok (op.apply left value)), frames⟩
  | extra {value left : Int} {op frames t} (hkind : t.kind = .space) :
    Moves limit ⟨.value (.ok value), .right op left :: frames⟩ t ⟨.extra op t, frames⟩
  | bind {value : Int} {env name frames t} (hkind : t.kind = .space) :
    Moves limit ⟨.value (.ok value), .binding env name :: frames⟩ t
      ⟨.inside ((name, value) :: env), frames⟩
  | close {value : Int} {frames t} (hkind : t.kind = .closeParen) :
    Moves limit ⟨.value (.ok value), .body :: frames⟩ t ⟨.value (.ok value), frames⟩

section Inversion

variable {limit : Nat} {r r' : Reader} {env : Bindings} {frames : List Frame} {t : Token}

lemma demand_eq_ok_iff {kind : TokenKind} {place : Place} {next : Reader} :
    demand kind place t next = .ok r ↔ t.kind = kind ∧ next = r := by
  simp only [demand]
  split_ifs with h <;> simp [h]

lemma enters_of_enter (h : enter limit env frames t = .ok r) :
    frames.length < limit ∧ Enters limit env frames t r := by
  simp only [enter] at h
  split_ifs at h with hdepth
  refine ⟨not_le.mp hdepth, ?_⟩
  split at h
  · next hkind =>
    split at h
    · next value hvalue =>
      cases h
      exact .integer hkind hvalue
    · cases h
  · next hkind =>
    cases h
    exact .name hkind
  · next hkind =>
    cases h
    exact .form hkind
  · cases h
  · cases h
  · cases h

lemma moves_of_leave {value : Int} (h : leave value frames t = .ok r) :
    Moves limit ⟨.value (.ok value), frames⟩ t r := by
  match frames with
  | [] =>
    simp only [leave] at h
    split_ifs at h with hkind
    cases h
    exact .finish hkind
  | .left op env :: frames =>
    obtain ⟨hkind, rfl⟩ := demand_eq_ok_iff.mp h
    exact .left hkind
  | .right op left :: frames =>
    simp only [leave] at h
    split_ifs at h with hkind
    · cases h
      exact .extra hkind
    · obtain ⟨hkind', rfl⟩ := demand_eq_ok_iff.mp h
      exact .right hkind'
  | .binding env name :: frames =>
    simp only [leave] at h
    split_ifs at h
    obtain ⟨hkind, rfl⟩ := demand_eq_ok_iff.mp h
    exact .bind hkind
  | .body :: frames =>
    obtain ⟨hkind, rfl⟩ := demand_eq_ok_iff.mp h
    exact .close hkind

/-- A token that is taken makes one of the moves. -/
theorem moves_of_feed (h : r.feed limit t = .ok r') : Moves limit r t r' := by
  obtain ⟨stage, frames⟩ := r
  cases stage with
  | start =>
    simp only [feed] at h
    split_ifs at h with hkind
    · cases h
      exact .skip hkind
    · obtain ⟨hdepth, henters⟩ := enters_of_enter h
      exact .first hdepth henters
  | expression env =>
    obtain ⟨hdepth, henters⟩ := enters_of_enter h
    exact .expression hdepth henters
  | head env =>
    simp only [feed] at h
    split_ifs at h with hkind
    cases h
    exact .head hkind
  | word env word =>
    simp only [feed] at h
    split at h
    · next op hop =>
      obtain rfl := Operator.eq_name_of_ofName? hop
      obtain ⟨hkind, rfl⟩ := demand_eq_ok_iff.mp h
      exact .operator hkind
    · split_ifs at h with hlet
      subst hlet
      obtain ⟨hkind, rfl⟩ := demand_eq_ok_iff.mp h
      exact .letHead hkind
  | inside env =>
    simp only [feed] at h
    split_ifs at h with hkind hclose
    · cases h
      exact .name hkind
    · obtain ⟨hdepth, henters⟩ := enters_of_enter h
      exact .body hkind hdepth henters
  | name env name =>
    simp only [feed] at h
    split_ifs at h with hclose hdepth hspace
    · cases hfind : env.find name with
      | error e => simp [hfind, Except.map] at h
      | ok value =>
        simp only [hfind, Except.map, Except.ok.injEq] at h
        subst h
        exact .nameBody hclose (not_le.mp hdepth) hfind
    · cases h
      exact .bound hspace
  | value result =>
    cases result with
    | error e => simp [feed, Except.bind] at h
    | ok value => exact moves_of_leave h
  | extra op space => simp [feed] at h

end Inversion

end Reader

end Sprig
