import Sprig.Proofs.Json.RoundTrip
import Sprig.Proofs.Service.Outcome
import Sprig.Proofs.Token.Factorization

/-!
# Answers of tools

A caller that reads the text of an answer gets what the library has computed: the result, or the
kind and the message of the error, whatever units they hold. Only an answer with an error is marked
as one. The tokens that are read are those of the expression, and spell it.
-/

namespace Sprig

/-! ### Tokens in a document -/

/-- The value of a number that is written as a natural number. -/
def Json.asNat? : Json → Option Nat
  | .number d => if d.negative = false ∧ d.exponent = 0 then some d.mantissa else none
  | _ => none

/-- The token that a value holds. -/
def Token.ofJson? (v : Json) : Option Token := do
  let kind ← ((v.field? "kind").bind Json.asText?).bind TokenKind.ofName?
  let text ← (v.field? "text").bind Json.asText?
  let position ← (v.field? "position").bind Json.asNat?
  return ⟨kind, text, position⟩

/-- The tokens that a document lists. -/
def Json.tokens? (v : Json) : Option (List Token) :=
  ((v.field? "tokens").bind Json.asArray?).bind fun items => items.mapM Token.ofJson?

lemma TokenKind.ofName?_name (kind : TokenKind) : ofName? kind.name = some kind := by
  cases kind <;> decide

namespace Token

lemma ofJson?_toJson (t : Token) : ofJson? t.toJson = some t := by
  have hkind : t.toJson.field? "kind" = some (.string t.kind.name) := rfl
  have htext : t.toJson.field? "text" = some (.string t.text) := rfl
  have hposition : t.toJson.field? "position" = some (.int t.position) := rfl
  rw [ofJson?, hkind, htext, hposition]
  simp only [Option.bind_some, Json.asText?, TokenKind.ofName?_name]
  rfl

lemma mapM_ofJson? (ts : List Token) : (ts.map toJson).mapM ofJson? = some ts := by
  induction ts with
  | nil => rfl
  | cons t ts ih => simp [List.mapM_cons, ofJson?_toJson, ih]

lemma hasDistinctKeys_toJson (t : Token) : t.toJson.HasDistinctKeys := by
  have hkeys : [("kind" : Text), "text", "position"].Nodup := by decide
  refine .object hkeys (List.forall_mem_cons.mpr ⟨.string _, ?_⟩)
  exact List.forall_mem_cons.mpr ⟨.string _, List.forall_mem_singleton.mpr (.number _)⟩

end Token

namespace Service

namespace ToolAnswer

variable {α : Type} {key : Text} {value : α → Json}

/-- What the text of an answer says of an outcome: it is a document with the result, or with the
kind and the message of the error, and the answer is marked as an error if the document says so. -/
structure Tells (a : ToolAnswer) (key : Text) (value : α → Json) (outcome : Except Error α) :
    Prop where
  ok : ∀ r, outcome = .ok r →
    Json.ofText? a.text = some (.object [("success", .bool true), (key, value r)])
  error : ∀ e, outcome = .error e →
    Json.ofText? a.text = some (.object [("success", .bool false),
      ("errorKind", .string e.kind.label), ("error", .string e.message)])
  isError_iff : a.isError = true ↔
    (Json.ofText? a.text).bind (Json.field? "success") = some (.bool false)

lemma hasDistinctKeys_success {v : Json} (hkey : key ≠ "success") (hv : v.HasDistinctKeys) :
    (success key v).document.HasDistinctKeys := by
  refine .object (by simpa using hkey.symm) ?_
  exact List.forall_mem_cons.mpr ⟨.bool _, List.forall_mem_singleton.mpr hv⟩

lemma hasDistinctKeys_failure (e : Error) : (failure e).document.HasDistinctKeys := by
  have hkeys : [("success" : Text), "errorKind", "error"].Nodup := by decide
  refine .object hkeys (List.forall_mem_cons.mpr ⟨.bool _, ?_⟩)
  exact List.forall_mem_cons.mpr ⟨.string _, List.forall_mem_singleton.mpr (.string _)⟩

/-- The answer of an outcome tells of it. -/
lemma tells_ofOutcome (hkey : key ≠ "success") (hvalue : ∀ r, (value r).HasDistinctKeys)
    (outcome : Except Error α) : (ofOutcome key value outcome).Tells key value outcome := by
  cases outcome with
  | ok r =>
    have hread := Json.ofText?_render (hasDistinctKeys_success hkey (hvalue r))
    refine ⟨?_, ?_, ?_⟩
    · rintro _ ⟨⟩
      exact hread
    · rintro _ ⟨⟩
    · rw [ofOutcome, text, hread]
      exact iff_of_false (by rintro ⟨⟩) (by rintro ⟨⟩)
  | error e =>
    have hread := Json.ofText?_render (hasDistinctKeys_failure e)
    refine ⟨?_, ?_, ?_⟩
    · rintro _ ⟨⟩
    · rintro _ ⟨⟩
      exact hread
    · rw [ofOutcome, text, hread]
      exact iff_of_true rfl rfl

end ToolAnswer

variable {expression : Text} {n : Nat} {ts : List Token}

/-! ### The three tools -/

lemma tokenizeTool_tells (expression : Text) :
    (tokenizeTool expression).Tells "tokens" (fun ts => .array (ts.map Token.toJson))
      (expression.tokens.mapError .malformed) := by
  refine ToolAnswer.tells_ofOutcome (by decide) (fun ts => .array ?_) _
  intro v hv
  obtain ⟨t, -, rfl⟩ := List.mem_map.mp hv
  exact t.hasDistinctKeys_toJson

lemma formatTool_tells (expression : Text) :
    (formatTool expression).Tells "formatted" .string
      ((Format.expression expression).mapError .malformed) :=
  ToolAnswer.tells_ofOutcome (by decide) .string _

lemma evaluateTool_tells (expression : Text) (maxDepth : Option Json) :
    (evaluateTool expression maxDepth).Tells "value" .int
      ((Options.ofOverrides (limitOverrides maxDepth)).bind fun o =>
        evaluate o.maxDepth expression) :=
  ToolAnswer.tells_ofOutcome (by decide) (fun _ => .number _) _

lemma ofOverrides_limitOverrides_none : Options.ofOverrides (limitOverrides none) = .ok {} :=
  Options.override_of_issues_eq_nil "interpreter options" {} (issues_limitOverrides (by simp))

lemma ofOverrides_limitOverrides_int (hone : 1 ≤ n) (hle : n ≤ maxDepthLimit) :
    Options.ofOverrides (limitOverrides (some (.int n))) = .ok ⟨n⟩ :=
  Options.ofOverrides_toJson (o := ⟨n⟩) hone hle

/-- The tokens that a caller reads are those of the expression. -/
lemma tokens?_of_tokenizeTool (h : expression.tokens = .ok ts) :
    (Json.ofText? (tokenizeTool expression).text).bind Json.tokens? = some ts := by
  have hread := (tokenizeTool_tells expression).ok ts (by rw [h]; rfl)
  rw [hread, Option.bind_some, Json.tokens?]
  exact Token.mapM_ofJson? ts

lemma texts_of_tokens (h : expression.tokens = .ok ts) : Token.texts ts = expression := by
  obtain ⟨us, -, htexts, -, rfl⟩ := Text.tokens_eq_ok_iff_areRead.mp h
  rw [Token.texts_append, htexts]
  simp

/-- Tools tell what the library computes. Whatever the units of the expression are, the text of an
answer is a document that reads as the outcome: the tokens, the formatted expression, or the value
with the nesting limit that is given, the default one if none is. -/
theorem tools_tell (expression : Text) (maxDepth : Option Json) :
    (tokenizeTool expression).Tells "tokens" (fun ts => .array (ts.map Token.toJson))
      (expression.tokens.mapError .malformed) ∧
    (∀ ts, expression.tokens = .ok ts →
      (Json.ofText? (tokenizeTool expression).text).bind Json.tokens? = some ts ∧
      Token.texts ts = expression) ∧
    (formatTool expression).Tells "formatted" .string
      ((Format.expression expression).mapError .malformed) ∧
    (evaluateTool expression maxDepth).Tells "value" .int
      ((Options.ofOverrides (limitOverrides maxDepth)).bind fun o =>
        evaluate o.maxDepth expression) ∧
    (evaluateTool expression none).Tells "value" .int (evaluate 1000 expression) ∧
    ∀ n : Nat, 1 ≤ n → n ≤ maxDepthLimit →
      (evaluateTool expression (some (.int n))).Tells "value" .int (evaluate n expression) := by
  refine ⟨tokenizeTool_tells expression, ?_, formatTool_tells expression,
    evaluateTool_tells expression maxDepth, ?_, ?_⟩
  · intro ts hts
    exact ⟨tokens?_of_tokenizeTool hts, texts_of_tokens hts⟩
  · have htells := evaluateTool_tells expression none
    rw [ofOverrides_limitOverrides_none] at htells
    exact htells
  · intro n hone hle
    have htells := evaluateTool_tells expression (some (.int n))
    rw [ofOverrides_limitOverrides_int hone hle] at htells
    exact htells

/-- Half of a surrogate pair is told of as it is, after the place where it stands. -/
theorem tools_tell_unpaired :
    Json.ofText? (tokenizeTool [0x31, 0xD834]).text =
      some (.object [("success", .bool false), ("errorKind", .string "syntax"),
        ("error", .string (("SyntaxError [position 1]: unexpected character '" : Text) ++
          [0xD834] ++ ("'" : Text)))]) ∧
    (Json.ofText? (tokenizeTool "1 -2").text).bind Json.tokens? =
      some [⟨.integer, "1", 0⟩, ⟨.space, " ", 1⟩, ⟨.integer, "-2", 2⟩, ⟨.endOfFile, [], 4⟩] ∧
    Json.ofText? (evaluateTool "(add 1 2)" (some (.int 1))).text =
      some (.object [("success", .bool false), ("errorKind", .string "resource"),
        ("error", .string "ResourceError: expression nesting exceeds the limit of 1")]) := by
  have hfault : Text.tokens [0x31, 0xD834] = .error (.unexpectedUnit 0xD834 1) := by decide
  have hfaultMessage : (Error.malformed (.unexpectedUnit 0xD834 1)).message =
      ("SyntaxError [position 1]: unexpected character '" : Text) ++ [0xD834] ++ ("'" : Text) := by
    decide +kernel
  have htokens : Text.tokens "1 -2" =
      .ok [⟨.integer, "1", 0⟩, ⟨.space, " ", 1⟩, ⟨.integer, "-2", 2⟩, ⟨.endOfFile, [], 4⟩] := by
    decide
  have hdeep : evaluate 1 "(add 1 2)" = .error (.tooDeep 1) := by decide +kernel
  have hdeepMessage : (Error.tooDeep 1).message =
      ("ResourceError: expression nesting exceeds the limit of 1" : Text) := by decide +kernel
  refine ⟨?_, ?_, ?_⟩
  · rw [← hfaultMessage]
    exact (tools_tell [0x31, 0xD834] none).1.error _ (by rw [hfault]; rfl)
  · exact ((tools_tell "1 -2" none).2.1 _ htokens).1
  · rw [← hdeepMessage]
    exact ((tools_tell "(add 1 2)" none).2.2.2.2.2 1 (by decide) (by decide)).error _ hdeep

end Service

end Sprig
