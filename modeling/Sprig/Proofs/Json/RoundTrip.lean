import Sprig.Proofs.Json.Reading

/-!
# Documents read back

A value that is written as a document reads back as it was, if no object in it has a key twice:
reading keeps one field of each key. What is written is a document of the grammar, since line breaks
and indentation are white space.
-/

namespace Sprig.Json

variable {s s' : Text} {v : Json} {depth : Nat} {items : List Json}
  {field : Text × Json} {fields read : List (Text × Json)}

lemma isSpace_newLine (depth : Nat) : IsSpace (newLine depth) := by
  intro u hu
  rcases List.mem_cons.mp hu with rfl | hu
  · decide
  · rw [List.eq_of_mem_replicate hu]
    decide

/-! ### Items -/

/-- The items of an array are written one after the other. -/
lemma writesItems_renderItems (hs : IsSpace s) (hs' : IsSpace s')
    (hv : WritesValue (renderAt depth v) v)
    (hitems : ∀ w ∈ items, WritesValue (renderAt depth w) w) :
    WritesItems (s ++ (renderAt depth v ++ (renderItems depth items ++ s'))) (v :: items) := by
  induction items generalizing v s with
  | nil => exact .last (.mk hs hv hs')
  | cons w items ih =>
    obtain ⟨hw, hitems⟩ := List.forall_mem_cons.mp hitems
    have helement := WritesElement.mk hs hv isSpace_nil
    have htail := WritesItems.cons helement (ih (isSpace_newLine depth) hw hitems)
    simpa [renderItems] using htail

/-! ### Fields -/

lemma setField_of_not_mem {key : Text} (h : key ∉ fields.map Prod.fst) :
    setField key v fields = fields ++ [(key, v)] := by
  induction fields with
  | nil => rfl
  | cons field fields ih =>
    rw [List.map_cons, List.mem_cons, not_or] at h
    rw [setField, if_neg (Ne.symm h.1), ih h.2, List.cons_append]

lemma foldl_setField_of_nodup (h : ((read ++ fields).map Prod.fst).Nodup) :
    fields.foldl (fun read field => setField field.1 field.2 read) read = read ++ fields := by
  induction fields generalizing read with
  | nil => rw [List.append_nil, List.foldl_nil]
  | cons field fields ih =>
    have hnew : field.1 ∉ read.map Prod.fst := by
      rw [List.map_append, List.map_cons, List.nodup_append] at h
      exact fun hmem => h.2.2 _ hmem _ List.mem_cons_self rfl
    rw [List.foldl_cons, setField_of_not_mem hnew, ih (by rwa [← List.append_cons]),
      ← List.append_cons]

/-- Where no key stands twice, every field counts. -/
lemma latest_of_nodup (h : (fields.map Prod.fst).Nodup) : latest fields = fields := by
  have hkeys : (([] ++ fields).map Prod.fst).Nodup := h
  rw [← foldl_setField, foldl_setField_of_nodup hkeys, List.nil_append]

/-- A field as it is written, without what stands before it. -/
def renderField (depth : Nat) (field : Text × Json) : Text :=
  renderString field.1 ++ (": " : Text) ++ renderAt depth field.2

lemma renderFields_cons (depth : Nat) (field : Text × Json) (fields : List (Text × Json)) :
    renderFields depth (field :: fields) =
      comma :: (newLine depth ++ renderField depth field ++ renderFields depth fields) := by
  simp [renderFields, renderField]

lemma renderAt_object_cons (depth : Nat) (field : Text × Json) (fields : List (Text × Json)) :
    renderAt depth (object (field :: fields)) =
      openBrace :: ((newLine (depth + 1) ++ (renderField (depth + 1) field ++
        (renderFields (depth + 1) fields ++ newLine depth))) ++ [closeBrace]) := by
  simp [renderAt, renderField]

lemma writesField_renderField (hs : IsSpace s) (hs' : IsSpace s')
    (hv : WritesValue (renderAt depth field.2) field.2) :
    WritesField (s ++ (renderField depth field ++ s')) field := by
  have hcolon : (": " : Text) = [CodeUnit.colon, CodeUnit.space] := by decide
  have hspace : IsSpace [CodeUnit.space] := by simp [IsSpace]
  have hfield := WritesField.mk hs (writesString_renderString field.1) isSpace_nil
    (.mk hspace hv hs')
  simpa [renderField, hcolon] using hfield

/-- The fields of an object are written one after the other. -/
lemma writesFields_renderFields (hs : IsSpace s) (hs' : IsSpace s')
    (hv : WritesValue (renderAt depth field.2) field.2)
    (hfields : ∀ f ∈ fields, WritesValue (renderAt depth f.2) f.2) :
    WritesFields (s ++ (renderField depth field ++ (renderFields depth fields ++ s')))
      (field :: fields) := by
  induction fields generalizing field s with
  | nil => exact .last (writesField_renderField hs hs' hv)
  | cons next fields ih =>
    obtain ⟨hnext, hfields⟩ := List.forall_mem_cons.mp hfields
    have hfield := writesField_renderField hs isSpace_nil hv
    have htail := WritesFields.cons hfield (ih (isSpace_newLine depth) hnext hfields)
    simpa [renderFields_cons] using htail

/-! ### Documents -/

/-- No object of a value has a key twice. -/
inductive HasDistinctKeys : Json → Prop
  | null : HasDistinctKeys null
  | bool (b : Bool) : HasDistinctKeys (bool b)
  | number (d : Decimal) : HasDistinctKeys (number d)
  | string (t : Text) : HasDistinctKeys (string t)
  | array {items : List Json} (hitems : ∀ v ∈ items, HasDistinctKeys v) :
      HasDistinctKeys (array items)
  | object {fields : List (Text × Json)} (hkeys : (fields.map Prod.fst).Nodup)
      (hfields : ∀ f ∈ fields, HasDistinctKeys f.2) : HasDistinctKeys (object fields)

/-- A value is written as a value of the grammar, at every depth. -/
lemma HasDistinctKeys.writesValue (h : v.HasDistinctKeys) (depth : Nat) :
    WritesValue (renderAt depth v) v := by
  induction h generalizing depth with
  | null =>
    rw [renderAt]
    exact .null
  | bool b =>
    cases b with
    | true =>
      rw [renderAt]
      exact .bool true
    | false =>
      rw [renderAt]
      exact .bool false
  | number d =>
    rw [renderAt]
    exact .number (writesNumber_toText d)
  | string t =>
    rw [renderAt]
    exact .string (writesString_renderString t)
  | @array items _ ih =>
    cases items with
    | nil =>
      rw [renderAt]
      exact .emptyArray isSpace_nil
    | cons v items =>
      obtain ⟨hv, hitems⟩ := List.forall_mem_cons.mp ih
      have hwritten := writesItems_renderItems (isSpace_newLine (depth + 1)) (isSpace_newLine depth)
        (hv (depth + 1)) fun w hw => hitems w hw (depth + 1)
      simpa [renderAt] using WritesValue.array hwritten
  | @object fields hkeys _ ih =>
    cases fields with
    | nil =>
      rw [renderAt]
      exact .emptyObject isSpace_nil
    | cons field fields =>
      obtain ⟨hfield, hfields⟩ := List.forall_mem_cons.mp ih
      have hwritten := writesFields_renderFields (isSpace_newLine (depth + 1))
        (isSpace_newLine depth) (hfield (depth + 1)) fun f hf => hfields f hf (depth + 1)
      have hobject := WritesValue.object hwritten
      rwa [latest_of_nodup hkeys, ← renderAt_object_cons] at hobject

/-- A document reads back as the value it was written for, if no object in it has a key twice. -/
theorem ofText?_render (h : v.HasDistinctKeys) : ofText? v.render = some v := by
  have hdocument := WritesElement.mk isSpace_nil (h.writesValue 0) isSpace_nil
  rw [List.nil_append, List.append_nil] at hdocument
  exact ofText?_eq_some_iff.mpr hdocument

end Sprig.Json
