import Mathlib.Data.List.Induction
import Mathlib.Data.List.Nodup
import Mathlib.Data.List.TakeWhile
import Mathlib.Tactic.SplitIfs
import Sprig.Proofs.Json.Number
import Sprig.Proofs.Json.String

/-!
# Reading follows the grammar

A text is read as a value exactly if the grammar says that it is a document with that value.
-/

namespace Sprig.Json

variable {t w s s' rest read : Text} {u : CodeUnit} {v : Json} {allowance : Nat}

/-! ### White space -/

lemma isSpace_iff : isSpace u ↔ u = 0x20 ∨ u = 0x09 ∨ u = 0x0A ∨ u = 0x0D := by
  simp [isSpace, or_assoc]

lemma skipSpace_append (hs : IsSpace s) (t : Text) : skipSpace (s ++ t) = skipSpace t :=
  List.dropWhile_append_of_pos fun u hu => isSpace_iff.mpr (hs u hu)

lemma skipSpace_cons (h : isSpace u = false) : skipSpace (u :: t) = u :: t := by
  simp [skipSpace, h]

lemma skipSpace_of_isSpace (hs : IsSpace s) : skipSpace s = [] := by
  have h := skipSpace_append hs []
  rwa [List.append_nil] at h

/-- What is skipped is white space. -/
lemma exists_skipSpace (t : Text) : ∃ s, IsSpace s ∧ t = s ++ skipSpace t :=
  ⟨t.takeWhile isSpace, fun _ hu => isSpace_iff.mp (List.mem_takeWhile_imp hu),
    List.takeWhile_append_dropWhile.symm⟩

lemma exists_eq_append_cons (h : skipSpace t = u :: rest) :
    ∃ s, IsSpace s ∧ t = s ++ u :: rest := by
  obtain ⟨s, hs, ht⟩ := exists_skipSpace t
  exact ⟨s, hs, h ▸ ht⟩

lemma isSpace_nil : IsSpace [] := by simp [IsSpace]

lemma IsSpace.append (hs : IsSpace s) (hs' : IsSpace s') : IsSpace (s ++ s') := by
  intro u hu
  rcases List.mem_append.mp hu with hu | hu
  · exact hs u hu
  · exact hs' u hu

/-! ### Fields -/

variable {keys : List Text} {key : Text} {fields : List (Text × Json)}

lemma eraseDups_append_singleton (keys : List Text) (key : Text) :
    (keys ++ [key]).eraseDups =
      if key ∈ keys then keys.eraseDups else keys.eraseDups ++ [key] := by
  rw [List.eraseDups_append, List.removeAll, List.filter_singleton]
  by_cases hkey : key ∈ keys <;> simp [hkey, List.eraseDups_cons]

lemma nodup_eraseDups (keys : List Text) : keys.eraseDups.Nodup := by
  induction keys using List.reverseRecOn with
  | nil => exact List.nodup_nil
  | append_singleton keys key ih =>
    rw [eraseDups_append_singleton]
    split_ifs with hkey
    · exact ih
    · exact ih.append (List.nodup_singleton key) (by simpa using hkey)

/-- A field is set in its old place, or after the others. -/
lemma setField_map (hkeys : keys.Nodup) (f : Text → Json) (key : Text) (v : Json) :
    setField key v (keys.map fun k => (k, f k)) =
      (if key ∈ keys then keys else keys ++ [key]).map fun k => (k, Function.update f key v k) := by
  induction keys with
  | nil => simp [setField]
  | cons k keys ih =>
    obtain ⟨hk, hkeys⟩ := List.nodup_cons.mp hkeys
    by_cases hkey : k = key
    · subst hkey
      have hother : ∀ k' ∈ keys, k' ≠ k := fun k' hk' => fun h => hk (h ▸ hk')
      simp +contextual [setField, hother]
    · rw [List.map_cons, setField, if_neg hkey, ih hkeys]
      by_cases hmem : key ∈ keys <;> simp [hmem, hkey, Ne.symm hkey]

lemma latest_append_singleton (fields : List (Text × Json)) (key : Text) (v : Json) :
    latest (fields ++ [(key, v)]) = setField key v (latest fields) := by
  rw [latest, latest, setField_map (nodup_eraseDups _)]
  simp only [List.map_append, List.map_singleton, eraseDups_append_singleton, List.mem_eraseDups,
    List.reverse_append, List.reverse_singleton, List.singleton_append, List.lookup_cons]
  refine List.map_congr_left fun k _ => ?_
  by_cases hk : k = key
  · simp [hk]
  · simp [hk, beq_false_of_ne hk]

/-- Fields that are set one after the other. -/
lemma foldl_setField (fields : List (Text × Json)) :
    fields.foldl (fun read field => setField field.1 field.2 read) [] = latest fields := by
  induction fields using List.reverseRecOn with
  | nil => rfl
  | append_singleton fields field ih =>
    rw [List.foldl_append, ih, List.foldl_cons, ← latest_append_singleton, List.foldl_nil]

/-- No key is left twice. -/
lemma nodup_latest (fields : List (Text × Json)) : ((latest fields).map Prod.fst).Nodup := by
  have hkeys : (latest fields).map Prod.fst = (fields.map Prod.fst).eraseDups := by
    simp [latest, Function.comp_def]
  rw [hkeys]
  exact nodup_eraseDups _

/-! ### What is written is read -/

lemma endsNumber_append (hs : IsSpace s) (hrest : EndsNumber rest) : EndsNumber (s ++ rest) := by
  cases s with
  | nil => exact hrest
  | cons u s =>
    rw [List.cons_append, endsNumber_cons]
    rcases hs u (by simp) with rfl | rfl | rfl | rfl <;> decide

/-- A value starts with no white space, and with no closing bracket. -/
lemma WritesValue.exists_eq_cons (h : WritesValue w v) :
    ∃ u t, w = u :: t ∧ isSpace u = false ∧ u ≠ CodeUnit.closeBracket := by
  cases h with
  | null => exact ⟨_, _, rfl, by decide, by decide⟩
  | bool b => cases b <;> exact ⟨_, _, rfl, by decide, by decide⟩
  | number h =>
    obtain ⟨u, t, rfl, hu⟩ := h.exists_eq_cons
    have hne (u' : CodeUnit) (h : startsNumber u' = false) : u ≠ u' := CodeUnit.ne_of_holds hu h
    refine ⟨u, t, rfl, ?_, hne _ (by decide)⟩
    simp [isSpace, hne 0x20 (by decide), hne 0x09 (by decide), hne 0x0A (by decide),
      hne 0x0D (by decide)]
  | string h =>
    cases h
    exact ⟨_, _, rfl, by decide, by decide⟩
  | emptyArray | array | emptyObject | object => exact ⟨_, _, rfl, by decide, by decide⟩

lemma skipSpace_writesValue (h : WritesValue w v) (rest : Text) :
    skipSpace (w ++ rest) = w ++ rest := by
  obtain ⟨u, t, rfl, hu, -⟩ := h.exists_eq_cons
  exact skipSpace_cons hu

lemma readValue?_number {d : Decimal} (h : WritesNumber w d) (hrest : EndsNumber rest) :
    readValue? (allowance + 1) (w ++ rest) = some (.number d, rest) := by
  have hread := readNumber?_append h hrest
  obtain ⟨u, t, rfl, hu⟩ := h.exists_eq_cons
  have hne (u' : CodeUnit) (h : startsNumber u' = false) : u ≠ u' := CodeUnit.ne_of_holds hu h
  rw [List.cons_append] at hread ⊢
  rw [readValue?, if_neg (hne _ (by decide)), if_neg (hne _ (by decide)),
    if_neg (hne _ (by decide)), if_neg (hne _ (by decide)), if_neg (hne _ (by decide)),
    if_neg (hne _ (by decide)), hread]
  rfl

lemma readValue?_string (h : WritesString w t) :
    readValue? (allowance + 1) (w ++ rest) = some (.string t, rest) := by
  obtain ⟨h⟩ := h
  rw [List.cons_append, List.append_assoc, List.singleton_append, readValue?, if_pos rfl,
    readString?_writesUnits h]
  rfl

lemma readValue?_emptyArray (hs : IsSpace s) (rest : Text) :
    readValue? (allowance + 1) (CodeUnit.openBracket :: (s ++ [CodeUnit.closeBracket]) ++ rest) =
      some (array [], rest) := by
  rw [List.cons_append, List.append_assoc, List.singleton_append, readValue?, if_neg (by decide),
    if_neg (by decide), if_pos rfl, skipSpace_append hs, skipSpace_cons (by decide)]
  rfl

lemma readValue?_emptyObject (hs : IsSpace s) (rest : Text) :
    readValue? (allowance + 1) (openBrace :: (s ++ [closeBrace]) ++ rest) =
      some (object [], rest) := by
  rw [List.cons_append, List.append_assoc, List.singleton_append, readValue?, if_neg (by decide),
    if_pos rfl, skipSpace_append hs, skipSpace_cons (by decide)]
  rfl

lemma readValue?_openBracket {items : List Json} (hskip : skipSpace t = u :: w)
    (hu : u ≠ CodeUnit.closeBracket)
    (hread : readItems? allowance [] (u :: w) = some (items, rest)) :
    readValue? (allowance + 1) (CodeUnit.openBracket :: t) = some (array items, rest) := by
  rw [readValue?, if_neg (by decide), if_neg (by decide), if_pos rfl, hskip]
  dsimp only
  rw [if_neg hu, hread]
  rfl

lemma readValue?_openBrace (hskip : skipSpace t = quote :: w)
    (hread : readFields? allowance [] (quote :: w) = some (fields, rest)) :
    readValue? (allowance + 1) (openBrace :: t) = some (object fields, rest) := by
  rw [readValue?, if_neg (by decide), if_pos rfl, hskip]
  dsimp only
  rw [if_neg (by decide), hread]
  rfl

lemma readItems?_comma {items : List Json} (hs : IsSpace s)
    (hread : readValue? allowance t = some (v, s ++ comma :: rest)) :
    readItems? (allowance + 1) items t = readItems? allowance (v :: items) (skipSpace rest) := by
  rw [readItems?, hread]
  dsimp only
  rw [skipSpace_append hs, skipSpace_cons (by decide)]
  rfl

lemma readItems?_closeBracket {items : List Json} (hs : IsSpace s)
    (hread : readValue? allowance t = some (v, s ++ CodeUnit.closeBracket :: rest)) :
    readItems? (allowance + 1) items t = some (items.reverse ++ [v], rest) := by
  rw [readItems?, hread, ← List.reverse_cons]
  dsimp only
  rw [skipSpace_append hs, skipSpace_cons (by decide)]
  rfl

/-- A field is read up to its end, where its object goes on after a comma or ends. -/
lemma readFields?_field {key : Text} {read : List (Text × Json)} (hkey : WritesString w key)
    (hs : IsSpace s) (hs' : IsSpace s') {u : CodeUnit} (hu : u = comma ∨ u = closeBrace)
    (hread : readValue? allowance (skipSpace t) = some (v, s' ++ u :: rest)) :
    readFields? (allowance + 1) read (w ++ (s ++ CodeUnit.colon :: t)) =
      if u = comma then readFields? allowance (setField key v read) (skipSpace rest)
      else some (setField key v read, rest) := by
  obtain ⟨hkey⟩ := hkey
  rw [List.cons_append, List.append_assoc, List.singleton_append, readFields?, if_pos rfl,
    readString?_writesUnits hkey]
  dsimp only
  rw [skipSpace_append hs, skipSpace_cons (by decide)]
  dsimp only
  rw [if_pos rfl, hread]
  dsimp only
  rw [skipSpace_append hs']
  rcases hu with rfl | rfl <;> rfl

lemma skipSpace_writesString {key : Text} (h : WritesString w key) (rest : Text) :
    skipSpace (w ++ rest) = w ++ rest :=
  skipSpace_writesValue (.string h) rest

/-- The items of an array do not start like its end. -/
lemma WritesItems.exists_skipSpace_eq_cons {items : List Json} (h : WritesItems w items)
    (rest : Text) : ∃ u t, skipSpace (w ++ rest) = u :: t ∧ u ≠ CodeUnit.closeBracket := by
  have helement : ∀ {t v} (rest : Text), WritesElement t v →
      ∃ u t', skipSpace (t ++ rest) = u :: t' ∧ u ≠ CodeUnit.closeBracket := by
    rintro _ _ rest ⟨hs, h, -⟩
    rw [List.append_assoc, List.append_assoc, skipSpace_append hs, skipSpace_writesValue h]
    obtain ⟨u, t, rfl, -, hu⟩ := h.exists_eq_cons
    exact ⟨u, _, rfl, hu⟩
  cases h with
  | last h => exact helement rest h
  | cons h =>
    rw [List.append_assoc]
    exact helement _ h

/-- The fields of an object start with a quote. -/
lemma WritesFields.exists_skipSpace_eq_cons (h : WritesFields w fields) (rest : Text) :
    ∃ t, skipSpace (w ++ rest) = quote :: t := by
  have hfield : ∀ {t field} (rest : Text), WritesField t field →
      ∃ t', skipSpace (t ++ rest) = quote :: t' := by
    rintro _ _ rest ⟨hs, hkey, -, -⟩
    rw [List.append_assoc, List.append_assoc, skipSpace_append hs, skipSpace_writesString hkey]
    cases hkey
    exact ⟨_, rfl⟩
  cases h with
  | last h => exact hfield rest h
  | cons h =>
    rw [List.append_assoc]
    exact hfield _ h

/-- The marks that may stand after a value. -/
lemma endsNumber_mark (hu : u = comma ∨ u = CodeUnit.closeBracket ∨ u = closeBrace) (rest : Text) :
    EndsNumber (u :: rest) := by
  rw [endsNumber_cons]
  rcases hu with rfl | rfl | rfl <;> decide

mutual

/-- A value is read up to its end. -/
theorem readValue?_append {w : Text} {v : Json} (h : WritesValue w v) {rest : Text}
    {allowance : Nat} (hrest : EndsNumber rest) (hle : w.length ≤ allowance) :
    readValue? allowance (w ++ rest) = some (v, rest) := by
  obtain ⟨u, t, hw, -⟩ := h.exists_eq_cons
  obtain ⟨allowance, rfl⟩ : ∃ n, allowance = n + 1 :=
    Nat.exists_eq_add_one_of_ne_zero (by rintro rfl; simp [hw] at hle)
  match h with
  | .null => rfl
  | .bool b => cases b <;> rfl
  | .number h => exact readValue?_number h hrest
  | .string h => exact readValue?_string h
  | .emptyArray hs => exact readValue?_emptyArray hs rest
  | .emptyObject hs => exact readValue?_emptyObject hs rest
  | .array h =>
    simp only [List.length_cons, List.length_append, List.length_nil] at hle
    obtain ⟨u, t, hskip, hu⟩ := h.exists_skipSpace_eq_cons (CodeUnit.closeBracket :: rest)
    rw [List.cons_append, List.append_assoc]
    refine readValue?_openBracket hskip hu ?_
    rw [← hskip]
    exact readItems?_append h (by omega)
  | .object h =>
    simp only [List.length_cons, List.length_append, List.length_nil] at hle
    obtain ⟨t, hskip⟩ := h.exists_skipSpace_eq_cons (closeBrace :: rest)
    rw [List.cons_append, List.append_assoc, ← foldl_setField]
    refine readValue?_openBrace hskip ?_
    rw [← hskip]
    exact readFields?_append h (by omega)

/-- A value with white space around it is read up to the white space after it. -/
theorem readValue?_skipSpace {w : Text} {v : Json} (h : WritesElement w v) {rest : Text}
    {allowance : Nat} (hrest : EndsNumber rest) (hle : w.length ≤ allowance) :
    ∃ s, IsSpace s ∧ readValue? allowance (skipSpace (w ++ rest)) = some (v, s ++ rest) := by
  match h with
  | .mk hs h hs' =>
    simp only [List.length_append] at hle
    refine ⟨_, hs', ?_⟩
    rw [List.append_assoc, List.append_assoc, skipSpace_append hs, skipSpace_writesValue h]
    exact readValue?_append h (endsNumber_append hs' hrest) (by omega)

/-- The items of an array are read up to its end. -/
theorem readItems?_append {w : Text} {items : List Json} (h : WritesItems w items)
    {read : List Json} {rest : Text} {allowance : Nat} (hlt : w.length < allowance) :
    readItems? allowance read (skipSpace (w ++ CodeUnit.closeBracket :: rest)) =
      some (read.reverse ++ items, rest) := by
  obtain ⟨allowance, rfl⟩ := Nat.exists_eq_add_one_of_ne_zero (Nat.ne_zero_of_lt hlt)
  match h with
  | .last h =>
    obtain ⟨s, hs, hread⟩ := readValue?_skipSpace h
      (endsNumber_mark (Or.inr (Or.inl rfl)) rest) (Nat.le_of_lt_succ hlt)
    exact readItems?_closeBracket hs hread
  | .cons h hitems =>
    simp only [List.length_append, List.length_cons] at hlt
    obtain ⟨s, hs, hread⟩ := readValue?_skipSpace h
      (endsNumber_mark (Or.inl rfl) (_ ++ CodeUnit.closeBracket :: rest)) (by omega : _ ≤ allowance)
    rw [List.append_assoc, List.cons_append, readItems?_comma hs hread,
      readItems?_append hitems (by omega), List.reverse_cons, List.append_assoc,
      List.singleton_append]

/-- The fields of an object are read up to its end. -/
theorem readFields?_append {w : Text} {fields : List (Text × Json)} (h : WritesFields w fields)
    {read : List (Text × Json)} {rest : Text} {allowance : Nat} (hlt : w.length < allowance) :
    readFields? allowance read (skipSpace (w ++ closeBrace :: rest)) =
      some (fields.foldl (fun read field => setField field.1 field.2 read) read, rest) := by
  obtain ⟨allowance, rfl⟩ := Nat.exists_eq_add_one_of_ne_zero (Nat.ne_zero_of_lt hlt)
  match h with
  | .last (.mk hs hkey hs₁ h) =>
    simp only [List.length_append, List.length_cons] at hlt
    obtain ⟨s, hs₂, hread⟩ := readValue?_skipSpace h
      (endsNumber_mark (Or.inr (Or.inr rfl)) rest) (by omega : _ ≤ allowance)
    simp only [List.append_assoc, List.cons_append]
    rw [skipSpace_append hs, skipSpace_writesString hkey,
      readFields?_field hkey hs₁ hs₂ (Or.inr rfl) hread]
    rfl
  | .cons (.mk hs hkey hs₁ h) hfields =>
    simp only [List.length_append, List.length_cons] at hlt
    obtain ⟨s, hs₂, hread⟩ := readValue?_skipSpace h
      (endsNumber_mark (Or.inl rfl) (_ ++ closeBrace :: rest)) (by omega : _ ≤ allowance)
    simp only [List.append_assoc, List.cons_append]
    rw [skipSpace_append hs, skipSpace_writesString hkey,
      readFields?_field hkey hs₁ hs₂ (Or.inl rfl) hread, if_pos rfl,
      readFields?_append hfields (by omega)]
    rfl

end

/-! ### What is read is written -/

lemma WritesElement.append (hs : IsSpace s) (h : WritesElement w v) : WritesElement (s ++ w) v := by
  obtain ⟨hs₁, h, hs₂⟩ := h
  rw [← List.append_assoc]
  exact .mk (hs.append hs₁) h hs₂

lemma WritesItems.append {items : List Json} (hs : IsSpace s) (h : WritesItems w items) :
    WritesItems (s ++ w) items := by
  cases h with
  | last h => exact .last (h.append hs)
  | cons h hitems =>
    rw [← List.append_assoc]
    exact .cons (h.append hs) hitems

lemma WritesField.append {field : Text × Json} (hs : IsSpace s) (h : WritesField w field) :
    WritesField (s ++ w) field := by
  obtain ⟨hs₁, hkey, hs₂, h⟩ := h
  rw [← List.append_assoc]
  exact .mk (hs.append hs₁) hkey hs₂ h

lemma WritesFields.append (hs : IsSpace s) (h : WritesFields w fields) :
    WritesFields (s ++ w) fields := by
  cases h with
  | last h => exact .last (h.append hs)
  | cons h hfields =>
    rw [← List.append_assoc]
    exact .cons (h.append hs) hfields

lemma eq_append_of_afterWord? (h : afterWord? w t = some rest) : t = w ++ rest := by
  obtain ⟨hw, hrest⟩ := (Option.ite_none_right_eq_some ..).mp h
  obtain ⟨rest', rfl⟩ := List.isPrefixOf_iff_prefix.mp hw
  rw [← Option.some.inj hrest, List.drop_left]

/-- What the readers have read with an allowance is written in the text, before what they leave. -/
structure ReadsWritten (allowance : Nat) : Prop where
  value : ∀ {t rest v}, readValue? allowance t = some (v, rest) →
    ∃ w, WritesValue w v ∧ t = w ++ rest
  items : ∀ {read items t rest}, readItems? allowance read t = some (items, rest) →
    ∃ w items', WritesItems w items' ∧ items = read.reverse ++ items' ∧
      t = w ++ CodeUnit.closeBracket :: rest
  fields : ∀ {read fields t rest}, readFields? allowance read t = some (fields, rest) →
    ∃ w fields', WritesFields w fields' ∧ t = w ++ closeBrace :: rest ∧
      fields = fields'.foldl (fun read field => setField field.1 field.2 read) read

namespace ReadsWritten

lemma succ_array (ih : ReadsWritten allowance)
    (h : readValue? (allowance + 1) (CodeUnit.openBracket :: t) = some (v, rest)) :
    ∃ w, WritesValue w v ∧ CodeUnit.openBracket :: t = w ++ rest := by
  obtain ⟨s, hs, ht⟩ := exists_skipSpace t
  rw [readValue?, if_neg (by decide), if_neg (by decide), if_pos rfl] at h
  cases hskip : skipSpace t with
  | nil =>
    rw [hskip] at h
    cases h
  | cons u t' =>
    rw [hskip] at h ht
    dsimp only at h
    split_ifs at h with hclose
    · cases h
      exact ⟨_, .emptyArray hs, by rw [ht, hclose]; simp⟩
    · obtain ⟨⟨items, rest⟩, hread, hresult⟩ := Option.map_eq_some_iff.mp h
      cases hresult
      obtain ⟨w, items, hitems, rfl, ht'⟩ := ih.items hread
      exact ⟨_, .array (hitems.append hs), by rw [ht, ht']; simp⟩

lemma succ_object (ih : ReadsWritten allowance)
    (h : readValue? (allowance + 1) (openBrace :: t) = some (v, rest)) :
    ∃ w, WritesValue w v ∧ openBrace :: t = w ++ rest := by
  obtain ⟨s, hs, ht⟩ := exists_skipSpace t
  rw [readValue?, if_neg (by decide), if_pos rfl] at h
  cases hskip : skipSpace t with
  | nil =>
    rw [hskip] at h
    cases h
  | cons u t' =>
    rw [hskip] at h ht
    dsimp only at h
    split_ifs at h with hclose
    · cases h
      exact ⟨_, .emptyObject hs, by rw [ht, hclose]; simp⟩
    · obtain ⟨⟨fields, rest⟩, hread, hresult⟩ := Option.map_eq_some_iff.mp h
      cases hresult
      obtain ⟨w, fields, hfields, ht', rfl⟩ := ih.fields hread
      rw [foldl_setField]
      exact ⟨_, .object (hfields.append hs), by rw [ht, ht']; simp⟩

lemma succ_value (ih : ReadsWritten allowance)
    (h : readValue? (allowance + 1) t = some (v, rest)) : ∃ w, WritesValue w v ∧ t = w ++ rest := by
  cases t with
  | nil => cases h
  | cons u t =>
    by_cases hbracket : u = CodeUnit.openBracket
    · subst hbracket
      exact ih.succ_array h
    by_cases hbrace : u = openBrace
    · subst hbrace
      exact ih.succ_object h
    rw [readValue?, if_neg hbracket, if_neg hbrace] at h
    split_ifs at h with hquote htrue hfalse hnull <;>
      obtain ⟨result, hread, hresult⟩ := Option.map_eq_some_iff.mp h <;> cases hresult
    · obtain ⟨w, t', hunits, hresult, rfl⟩ := exists_of_readString? hread
      obtain rfl : result.1 = t' := hresult
      exact ⟨_, .string (.quoted hunits), by simp [hquote]⟩
    · exact ⟨_, .bool true, by rw [htrue, eq_append_of_afterWord? hread]; rfl⟩
    · exact ⟨_, .bool false, by rw [hfalse, eq_append_of_afterWord? hread]; rfl⟩
    · exact ⟨_, .null, by rw [hnull, eq_append_of_afterWord? hread]; rfl⟩
    · obtain ⟨w, hw, ht⟩ := exists_of_readNumber? hread
      exact ⟨w, .number hw, ht⟩

lemma succ_items (ih : ReadsWritten allowance) {read items : List Json}
    (h : readItems? (allowance + 1) read t = some (items, rest)) :
    ∃ w items', WritesItems w items' ∧ items = read.reverse ++ items' ∧
      t = w ++ CodeUnit.closeBracket :: rest := by
  rw [readItems?] at h
  cases hvalue : readValue? allowance t with
  | none =>
    rw [hvalue] at h
    cases h
  | some result =>
    obtain ⟨v, t'⟩ := result
    rw [hvalue] at h
    dsimp only at h
    obtain ⟨w, hw, rfl⟩ := ih.value hvalue
    obtain ⟨s, hs, ht'⟩ := exists_skipSpace t'
    have helement : WritesElement (w ++ s) v := .mk isSpace_nil hw hs
    cases hskip : skipSpace t' with
    | nil =>
      rw [hskip] at h
      cases h
    | cons u t'' =>
      rw [hskip] at h ht'
      dsimp only at h
      split_ifs at h with hcomma hclose
      · obtain ⟨s', hs', ht''⟩ := exists_skipSpace t''
        obtain ⟨ws, items, hitems, rfl, hskip'⟩ := ih.items h
        refine ⟨_, v :: items, .cons helement (hitems.append hs'), by simp, ?_⟩
        rw [ht', ht'', hskip', hcomma]
        simp
      · cases h
        exact ⟨_, [v], .last helement, by simp, by rw [ht', hclose]; simp⟩

/-- One field is read, and the mark after it decides whether others follow. -/
lemma exists_field (ih : ReadsWritten allowance) {read fields : List (Text × Json)}
    (h : readFields? (allowance + 1) read t = some (fields, rest)) :
    ∃ w key v u t', WritesField w (key, v) ∧ t = w ++ u :: t' ∧
      (u = comma ∧
          readFields? allowance (setField key v read) (skipSpace t') = some (fields, rest) ∨
        u = closeBrace ∧ t' = rest ∧ fields = setField key v read) := by
  cases t with
  | nil => cases h
  | cons q t =>
    rw [readFields?] at h
    split at h
    next hquote =>
      split at h
      · cases h
      next key t₁ hkey =>
        split at h
        · cases h
        next u t₂ hcolon =>
          split at h
          next hu =>
            split at h
            · cases h
            next v t₃ hvalue =>
              split at h
              · cases h
              next u' t₄ hmark =>
                subst hquote hu
                obtain ⟨w, key, hunits, rfl, rfl⟩ := exists_of_readString? hkey
                obtain ⟨s₁, hs₁, rfl⟩ := exists_eq_append_cons hcolon
                obtain ⟨s₂, hs₂, ht₂⟩ := exists_skipSpace t₂
                obtain ⟨w', hw', ht₂'⟩ := ih.value hvalue
                obtain ⟨s₃, hs₃, rfl⟩ := exists_eq_append_cons hmark
                refine ⟨_, key, v, u', t₄,
                  .mk isSpace_nil (.quoted hunits) hs₁ (.mk hs₂ hw' hs₃), ?_, ?_⟩
                · rw [ht₂, ht₂']
                  simp
                · split_ifs at h with hcomma hclose
                  · exact Or.inl ⟨hcomma, h⟩
                  · cases h
                    exact Or.inr ⟨hclose, rfl, rfl⟩
          next => cases h
    next => cases h

lemma succ_fields (ih : ReadsWritten allowance) {read fields : List (Text × Json)}
    (h : readFields? (allowance + 1) read t = some (fields, rest)) :
    ∃ w fields', WritesFields w fields' ∧ t = w ++ closeBrace :: rest ∧
      fields = fields'.foldl (fun read field => setField field.1 field.2 read) read := by
  obtain ⟨w, key, v, u, t', hw, rfl, ⟨rfl, hread⟩ | ⟨rfl, rfl, rfl⟩⟩ := ih.exists_field h
  · obtain ⟨s, hs, ht'⟩ := exists_skipSpace t'
    obtain ⟨ws, fields, hfields, hskip, rfl⟩ := ih.fields hread
    refine ⟨_, (key, v) :: fields, .cons hw (hfields.append hs), ?_, rfl⟩
    rw [ht', hskip]
    simp
  · exact ⟨w, [(key, v)], .last hw, rfl, rfl⟩

end ReadsWritten

lemma readsWritten (allowance : Nat) : ReadsWritten allowance := by
  induction allowance with
  | zero =>
    refine ⟨fun h => ?_, fun h => ?_, fun h => ?_⟩ <;> cases h
  | succ allowance ih => exact ⟨ih.succ_value, ih.succ_items, ih.succ_fields⟩

/-! ### Documents -/

/-- A document is read as the value that it writes, and nothing else is read. -/
theorem ofText?_eq_some_iff : ofText? t = some v ↔ IsDocument t v := by
  constructor
  · intro h
    rw [ofText?] at h
    cases hread : readValue? (2 * t.length + 1) (skipSpace t) with
    | none =>
      rw [hread] at h
      cases h
    | some result =>
      obtain ⟨v', rest⟩ := result
      rw [hread] at h
      obtain ⟨hempty, h⟩ := (Option.ite_none_right_eq_some ..).mp h
      obtain rfl : v' = v := Option.some.inj h
      obtain ⟨s, hs, ht⟩ := exists_skipSpace t
      obtain ⟨s', hs', hrest⟩ := exists_skipSpace rest
      obtain ⟨w, hw, hskip⟩ := (readsWritten _).value hread
      rw [List.isEmpty_iff.mp hempty, List.append_nil] at hrest
      rw [ht, hskip, hrest]
      exact .mk hs hw hs'
  · intro h
    have hlength : t.length ≤ 2 * t.length + 1 := by omega
    obtain ⟨s, hs, hread⟩ := readValue?_skipSpace h endsNumber_nil hlength
    rw [List.append_nil, List.append_nil] at hread
    rw [ofText?, hread]
    dsimp only
    rw [skipSpace_of_isSpace hs]
    rfl

end Sprig.Json
