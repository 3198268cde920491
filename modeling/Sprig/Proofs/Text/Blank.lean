import Mathlib.Data.List.DropRight
import Sprig.Proofs.Text.Class

/-!
# Collapsing and trimming

What collapsing and trimming leave as it is: units that are no blanks, and single spaces between
them. So a text that starts and ends with such a piece is changed only after it.
-/

namespace Sprig.Text

variable {w rest t before after : Text} {u : CodeUnit}

/-- A text that has units, but no blank. -/
def IsSolid (w : Text) : Prop := w ≠ [] ∧ ∀ u ∈ w, u.isBlank = false

/-! ### Collapsing -/

lemma collapse_append (hw : ∀ u ∈ w, u.isBlank = false) (rest : Text) :
    collapse (w ++ rest) = w ++ collapse rest := by
  induction w with
  | nil => rfl
  | cons u w ih =>
    have hu : u.isBlank = false := hw u (by simp)
    rw [List.cons_append, collapse_cons, ih fun v hv => hw v (by simp [hv])]
    simp [consCollapsed, hu]

/-- A single space before a solid piece stays. -/
lemma collapse_space_append (hw : w.IsSolid) (rest : Text) :
    collapse (CodeUnit.space :: (w ++ rest)) = CodeUnit.space :: (w ++ collapse rest) := by
  obtain ⟨hne, hall⟩ := hw
  rw [collapse_cons, collapse_append hall]
  cases w with
  | nil => exact absurd rfl hne
  | cons u w =>
    have hu : u ≠ CodeUnit.space := by
      rintro rfl
      exact absurd (hall CodeUnit.space (by simp)) (by decide)
    simp [consCollapsed, hu]

/-- Blanks before a solid piece become one space. -/
lemma exists_collapse_append {gap : Text} (hgap : gap.isBlank) (hw : w.IsSolid) (rest : Text) :
    ∃ lead : Text, (lead = [] ∨ lead = [CodeUnit.space]) ∧
      collapse (gap ++ (w ++ rest)) = lead ++ (w ++ collapse rest) := by
  induction gap with
  | nil => exact ⟨[], Or.inl rfl, collapse_append hw.2 rest⟩
  | cons u gap ih =>
    obtain ⟨hu, hgap⟩ : u.isBlank ∧ isBlank gap := by simpa [isBlank] using hgap
    obtain ⟨lead, hlead, hcollapse⟩ := ih hgap
    refine ⟨[CodeUnit.space], Or.inr rfl, ?_⟩
    rw [List.cons_append, collapse_cons, hcollapse]
    rcases hlead with rfl | rfl
    · have hspace := collapse_space_append hw rest
      rw [collapse_cons, collapse_append hw.2, consCollapsed, if_pos (by decide)] at hspace
      rwa [consCollapsed, if_pos hu]
    · simp [consCollapsed, hu]

lemma isBlank_collapse (h : t.isBlank) : t.collapse.isBlank := by
  induction t with
  | nil => rfl
  | cons u t ih =>
    obtain ⟨hu, ht⟩ : u.isBlank ∧ isBlank t := by simpa [isBlank] using h
    rw [collapse_cons, consCollapsed, if_pos hu]
    have hspace : CodeUnit.isBlank CodeUnit.space := by decide
    split_ifs
    · exact ih ht
    · exact Bool.and_eq_true_iff.mpr ⟨hspace, ih ht⟩

/-- Only a space can become the first unit. -/
lemma head_collapse {p : CodeUnit → Bool} (hspace : p CodeUnit.space = false)
    (h : t.head?.any p = false) : t.collapse.head?.any p = false := by
  cases t with
  | nil => rfl
  | cons u t =>
    rw [collapse_cons, consCollapsed]
    split_ifs with hblank hhead
    · simp [hhead, hspace]
    · simp [hspace]
    · simpa using h

/-- A unit that is no blank parts what is collapsed before it from what is after it. -/
lemma collapse_append_cons (hu : u.isBlank = false) (w rest : Text) :
    collapse (w ++ u :: rest) = collapse w ++ u :: collapse rest := by
  have hne : u ≠ CodeUnit.space := by
    rintro rfl
    exact absurd hu (by decide)
  induction w with
  | nil => simp [consCollapsed, hu]
  | cons v w ih =>
    have hhead : (collapse w ++ u :: collapse rest).head? = some CodeUnit.space ↔
        (collapse w).head? = some CodeUnit.space := by
      cases collapse w <;> simp [hne]
    rw [List.cons_append, collapse_cons, collapse_cons, ih, consCollapsed, consCollapsed]
    simp only [hhead]
    split_ifs <;> rfl

lemma mem_collapse (hu : u ∈ t) (hblank : u.isBlank = false) : u ∈ t.collapse := by
  obtain ⟨w, rest, rfl⟩ := List.append_of_mem hu
  rw [collapse_append_cons hblank]
  simp

/-- A unit that is no space has not come out of a run of blanks. -/
lemma exists_append_of_collapse (h : t.collapse = before ++ u :: after) (hu : u ≠ CodeUnit.space) :
    ∃ w rest : Text, t = w ++ u :: rest ∧ u.isBlank = false ∧ rest.collapse = after := by
  induction t generalizing before with
  | nil => simp at h
  | cons v t ih =>
    have hcons (before : Text) (h : collapse t = before ++ u :: after) :
        ∃ w rest : Text, v :: t = w ++ u :: rest ∧ u.isBlank = false ∧ rest.collapse = after := by
      obtain ⟨w, rest, rfl, hblank, hrest⟩ := ih h
      exact ⟨v :: w, rest, rfl, hblank, hrest⟩
    rw [collapse_cons, consCollapsed] at h
    split_ifs at h with hv hhead
    · exact hcons before h
    · cases before with
      | nil => exact absurd (List.cons.inj h).1.symm hu
      | cons _ before => exact hcons before (List.cons.inj h).2
    · cases before with
      | nil =>
        obtain ⟨rfl, hrest⟩ := List.cons.inj h
        exact ⟨[], t, rfl, by simpa using hv, hrest⟩
      | cons _ before => exact hcons before (List.cons.inj h).2

/-! ### Trimming -/

lemma trimStart_append (hw : w.IsSolid) (rest : Text) : trimStart (w ++ rest) = w ++ rest := by
  obtain ⟨hne, hall⟩ := hw
  cases w with
  | nil => exact absurd rfl hne
  | cons u w => simp [trimStart, hall u (by simp)]

lemma trimStart_space (t : Text) : trimStart (CodeUnit.space :: t) = trimStart t := by
  simp [trimStart, show CodeUnit.isBlank CodeUnit.space by decide]

lemma trimEnd_append (t : Text) (h : trimEnd rest ≠ []) :
    trimEnd (t ++ rest) = t ++ trimEnd rest := by
  have hne : (rest.reverse.dropWhile CodeUnit.isBlank).isEmpty = false := by
    simpa [trimEnd] using h
  rw [trimEnd, List.reverse_append, List.dropWhile_append, hne]
  simp [trimEnd]

lemma trimStart_append_cons (hu : u.isBlank = false) (w rest : Text) :
    trimStart (w ++ u :: rest) = trimStart w ++ u :: rest := by
  induction w with
  | nil => simp [trimStart, hu]
  | cons v w ih =>
    by_cases hv : v.isBlank
    · simpa [trimStart, hv] using ih
    · simp [trimStart, hv]

/-- What follows a unit that is no blank is trimmed apart from it. -/
lemma trimEnd_append_cons (hu : u.isBlank = false) (w rest : Text) :
    trimEnd (w ++ u :: rest) = w ++ u :: trimEnd rest := by
  have hreverse : (w ++ u :: rest).reverse = rest.reverse ++ u :: w.reverse := by simp
  rw [trimEnd, hreverse, List.dropWhile_append]
  split_ifs with hrest
  · have hnil : trimEnd rest = [] := by simpa [trimEnd] using hrest
    simp [hu, hnil]
  · simp [trimEnd]

lemma trimEnd_append_of_isSolid (hw : w.IsSolid) (rest : Text) :
    trimEnd (w ++ rest) = w ++ trimEnd rest := by
  obtain ⟨hne, hall⟩ := hw
  obtain ⟨init, u, rfl⟩ := (List.eq_nil_or_concat' w).resolve_left hne
  simpa using trimEnd_append_cons (hall u (by simp)) init rest

lemma trimEnd_eq_nil_of_isBlank (h : t.isBlank) : t.trimEnd = [] := by
  have hblank : t.reverse.dropWhile CodeUnit.isBlank = [] :=
    List.dropWhile_eq_nil_iff.mpr fun u hu => List.all_eq_true.mp h u (List.mem_reverse.mp hu)
  rw [trimEnd, hblank, List.reverse_nil]

/-- Collapsing and trimming the end turn blanks before a solid piece into at most one space. -/
lemma exists_trimEnd_collapse_append {gap : Text} (hgap : gap.isBlank) (hw : w.IsSolid)
    (rest : Text) : ∃ lead : Text, (lead = [] ∨ lead = [CodeUnit.space]) ∧
      (gap ++ (w ++ rest)).collapse.trimEnd = lead ++ (w ++ rest.collapse.trimEnd) := by
  obtain ⟨lead, hlead, hcollapse⟩ := exists_collapse_append hgap hw rest
  refine ⟨lead, hlead, ?_⟩
  have hend := trimEnd_append_of_isSolid hw rest.collapse
  have hne : trimEnd (w ++ rest.collapse) ≠ [] := by simp [hend, hw.1]
  rw [hcollapse, trimEnd_append lead hne, hend]

/-- Collapsing and trimming take away all blanks before a solid piece. -/
lemma trim_collapse_append {gap : Text} (hgap : gap.isBlank) (hw : w.IsSolid) (rest : Text) :
    (gap ++ (w ++ rest)).collapse.trim = w ++ rest.collapse.trimEnd := by
  obtain ⟨lead, hlead, hcollapse⟩ := exists_collapse_append hgap hw rest
  have hstart : trimStart (lead ++ (w ++ rest.collapse)) = w ++ rest.collapse := by
    rcases hlead with rfl | rfl
    · exact trimStart_append hw _
    · exact (trimStart_space _).trans (trimStart_append hw _)
  rw [trim, hcollapse, hstart, trimEnd_append_of_isSolid hw]

lemma head_trimEnd {p : CodeUnit → Bool} (h : t.head?.any p = false) :
    t.trimEnd.head?.any p = false := by
  obtain ⟨tail, htail⟩ : t.trimEnd <+: t := List.rdropWhile_prefix CodeUnit.isBlank t
  cases hend : t.trimEnd with
  | nil => rfl
  | cons u w =>
    rw [hend] at htail
    rw [← htail] at h
    simpa using h

lemma head?_trim (h : t.trim ≠ []) : t.trim.head? = t.trimStart.head? := by
  obtain ⟨tail, htail⟩ : t.trim <+: t.trimStart := List.rdropWhile_prefix CodeUnit.isBlank _
  obtain ⟨u, w, hw⟩ := List.exists_cons_of_ne_nil h
  rw [← htail, hw]
  rfl

lemma trim_sublist (t : Text) : t.trim.Sublist t := by
  have hend : t.trimStart.trimEnd <+: t.trimStart := List.rdropWhile_prefix CodeUnit.isBlank _
  exact hend.sublist.trans (List.dropWhile_sublist _)

/-- Only blanks are trimmed away. -/
lemma mem_trim (hu : u ∈ t) (hblank : u.isBlank = false) : u ∈ t.trim := by
  obtain ⟨w, rest, rfl⟩ := List.append_of_mem hu
  rw [trim, trimStart_append_cons hblank, trimEnd_append_cons hblank]
  simp

lemma exists_mem_of_trim_ne_nil (h : t.trim ≠ []) : ∃ u ∈ t, u.isBlank = false := by
  by_contra hblank
  push Not at hblank
  have hstart : t.trimStart = [] := by
    apply List.dropWhile_eq_nil_iff.mpr
    intro u hu
    simpa using hblank u hu
  exact h (by simp [trim, hstart, trimEnd])

/-! ### Collapsing and trimming -/

lemma trimStart_collapse (t : Text) : t.collapse.trimStart = t.trimStart.collapse := by
  induction t with
  | nil => rfl
  | cons u t ih =>
    rw [collapse_cons, consCollapsed]
    split_ifs with hu hhead
    · simpa [trimStart, hu] using ih
    · rw [trimStart_space, ih]
      simp [trimStart, hu]
    · simp [trimStart, hu, consCollapsed]

/-- A unit that is no space has not come out of a run of blanks that was left by trimming either. -/
lemma exists_append_of_trimEnd_collapse (h : t.collapse.trimEnd = before ++ u :: after)
    (hu : u ≠ CodeUnit.space) :
    ∃ w rest : Text, t = w ++ u :: rest ∧ u.isBlank = false ∧ w.collapse = before ∧
      rest.collapse.trimEnd = after := by
  obtain ⟨gap, hgap⟩ : t.collapse.trimEnd <+: t.collapse :=
    List.rdropWhile_prefix CodeUnit.isBlank _
  have hcollapse : t.collapse = before ++ u :: (after ++ gap) := by
    rw [← hgap, h, List.append_assoc, List.cons_append]
  obtain ⟨w, rest, rfl, hblank, hrest⟩ := exists_append_of_collapse hcollapse hu
  rw [collapse_append_cons hblank, hrest] at hcollapse
  have hbefore : collapse w = before := List.append_cancel_right hcollapse
  rw [collapse_append_cons hblank, trimEnd_append_cons hblank, hbefore] at h
  exact ⟨w, rest, rfl, hblank, hbefore, (List.cons.inj (List.append_cancel_left h)).2⟩

/-- Nothing but what stands before a unit that is no blank counts for what is left before it. -/
lemma trim_collapse_append_cons (hu : u.isBlank = false) (w rest : Text) :
    (w ++ u :: rest).collapse.trim = w.trimStart.collapse ++ u :: rest.collapse.trimEnd := by
  rw [trim, trimStart_collapse, trimStart_append_cons hu, collapse_append_cons hu,
    trimEnd_append_cons hu]

lemma exists_append_of_trim_collapse (h : t.collapse.trim = before ++ u :: after)
    (hu : u ≠ CodeUnit.space) :
    ∃ w rest : Text, t = w ++ u :: rest ∧ u.isBlank = false ∧ w.trimStart.collapse = before ∧
      rest.collapse.trimEnd = after := by
  obtain ⟨w, rest, hstart, hblank, -, hrest⟩ :
      ∃ w rest : Text, t.trimStart = w ++ u :: rest ∧ u.isBlank = false ∧ w.collapse = before ∧
        rest.collapse.trimEnd = after := by
    rw [trim, trimStart_collapse] at h
    exact exists_append_of_trimEnd_collapse h hu
  obtain ⟨gap, hgap⟩ : ∃ gap : Text, t = gap ++ t.trimStart :=
    ⟨_, List.takeWhile_append_dropWhile.symm⟩
  have ht : t = (gap ++ w) ++ u :: rest := by rw [List.append_assoc, ← hstart, ← hgap]
  rw [ht, trim_collapse_append_cons hblank, hrest] at h
  exact ⟨gap ++ w, rest, ht, hblank, List.append_cancel_right h, hrest⟩

/-- What a class without blanks says of the first unit is not changed. -/
lemma any_head?_trimEnd_collapse {p : CodeUnit → Bool}
    (hp : ∀ v : CodeUnit, p v → v.isBlank = false) (t : Text) :
    t.collapse.trimEnd.head?.any p = t.head?.any p := by
  have hspace : p CodeUnit.space = false := by
    by_contra hspace
    exact absurd (hp _ (by simpa using hspace)) (by decide)
  cases hhead : t.head?.any p with
  | false => exact head_trimEnd (head_collapse hspace hhead)
  | true =>
    cases t with
    | nil => cases hhead
    | cons u t =>
      have hu : u.isBlank = false := hp u (by simpa using hhead)
      have hcollapse := collapse_append_cons hu [] t
      have hend := trimEnd_append_cons hu [] (collapse t)
      simp only [List.nil_append, collapse_nil] at hcollapse hend
      rw [hcollapse, hend]
      simpa using hhead

/-! ### Trimmed texts -/

/-- A text that starts and ends with a unit that is no blank. -/
structure IsTrimmed (t : Text) : Prop where
  ne_nil : t ≠ []
  head : t.head?.any CodeUnit.isBlank = false
  last : t.getLast?.any CodeUnit.isBlank = false

lemma isTrimmed_trim (h : t.trim ≠ []) : t.trim.IsTrimmed where
  ne_nil := h
  head := by
    have hstart : t.trimStart.head?.any CodeUnit.isBlank = false := by
      cases hblank : t.dropWhile CodeUnit.isBlank with
      | nil => simp [trimStart, hblank]
      | cons u w =>
        have hu := List.head?_dropWhile_not CodeUnit.isBlank t
        rw [hblank] at hu
        simpa [trimStart, hblank] using hu
    exact head_trimEnd hstart
  last := by
    have hend := List.head?_dropWhile_not CodeUnit.isBlank t.trimStart.reverse
    rw [trim, trimEnd, List.getLast?_reverse]
    cases hblank : t.trimStart.reverse.dropWhile CodeUnit.isBlank with
    | nil => rfl
    | cons u w =>
      rw [hblank] at hend
      simpa using hend

lemma IsSolid.isTrimmed (h : w.IsSolid) : w.IsTrimmed where
  ne_nil := h.1
  head := by
    obtain ⟨u, w, rfl⟩ := List.exists_cons_of_ne_nil h.1
    simpa using h.2 u (by simp)
  last := by
    rw [List.getLast?_eq_getLast_of_ne_nil h.1]
    simpa using h.2 _ (List.getLast_mem h.1)

lemma IsTrimmed.trimStart_eq (h : t.IsTrimmed) : t.trimStart = t := by
  obtain ⟨u, w, rfl⟩ := List.exists_cons_of_ne_nil h.ne_nil
  have hu : u.isBlank = false := by simpa using h.head
  simp [trimStart, hu]

lemma IsTrimmed.trim_eq (h : t.IsTrimmed) : t.trim = t := by
  rw [trim, h.trimStart_eq, trimEnd]
  have hlast : t.reverse.dropWhile CodeUnit.isBlank = t.reverse := by
    obtain ⟨u, w, hw⟩ := List.exists_cons_of_ne_nil (List.reverse_ne_nil_iff.mpr h.ne_nil)
    have hu : u.isBlank = false := by
      have hend := h.last
      rw [← List.head?_reverse, hw] at hend
      simpa using hend
    simp [hw, hu]
  rw [hlast, List.reverse_reverse]

lemma trim_trim (t : Text) : t.trim.trim = t.trim := by
  by_cases h : t.trim = []
  · rw [h]
    rfl
  · exact (isTrimmed_trim h).trim_eq

lemma IsTrimmed.append {m : Text} (hw : w.IsTrimmed) (ht : t.IsTrimmed) :
    (w ++ m ++ t).IsTrimmed where
  ne_nil := by simp [hw.ne_nil]
  head := by
    obtain ⟨u, w, rfl⟩ := List.exists_cons_of_ne_nil hw.ne_nil
    simpa using hw.head
  last := by
    rw [List.getLast?_append_of_ne_nil _ ht.ne_nil]
    exact ht.last

/-- Blanks around a trimmed text are what is trimmed away. -/
lemma IsTrimmed.trim_padded {before after : Text} (h : t.IsTrimmed) (hbefore : before.isBlank)
    (hafter : after.isBlank) : (before ++ t ++ after).trim = t := by
  have hstart : trimStart (before ++ (t ++ after)) = t ++ after := by
    rw [trimStart, List.dropWhile_append_of_pos (List.all_eq_true.mp hbefore)]
    obtain ⟨u, w, rfl⟩ := List.exists_cons_of_ne_nil h.ne_nil
    have hu : u.isBlank = false := by simpa using h.head
    simp [hu]
  have hblank : ∀ u ∈ after.reverse, u.isBlank := by simpa [isBlank] using hafter
  have hend : trimEnd (t ++ after) = trimEnd t := by
    rw [trimEnd, List.reverse_append, List.dropWhile_append_of_pos hblank, trimEnd]
  have htrim : trimEnd t = t := by
    have htrim := h.trim_eq
    rwa [trim, h.trimStart_eq] at htrim
  rw [trim, List.append_assoc, hstart, hend, htrim]

lemma trim_eq_nil_of_isBlank (h : t.isBlank) : t.trim = [] := by
  have hstart : t.trimStart = [] := List.dropWhile_eq_nil_iff.mpr (List.all_eq_true.mp h)
  simp [trim, hstart, trimEnd]

lemma intercalate_append {ts us : List Text} (hts : ts ≠ []) (hus : us ≠ []) (m : Text) :
    List.intercalate m (ts ++ us) = List.intercalate m ts ++ m ++ List.intercalate m us := by
  induction ts with
  | nil => exact absurd rfl hts
  | cons t ts ih =>
    cases ts with
    | nil =>
      obtain ⟨u, us, rfl⟩ := List.exists_cons_of_ne_nil hus
      rw [List.singleton_append, List.intercalate_cons_cons, List.intercalate_singleton]
    | cons t' ts =>
      have htail := ih (by simp)
      rw [List.cons_append] at htail
      rw [List.cons_append, List.cons_append, List.intercalate_cons_cons, htail,
        List.intercalate_cons_cons]
      simp

lemma isTrimmed_intercalate {ts : List Text} (hne : ts ≠ []) (hts : ∀ t ∈ ts, IsTrimmed t)
    (m : Text) : IsTrimmed (List.intercalate m ts) := by
  induction ts with
  | nil => exact absurd rfl hne
  | cons t ts ih =>
    cases ts with
    | nil => simpa using hts t (by simp)
    | cons t' ts =>
      have htail : IsTrimmed (List.intercalate m (t' :: ts)) :=
        ih (by simp) fun u hu => hts u (by simp [hu])
      rw [List.intercalate_cons_cons]
      exact (hts t (by simp)).append htail

end Sprig.Text
