import Sprig.Proofs.Session.Completeness

/-!
# Collected lines

While an input goes on, a session does nothing but collect its lines, and the end of the input puts
it back to its start. So the lines that a session has taken are parted into those of finished
inputs and commands, which it has forgotten, and those of the input that goes on. An input on
several lines is answered like the one line that they make together.
-/

namespace Sprig.Session

variable {limit : Nat} {s : Session} {run lines : List Text} {line : Text}

/-- The answers to lines, one after the other. -/
def replies (s : Session) : List Text → List Reply
  | [] => []
  | line :: lines => (s.take line).1 :: (s.take line).2.replies lines

/-- Lines without the blanks at their ends, and without those that are blank. -/
def gather (lines : List Text) : List Text := (lines.map Text.trim).filter fun t => !t.isEmpty

/-- The one line that lines make together. -/
def joined (lines : List Text) : Text := List.intercalate [CodeUnit.space] (gather lines)

/-! ### Runs of a session -/

lemma replies_append (s : Session) (lines lines' : List Text) :
    s.replies (lines ++ lines') = s.replies lines ++ (s.after lines).replies lines' := by
  induction lines generalizing s with
  | nil => rfl
  | cons line lines ih => simp [replies, after, ih]

lemma after_append (s : Session) (lines lines' : List Text) :
    s.after (lines ++ lines') = (s.after lines).after lines' := by
  simp [after]

lemma after_singleton (s : Session) (line : Text) : s.after [line] = (s.take line).2 := rfl

lemma replies_singleton (s : Session) (line : Text) : s.replies [line] = [(s.take line).1] := rfl

/-! ### Lines together -/

@[simp] lemma gather_append (lines lines' : List Text) :
    gather (lines ++ lines') = gather lines ++ gather lines' := by
  simp [gather]

lemma gather_cons (h : line.trim ≠ []) (lines : List Text) :
    gather (line :: lines) = line.trim :: gather lines := by
  simp [gather, h]

lemma isTrimmed_of_mem_gather {t : Text} (ht : t ∈ gather lines) : t.IsTrimmed := by
  obtain ⟨hmem, hne⟩ := List.mem_filter.mp ht
  obtain ⟨line, -, rfl⟩ := List.mem_map.mp hmem
  exact Text.isTrimmed_trim (by simpa using hne)

lemma isTrimmed_joined (h : gather lines ≠ []) : (joined lines).IsTrimmed :=
  Text.isTrimmed_intercalate h (fun _ => isTrimmed_of_mem_gather) _

lemma gather_ne_nil_of_openDepth (h : 0 < (joined lines).openDepth) : gather lines ≠ [] := by
  intro hnil
  simp [joined, hnil] at h

/-- The first unit of lines together is that of the first one. -/
lemma head?_joined_cons (h : line.trim ≠ []) (lines : List Text) :
    (joined (line :: lines)).head? = line.trim.head? := by
  rw [joined, gather_cons h]
  cases gather lines with
  | nil => simp
  | cons t ts => rw [List.intercalate_cons_cons, List.append_assoc, List.head?_append_of_ne_nil _ h]

lemma joined_singleton (line : Text) : joined [line] = line.trim := by
  by_cases h : line.trim = []
  · simp [joined, gather, h]
  · simp [joined, gather, h]

/-- What is pending after one more line. -/
lemma collect_eq_append (s : Session) (line : Text) :
    s.collect line.trim = s.pending ++ gather [line] := by
  by_cases h : line.trim = []
  · simp [collect, h, gather]
  · simp [collect, h, gather]

/-! ### A session and its next line -/

/-- A session goes on with an input exactly if it says so. -/
lemma isPending_take_iff (s : Session) (line : Text) :
    (s.take line).2.isPending ↔ (s.take line).1.action = .more := by
  by_cases hcommand : s.isCommand line
  · have hpending : s.isPending = false := by
      simp only [isCommand, Bool.and_eq_true, Bool.not_eq_true'] at hcommand
      exact hcommand.1
    simp [take_of_isCommand hcommand, hpending, action_answerCommand]
  · rw [Bool.not_eq_true] at hcommand
    by_cases hdepth : 0 < (s.input line).openDepth
    · have hne : s.collect line.trim ≠ [] := by
        intro hnil
        simp [input, hnil] at hdepth
      simp [take_of_pos hcommand hdepth, isPending, hne]
    · simp [take_of_le hcommand (not_lt.mp hdepth), isPending, action_answer]

lemma eq_start_of_isPending (hlimit : s.limit = limit) (h : s.isPending = false) :
    s = start limit := by
  obtain ⟨_, pending⟩ := s
  obtain rfl : pending = [] := by simpa [isPending] using h
  rw [start, ← hlimit]

/-- A session trims its lines itself. -/
lemma take_trim (s : Session) (line : Text) : s.take line.trim = s.take line := by
  simp only [take, Text.trim_trim]

/-- A session that has done nothing but collect lines. -/
def collecting (limit : Nat) (lines : List Text) : Session := ⟨limit, gather lines⟩

lemma input_collecting (limit : Nat) (run : List Text) (line : Text) :
    (collecting limit run).input line = joined (run ++ [line]) := by
  rw [input, collect_eq_append, joined, gather_append]
  rfl

/-- The first of some lines is no command. -/
def StartsInput (lines : List Text) : Prop :=
  ∀ line ∈ lines.head?, line.trim.head? ≠ some CodeUnit.colon

lemma StartsInput.of_prefix {taken : List Text} (h : StartsInput lines) (htaken : taken <+: lines) :
    StartsInput taken := by
  obtain ⟨rest, rfl⟩ := htaken
  cases taken with
  | nil => simp [StartsInput]
  | cons first taken => exact h

/-- Lines that a session at its start only collects: they start an input, and after each of them a
parenthesis is open. -/
structure IsCollected (lines : List Text) : Prop where
  startsInput : StartsInput lines
  openDepth_pos : ∀ taken, taken ≠ [] → taken <+: lines → 0 < (joined taken).openDepth

namespace IsCollected

lemma nil : IsCollected [] where
  startsInput := by simp [StartsInput]
  openDepth_pos := fun taken hne htaken => absurd (List.prefix_nil.mp htaken) hne

lemma of_prefix {taken : List Text} (h : IsCollected lines) (htaken : taken <+: lines) :
    IsCollected taken where
  startsInput := h.startsInput.of_prefix htaken
  openDepth_pos := fun taken' hne htaken' => h.openDepth_pos taken' hne (htaken'.trans htaken)

lemma snoc (h : IsCollected run) (hfirst : StartsInput (run ++ [line]))
    (hdepth : 0 < (joined (run ++ [line])).openDepth) : IsCollected (run ++ [line]) where
  startsInput := hfirst
  openDepth_pos := by
    intro taken hne htaken
    rcases List.prefix_concat_iff.mp htaken with rfl | htaken
    · exact hdepth
    · exact h.openDepth_pos taken hne htaken

lemma gather_ne_nil (h : IsCollected run) (hne : run ≠ []) : gather run ≠ [] :=
  gather_ne_nil_of_openDepth (h.openDepth_pos run hne (List.prefix_refl run))

lemma isCommand_eq (h : IsCollected run) (hfirst : StartsInput (run ++ [line])) :
    (collecting limit run).isCommand line = false := by
  cases run with
  | nil => simpa [isCommand, StartsInput] using fun _ => hfirst line (by simp)
  | cons first run =>
    have hne := h.gather_ne_nil (by simp)
    simp [isCommand, isPending, collecting, hne]

/-- An input with an open parenthesis is collected further. -/
lemma take_of_pos (h : IsCollected run) (limit : Nat) (hfirst : StartsInput (run ++ [line]))
    (hdepth : 0 < (joined (run ++ [line])).openDepth) :
    (collecting limit run).take line = (⟨.more, [], []⟩, collecting limit (run ++ [line])) := by
  rw [← input_collecting limit] at hdepth
  rw [Session.take_of_pos (h.isCommand_eq hfirst) hdepth, collect_eq_append]
  simp [collecting]

/-- Any other input is answered, and nothing of it is kept. -/
lemma take_of_le (h : IsCollected run) (limit : Nat) (hfirst : StartsInput (run ++ [line]))
    (hdepth : (joined (run ++ [line])).openDepth ≤ 0) :
    (collecting limit run).take line =
      ((start limit).answer (joined (run ++ [line])), start limit) := by
  rw [← input_collecting limit] at hdepth
  rw [Session.take_of_le (h.isCommand_eq hfirst) hdepth, input_collecting]
  rfl

end IsCollected

/-- Only a line that starts an input or goes on with one is collected. -/
lemma startsInput_of_action (h : IsCollected run)
    (haction : ((collecting limit run).take line).1.action = .more) :
    StartsInput (run ++ [line]) := by
  cases run with
  | nil =>
    intro first hfirst hcolon
    obtain rfl : line = first := by simpa using hfirst
    have hcommand : (collecting limit []).isCommand line := by
      simp [isCommand, collecting, gather, isPending, hcolon]
    rw [take_of_isCommand hcommand] at haction
    exact action_answerCommand _ _ haction
  | cons first run => exact h.startsInput

/-! ### Runs of collected lines -/

theorem run_of_isCollected (h : IsCollected run) (limit : Nat) :
    (start limit).after run = collecting limit run ∧
      (start limit).replies run = List.replicate run.length ⟨.more, [], []⟩ := by
  induction run using List.reverseRecOn with
  | nil => exact ⟨rfl, rfl⟩
  | append_singleton run line ih =>
    have hrun : IsCollected run := h.of_prefix (List.prefix_append run [line])
    obtain ⟨hafter, hreplies⟩ := ih hrun
    have htake := hrun.take_of_pos limit h.startsInput
      (h.openDepth_pos _ (by simp) (List.prefix_refl _))
    constructor
    · rw [after_append, hafter, after_singleton, htake]
    · rw [replies_append, hafter, hreplies, replies_singleton, htake]
      simp [List.replicate_succ']

theorem isCollected_of_replies (h : ∀ r ∈ (start limit).replies run, r.action = .more) :
    IsCollected run := by
  induction run using List.reverseRecOn with
  | nil => exact .nil
  | append_singleton run line ih =>
    rw [replies_append] at h
    have hrun : IsCollected run := ih fun r hr => h r (List.mem_append_left _ hr)
    rw [(run_of_isCollected hrun limit).1, replies_singleton] at h
    have haction : ((collecting limit run).take line).1.action = .more := h _ (by simp)
    have hfirst := startsInput_of_action hrun haction
    refine hrun.snoc hfirst ?_
    by_contra hdepth
    rw [hrun.take_of_le limit hfirst (not_lt.mp hdepth), action_answer] at haction
    cases haction

/-- The lines that a session has taken are some that it has forgotten, and those that it has
collected since then. -/
theorem exists_isCollected (limit : Nat) (lines : List Text) :
    ∃ closed run, lines = closed ++ run ∧ (start limit).after closed = start limit ∧
      IsCollected run := by
  induction lines using List.reverseRecOn with
  | nil => exact ⟨[], [], rfl, rfl, .nil⟩
  | append_singleton lines line ih =>
    obtain ⟨closed, run, rfl, hclosed, hrun⟩ := ih
    have hafter : (start limit).after (closed ++ run) = collecting limit run := by
      rw [after_append, hclosed, (run_of_isCollected hrun limit).1]
    by_cases haction : ((collecting limit run).take line).1.action = .more
    · have hmore : ∀ r ∈ (start limit).replies (run ++ [line]), r.action = .more := by
        intro r hr
        rw [replies_append, (run_of_isCollected hrun limit).1, (run_of_isCollected hrun limit).2,
          replies_singleton, List.mem_append, List.mem_singleton] at hr
        rcases hr with hr | rfl
        · rw [List.eq_of_mem_replicate hr]
        · exact haction
      exact ⟨closed, run ++ [line], by simp, hclosed, isCollected_of_replies hmore⟩
    · refine ⟨closed ++ run ++ [line], [], by simp, ?_, .nil⟩
      rw [after_append, hafter, after_singleton]
      refine eq_start_of_isPending (limit_take _ _) ?_
      rw [← Bool.not_eq_true, isPending_take_iff]
      exact haction

/-- Lines that an input ends with are answered like the one line that they make. -/
lemma reply_joined (hrun : IsCollected run)
    (haction : ((collecting limit run).take line).1.action ≠ .more) :
    ((collecting limit run).take line).1 = ((start limit).take (joined (run ++ [line]))).1 := by
  cases run with
  | nil => rw [List.nil_append, joined_singleton, take_trim]; rfl
  | cons first run =>
    have hfirst : StartsInput (first :: run ++ [line]) := hrun.startsInput
    have hopen : 0 < (joined [first]).openDepth :=
      hrun.openDepth_pos [first] (by simp) (by simp)
    have hdepth : (joined (first :: run ++ [line])).openDepth ≤ 0 := by
      by_contra hdepth
      rw [hrun.take_of_pos limit hfirst (not_le.mp hdepth)] at haction
      exact haction rfl
    have hne : first.trim ≠ [] := by
      intro hnil
      simp [joined_singleton, hnil] at hopen
    have htrim : (joined (first :: run ++ [line])).trim = joined (first :: run ++ [line]) :=
      (isTrimmed_joined (by simp [gather_cons hne])).trim_eq
    have hfirst' : StartsInput [joined (first :: run ++ [line])] := by
      intro t ht
      obtain rfl : joined (first :: run ++ [line]) = t := by simpa using ht
      rw [htrim, List.cons_append, head?_joined_cons hne]
      exact hrun.startsInput first (by simp)
    have htake := IsCollected.nil.take_of_le limit hfirst'
      (by rwa [List.nil_append, joined_singleton, htrim])
    rw [hrun.take_of_le limit hfirst hdepth]
    rw [List.nil_append, joined_singleton, htrim] at htake
    exact (congrArg Prod.fst htake).symm

/-- A session is a sequence of inputs that know nothing of each other. It goes on with an input
exactly if it says so. Then the lines it has taken end in those of the input, which it keeps trimmed
and without blank ones, and after each of these lines a parenthesis was open in what they make
together. A session that does not go on with an input answers all lines like a new one, and the line
that ends an input is answered like the one line that the whole input makes. -/
theorem replies_independent (limit : Nat) (lines : List Text) (s : Session)
    (hs : s = (start limit).after lines) :
    (∀ line, (s.take line).2.isPending ↔ (s.take line).1.action = .more) ∧
    (s.isPending → ∃ closed run, lines = closed ++ run ∧ run ≠ [] ∧
      ((start limit).after closed).isPending = false ∧
      ∀ taken, taken ≠ [] → taken <+: run →
        ((start limit).after (closed ++ taken)).pending = gather taken ∧
        0 < (joined taken).openDepth) ∧
    (s.isPending = false → (∀ further, s.replies further = (start limit).replies further) ∧
      ∀ run line, (∀ r ∈ s.replies run, r.action = .more) →
        ((s.after run).take line).1.action ≠ .more →
        ((s.after run).take line).1 = ((start limit).take (joined (run ++ [line]))).1) := by
  refine ⟨isPending_take_iff s, ?_, ?_⟩
  · intro hpending
    obtain ⟨closed, run, rfl, hclosed, hrun⟩ := exists_isCollected limit lines
    have hidle : ((start limit).after closed).isPending = false := by
      rw [hclosed]
      rfl
    refine ⟨closed, run, rfl, ?_, hidle, ?_⟩
    · rintro rfl
      rw [hs, List.append_nil, hidle] at hpending
      cases hpending
    · intro taken hne htaken
      refine ⟨?_, hrun.openDepth_pos taken hne htaken⟩
      rw [after_append, hclosed, (run_of_isCollected (hrun.of_prefix htaken) limit).1]
      rfl
  · intro hpending
    obtain rfl : s = start limit := eq_start_of_isPending (by rw [hs, limit_after]; rfl) hpending
    refine ⟨fun _ => rfl, ?_⟩
    intro run line hmore haction
    have hrun := isCollected_of_replies hmore
    rw [(run_of_isCollected hrun limit).1] at haction ⊢
    exact reply_joined hrun haction

/-- A product that is typed on two lines after a command, with a blank line between them. -/
theorem replies_independent_mult :
    ((start 2).after [":depth", " (mult 6", " "]).isPending ∧
    (∃ closed run : List Text, ([":depth", " (mult 6", " "] : List Text) = closed ++ run ∧
      run ≠ [] ∧ ((start 2).after closed).isPending = false ∧
      ∀ taken, taken ≠ [] → taken <+: run →
        ((start 2).after (closed ++ taken)).pending = gather taken ∧
        0 < (joined taken).openDepth) ∧
    ((((start 2).after [":depth"]).after [" (mult 6", " "]).take "7)").1 =
      ((start 2).take "(mult 6 7)").1 := by
  have hpending : ((start 2).after [":depth", " (mult 6", " "]).isPending := by decide +kernel
  have hmore : ∀ r ∈ ((start 2).after [":depth"]).replies [" (mult 6", " "], r.action = .more := by
    decide +kernel
  have haction : ((((start 2).after [":depth"]).after [" (mult 6", " "]).take "7)").1.action ≠
      .more := by
    decide +kernel
  have hidle : ((start 2).after [":depth"]).isPending = false := by decide +kernel
  have hjoined : joined ([" (mult 6", " "] ++ ["7)"]) = "(mult 6 7)" := by decide +kernel
  refine ⟨hpending, (replies_independent 2 _ _ rfl).2.1 hpending, ?_⟩
  rw [← hjoined]
  exact ((replies_independent 2 [":depth"] _ rfl).2.2 hidle).2 _ _ hmore haction

end Sprig.Session
