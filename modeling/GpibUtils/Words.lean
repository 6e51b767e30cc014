import Mathlib.Data.List.DropRight

/-!
# Words of a sequence

The words of a sequence are its maximal runs of elements that are no separators, in order. A
separator splits the words before it from the words after it; everything else about words
follows from that.
-/

namespace Words

variable {α : Type} {sep : α → Bool}

/-- The maximal runs of elements that are no separators. -/
def words (sep : α → Bool) (s : List α) : List (List α) :=
  (s.splitOnP sep).filter fun word => !word.isEmpty

/-- Nothing has no words. -/
@[simp] theorem words_nil : words sep [] = [] := by
  simp [words, List.splitOnP_nil]

/-- A separator splits words. -/
theorem words_append_cons {c : α} (before after : List α) (separates : sep c = true) :
    words sep (before ++ c :: after) = words sep before ++ words sep after := by
  rw [words, List.splitOnP_append_cons before after separates, List.filter_append]
  rfl

/-- A separator in front belongs to no word. -/
theorem words_cons {c : α} (s : List α) (separates : sep c = true) :
    words sep (c :: s) = words sep s := by
  simpa using words_append_cons [] s separates

/-- Separators in front belong to no word. -/
@[simp] theorem words_dropWhile (s : List α) : words sep (s.dropWhile sep) = words sep s := by
  induction s with
  | nil => rfl
  | cons c s ih =>
    by_cases separates : sep c = true
    · rw [List.dropWhile_cons_of_pos separates, words_cons s separates, ih]
    · rw [List.dropWhile_cons_of_neg separates]

/-- Separators alone make no words. -/
theorem words_eq_nil {s : List α} (separate : ∀ c ∈ s, sep c = true) : words sep s = [] := by
  have dropped : s.dropWhile sep = [] := by simpa using separate
  rw [← words_dropWhile, dropped, words_nil]

/-- Separators at the end belong to no word. -/
theorem words_append (s : List α) {after : List α} (separate : ∀ c ∈ after, sep c = true) :
    words sep (s ++ after) = words sep s := by
  cases after with
  | nil => rw [List.append_nil]
  | cons c after =>
    have blank := words_eq_nil fun d member => separate d (List.mem_cons_of_mem c member)
    rw [words_append_cons s after (separate c List.mem_cons_self), blank, List.append_nil]

/-- Dropping separators at the end leaves the words. -/
@[simp] theorem words_rdropWhile (s : List α) :
    words sep (s.rdropWhile sep) = words sep s := by
  have separate : ∀ c ∈ s.rtakeWhile sep, sep c = true :=
    fun c member => List.mem_rtakeWhile_imp member
  rw [← words_append (s.rdropWhile sep) separate, List.rdropWhile_append_rtakeWhile]

/-- A run of elements that are no separators is a word. -/
theorem words_single {word : List α} (nonempty : word ≠ []) (plain : ∀ c ∈ word, sep c = false) :
    words sep word = [word] := by
  rw [words, List.splitOnP_eq_singleton plain]
  simp [nonempty]

/-- Words with a separator between them are the words. -/
theorem words_intercalate {c : α} (separates : sep c = true) {fields : List (List α)}
    (plain : ∀ field ∈ fields, field ≠ [] ∧ ∀ c ∈ field, sep c = false) :
    words sep (List.intercalate [c] fields) = fields := by
  induction fields with
  | nil => exact words_nil
  | cons field fields ih =>
    have first := plain field List.mem_cons_self
    have later := ih fun other member => plain other (List.mem_cons_of_mem field member)
    have single := words_single first.1 first.2
    cases fields with
    | nil => rwa [List.intercalate_singleton]
    | cons next fields =>
      rw [List.intercalate_cons_cons, List.append_assoc, List.singleton_append,
        words_append_cons _ _ separates, single, later, List.singleton_append]

/-- What does not begin with a separator begins with its first word. -/
theorem words_of_head {s : List α} (nonempty : s ≠ [])
    (first : ∀ c ∈ s.head?, sep c = false) :
    words sep s =
      s.takeWhile (fun c => !sep c) :: words sep (s.dropWhile fun c => !sep c) := by
  have plain : ∀ c ∈ s.takeWhile (fun c => !sep c), sep c = false := by
    intro c member
    simpa using List.mem_takeWhile_imp member
  have word : s.takeWhile (fun c => !sep c) ≠ [] := by
    cases s with
    | nil => exact absurd rfl nonempty
    | cons c s => simp [first c rfl]
  have single := words_single word plain
  have whole := List.takeWhile_append_dropWhile (p := fun c => !sep c) (l := s)
  cases rest : s.dropWhile (fun c => !sep c) with
  | nil =>
    rw [rest, List.append_nil] at whole
    rw [words_nil, ← single, whole]
  | cons c after =>
    have separates : sep c = true := by
      have stops := List.head?_dropWhile_not (fun c => !sep c) s
      simpa [rest] using stops
    rw [words_cons after separates, ← List.singleton_append, ← single,
      ← words_append_cons _ after separates, ← rest, whole]

/-- What is left when separators are skipped begins with none. -/
theorem head_skipped (s : List α) : ∀ c ∈ (s.dropWhile sep).head?, sep c = false := by
  intro c member
  have stops := List.head?_dropWhile_not sep s
  rw [Option.mem_def.mp member] at stops
  simpa using stops

/-- The words of more than separators: the first one, and those after it. -/
theorem words_skipped {s : List α} (more : s.dropWhile sep ≠ []) :
    words sep s = (s.dropWhile sep).takeWhile (fun c => !sep c) ::
      words sep ((s.dropWhile sep).dropWhile fun c => !sep c) := by
  rw [← words_of_head more (head_skipped s), words_dropWhile]

/-- The first word has elements. -/
theorem first_nonempty {s : List α} (more : s.dropWhile sep ≠ []) :
    (s.dropWhile sep).takeWhile (fun c => !sep c) ≠ [] := by
  cases first : s.dropWhile sep with
  | nil => exact absurd first more
  | cons c later =>
    have plain := head_skipped s c (by rw [first]; rfl)
    simp [plain]

/-- Less is left after the first word. -/
theorem length_after_first {s : List α} (more : s.dropWhile sep ≠ []) :
    ((s.dropWhile sep).dropWhile fun c => !sep c).length < s.length := by
  have word := List.length_pos_iff.mpr (first_nonempty more)
  have whole := congrArg List.length
    (List.takeWhile_append_dropWhile (p := fun c => !sep c) (l := s.dropWhile sep))
  have skipped := (List.dropWhile_sublist (l := s) sep).length_le
  rw [List.length_append] at whole
  omega

end Words
