import Mathlib.Data.List.DropRight
import RecordKit.Text.Blank

/-!
# What trimming and dividing a text leave

A text is divided into pieces at a separator, and blanks are trimmed from both ends of
each piece.  `trim_eq_iff` says what trimming leaves without saying how: the text
between blanks that has none at its ends.  Dividing at every separator is `List.splitOn`
(`pieces_eq_splitOn`), and a cut at the first one gives back the two sides that were put
together (`cut_eq_some_iff`).
-/

namespace RecordKit.Text

/-! ## Blanks at the ends -/

/-- A text of blank characters only. -/
def AllBlank (cs : List Char) : Prop :=
  ∀ c ∈ cs, isBlank c = true

/-- A text with no blank at its ends. -/
structure Trimmed (cs : List Char) : Prop where
  first : ∀ c, cs.head? = some c → isBlank c = false
  last : ∀ c, cs.getLast? = some c → isBlank c = false

variable {cs before behind : List Char}

theorem allBlank_nil : AllBlank [] := by
  simp [AllBlank]

theorem AllBlank.append (hbefore : AllBlank before) (hbehind : AllBlank behind) :
    AllBlank (before ++ behind) := by
  intro c hc
  rcases List.mem_append.mp hc with hc | hc
  · exact hbefore c hc
  · exact hbehind c hc

theorem AllBlank.not_mem (h : AllBlank cs) {c : Char} (hc : isBlank c = false) : c ∉ cs := by
  intro hmem
  rw [h c hmem] at hc
  cases hc

theorem trimEnd_eq_rdropWhile (cs : List Char) : trimEnd cs = cs.rdropWhile isBlank :=
  rfl

theorem exists_trimStart (cs : List Char) :
    ∃ before, AllBlank before ∧ cs = before ++ trimStart cs := by
  refine ⟨cs.takeWhile isBlank, ?_, (List.takeWhile_append_dropWhile).symm⟩
  intro c hc
  exact List.mem_takeWhile_imp hc

theorem exists_trimEnd (cs : List Char) :
    ∃ behind, AllBlank behind ∧ cs = trimEnd cs ++ behind := by
  refine ⟨cs.rtakeWhile isBlank, ?_, ?_⟩
  · intro c hc
    exact List.mem_rtakeWhile_imp hc
  · rw [trimEnd_eq_rdropWhile, List.rdropWhile_append_rtakeWhile]

theorem trimStart_subset (cs : List Char) : trimStart cs ⊆ cs :=
  (List.dropWhile_sublist isBlank).subset

theorem trimEnd_subset (cs : List Char) : trimEnd cs ⊆ cs := by
  rw [trimEnd_eq_rdropWhile]
  exact (List.rdropWhile_prefix isBlank cs).subset

theorem trim_subset (cs : List Char) : trim cs ⊆ cs :=
  fun _ hc => trimStart_subset cs (trimEnd_subset (trimStart cs) hc)

theorem trimStart_append (h : AllBlank before) (cs : List Char) :
    trimStart (before ++ cs) = trimStart cs :=
  List.dropWhile_append_of_pos h

theorem trimEnd_append (cs : List Char) (h : AllBlank behind) :
    trimEnd (cs ++ behind) = trimEnd cs := by
  have hreverse : ∀ c ∈ behind.reverse, isBlank c = true := by
    simpa [AllBlank] using h
  unfold trimEnd
  rw [List.reverse_append, List.dropWhile_append_of_pos hreverse]

/-- A character that is not blank keeps what stands between it and the other end. -/
theorem trimStart_append_cons (cs : List Char) {c : Char} (hc : isBlank c = false)
    (rest : List Char) : trimStart (cs ++ c :: rest) = trimStart cs ++ c :: rest := by
  unfold trimStart
  rw [List.dropWhile_append]
  split
  · next hempty =>
      rw [List.isEmpty_iff.mp hempty, List.dropWhile_cons_of_neg (by simp [hc]), List.nil_append]
  · rfl

theorem trimEnd_append_cons (cs : List Char) {c : Char} (hc : isBlank c = false)
    (rest : List Char) : trimEnd (cs ++ c :: rest) = cs ++ c :: trimEnd rest := by
  have hstart := trimStart_append_cons rest.reverse hc cs.reverse
  unfold trimStart at hstart
  unfold trimEnd
  rw [List.reverse_append, List.reverse_cons, List.append_assoc, List.singleton_append, hstart]
  simp

/-- A character that is not blank divides the work of trimming. -/
theorem trim_append_cons (cs : List Char) {c : Char} (hc : isBlank c = false)
    (rest : List Char) : trim (cs ++ c :: rest) = trimStart cs ++ c :: trimEnd rest := by
  unfold trim
  rw [trimStart_append_cons cs hc, trimEnd_append_cons _ hc]

theorem trim_of_allBlank (h : AllBlank cs) : trim cs = [] := by
  have hstart : trimStart cs = [] := List.dropWhile_eq_nil_iff.mpr h
  rw [trim, hstart]
  rfl

theorem exists_not_blank (h : ¬AllBlank cs) :
    ∃ before c behind, cs = before ++ c :: behind ∧ isBlank c = false := by
  unfold AllBlank at h
  push Not at h
  obtain ⟨c, hc, hblank⟩ := h
  obtain ⟨before, behind, rfl⟩ := List.mem_iff_append.mp hc
  exact ⟨before, c, behind, rfl, by simpa using hblank⟩

/-- Blanks around a text do not count. -/
theorem trim_append_append (hbefore : AllBlank before) (cs : List Char)
    (hbehind : AllBlank behind) : trim (before ++ cs ++ behind) = trim cs := by
  by_cases hblank : AllBlank cs
  · rw [trim_of_allBlank hblank, trim_of_allBlank ((hbefore.append hblank).append hbehind)]
  · obtain ⟨left, c, right, rfl, hc⟩ := exists_not_blank hblank
    have hregroup : before ++ (left ++ c :: right) ++ behind =
        (before ++ left) ++ c :: (right ++ behind) := by
      simp
    rw [hregroup, trim_append_cons _ hc, trim_append_cons _ hc, trimStart_append hbefore,
      trimEnd_append _ hbehind]

theorem Trimmed.trim_eq (h : Trimmed cs) : trim cs = cs := by
  have hstart : trimStart cs = cs := by
    cases cs with
    | nil => rfl
    | cons c rest => exact List.dropWhile_cons_of_neg (by simp [h.first c rfl])
  rw [trim, hstart, trimEnd_eq_rdropWhile, List.rdropWhile_eq_self_iff]
  intro hne
  simp [h.last _ (List.getLast?_eq_some_getLast hne)]

theorem not_blank_of_head?_trimStart {c : Char} (h : (trimStart cs).head? = some c) :
    isBlank c = false := by
  have hhead := List.head?_dropWhile_not isBlank cs
  rwa [show (cs.dropWhile isBlank).head? = some c from h] at hhead

theorem not_blank_of_getLast?_trimEnd {c : Char} (h : (trimEnd cs).getLast? = some c) :
    isBlank c = false := by
  unfold trimEnd at h
  rw [List.getLast?_reverse] at h
  exact not_blank_of_head?_trimStart h

theorem trimmed_trim (cs : List Char) : Trimmed (trim cs) where
  first := by
    -- What is trimmed at the end is the beginning of what is trimmed at the start only.
    obtain ⟨behind, -, hend⟩ := exists_trimEnd (trimStart cs)
    intro c hc
    have hfirst : (trimStart cs).head? = some c := by
      rw [hend, List.head?_append]
      simp [show (trimEnd (trimStart cs)).head? = some c from hc]
    exact not_blank_of_head?_trimStart hfirst
  last := fun _ hc => not_blank_of_getLast?_trimEnd hc

/-- Trimming leaves the text between blanks that has no blank at its ends. -/
theorem trim_eq_iff (cs inner : List Char) :
    trim cs = inner ↔
      Trimmed inner ∧ ∃ before behind, AllBlank before ∧ AllBlank behind ∧
        cs = before ++ inner ++ behind := by
  constructor
  · rintro rfl
    obtain ⟨before, hbefore, hstart⟩ := exists_trimStart cs
    obtain ⟨behind, hbehind, hend⟩ := exists_trimEnd (trimStart cs)
    refine ⟨trimmed_trim cs, before, behind, hbefore, hbehind, ?_⟩
    rw [List.append_assoc]
    calc
      cs = before ++ trimStart cs := hstart
      _ = before ++ (trim cs ++ behind) := congrArg (before ++ ·) hend
  · rintro ⟨htrimmed, before, behind, hbefore, hbehind, rfl⟩
    rw [trim_append_append hbefore inner hbehind, htrimmed.trim_eq]

theorem trim_eq_nil_iff (cs : List Char) : trim cs = [] ↔ AllBlank cs := by
  constructor
  · intro h
    obtain ⟨-, before, behind, hbefore, hbehind, rfl⟩ := (trim_eq_iff cs []).mp h
    simpa using hbefore.append hbehind
  · exact trim_of_allBlank

/-! ## Pieces between separators -/

theorem pieces_eq_splitOn (sep : Char) (cs : List Char) : pieces sep cs = cs.splitOn sep := by
  induction cs with
  | nil => rfl
  | cons c rest ih =>
      simp only [List.splitOn] at ih ⊢
      rw [pieces, List.splitOnP_cons_eq_if_modifyHead, ih]
      by_cases hc : c = sep
      · simp [hc]
      · simp only [hc, beq_iff_eq, if_false]
        cases hrest : List.splitOnP (· == sep) rest with
        | nil => exact absurd hrest (List.splitOnP_ne_nil _ rest)
        | cons piece others => rfl

/-- Putting the separators back between the pieces gives the text. -/
theorem intercalate_pieces (sep : Char) (cs : List Char) :
    [sep].intercalate (pieces sep cs) = cs := by
  rw [pieces_eq_splitOn, List.intercalate_splitOn]

theorem pieces_intercalate {sep : Char} {terms : List (List Char)} (hne : terms ≠ [])
    (hsep : ∀ term ∈ terms, sep ∉ term) : pieces sep ([sep].intercalate terms) = terms := by
  rw [pieces_eq_splitOn, List.splitOn_intercalate sep hsep hne]

/-- A separator between two texts divides them, wherever they have separators of their own. -/
theorem pieces_append (sep : Char) (left right : List Char) :
    pieces sep (left ++ sep :: right) = pieces sep left ++ pieces sep right := by
  simp only [pieces_eq_splitOn]
  exact List.splitOnP_append_cons left right (beq_self_eq_true sep)

theorem not_mem_of_mem_pieces {sep : Char} {cs piece : List Char} (h : piece ∈ pieces sep cs) :
    sep ∉ piece := by
  induction cs generalizing piece with
  | nil =>
      obtain rfl : piece = [] := by simpa [pieces] using h
      exact List.not_mem_nil
  | cons c rest ih =>
      rw [pieces] at h
      split at h
      · rcases List.mem_cons.mp h with rfl | h
        · exact List.not_mem_nil
        · exact ih h
      · next hc =>
          cases hrest : pieces sep rest with
          | nil => exact absurd hrest (pieces_ne_nil sep rest)
          | cons first others =>
              rw [hrest] at h
              rcases List.mem_cons.mp h with rfl | h
              · have hfirst : sep ∉ first := ih (by simp [hrest])
                simp [hfirst, Ne.symm hc]
              · exact ih (by simp [hrest, h])

/-! ## The first separator -/

theorem cut_append {sep : Char} {left : List Char} (h : sep ∉ left) (right : List Char) :
    cut sep (left ++ sep :: right) = some (left, right) := by
  induction left with
  | nil => simp [cut]
  | cons c left ih =>
      rw [List.mem_cons, not_or] at h
      simp [cut, Ne.symm h.1, ih h.2]

theorem cut_eq_some_iff (sep : Char) (cs left right : List Char) :
    cut sep cs = some (left, right) ↔ cs = left ++ sep :: right ∧ sep ∉ left := by
  constructor
  · intro h
    induction cs generalizing left with
    | nil => cases h
    | cons c rest ih =>
        unfold cut at h
        split at h
        · next hc =>
            cases h
            exact ⟨by rw [hc, List.nil_append], List.not_mem_nil⟩
        · next hc =>
            obtain ⟨⟨left', right'⟩, hrest, hsides⟩ := Option.map_eq_some_iff.mp h
            cases hsides
            obtain ⟨rfl, hleft⟩ := ih left' hrest
            exact ⟨rfl, by simp [hleft, Ne.symm hc]⟩
  · rintro ⟨rfl, hleft⟩
    exact cut_append hleft right

end RecordKit.Text
