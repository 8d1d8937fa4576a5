import Mathlib.Data.List.Basic
import RakeOutline.Text.Line

namespace RakeOutline

theorem length_lineContent_le (line : List Char) : (lineContent line).length ≤ line.length := by
  unfold lineContent
  split
  · rw [List.length_dropLast]
    omega
  · exact Nat.le_refl _

theorem lines_ne_nil {text : List Char} (h : text ≠ []) : lines text ≠ [] := by
  intro hl
  have hf := flatten_lines text
  rw [hl] at hf
  exact h hf.symm

theorem ne_nil_of_mem_lines {text line : List Char} (h : line ∈ lines text) : line ≠ [] := by
  induction text generalizing line with
  | nil => simp [lines] at h
  | cons c text ih =>
    rw [lines] at h
    split at h
    · rcases List.mem_cons.mp h with rfl | hm
      · simp
      · exact ih hm
    · split at h
      next => simp_all
      next first later hl =>
        rcases List.mem_cons.mp h with rfl | hm
        · simp
        · exact ih (hl ▸ List.mem_cons_of_mem first hm)

theorem lines_newline (text rest : List Char) :
    lines (text ++ '\n' :: rest) = lines (text ++ ['\n']) ++ lines rest := by
  induction text with
  | nil => simp [lines]
  | cons c text ih =>
    have hne : lines (text ++ ['\n']) ≠ [] := lines_ne_nil (by simp)
    simp only [List.cons_append, lines]
    rw [ih]
    split
    · rfl
    · cases hl : lines (text ++ ['\n']) with
      | nil => exact absurd hl hne
      | cons => rfl

theorem lines_inline {text : List Char} (h : '\n' ∉ text) :
    lines (text ++ ['\n']) = [text ++ ['\n']] := by
  induction text with
  | nil => rfl
  | cons c text ih =>
    simp only [List.mem_cons, not_or] at h
    rw [List.cons_append, lines, if_neg (Ne.symm h.1), ih h.2]

theorem lines_line {content : List Char} (hn : '\n' ∉ content) (rest : List Char) :
    lines (content ++ '\n' :: rest) = (content ++ ['\n']) :: lines rest := by
  rw [lines_newline, lines_inline hn, List.singleton_append]

theorem lines_flatMap {texts : List (List Char)} (h : ∀ text ∈ texts, '\n' ∉ text) :
    lines (texts.flatMap (· ++ ['\n'])) = texts.map (· ++ ['\n']) := by
  induction texts with
  | nil => rfl
  | cons text texts ih =>
    obtain ⟨htext, htexts⟩ := List.forall_mem_cons.mp h
    rw [List.flatMap_cons, List.append_assoc, List.singleton_append, lines_line htext, ih htexts,
      List.map_cons]

/-- The contents of the lines of a text, without their line feeds. Where no line feed stands at the
end of the text, something else does. -/
inductive LinesOf : List Char → List (List Char) → Prop
  | nil : LinesOf [] []
  | last {content : List Char} (hne : content ≠ []) (hn : '\n' ∉ content) :
      LinesOf content [content]
  | line {content rest : List Char} {contents : List (List Char)} (hn : '\n' ∉ content)
      (hrest : LinesOf rest contents) : LinesOf (content ++ '\n' :: rest) (content :: contents)

@[simp] theorem lineContent_newline (content : List Char) :
    lineContent (content ++ ['\n']) = content := by
  simp [lineContent]

theorem lineContent_of_notMem {content : List Char} (hn : '\n' ∉ content) :
    lineContent content = content := by
  rw [lineContent, if_neg fun h => hn (List.mem_of_getLast? h)]

theorem lines_last {content : List Char} (hne : content ≠ []) (hn : '\n' ∉ content) :
    lines content = [content] := by
  induction content with
  | nil => exact absurd rfl hne
  | cons c content ih =>
    simp only [List.mem_cons, not_or] at hn
    rw [lines, if_neg (Ne.symm hn.1)]
    cases content with
    | nil => rfl
    | cons d content => rw [ih (by simp) hn.2]

theorem LinesOf.eq_contents {text : List Char} {contents : List (List Char)}
    (h : LinesOf text contents) : contents = (lines text).map lineContent := by
  induction h with
  | nil => rfl
  | last hne hn => simp [lines_last hne hn, lineContent_of_notMem hn]
  | line hn hrest ih => simp [lines_line hn, ← ih]

theorem exists_linesOf (text : List Char) : ∃ contents, LinesOf text contents := by
  induction text with
  | nil => exact ⟨[], .nil⟩
  | cons c text ih =>
    obtain ⟨contents, h⟩ := ih
    by_cases hc : c = '\n'
    · subst hc
      exact ⟨[] :: contents, .line List.not_mem_nil h⟩
    · have hcons : ∀ {content : List Char}, '\n' ∉ content → '\n' ∉ c :: content :=
        List.not_mem_cons_of_ne_of_not_mem (Ne.symm hc)
      cases h with
      | nil => exact ⟨[[c]], .last (List.cons_ne_nil c []) (hcons List.not_mem_nil)⟩
      | last hne hn => exact ⟨[c :: text], .last (List.cons_ne_nil c text) (hcons hn)⟩
      | @line content rest contents hn hrest =>
        exact ⟨(c :: content) :: contents, .line (hcons hn) hrest⟩

theorem linesOf_iff {text : List Char} {contents : List (List Char)} :
    LinesOf text contents ↔ contents = (lines text).map lineContent := by
  refine ⟨LinesOf.eq_contents, ?_⟩
  rintro rfl
  obtain ⟨contents, h⟩ := exists_linesOf text
  exact h.eq_contents ▸ h

/-- A list is cut in one way only into what passes a test and a rest whose first entry fails it. -/
theorem append_inj_of_head? {α : Type} {p : α → Bool} {first second rest others : List α}
    (h : first ++ rest = second ++ others) (hfirst : ∀ a ∈ first, p a = true)
    (hsecond : ∀ a ∈ second, p a = true) (hrest : ∀ a ∈ rest.head?, p a = false)
    (hothers : ∀ a ∈ others.head?, p a = false) : first = second ∧ rest = others := by
  have htake : ∀ {list : List α}, (∀ a ∈ list.head?, p a = false) → list.takeWhile p = [] := by
    intro list hl
    cases list with
    | nil => rfl
    | cons a list => simp [hl a (by simp)]
  have he := congrArg (List.takeWhile p) h
  rw [List.takeWhile_append_of_pos hfirst, List.takeWhile_append_of_pos hsecond, htake hrest,
    htake hothers, List.append_nil, List.append_nil] at he
  subst he
  exact ⟨rfl, List.append_cancel_left h⟩

end RakeOutline
