import RakeOutline.Proofs.Lines
import RakeOutline.Proofs.Patterns
import RakeOutline.Token.Folding

namespace RakeOutline

theorem closingOffset_le {terminators : List Terminator} {list : List (List Char)} {n : Nat}
    (h : closingOffset terminators list = some n) : n ≤ list.flatten.length := by
  induction list generalizing terminators n with
  | nil => cases terminators <;> simp [closingOffset] at h
  | cons line list ih =>
    cases terminators with
    | nil => simp [closingOffset] at h
    | cons terminator later =>
      have hc := length_lineContent_le line
      rw [List.flatten_cons, List.length_append]
      rw [closingOffset] at h
      split at h
      · split at h
        · obtain rfl := Option.some.inj h
          omega
        · obtain ⟨m, hm, rfl⟩ := Option.map_eq_some_iff.mp h
          have hb := ih hm
          omega
      · obtain ⟨m, hm, rfl⟩ := Option.map_eq_some_iff.mp h
        have hb := ih hm
        omega

theorem heredocLength?_bounds {terminators : List Terminator} {text : List Char} {n : Nat}
    (h : heredocLength? terminators text = some n) : 0 < n ∧ n ≤ text.length := by
  unfold heredocLength? at h
  split at h
  · simp at h
  · obtain ⟨hc, hn⟩ := Option.filter_eq_some_iff.mp h
    have hb := closingOffset_le hc
    rw [flatten_lines] at hb
    exact ⟨by simpa using hn, hb⟩

theorem documentEnd_le {list : List (List Char)} {n : Nat} (h : documentEnd list = some n) :
    n ≤ list.flatten.length := by
  induction list generalizing n with
  | nil => simp [documentEnd] at h
  | cons line list ih =>
    have hc := length_lineContent_le line
    rw [List.flatten_cons, List.length_append]
    rw [documentEnd] at h
    split at h
    · obtain rfl := Option.some.inj h
      omega
    · obtain ⟨m, hm, rfl⟩ := Option.map_eq_some_iff.mp h
      have hb := ih hm
      omega

theorem documentEnd_append {list : List (List Char)} {n : Nat} (h : documentEnd list = some n)
    (more : List (List Char)) : documentEnd (list ++ more) = some n := by
  induction list generalizing n with
  | nil => simp [documentEnd] at h
  | cons line list ih =>
    rw [documentEnd] at h
    rw [List.cons_append, documentEnd]
    split at h
    next hd => rw [if_pos hd, h]
    next hd =>
      obtain ⟨m, hm, rfl⟩ := Option.map_eq_some_iff.mp h
      rw [if_neg hd, ih hm, Option.map_some]

theorem documentLength?_bounds {text : List Char} {n : Nat} (h : documentLength? text = some n) :
    0 < n ∧ n ≤ text.length := by
  unfold documentLength? at h
  split at h
  next hd =>
    have hf := flatten_lines text
    split at h
    next => simp at h
    next first later hl =>
      obtain ⟨m, hm, rfl⟩ := Option.map_eq_some_iff.mp h
      have hb := documentEnd_le hm
      have hfirst : 0 < first.length := by
        apply List.length_pos_iff.mpr
        exact ne_nil_of_mem_lines (hl ▸ List.mem_cons_self)
      have hlen := congrArg List.length hf
      rw [hl, List.flatten_cons, List.length_append] at hlen
      omega
  next => simp at h

theorem isDirective_line {directive : String} (hn : '\n' ∉ directive.toList)
    (content rest : List Char) :
    isDirective directive (content ++ '\n' :: rest) = isDirective directive content := by
  unfold isDirective
  rw [isPrefixOf_newline hn]
  cases hp : directive.toList.isPrefixOf content with
  | false => rfl
  | true =>
    rw [List.drop_append_of_le_length (length_le_of_isPrefixOf hp)]
    cases content.drop directive.length <;> rfl

/-- An embedded document that ends in a text has the same length whatever follows. -/
theorem documentLength?_newline {text : List Char} {n : Nat}
    (h : documentLength? (text ++ ['\n']) = some n) (rest : List Char) :
    documentLength? (text ++ '\n' :: rest) = some n := by
  unfold documentLength? at h ⊢
  split at h
  next hd =>
    rw [isDirective_line (by decide)] at hd
    rw [isDirective_line (by decide), if_pos hd, lines_newline]
    split at h
    next => simp at h
    next first later hl =>
      obtain ⟨m, hm, rfl⟩ := Option.map_eq_some_iff.mp h
      simp only [hl, List.cons_append, documentEnd_append hm, Option.map_some]
  next => simp at h

end RakeOutline
