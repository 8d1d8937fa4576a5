import RakeOutline.Text.Quote

namespace RakeOutline

theorem unescape_cons_of_ne (quote : Char) {c : Char} (hc : c ≠ '\\') (rest : List Char) :
    unescape quote (c :: rest) = c :: unescape quote rest := by
  cases rest with
  | nil => rfl
  | cons d rest => rw [unescape, if_neg hc]

theorem unescape_escaped {quote c : Char} (hc : c = quote ∨ c = '\\') (rest : List Char) :
    unescape quote ('\\' :: c :: rest) = c :: unescape quote rest := by
  rw [unescape, if_pos rfl, if_pos hc]

theorem unescape_kept {quote c : Char} (hc : ¬(c = quote ∨ c = '\\')) (rest : List Char) :
    unescape quote ('\\' :: c :: rest) = '\\' :: c :: unescape quote rest := by
  rw [unescape, if_pos rfl, if_neg hc]

theorem unescape_escape (quote : Char) (text : List Char) :
    unescape quote (escape quote text) = text := by
  induction text with
  | nil => rfl
  | cons c text ih =>
    rw [escape]
    split
    next hc => rw [unescape_escaped hc, ih]
    next hc => rw [unescape_cons_of_ne quote (not_or.mp hc).2, ih]

/-- A backslash after `before` is read as a backslash if nothing stands after it or if what stands
after it needs no escape, and `kept` is what is read up to it. -/
def KeepsBackslash (quote : Char) (before kept : List Char) : Prop :=
  unescape quote (before ++ ['\\']) = kept ++ ['\\'] ∧
  ∀ c after, ¬(c = quote ∨ c = '\\') →
    unescape quote (before ++ '\\' :: c :: after) = kept ++ '\\' :: c :: unescape quote after

theorem keepsBackslash_nil (quote : Char) : KeepsBackslash quote [] [] :=
  ⟨rfl, fun _ after hc => unescape_kept hc after⟩

theorem KeepsBackslash.prepend {quote : Char} {first read before kept : List Char}
    (h : KeepsBackslash quote before kept)
    (hread : ∀ more, unescape quote (first ++ more) = read ++ unescape quote (before ++ more)) :
    KeepsBackslash quote first (read ++ kept) := by
  refine ⟨?_, fun c after hc => ?_⟩
  · rw [hread, h.1, List.append_assoc]
  · rw [hread, h.2 c after hc, List.append_assoc]

-- the backslash may itself be escaped: then it is what the escape before it stands for
theorem exists_keepsBackslash (quote : Char) (before : List Char) :
    ∃ kept, KeepsBackslash quote before kept := by
  fun_induction unescape quote before with
  | case1 => exact ⟨[], keepsBackslash_nil quote⟩
  | case2 b =>
    by_cases hb : b = '\\'
    · subst hb
      refine ⟨[], unescape_escaped (.inr rfl) [], fun c after hc => ?_⟩
      rw [List.singleton_append, unescape_escaped (.inr rfl),
        unescape_cons_of_ne quote (not_or.mp hc).2]
      rfl
    · exact ⟨[b] ++ [], (keepsBackslash_nil quote).prepend (unescape_cons_of_ne quote hb)⟩
  | case3 d rest hd ih =>
    obtain ⟨kept, hkept⟩ := ih
    exact ⟨[d] ++ kept, hkept.prepend fun more => unescape_escaped hd (rest ++ more)⟩
  | case4 d rest hd ih =>
    obtain ⟨kept, hkept⟩ := ih
    exact ⟨['\\', d] ++ kept, hkept.prepend fun more => unescape_kept hd (rest ++ more)⟩
  | case5 b d rest hb ih =>
    obtain ⟨kept, hkept⟩ := ih
    exact ⟨[b] ++ kept, hkept.prepend fun more => unescape_cons_of_ne quote hb (d :: rest ++ more)⟩

theorem unquote_enclosed {quote : Char} (hquote : quote = '"' ∨ quote = '\'')
    (text : List Char) : unquote (quote :: (text ++ [quote])) = unescape quote text := by
  rw [unquote, if_pos ⟨hquote, by simp⟩, List.dropLast_concat]

theorem unquote_of_not_enclosed {text : List Char}
    (h : (text.head? ≠ some '"' ∧ text.head? ≠ some '\'') ∨ text.getLast? ≠ text.head? ∨
      text.length = 1) : unquote text = text := by
  cases text with
  | nil => rfl
  | cons first rest =>
    rw [unquote, if_neg]
    rintro ⟨hquote, hlast⟩
    have hrest : rest ≠ [] := by
      rintro rfl
      simp at hlast
    rcases h with ⟨hdouble, hsingle⟩ | hends | hlength
    · rcases hquote with rfl | rfl
      · exact hdouble rfl
      · exact hsingle rfl
    · apply hends
      rw [List.getLast?_cons, hlast]
      rfl
    · exact hrest (List.length_eq_zero_iff.mp (Nat.succ.inj hlength))

theorem unquote_of_head {text : List Char} (h : ∀ c ∈ text.head?, c ∉ ['"', '\'']) :
    unquote text = text := by
  refine unquote_of_not_enclosed (.inl ⟨fun hd => ?_, fun hs => ?_⟩)
  · exact h '"' hd (by simp)
  · exact h '\'' hs (by simp)

/-- A quoted text is read as the text, whatever the text holds, and a text that does not stand
between two quote characters of one kind is read as it is. Inside any quoted text, a backslash is
kept if the character after it is neither the quote character nor a backslash. What is read up to
the backslash is then the same as if the text ended with it, and what stands after that character
is read on its own. -/
theorem unquote_inverts_quoted {quote : Char} (hquote : quote = '"' ∨ quote = '\'') :
    (∀ text, unquote (quoted quote text) = text) ∧
    (∀ text : List Char, (text.head? ≠ some '"' ∧ text.head? ≠ some '\'') ∨
      text.getLast? ≠ text.head? ∨ text.length = 1 → unquote text = text) ∧
    ∀ (before after : List Char) (c : Char), c ≠ quote → c ≠ '\\' → ∃ kept,
      unquote (quote :: (before ++ ['\\'] ++ [quote])) = kept ++ ['\\'] ∧
      unquote (quote :: (before ++ '\\' :: c :: after ++ [quote])) =
        kept ++ '\\' :: c :: unquote (quote :: (after ++ [quote])) := by
  refine ⟨fun text => ?_, fun text h => unquote_of_not_enclosed h, ?_⟩
  · rw [quoted, unquote_enclosed hquote, unescape_escape]
  · intro before after c hc hb
    obtain ⟨kept, hend, hkept⟩ := exists_keepsBackslash quote before
    refine ⟨kept, ?_, ?_⟩
    · rw [unquote_enclosed hquote, hend]
    · rw [unquote_enclosed hquote, unquote_enclosed hquote, hkept c after (not_or.mpr ⟨hc, hb⟩)]

theorem unquote_inverts_quoted_of_backslashes :
    unquote (quoted '"' "\\\"\\\\n'".toList) = "\\\"\\\\n'".toList ∧
    unquote "\"a'".toList = "\"a'".toList ∧
    ∃ kept, unquote "'\\\\\\'".toList = kept ++ ['\\'] ∧
      unquote "'\\\\\\\"\\''".toList = kept ++ '\\' :: '"' :: ['\''] := by
  obtain ⟨hquoted, hbare, -⟩ := unquote_inverts_quoted (.inl rfl)
  obtain ⟨-, -, hkept⟩ := unquote_inverts_quoted (.inr rfl)
  refine ⟨hquoted _, hbare _ (by decide), ?_⟩
  exact hkept ['\\', '\\'] ['\\', '\''] '"' (by decide) (by decide)

end RakeOutline
