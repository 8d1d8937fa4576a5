import RakeOutline.Proofs.Cutting
import RakeOutline.Token.Keyword

namespace RakeOutline

/-- The token without its kind: where it stands and what is written there. -/
def Token.written (token : Token) : Nat × Nat × String :=
  (token.line, token.column, token.text)

@[simp] theorem written_demoteMethods (afterCall : Bool) (tokens : List Token) :
    (demoteMethods afterCall tokens).map Token.written = tokens.map Token.written := by
  induction tokens generalizing afterCall with
  | nil => rfl
  | cons token rest ih =>
    simp only [demoteMethods, List.map_cons, ih]
    split <;> rfl

@[simp] theorem written_classify (state : LineState) (tokens : List Token) :
    (classify state tokens).map Token.written = tokens.map Token.written := by
  induction tokens generalizing state with
  | nil => rfl
  | cons token rest ih =>
    rw [classify, List.map_cons, ih]
    rfl

theorem sourceOf_congr {first second : List Token}
    (h : first.map Token.written = second.map Token.written) :
    sourceOf first = sourceOf second := by
  have ht := congrArg (List.map fun written => written.2.2) h
  rw [List.map_map, List.map_map] at ht
  exact congrArg String.join ht

@[simp] theorem sourceOf_mergeLabels (tokens : List Token) :
    sourceOf (mergeLabels tokens) = sourceOf tokens := by
  fun_induction mergeLabels tokens with
  | case1 => rfl
  | case2 => rfl
  | case3 token next rest h ih => simpa [String.append_assoc] using ih
  | case4 token next rest h ih => simpa using ih

@[simp] theorem sourceOf_resolveKeywords (tokens : List Token) :
    sourceOf (resolveKeywords tokens) = sourceOf tokens :=
  calc sourceOf (resolveKeywords tokens)
      = sourceOf (mergeLabels (demoteMethods false tokens)) :=
        sourceOf_congr (written_classify {} _)
    _ = sourceOf (demoteMethods false tokens) := sourceOf_mergeLabels _
    _ = sourceOf tokens := sourceOf_congr (written_demoteMethods false tokens)

/-- The tokens stand one after another from the given place on. -/
def Placed : Position → List Token → Prop
  | _, [] => True
  | position, token :: rest =>
    token.line = position.line ∧ token.column = position.column ∧
      Placed (position.advance token.text.toList) rest

theorem Placed.congr {position : Position} {first second : List Token}
    (h : first.map Token.written = second.map Token.written) (hp : Placed position second) :
    Placed position first := by
  induction first generalizing position second with
  | nil => trivial
  | cons token rest ih =>
    cases second with
    | nil => simp at h
    | cons other others =>
      obtain ⟨hw, hrest⟩ := List.cons.inj h
      simp only [Token.written, Prod.mk.injEq] at hw
      obtain ⟨hline, hcolumn, htext⟩ := hw
      obtain ⟨hl, hc, ho⟩ := hp
      refine ⟨hline.trans hl, hcolumn.trans hc, ?_⟩
      rw [htext]
      exact ih hrest ho

theorem Placed.mergeLabels {position : Position} {tokens : List Token}
    (h : Placed position tokens) : Placed position (mergeLabels tokens) := by
  fun_induction RakeOutline.mergeLabels tokens generalizing position with
  | case1 => trivial
  | case2 => exact h
  | case3 token next rest hm ih =>
    obtain ⟨hl, hc, _, _, hrest⟩ := h
    refine ⟨hl, hc, ?_⟩
    rw [String.toList_append, Position.advance_append]
    exact ih hrest
  | case4 token next rest hm ih => exact ⟨h.1, h.2.1, ih h.2.2⟩

theorem Placed.resolveKeywords {tokens : List Token} {position : Position}
    (h : Placed position tokens) : Placed position (resolveKeywords tokens) := by
  have hd : Placed position (demoteMethods false tokens) :=
    h.congr (written_demoteMethods false tokens)
  exact hd.mergeLabels.congr (written_classify {} _)

section Newline

variable {newline : Token} (hn : newline.kind = .newline)
include hn

theorem demoteMethods_newline (afterCall : Bool) (first : List Token) :
    ∃ line, ∀ rest, demoteMethods afterCall (first ++ newline :: rest) =
      line ++ newline :: demoteMethods false rest := by
  induction first generalizing afterCall with
  | nil =>
    refine ⟨[], fun rest => ?_⟩
    simp [demoteMethods, hn, TokenKind.isKeyword, TokenKind.opensBlock, TokenKind.isCall]
  | cons token first ih =>
    let token' := if afterCall && token.kind.isKeyword then
      { token with kind := .identifier } else token
    obtain ⟨line, h⟩ := ih token'.kind.isCall
    refine ⟨token' :: line, fun rest => ?_⟩
    rw [List.cons_append, demoteMethods, h]
    rfl

theorem mergeLabels_newline (first : List Token) :
    ∃ line, ∀ rest, mergeLabels (first ++ newline :: rest) =
      line ++ newline :: mergeLabels rest := by
  have hnil : ∀ rest, mergeLabels (newline :: rest) = newline :: mergeLabels rest := by
    intro rest
    cases rest <;>
      simp [mergeLabels, hn, TokenKind.namesLabel, TokenKind.isKeyword, TokenKind.opensBlock]
  fun_induction mergeLabels first with
  | case1 => exact ⟨[], hnil⟩
  | case2 token =>
    refine ⟨[token], fun rest => ?_⟩
    simp [mergeLabels, hn, hnil]
  | case3 token next first hm ih =>
    obtain ⟨line, h⟩ := ih
    refine ⟨{ token with kind := .label, text := token.text ++ next.text } :: line,
      fun rest => ?_⟩
    rw [List.cons_append, List.cons_append, mergeLabels, if_pos hm, h]
    rfl
  | case4 token next first hm ih =>
    obtain ⟨line, h⟩ := ih
    refine ⟨token :: line, fun rest => ?_⟩
    rw [List.cons_append, List.cons_append, mergeLabels, if_neg hm, ← List.cons_append, h]
    rfl

theorem classify_newline (state : LineState) (first : List Token) :
    ∃ line, ∀ rest, classify state (first ++ newline :: rest) =
      line ++ newline :: classify {} rest := by
  induction first generalizing state with
  | nil =>
    refine ⟨[], fun rest => ?_⟩
    have hk : state.kindOf newline = newline.kind := by simp [LineState.kindOf, hn]
    have ha : state.after newline newline.kind = {} := by simp [LineState.after, hn]
    rw [List.nil_append, classify, hk, ha]
    rfl
  | cons token first ih =>
    obtain ⟨line, h⟩ := ih (state.after token (state.kindOf token))
    refine ⟨{ token with kind := state.kindOf token } :: line, fun rest => ?_⟩
    rw [List.cons_append, classify, h]
    rfl

theorem resolveKeywords_newline (first : List Token) :
    ∃ line, ∀ rest, resolveKeywords (first ++ newline :: rest) =
      line ++ newline :: resolveKeywords rest := by
  obtain ⟨demoted, hd⟩ := demoteMethods_newline hn false first
  obtain ⟨merged, hm⟩ := mergeLabels_newline hn demoted
  obtain ⟨classified, hc⟩ := classify_newline hn {} merged
  refine ⟨classified, fun rest => ?_⟩
  rw [resolveKeywords, hd, hm, hc]
  rfl

end Newline

/-- What is on one line has no part in resolving the keywords of another. -/
theorem lines_resolve_keywords_apart (first rest : List Token) {newline : Token}
    (hn : newline.kind = .newline) :
    resolveKeywords (first ++ [newline] ++ rest) =
      resolveKeywords (first ++ [newline]) ++ resolveKeywords rest := by
  obtain ⟨line, h⟩ := resolveKeywords_newline hn first
  have hrest := h rest
  have hnil := h []
  have hempty : resolveKeywords [] = [] := rfl
  rw [List.append_assoc, List.singleton_append, hrest, hnil, hempty, List.append_assoc,
    List.singleton_append]

theorem lines_resolve_keywords_apart_after_loop :
    let loop : Token := ⟨.whileLoop, 1, 0, "while"⟩
    let newline : Token := ⟨.newline, 1, 5, "\n"⟩
    let rest : List Token := [⟨.doBlock, 2, 0, "do"⟩, ⟨.colon, 2, 2, ":"⟩, ⟨.doBlock, 2, 4, "do"⟩]
    newline.kind = .newline ∧
    resolveKeywords ([loop] ++ [newline] ++ rest) =
      resolveKeywords ([loop] ++ [newline]) ++ resolveKeywords rest ∧
    resolveKeywords rest = [⟨.label, 2, 0, "do:"⟩, ⟨.doBlock, 2, 4, "do"⟩] := by
  intro loop newline rest
  exact ⟨rfl, lines_resolve_keywords_apart [loop] rest rfl, by decide⟩

def Token.unlined (token : Token) : Token :=
  { token with line := 0 }

def LineState.unlined (state : LineState) : LineState :=
  ⟨state.previous.map Token.unlined, state.loops⟩

theorem demoteMethods_unlined (afterCall : Bool) (tokens : List Token) :
    demoteMethods afterCall (tokens.map Token.unlined) =
      (demoteMethods afterCall tokens).map Token.unlined := by
  induction tokens generalizing afterCall with
  | nil => rfl
  | cons token rest ih =>
    simp only [List.map_cons, demoteMethods, ih]
    by_cases hk : (afterCall && token.kind.isKeyword) = true <;> simp [Token.unlined, hk]

theorem mergeLabels_unlined (tokens : List Token) :
    mergeLabels (tokens.map Token.unlined) = (mergeLabels tokens).map Token.unlined := by
  fun_induction mergeLabels tokens with
  | case1 => rfl
  | case2 => rfl
  | case3 token next rest hm ih =>
    rw [List.map_cons, List.map_cons, mergeLabels, List.map_cons, ← ih]
    exact if_pos hm
  | case4 token next rest hm ih =>
    rw [List.map_cons] at ih
    rw [List.map_cons, List.map_cons, mergeLabels, List.map_cons, ← ih]
    exact if_neg hm

theorem LineState.kindOf_unlined (state : LineState) (token : Token) :
    state.unlined.kindOf token.unlined = state.kindOf token := by
  have hp : state.unlined.previous.any Token.endsValue = state.previous.any Token.endsValue := by
    simp only [LineState.unlined, Option.any_map]
    rfl
  simp only [LineState.kindOf, hp]
  rfl

theorem LineState.after_unlined (state : LineState) (token : Token) (kind : TokenKind) :
    state.unlined.after token.unlined kind = (state.after token kind).unlined := by
  have hk : token.unlined.kind = token.kind := rfl
  have ht : token.unlined.text = token.text := rfl
  unfold LineState.after
  rw [hk, ht]
  split
  · rfl
  · rfl
  · rfl
  · split <;> rfl

theorem classify_unlined (state : LineState) (tokens : List Token) :
    classify state.unlined (tokens.map Token.unlined) =
      (classify state tokens).map Token.unlined := by
  induction tokens generalizing state with
  | nil => rfl
  | cons token rest ih =>
    rw [List.map_cons, classify, LineState.kindOf_unlined, LineState.after_unlined, ih, classify]
    rfl

theorem resolveKeywords_unlined (tokens : List Token) :
    resolveKeywords (tokens.map Token.unlined) =
      (resolveKeywords tokens).map Token.unlined := by
  rw [resolveKeywords, demoteMethods_unlined, mergeLabels_unlined]
  exact classify_unlined {} _

end RakeOutline
