import Mathlib.Data.List.DropRight
import RakeOutline.Proofs.Rewrites

namespace RakeOutline

/-- A line break or a semicolon: what follows begins a statement. -/
def Token.endsStatement (token : Token) : Bool :=
  token.kind = .newline || token.kind = .operator && token.text = ";"

theorem Token.endsStatement_iff (token : Token) : token.endsStatement = true ↔
    token.kind = .newline ∨ token.kind = .operator ∧ token.text = ";" := by
  simp [Token.endsStatement]

def Token.isFiller (token : Token) : Bool :=
  token.kind = .space || token.kind = .comment

theorem Token.isFiller_iff (token : Token) : token.isFiller = true ↔
    token.kind = .space ∨ token.kind = .comment := by
  simp [Token.isFiller]

/-- The last token of the statement in which the tokens break off, spaces and comments aside. -/
def lastOfStatement (tokens : List Token) : Option Token :=
  ((tokens.rtakeWhile (!·.endsStatement)).filter (!·.isFiller)).getLast?

def lastLine (tokens : List Token) : List Token :=
  tokens.rtakeWhile (·.kind != .newline)

/-- Keywords of loops, which may have a `do` of their own. -/
def TokenKind.isLoop : TokenKind → Bool
  | .whileLoop | .untilLoop | .forLoop => true
  | _ => false

def loopsIn (tokens : List Token) : Nat :=
  tokens.countP (·.kind.isLoop)

def conditionsIn (tokens : List Token) : Nat :=
  tokens.countP (·.kind = .doCondition)

def LineState.resolved (state : LineState) (token : Token) : Token :=
  { token with kind := state.kindOf token }

@[simp] theorem LineState.resolved_kind (state : LineState) (token : Token) :
    (state.resolved token).kind = state.kindOf token :=
  rfl

@[simp] theorem LineState.resolved_column (state : LineState) (token : Token) :
    (state.resolved token).column = token.column :=
  rfl

@[simp] theorem LineState.resolved_text (state : LineState) (token : Token) :
    (state.resolved token).text = token.text :=
  rfl

theorem lastOfStatement_concat (tokens : List Token) (token : Token) :
    lastOfStatement (tokens ++ [token]) =
      if token.endsStatement then none
      else if token.isFiller then lastOfStatement tokens else some token := by
  unfold lastOfStatement
  by_cases he : token.endsStatement = true
  · rw [List.rtakeWhile_concat_neg _ _ _ (by simp [he]), if_pos he]
    rfl
  · rw [List.rtakeWhile_concat_pos _ _ _ (by simp [he]), if_neg he, List.filter_append]
    by_cases hf : token.isFiller = true <;> simp [hf]

theorem lastLine_concat (tokens : List Token) (token : Token) :
    lastLine (tokens ++ [token]) =
      if token.kind = .newline then [] else lastLine tokens ++ [token] := by
  unfold lastLine
  by_cases hn : token.kind = .newline
  · rw [List.rtakeWhile_concat_neg _ _ _ (by simp [hn]), if_pos hn]
  · rw [List.rtakeWhile_concat_pos _ _ _ (by simp [hn]), if_neg hn]

/-- The state of a line tells what stands in it so far. -/
structure LineState.Describes (state : LineState) (seen : List Token) : Prop where
  previous : state.previous = lastOfStatement seen
  loops : loopsIn (lastLine seen) = state.loops + conditionsIn (lastLine seen)

theorem LineState.describes_nil : LineState.Describes {} [] :=
  ⟨rfl, rfl⟩

theorem LineState.previous_after (state : LineState) (token : Token) (kind : TokenKind) :
    (state.after token kind).previous =
      if token.endsStatement then none
      else if token.isFiller then state.previous else some { token with kind := kind } := by
  unfold LineState.after Token.endsStatement Token.isFiller
  split
  next hk => simp [hk]
  next hk => simp [hk]
  next hk => simp [hk]
  next hn hs hc => split <;> simp_all

theorem LineState.loopsAfter_other (state : LineState) {token : Token} (kind : TokenKind)
    (h : token.kind ≠ .doBlock) :
    state.loopsAfter token kind = if kind.isLoop then state.loops + 1 else state.loops := by
  unfold LineState.loopsAfter TokenKind.isLoop
  split <;> simp_all

theorem LineState.loopsAfter_kindOf (state : LineState) {token : Token}
    (h : token.kind ≠ .doCondition) :
    state.loopsAfter token (state.kindOf token) + conditionsIn [state.resolved token] =
      state.loops + loopsIn [state.resolved token] := by
  unfold LineState.resolved
  by_cases hd : token.kind = .doBlock
  · have hafter : state.loopsAfter token (state.kindOf token) = state.loops - 1 := by
      simp only [LineState.loopsAfter, hd]
    rw [hafter, state.kindOf_do hd]
    split
    next hpos => exact Nat.sub_add_cancel hpos
    next hpos =>
      have hzero : state.loops = 0 := by omega
      rw [hzero]
      rfl
  · have hc : state.kindOf token ≠ .doCondition := fun hc =>
      hd ((state.becomes_kindOf token).doBlock_of hc h)
    have hnone : conditionsIn [{ token with kind := state.kindOf token }] = 0 := by
      simp [conditionsIn, hc]
    rw [hnone, state.loopsAfter_other _ hd]
    by_cases hl : (state.kindOf token).isLoop = true <;> simp [loopsIn, hl]

/-- Where a line goes on, a `do` takes away one of the loops that wait, and only the keyword of a
loop adds one. -/
theorem LineState.loops_after (state : LineState) {token : Token} (hn : token.kind ≠ .newline)
    (hd : token.kind ≠ .doCondition) :
    (state.after token (state.kindOf token)).loops + conditionsIn [state.resolved token] =
      state.loops + loopsIn [state.resolved token] := by
  -- what leaves the state of the loops alone counts neither as a loop nor as a condition
  have hquiet : token.kind = .space ∨ token.kind = .comment ∨ token.kind = .operator →
      conditionsIn [state.resolved token] = 0 ∧ loopsIn [state.resolved token] = 0 := by
    rintro (hk | hk | hk) <;>
      simp [LineState.kindOf, hk, conditionsIn, loopsIn, TokenKind.isLoop]
  unfold LineState.after
  split
  next hk => exact absurd hk hn
  next hk => simp [hquiet (.inl hk)]
  next hk => simp [hquiet (.inr (.inl hk))]
  next =>
    split
    next hk => simp [hquiet (.inr (.inr hk.1))]
    next => exact state.loopsAfter_kindOf hd

@[simp] theorem LineState.endsStatement_resolved (state : LineState) (token : Token) :
    (state.resolved token).endsStatement = token.endsStatement := by
  have hk := state.becomes_kindOf token
  have hnewline : state.kindOf token = .newline ↔ token.kind = .newline := hk.eq_iff rfl (by simp)
  have hoperator : state.kindOf token = .operator ↔ token.kind = .operator :=
    hk.eq_iff rfl (by simp)
  rw [Bool.eq_iff_iff, Token.endsStatement_iff, Token.endsStatement_iff, state.resolved_kind,
    state.resolved_text, hnewline, hoperator]

@[simp] theorem LineState.isFiller_resolved (state : LineState) (token : Token) :
    (state.resolved token).isFiller = token.isFiller := by
  have hk := state.becomes_kindOf token
  have hspace : state.kindOf token = .space ↔ token.kind = .space := hk.eq_iff rfl (by simp)
  have hcomment : state.kindOf token = .comment ↔ token.kind = .comment := hk.eq_iff rfl (by simp)
  rw [Bool.eq_iff_iff, Token.isFiller_iff, Token.isFiller_iff, state.resolved_kind, hspace,
    hcomment]

theorem LineState.Describes.step {state : LineState} {seen : List Token}
    (h : state.Describes seen) {token : Token} (hd : token.kind ≠ .doCondition) :
    (state.after token (state.kindOf token)).Describes (seen ++ [state.resolved token]) := by
  constructor
  · simp [state.previous_after, lastOfStatement_concat, h.previous]
    rfl
  · have hnewline : (state.resolved token).kind = .newline ↔ token.kind = .newline :=
      (state.becomes_kindOf token).eq_iff rfl (by simp)
    rw [lastLine_concat]
    by_cases hn : token.kind = .newline
    · have hreset : state.after token (state.kindOf token) = {} := by simp [LineState.after, hn]
      rw [if_pos (hnewline.mpr hn), hreset]
      rfl
    · have hloops := h.loops
      have hafter := state.loops_after hn hd
      rw [if_neg (hnewline.not.mpr hn), loopsIn, conditionsIn, List.countP_append,
        List.countP_append]
      simp only [loopsIn, conditionsIn] at hloops hafter
      omega

/-- At every token the state describes the tokens before it, with the kinds that they have got. -/
theorem LineState.Describes.run {state : LineState} {seen tokens before after : List Token}
    (h : state.Describes seen) (hd : ∀ token ∈ tokens, token.kind ≠ .doCondition)
    (hc : classify state tokens = before ++ after) :
    ∃ (later : LineState) (rest : List Token), later.Describes (seen ++ before) ∧
      after = classify later rest ∧ rest <:+ tokens := by
  -- the split is one of the resolved tokens, so the induction is on those before it
  induction before generalizing state seen tokens with
  | nil => exact ⟨state, tokens, by rwa [List.append_nil], hc.symm, List.suffix_rfl⟩
  | cons first before ih =>
    cases tokens with
    | nil => simp [classify] at hc
    | cons token rest =>
      obtain ⟨rfl, hrest⟩ := List.cons.inj hc
      obtain ⟨htoken, hd⟩ := List.forall_mem_cons.mp hd
      obtain ⟨later, left, hdescribes, hafter, hsuffix⟩ := ih (h.step htoken) hd hrest
      rw [List.append_assoc] at hdescribes
      exact ⟨later, left, hdescribes, hafter, hsuffix.trans (List.suffix_cons token rest)⟩

/-- Between any two tokens whose keywords are resolved, the state of the line describes those before
and gives the next one its kind. -/
theorem describes_resolveKeywords {tokens before after : List Token}
    (h : ∀ token ∈ tokens, token.kind.isContextual = false)
    (hsplit : resolveKeywords tokens = before ++ after) :
    ∃ (state : LineState) (rest : List Token), state.Describes before ∧
      after = classify state rest ∧
      ∀ token ∈ rest, token.kind = .label ∨ token.kind.isContextual = false := by
  have hnamed : ∀ token ∈ mergeLabels (demoteMethods false tokens),
      token.kind = .label ∨ token.kind.isContextual = false := by
    intro token hm
    exact (mem_mergeLabels hm).imp_right (isContextual_demoteMethods false h token)
  have hdo : ∀ token ∈ mergeLabels (demoteMethods false tokens), token.kind ≠ .doCondition := by
    intro token hm hk
    simpa [hk, TokenKind.isContextual] using hnamed token hm
  obtain ⟨state, rest, hdescribes, hafter, hsuffix⟩ := LineState.describes_nil.run hdo hsplit
  exact ⟨state, rest, hdescribes, hafter, fun token hm => hnamed token (hsuffix.mem hm)⟩

theorem exists_kindOf {tokens before after : List Token} {token : Token}
    (h : ∀ token ∈ tokens, token.kind.isContextual = false)
    (hsplit : resolveKeywords tokens = before ++ token :: after) :
    ∃ (state : LineState) (named : Token), state.Describes before ∧
      token = state.resolved named ∧
      (named.kind = .label ∨ named.kind.isContextual = false) := by
  obtain ⟨state, rest, hdescribes, hafter, hplain⟩ := describes_resolveKeywords h hsplit
  cases rest with
  | nil => simp [classify] at hafter
  | cons named rest =>
    obtain ⟨htoken, _⟩ := List.cons.inj hafter
    exact ⟨state, named, hdescribes, htoken, hplain named List.mem_cons_self⟩

theorem kind_of_opener {tokens before after : List Token} {token : Token}
    {opener modifier : TokenKind} (h : ∀ token ∈ tokens, token.kind.isContextual = false)
    (hsplit : resolveKeywords tokens = before ++ token :: after)
    (ho : opener.modifier? = some modifier) (hk : token.kind = opener ∨ token.kind = modifier) :
    token.kind = if (lastOfStatement before).any Token.endsValue then modifier else opener := by
  obtain ⟨state, named, hdescribes, rfl, hplain⟩ := exists_kindOf h hsplit
  have hne : named.kind ≠ modifier := by
    rintro rfl
    rcases TokenKind.modifier?_cases ho with ⟨_, hm⟩ | ⟨_, hm⟩ | ⟨_, hm⟩ | ⟨_, hm⟩ <;>
      simp [hm, TokenKind.isContextual] at hplain
  obtain rfl := (state.becomes_kindOf named).opener_of ho hk hne
  rw [← hdescribes.previous]
  exact state.kindOf_opener ho

theorem column_of_scriptEnd {tokens : List Token} {token : Token}
    (h : ∀ token ∈ tokens, token.kind.isContextual = false) (hm : token ∈ resolveKeywords tokens)
    (hk : token.kind = .endOfScript) : token.column = 0 := by
  obtain ⟨before, after, hsplit⟩ := List.append_of_mem hm
  obtain ⟨state, named, _, rfl, _⟩ := exists_kindOf h hsplit
  rcases (state.becomes_kindOf named).same_or_final with hsame | ⟨_, _, hfinal⟩
  · have hscript : named.kind = .endOfScript := hsame.symm.trans hk
    rw [LineState.resolved_column]
    by_contra hcolumn
    have hname := state.kindOf_scriptEnd hscript
    rw [if_neg hcolumn] at hname
    exact absurd (hname.symm.trans hk) (by simp)
  · exact absurd hk hfinal

/-- Every keyword has the kind that the tokens around it ask for, as these are: after a dot it is no
keyword, before a colon it is part of a label, after a value it is a modifier and else it begins a
block, and the end of the script begins a line. -/
structure KeywordsResolved (tokens : List Token) : Prop where
  methods : tokens.IsChain Token.CallsName
  labels : tokens.IsChain Token.NamesNoLabel
  modifiers : ∀ (before after : List Token) (token : Token) (opener modifier : TokenKind),
    tokens = before ++ token :: after → opener.modifier? = some modifier →
    token.kind = opener ∨ token.kind = modifier →
    token.kind = if (lastOfStatement before).any Token.endsValue then modifier else opener
  scriptEnds : ∀ token ∈ tokens, token.kind = .endOfScript → token.column = 0

/-- Resolving the keywords of tokens whose kinds do not depend on a context, such as those of any
source, keeps the text, makes each token of one token or a label of two, and leaves all keywords
resolved. -/
theorem resolving_leaves_keywords_resolved (tokens : List Token)
    (h : ∀ token ∈ tokens, token.kind.isContextual = false) :
    sourceOf (resolveKeywords tokens) = sourceOf tokens ∧
    Resolves false tokens (resolveKeywords tokens) ∧
    KeywordsResolved (resolveKeywords tokens) ∧
    ∀ source : String, ∀ token ∈ tokenize source, token.kind.isContextual = false := by
  have hlabel : ∀ token ∈ tokens, token.kind ≠ .label := by
    intro token hm hk
    simpa [hk, TokenKind.isContextual] using h token hm
  refine ⟨sourceOf_resolveKeywords tokens, resolves_resolveKeywords hlabel, ?_,
    fun source => (cuts_tokenize source).isContextual⟩
  constructor
  · exact callsName_resolveKeywords tokens
  · exact namesNoLabel_resolveKeywords tokens
  · intro before after token opener modifier hsplit
    exact kind_of_opener h hsplit
  · intro token hm
    exact column_of_scriptEnd h hm

theorem resolving_leaves_keywords_resolved_in_one_line :
    let tokens : List Token := [⟨.identifier, 1, 0, "x"⟩, ⟨.dot, 1, 1, "."⟩,
      ⟨.endBlock, 1, 2, "end"⟩, ⟨.ifBlock, 1, 6, "if"⟩, ⟨.whileLoop, 1, 9, "while"⟩,
      ⟨.colon, 1, 14, ":"⟩, ⟨.endOfScript, 1, 16, "__END__"⟩, ⟨.untilLoop, 1, 24, "until"⟩]
    (∀ token ∈ tokens, token.kind.isContextual = false) ∧
    resolveKeywords tokens = [⟨.identifier, 1, 0, "x"⟩, ⟨.dot, 1, 1, "."⟩,
      ⟨.identifier, 1, 2, "end"⟩, ⟨.ifModifier, 1, 6, "if"⟩, ⟨.label, 1, 9, "while:"⟩,
      ⟨.identifier, 1, 16, "__END__"⟩, ⟨.untilModifier, 1, 24, "until"⟩] ∧
    Resolves false tokens (resolveKeywords tokens) ∧
    KeywordsResolved (resolveKeywords tokens) := by
  intro tokens
  have h : ∀ token ∈ tokens, token.kind.isContextual = false := by decide
  obtain ⟨_, hresolves, hresolved, _⟩ := resolving_leaves_keywords_resolved tokens h
  exact ⟨h, by decide +kernel, hresolves, hresolved⟩

theorem LineState.loops_of_do (state : LineState) {token : Token}
    (hne : token.kind ≠ .doCondition) :
    (state.kindOf token = .doBlock → state.loops = 0) ∧
    (state.kindOf token = .doCondition → 0 < state.loops) := by
  have hk := state.becomes_kindOf token
  constructor
  · intro hblock
    rcases hk.same_or_final with hsame | ⟨_, hfinal, _⟩
    · by_contra hloops
      have hdo := state.kindOf_do (hsame.symm.trans hblock)
      rw [if_pos (Nat.pos_of_ne_zero hloops)] at hdo
      exact absurd (hdo.symm.trans hblock) (by simp)
    · exact absurd hblock hfinal
  · intro hcondition
    by_contra hloops
    have hdo := state.kindOf_do (hk.doBlock_of hcondition hne)
    rw [if_neg hloops] at hdo
    exact absurd (hdo.symm.trans hcondition) (by simp)

def lineBefore (tokens : List Token) (i : Nat) : List Token :=
  lastLine (tokens.take i)

/-- Before every token of a source, the `do`s on its line that belong to a loop are no more than the
loops there. A `do` begins a block only if all loops before it on the line have theirs, and belongs
to a loop only if one of them has not. -/
theorem dos_match_loops_of_line (source : String) (i : Nat) :
    conditionsIn (lineBefore (lex source) i) ≤ loopsIn (lineBefore (lex source) i) ∧
    ∀ token, (lex source)[i]? = some token →
      (token.kind = .doBlock →
        loopsIn (lineBefore (lex source) i) = conditionsIn (lineBefore (lex source) i)) ∧
      (token.kind = .doCondition →
        conditionsIn (lineBefore (lex source) i) < loopsIn (lineBefore (lex source) i)) := by
  have hplain := (cuts_tokenize source).isContextual
  constructor
  · obtain ⟨state, _, hdescribes, _, _⟩ :=
      describes_resolveKeywords hplain (List.take_append_drop i (lex source)).symm
    have hloops := hdescribes.loops
    rw [lineBefore]
    omega
  · intro token hi
    obtain ⟨hlt, rfl⟩ := List.getElem?_eq_some_iff.mp hi
    have hsplit : lex source =
        (lex source).take i ++ (lex source)[i] :: (lex source).drop (i + 1) := by
      rw [← List.drop_eq_getElem_cons hlt, List.take_append_drop]
    obtain ⟨state, named, hdescribes, htoken, hnamed⟩ := exists_kindOf hplain hsplit
    have hloops := hdescribes.loops
    have hne : named.kind ≠ .doCondition := by
      intro hk
      simp [hk, TokenKind.isContextual] at hnamed
    obtain ⟨hblock, hcondition⟩ := state.loops_of_do hne
    rw [htoken, lineBefore]
    constructor
    · intro hk
      have hzero := hblock hk
      omega
    · intro hk
      have hpos := hcondition hk
      omega

theorem dos_match_loops_of_line_past_semicolon :
    let tokens := lex "while a\nfor b; until c do d do e do"
    tokens[17]? = some ⟨.doCondition, 2, 20, "do"⟩ ∧
    conditionsIn (lineBefore tokens 17) < loopsIn (lineBefore tokens 17) ∧
    tokens[21]? = some ⟨.doBlock, 2, 25, "do"⟩ ∧
    loopsIn (lineBefore tokens 21) = conditionsIn (lineBefore tokens 21) := by
  intro tokens
  obtain ⟨hinner, houter⟩ : tokens[17]? = some ⟨.doCondition, 2, 20, "do"⟩ ∧
      tokens[21]? = some ⟨.doBlock, 2, 25, "do"⟩ := by
    decide +kernel
  have hcondition := (dos_match_loops_of_line _ 17).2 _ hinner
  have hblock := (dos_match_loops_of_line _ 21).2 _ houter
  exact ⟨hinner, hcondition.2 rfl, houter, hblock.1 rfl⟩

end RakeOutline
