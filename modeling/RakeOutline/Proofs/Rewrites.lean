import Mathlib.Data.List.Chain
import RakeOutline.Proofs.Keywords

namespace RakeOutline

/-- Kinds that no token has by itself, only among other tokens. -/
def TokenKind.isContextual : TokenKind → Bool
  | .ifModifier | .unlessModifier | .whileModifier | .untilModifier | .doCondition | .label => true
  | _ => false

def TokenKind.modifier? : TokenKind → Option TokenKind
  | .ifBlock => some .ifModifier
  | .unlessBlock => some .unlessModifier
  | .whileLoop => some .whileModifier
  | .untilLoop => some .untilModifier
  | _ => none

/-- The kinds that a token can get where it stands. Every keyword can be the name of a method, but
only right after a dot or a double colon. -/
inductive Token.Becomes (afterCall : Bool) (token : Token) : TokenKind → Prop
  | same : Becomes afterCall token token.kind
  | method (hcall : afterCall = true) (hk : token.kind.isKeyword = true) :
      Becomes afterCall token .identifier
  | modifier {kind : TokenKind} (hk : token.kind.modifier? = some kind) :
      Becomes afterCall token kind
  | condition (hk : token.kind = .doBlock) : Becomes afterCall token .doCondition
  | word (hk : token.kind = .endOfScript) (hc : token.column ≠ 0) :
      Becomes afterCall token .identifier

theorem TokenKind.modifier?_cases {kind modifier : TokenKind}
    (h : kind.modifier? = some modifier) :
    kind = .ifBlock ∧ modifier = .ifModifier ∨ kind = .unlessBlock ∧ modifier = .unlessModifier ∨
      kind = .whileLoop ∧ modifier = .whileModifier ∨
      kind = .untilLoop ∧ modifier = .untilModifier := by
  unfold TokenKind.modifier? at h
  split at h <;> simp_all

theorem TokenKind.modifier?_inj {kind other modifier : TokenKind}
    (h : kind.modifier? = some modifier) (ho : other.modifier? = some modifier) :
    kind = other := by
  rcases TokenKind.modifier?_cases h with ⟨rfl, rfl⟩ | ⟨rfl, rfl⟩ | ⟨rfl, rfl⟩ | ⟨rfl, rfl⟩ <;>
    simpa [eq_comm] using TokenKind.modifier?_cases ho

theorem LineState.kindOf_opener (state : LineState) {token : Token} {modifier : TokenKind}
    (h : token.kind.modifier? = some modifier) :
    state.kindOf token =
      if state.previous.any Token.endsValue then modifier else token.kind := by
  rcases TokenKind.modifier?_cases h with ⟨hk, rfl⟩ | ⟨hk, rfl⟩ | ⟨hk, rfl⟩ | ⟨hk, rfl⟩ <;>
    simp only [LineState.kindOf, hk]

theorem LineState.kindOf_do (state : LineState) {token : Token} (h : token.kind = .doBlock) :
    state.kindOf token = if 0 < state.loops then .doCondition else .doBlock := by
  simp only [LineState.kindOf, h]

theorem LineState.kindOf_scriptEnd (state : LineState) {token : Token}
    (h : token.kind = .endOfScript) :
    state.kindOf token = if token.column = 0 then .endOfScript else .identifier := by
  simp only [LineState.kindOf, h]

theorem LineState.kindOf_other (state : LineState) {token : Token}
    (hm : token.kind.modifier? = none) (hd : token.kind ≠ .doBlock)
    (he : token.kind ≠ .endOfScript) : state.kindOf token = token.kind := by
  unfold LineState.kindOf
  split <;> simp_all [TokenKind.modifier?]

theorem LineState.becomes_kindOf (state : LineState) (token : Token) :
    token.Becomes false (state.kindOf token) := by
  cases hm : token.kind.modifier? with
  | some modifier =>
    rw [state.kindOf_opener hm]
    split
    · exact .modifier hm
    · exact .same
  | none =>
    by_cases hd : token.kind = .doBlock
    · rw [state.kindOf_do hd]
      split
      · exact .condition hd
      · exact hd ▸ .same
    by_cases he : token.kind = .endOfScript
    · rw [state.kindOf_scriptEnd he]
      split
      next => exact he ▸ .same
      next hc => exact .word he hc
    · rw [state.kindOf_other hm hd he]
      exact .same

theorem TokenKind.isKeyword_of_modifier? {kind modifier : TokenKind}
    (h : kind.modifier? = some modifier) :
    kind.isKeyword = true ∧ modifier.isKeyword = true := by
  rcases TokenKind.modifier?_cases h with ⟨rfl, rfl⟩ | ⟨rfl, rfl⟩ | ⟨rfl, rfl⟩ | ⟨rfl, rfl⟩ <;>
    exact ⟨rfl, rfl⟩

section Becomes

variable {afterCall : Bool} {token : Token} {kind : TokenKind}

theorem Token.Becomes.same_or_keyword (h : token.Becomes afterCall kind) : kind = token.kind ∨
    token.kind.isKeyword = true ∧ (kind = .identifier ∨ kind.isKeyword = true) := by
  cases h with
  | same => exact .inl rfl
  | method _ hk => exact .inr ⟨hk, .inl rfl⟩
  | modifier hk =>
    obtain ⟨hopener, hmodifier⟩ := TokenKind.isKeyword_of_modifier? hk
    exact .inr ⟨hopener, .inr hmodifier⟩
  | condition hk => exact .inr ⟨hk ▸ rfl, .inr rfl⟩
  | word hk _ => exact .inr ⟨hk ▸ rfl, .inl rfl⟩

theorem Token.Becomes.eq_iff {other : TokenKind} (h : token.Becomes afterCall kind)
    (hk : other.isKeyword = false) (hi : other ≠ .identifier) :
    kind = other ↔ token.kind = other := by
  rcases h.same_or_keyword with rfl | ⟨hfrom, rfl | hto⟩
  · rfl
  · refine ⟨fun he => absurd he.symm hi, fun he => ?_⟩
    simp [he, hk] at hfrom
  · constructor <;> rintro rfl
    · simp [hk] at hto
    · simp [hk] at hfrom

theorem Token.Becomes.isCall_eq (h : token.Becomes afterCall kind) :
    kind.isCall = token.kind.isCall := by
  have hcall : ∀ kind : TokenKind, kind.isCall = true ↔ kind = .dot ∨ kind = .colonColon := by
    intro kind
    cases kind <;> simp [TokenKind.isCall]
  rw [Bool.eq_iff_iff, hcall, hcall, h.eq_iff rfl (by simp), h.eq_iff rfl (by simp)]

theorem TokenKind.namesLabel_of_isKeyword {kind : TokenKind} (h : kind.isKeyword = true) :
    kind.namesLabel = true := by
  unfold TokenKind.namesLabel
  split
  · rfl
  · rfl
  · exact h

theorem Token.Becomes.namesLabel_eq (h : token.Becomes afterCall kind) :
    kind.namesLabel = token.kind.namesLabel := by
  rcases h.same_or_keyword with rfl | ⟨hfrom, rfl | hto⟩
  · rfl
  · exact (TokenKind.namesLabel_of_isKeyword hfrom).symm
  · rw [TokenKind.namesLabel_of_isKeyword hfrom, TokenKind.namesLabel_of_isKeyword hto]

theorem Token.Becomes.isKeyword_of (h : token.Becomes afterCall kind)
    (hk : kind.isKeyword = true) : token.kind.isKeyword = true := by
  rcases h.same_or_keyword with rfl | ⟨hfrom, _⟩
  · exact hk
  · exact hfrom

theorem Token.Becomes.doBlock_of (h : token.Becomes afterCall kind) (hc : kind = .doCondition)
    (hne : token.kind ≠ .doCondition) : token.kind = .doBlock := by
  cases h with
  | same => exact absurd hc hne
  | method => simp at hc
  | modifier hk => simpa [hc] using TokenKind.modifier?_cases hk
  | condition hk => exact hk
  | word => simp at hc

/-- A kind that a token did not have before does not change again. -/
theorem Token.Becomes.same_or_final (h : token.Becomes afterCall kind) : kind = token.kind ∨
    kind.modifier? = none ∧ kind ≠ .doBlock ∧ kind ≠ .endOfScript := by
  cases h with
  | same => exact .inl rfl
  | method => exact .inr ⟨rfl, by simp, by simp⟩
  | modifier hk =>
    right
    rcases TokenKind.modifier?_cases hk with ⟨_, rfl⟩ | ⟨_, rfl⟩ | ⟨_, rfl⟩ | ⟨_, rfl⟩ <;>
      exact ⟨rfl, by simp, by simp⟩
  | condition => exact .inr ⟨rfl, by simp, by simp⟩
  | word => exact .inr ⟨rfl, by simp, by simp⟩

theorem Token.Becomes.opener_of {opener modifier : TokenKind} (h : token.Becomes afterCall kind)
    (ho : opener.modifier? = some modifier) (hk : kind = opener ∨ kind = modifier)
    (hne : token.kind ≠ modifier) : token.kind = opener := by
  rcases hk with rfl | rfl
  · rcases h.same_or_final with hsame | hfinal
    · exact hsame.symm
    · exact absurd (hfinal.1.symm.trans ho) (by simp)
  · cases h with
    | same => exact absurd rfl hne
    | modifier hk => exact TokenKind.modifier?_inj hk ho
    | method => simpa using TokenKind.modifier?_cases ho
    | condition => simpa using TokenKind.modifier?_cases ho
    | word => simpa using TokenKind.modifier?_cases ho

/-- What a token becomes in two steps it can become in one. -/
theorem Token.Becomes.trans {later : TokenKind} (h : token.Becomes afterCall kind)
    (hlater : ({ token with kind := kind } : Token).Becomes false later) :
    token.Becomes afterCall later := by
  -- only one of the two steps changes the kind
  rcases h.same_or_final with rfl | ⟨hm, hd, he⟩
  · cases hlater with
    | same => exact .same
    | method hcall _ => simp at hcall
    | modifier hk => exact .modifier hk
    | condition hk => exact .condition hk
    | word hk hc => exact .word hk hc
  · cases hlater with
    | same => exact h
    | method hcall _ => simp at hcall
    | modifier hk => exact absurd (hm.symm.trans hk) (by simp)
    | condition hk => exact absurd hk hd
    | word hk _ => exact absurd hk he

end Becomes

/-- How tokens come out once their keywords are resolved. Each is one of the tokens, with a kind
that it can get where it stands, or a label: a name with the text of the one colon right after it,
at the place of the name. -/
inductive Resolves : Bool → List Token → List Token → Prop
  | nil (afterCall : Bool) : Resolves afterCall [] []
  | token {afterCall : Bool} {token : Token} {kind : TokenKind} {tokens resolved : List Token}
      (hk : token.Becomes afterCall kind) (hl : kind ≠ .label)
      (hrest : Resolves kind.isCall tokens resolved) :
      Resolves afterCall (token :: tokens) ({ token with kind := kind } :: resolved)
  | label {afterCall : Bool} {name colon : Token} {tokens resolved : List Token}
      (hn : name.kind.namesLabel = true) (hc : colon.kind = .colon)
      (hrest : Resolves false tokens resolved) :
      Resolves afterCall (name :: colon :: tokens)
        ({ name with kind := .label, text := name.text ++ colon.text } :: resolved)

theorem resolves_demoteMethods (afterCall : Bool) {tokens : List Token}
    (h : ∀ token ∈ tokens, token.kind ≠ .label) :
    Resolves afterCall tokens (demoteMethods afterCall tokens) := by
  induction tokens generalizing afterCall with
  | nil => exact .nil afterCall
  | cons token rest ih =>
    obtain ⟨hl, hrest⟩ := List.forall_mem_cons.mp h
    by_cases hd : (afterCall && token.kind.isKeyword) = true
    · obtain ⟨hcall, hk⟩ := Bool.and_eq_true_iff.mp hd
      simp only [demoteMethods, if_pos hd]
      exact .token (.method hcall hk) (by simp) (ih false hrest)
    · simp only [demoteMethods, if_neg hd]
      exact .token .same hl (ih token.kind.isCall hrest)

theorem Resolves.mergeLabels {afterCall : Bool} {tokens named : List Token}
    (h : Resolves afterCall tokens named) : Resolves afterCall tokens (mergeLabels named) := by
  fun_induction RakeOutline.mergeLabels named generalizing afterCall tokens with
  | case1 => exact h
  | case2 => exact h
  | case3 token next rest hm ih =>
    simp only [Bool.and_eq_true, decide_eq_true_eq] at hm
    obtain ⟨hname, hcolon⟩ := hm
    -- neither of the two is a label already, so each comes from one token
    cases h with
    | label => simp [TokenKind.namesLabel, TokenKind.isKeyword, TokenKind.opensBlock] at hname
    | token hk hl hnext =>
      cases hnext with
      | label => simp at hcolon
      | token hk' hl' hrest =>
        obtain rfl := hcolon
        have hname := hk.namesLabel_eq.symm.trans hname
        exact .label hname ((hk'.eq_iff rfl (by simp)).mp rfl) (ih hrest)
  | case4 token next rest hm ih =>
    cases h with
    | label hn hc hnext => exact .label hn hc (ih hnext)
    | token hk hl hnext => exact .token hk hl (ih hnext)

theorem Resolves.classify {afterCall : Bool} {tokens named : List Token} (state : LineState)
    (h : Resolves afterCall tokens named) :
    Resolves afterCall tokens (classify state named) := by
  induction h generalizing state with
  | nil afterCall => exact .nil afterCall
  | @token afterCall token kind tokens named hk hl hrest ih =>
    have hlater := state.becomes_kindOf { token with kind := kind }
    refine .token (hk.trans hlater) ?_ ?_
    · rwa [ne_eq, hlater.eq_iff rfl (by simp)]
    · rw [hlater.isCall_eq]
      exact ih _
  | @label afterCall name colon tokens named hn hc hrest ih =>
    exact .label hn hc (ih _)

theorem resolves_resolveKeywords {tokens : List Token}
    (h : ∀ token ∈ tokens, token.kind ≠ .label) :
    Resolves false tokens (resolveKeywords tokens) :=
  (resolves_demoteMethods false h).mergeLabels.classify {}

/-- No keyword stands right after a dot or a double colon. -/
def Token.CallsName (first second : Token) : Prop :=
  first.kind.isCall = true → second.kind.isKeyword = false

/-- No colon stands right after a name, with which it would make a label. -/
def Token.NamesNoLabel (first second : Token) : Prop :=
  first.kind.namesLabel = true → second.kind ≠ .colon

theorem head?_demoteMethods {afterCall : Bool} {tokens : List Token} {first : Token}
    (h : first ∈ (demoteMethods afterCall tokens).head?) (hcall : afterCall = true) :
    first.kind.isKeyword = false := by
  cases tokens with
  | nil => simp [demoteMethods] at h
  | cons token rest =>
    simp only [demoteMethods, List.head?_cons, Option.mem_some_iff, hcall, Bool.true_and] at h
    rw [← h]
    split
    next => rfl
    next hk => exact Bool.eq_false_iff.mpr hk

theorem isChain_demoteMethods (afterCall : Bool) (tokens : List Token) :
    (demoteMethods afterCall tokens).IsChain Token.CallsName := by
  induction tokens generalizing afterCall with
  | nil => exact .nil
  | cons token rest ih =>
    exact List.isChain_cons.mpr ⟨fun _ => head?_demoteMethods, ih _⟩

theorem head?_mergeLabels {tokens : List Token} {first : Token}
    (h : first ∈ (mergeLabels tokens).head?) : first.kind = .label ∨ first ∈ tokens.head? := by
  cases tokens with
  | nil => exact .inr h
  | cons token rest =>
    cases rest with
    | nil => exact .inr h
    | cons next rest =>
      rw [mergeLabels] at h
      split at h
      · left
        cases h
        rfl
      · exact .inr h

theorem callsName_mergeLabels {tokens : List Token} (h : tokens.IsChain Token.CallsName) :
    (mergeLabels tokens).IsChain Token.CallsName := by
  fun_induction mergeLabels tokens with
  | case1 => exact h
  | case2 => exact h
  | case3 token next rest hm ih =>
    refine List.isChain_cons.mpr ⟨fun _ _ hcall => ?_, ih h.tail.tail⟩
    simp [TokenKind.isCall] at hcall
  | case4 token next rest hm ih =>
    refine List.isChain_cons.mpr ⟨fun first hfirst => ?_, ih h.tail⟩
    rcases head?_mergeLabels hfirst with hl | hfirst
    · exact fun _ => by rw [hl]; rfl
    · exact (List.isChain_cons.mp h).1 first hfirst

theorem namesNoLabel_mergeLabels (tokens : List Token) :
    (mergeLabels tokens).IsChain Token.NamesNoLabel := by
  fun_induction mergeLabels tokens with
  | case1 => exact .nil
  | case2 => exact .singleton _
  | case3 token next rest hm ih =>
    refine List.isChain_cons.mpr ⟨fun _ _ hname => ?_, ih⟩
    simp [TokenKind.namesLabel, TokenKind.isKeyword, TokenKind.opensBlock] at hname
  | case4 token next rest hm ih =>
    refine List.isChain_cons.mpr ⟨fun first hfirst hname => ?_, ih⟩
    rcases head?_mergeLabels hfirst with hl | hfirst
    · simp [hl]
    · obtain rfl : next = first := by simpa using hfirst
      simpa [hname] using hm

/-- What holds between neighbours whatever becomes of them. -/
theorem isChain_classify {R : Token → Token → Prop}
    (hR : ∀ (first second : Token) (kind kind' : TokenKind), R first second →
      first.Becomes false kind → second.Becomes false kind' →
      R { first with kind := kind } { second with kind := kind' })
    {tokens : List Token} (h : tokens.IsChain R) (state : LineState) :
    (classify state tokens).IsChain R := by
  induction tokens generalizing state with
  | nil => exact .nil
  | cons token rest ih =>
    refine List.isChain_cons.mpr ⟨fun second hsecond => ?_, ih h.tail _⟩
    cases rest with
    | nil => simp [classify] at hsecond
    | cons next rest =>
      cases hsecond
      exact hR token next _ _ (List.isChain_cons_cons.mp h).1 (state.becomes_kindOf token)
        (LineState.becomes_kindOf _ next)

theorem callsName_resolveKeywords (tokens : List Token) :
    (resolveKeywords tokens).IsChain Token.CallsName := by
  refine isChain_classify ?_ (callsName_mergeLabels (isChain_demoteMethods false tokens)) {}
  intro first second kind kind' h hk hk' hcall
  rw [Bool.eq_false_iff]
  intro hkeyword
  have hname := h (hk.isCall_eq.symm.trans hcall)
  exact absurd (hk'.isKeyword_of hkeyword) (Bool.eq_false_iff.mp hname)

theorem namesNoLabel_resolveKeywords (tokens : List Token) :
    (resolveKeywords tokens).IsChain Token.NamesNoLabel := by
  refine isChain_classify ?_ (namesNoLabel_mergeLabels _) {}
  intro first second kind kind' h hk hk' hname hcolon
  exact h (hk.namesLabel_eq.symm.trans hname) ((hk'.eq_iff rfl (by simp)).mp hcolon)

theorem isContextual_tokenAt (text : List Char) : (tokenAt text).1.isContextual = false := by
  cases hq : (tokenAt text).1.isQuoted with
  | true =>
    revert hq
    cases (tokenAt text).1 <;> simp [TokenKind.isQuoted, TokenKind.isContextual]
  | false =>
    have hpatterns : (tokenPatterns.map Prod.fst).all (!·.isContextual) = true := rfl
    obtain ⟨p, hm, _⟩ := exists_pattern text hq
    have hkind := List.all_eq_true.mp hpatterns _ (List.mem_map_of_mem hm)
    simpa using hkind

theorem isContextual_lexemeAt (lineStart : Bool) (text : List Char) :
    (lexemeAt lineStart text).1.isContextual = false := by
  have ht := isContextual_tokenAt text
  simp only [lexemeAt]
  split
  · split
    · rfl
    · exact ht
  · exact ht

theorem Cuts.isContextual {position : Position} {terminators : List Terminator}
    {text : List Char} {tokens : List Token} (h : Cuts position terminators text tokens) :
    ∀ token ∈ tokens, token.kind.isContextual = false := by
  refine h.forall_mem (P := fun kind _ => kind.isContextual = false) ?_ rfl (fun _ _ => rfl)
  intro lineStart kind text rest hne hat
  have hkind := isContextual_lexemeAt lineStart (text ++ rest)
  rwa [hat] at hkind

theorem isContextual_demoteMethods (afterCall : Bool) {tokens : List Token}
    (h : ∀ token ∈ tokens, token.kind.isContextual = false) :
    ∀ token ∈ demoteMethods afterCall tokens, token.kind.isContextual = false := by
  induction tokens generalizing afterCall with
  | nil => simp [demoteMethods]
  | cons token rest ih =>
    obtain ⟨htoken, hrest⟩ := List.forall_mem_cons.mp h
    refine List.forall_mem_cons.mpr ⟨?_, ih _ hrest⟩
    split
    · rfl
    · exact htoken

theorem mem_mergeLabels {tokens : List Token} {token : Token} (h : token ∈ mergeLabels tokens) :
    token.kind = .label ∨ token ∈ tokens := by
  fun_induction mergeLabels tokens with
  | case1 => exact .inr h
  | case2 => exact .inr h
  | case3 name colon rest hm ih =>
    rcases List.mem_cons.mp h with rfl | h
    · exact .inl rfl
    · exact (ih h).imp_right fun hrest => by simp [hrest]
  | case4 first next rest hm ih =>
    rcases List.mem_cons.mp h with rfl | h
    · exact .inr List.mem_cons_self
    · exact (ih h).imp_right (List.mem_cons_of_mem first)

end RakeOutline
