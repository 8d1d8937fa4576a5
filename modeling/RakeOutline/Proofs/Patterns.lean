import Mathlib.Data.List.Basic
import Mathlib.Tactic.FinCases
import RakeOutline.Token.Pattern

namespace RakeOutline

/-- What the pattern covers is not empty and lies in the text, and a line feed is to the pattern as
the end of the text. -/
structure Pattern.Inline (p : Pattern) : Prop where
  bounds : ∀ {text : List Char} {n : Nat}, p text = some n → 0 < n ∧ n ≤ text.length
  stops : ∀ text rest : List Char, p (text ++ '\n' :: rest) = p text

theorem isPrefixOf_newline {word : List Char} (hn : '\n' ∉ word) (text rest : List Char) :
    word.isPrefixOf (text ++ '\n' :: rest) = word.isPrefixOf text := by
  induction word generalizing text with
  | nil => simp
  | cons c word ih =>
    have hc : c ≠ '\n' := fun he => hn (by simp [he])
    have hw : '\n' ∉ word := fun hm => hn (List.mem_cons_of_mem c hm)
    cases text with
    | nil => simp [List.isPrefixOf, hc]
    | cons d text => simp [List.isPrefixOf, ih hw text]

theorem length_le_of_isPrefixOf {word : String} {text : List Char}
    (h : word.toList.isPrefixOf text = true) : word.length ≤ text.length := by
  have hp := (List.isPrefixOf_iff_prefix.mp h).length_le
  rwa [String.length_toList] at hp

theorem takeWhile_newline {later : Char → Bool} (hl : later '\n' = false)
    (text rest : List Char) :
    (text ++ '\n' :: rest).takeWhile later = text.takeWhile later := by
  induction text with
  | nil => simp [hl]
  | cons c text ih => by_cases hc : later c <;> simp [hc, ih]

theorem length_takeWhile_le (later : Char → Bool) (text : List Char) :
    (text.takeWhile later).length ≤ text.length :=
  (List.takeWhile_prefix later).length_le

theorem inline_exactly {word : String} (hne : word.toList ≠ []) (hn : '\n' ∉ word.toList) :
    Pattern.Inline (exactly word) where
  bounds := by
    intro text n h
    unfold exactly at h
    split at h
    next hp =>
      have hw : 0 < word.length := by
        rw [← String.length_toList]
        exact List.length_pos_iff.mpr hne
      obtain rfl := Option.some.inj h
      exact ⟨hw, length_le_of_isPrefixOf hp⟩
    next => simp at h
  stops := by
    intro text rest
    simp only [exactly, isPrefixOf_newline hn]

theorem inline_oneOf {accept : Char → Bool} (hn : accept '\n' = false) :
    Pattern.Inline (oneOf accept) where
  bounds := by
    intro text n h
    cases text with
    | nil => simp [oneOf] at h
    | cons c text =>
      simp only [oneOf] at h
      split at h
      · obtain rfl := Option.some.inj h
        simp
      · simp at h
  stops := by
    intro text rest
    cases text with
    | nil => simp [oneOf, hn]
    | cons c text => rfl

theorem inline_oneThen {first later : Char → Bool} (hf : first '\n' = false)
    (hl : later '\n' = false) : Pattern.Inline (oneThen first later) where
  bounds := by
    intro text n h
    cases text with
    | nil => simp [oneThen] at h
    | cons c text =>
      simp only [oneThen] at h
      split at h
      · have ht := length_takeWhile_le later text
        obtain rfl := Option.some.inj h
        rw [List.length_cons]
        omega
      · simp at h
  stops := by
    intro text rest
    cases text with
    | nil => simp [oneThen, hf]
    | cons c text => simp only [List.cons_append, oneThen, takeWhile_newline hl]

theorem Pattern.Inline.after {word : String} {p : Pattern} (hp : p.Inline)
    (hn : '\n' ∉ word.toList) : Pattern.Inline (RakeOutline.after word p) where
  bounds := by
    intro text n h
    unfold RakeOutline.after at h
    split at h
    next hw =>
      obtain ⟨m, hm, rfl⟩ := Option.map_eq_some_iff.mp h
      have hlen := length_le_of_isPrefixOf hw
      have hb := hp.bounds hm
      rw [List.length_drop] at hb
      omega
    next => simp at h
  stops := by
    intro text rest
    simp only [RakeOutline.after, isPrefixOf_newline hn]
    split
    next hw =>
      rw [List.drop_append_of_le_length (length_le_of_isPrefixOf hw), hp.stops]
    next => rfl

/-- Where a pattern ends, the text goes on as it does before the line feed. -/
theorem Pattern.Inline.drop {p : Pattern} (hp : p.Inline) {text : List Char} {n : Nat}
    (h : p text = some n) (rest : List Char) :
    (text ++ '\n' :: rest).drop n = text.drop n ++ '\n' :: rest :=
  List.drop_append_of_le_length (hp.bounds h).2

theorem Pattern.Inline.withMark {p : Pattern} (hp : p.Inline) :
    Pattern.Inline (RakeOutline.withMark p) where
  bounds := by
    intro text n h
    obtain ⟨m, hm, hn⟩ := Option.map_eq_some_iff.mp h
    have hb := hp.bounds hm
    have hd : (text.drop m).length = text.length - m := List.length_drop
    split at hn
    next he => rw [he, List.length_cons] at hd; omega
    next he => rw [he, List.length_cons] at hd; omega
    next => omega
  stops := by
    intro text rest
    unfold RakeOutline.withMark
    rw [hp.stops]
    cases hm : p text with
    | none => rfl
    | some n =>
      simp only [Option.map_some, hp.drop hm]
      cases text.drop n with
      | nil => rfl
      | cons c tail =>
        congr 1
        by_cases hq : c = '?'
        · simp [hq]
        · by_cases he : c = '!' <;> simp [hq, he]

theorem Pattern.Inline.either {p q : Pattern} (hp : p.Inline) (hq : q.Inline) :
    Pattern.Inline (RakeOutline.either p q) where
  bounds := by
    intro text n h
    unfold RakeOutline.either at h
    split at h
    next m k hm hk =>
      have h1 := hp.bounds hm
      have h2 := hq.bounds hk
      obtain rfl := Option.some.inj h
      omega
    next m hm _ => exact hp.bounds (hm.trans h)
    next => exact hq.bounds h
  stops := by
    intro text rest
    simp only [RakeOutline.either, hp.stops, hq.stops]

theorem inline_number : Pattern.Inline number := by
  have hd : Pattern.Inline (oneThen Char.isDigit fun c => c.isDigit || c == '_') :=
    inline_oneThen (by decide) (by decide)
  have hf : Pattern.Inline (after "." (oneThen Char.isDigit Char.isDigit)) :=
    (inline_oneThen (by decide) (by decide)).after (by decide)
  refine ⟨?_, ?_⟩
  · intro text n h
    obtain ⟨m, hm, hn⟩ := Option.map_eq_some_iff.mp h
    have hb := hd.bounds hm
    split at hn
    next k hk =>
      have hb' := hf.bounds hk
      rw [List.length_drop] at hb'
      omega
    next => omega
  · intro text rest
    unfold number
    rw [hd.stops]
    cases hm : oneThen Char.isDigit (fun c => c.isDigit || c == '_') text with
    | none => rfl
    | some n => simp only [Option.map_some, hd.drop hm, hf.stops]

theorem inline_word : Pattern.Inline word :=
  inline_oneThen (by decide) (by decide)

theorem inline_of_mem {entry : TokenKind × Pattern} (hm : entry ∈ tokenPatterns) :
    entry = (.newline, exactly "\n") ∨ entry.2.Inline := by
  unfold tokenPatterns at hm
  fin_cases hm
  -- the fixed words together, then the other kinds in the order of the table
  any_goals (apply Or.inr; apply inline_exactly <;> decide)
  · exact .inr (inline_oneThen (by decide) (by decide)).withMark
  · exact .inr (inline_oneThen (by decide) (by decide))
  · exact .inr ((inline_word.after (by decide)).either (inline_word.after (by decide)))
  · exact .inr ((inline_oneThen (by decide) (by decide)).after (by decide))
  · exact .inr (inline_word.withMark.after (by decide))
  · exact .inr ((inline_word.after (by decide)).either
      ((inline_word.after (by decide)).either (inline_word.after (by decide))))
  · exact .inr inline_number
  · exact .inr (inline_oneThen (by decide) (by decide))
  · exact .inr (inline_oneThen (by decide) (by decide))
  · exact .inl rfl
  · exact .inr (inline_oneOf (by decide))

theorem exactly_eq_some {word : String} {text : List Char} {n : Nat}
    (h : exactly word text = some n) : n = word.length ∧ ∃ rest, text = word.toList ++ rest := by
  unfold exactly at h
  split at h
  next hp =>
    obtain ⟨rest, hr⟩ := List.isPrefixOf_iff_prefix.mp hp
    exact ⟨(Option.some.inj h).symm, rest, hr.symm⟩
  next => simp at h

theorem proposals_newline (text rest : List Char) :
    proposals (text ++ '\n' :: rest) = proposals (text ++ ['\n']) := by
  unfold proposals
  apply List.filterMap_congr
  intro entry hm
  rcases inline_of_mem hm with rfl | hi
  · cases text <;> simp [exactly]
  · rw [hi.stops, hi.stops]

theorem longest_mem {list : List (TokenKind × Nat)} {proposal : TokenKind × Nat}
    (h : longest list = some proposal) : proposal ∈ list := by
  induction list with
  | nil => simp [longest] at h
  | cons first later ih =>
    rw [longest] at h
    split at h
    next =>
      obtain rfl := Option.some.inj h
      exact List.mem_cons_self
    next other ho =>
      split at h
      · exact List.mem_cons_of_mem first (ih (ho.trans h))
      · obtain rfl := Option.some.inj h
        exact List.mem_cons_self

theorem bounds_of_mem_proposals {text : List Char} {proposal : TokenKind × Nat}
    (h : proposal ∈ proposals text) : 0 < proposal.2 ∧ proposal.2 ≤ text.length := by
  obtain ⟨entry, hm, he⟩ := List.mem_filterMap.mp h
  obtain ⟨n, hn, rfl⟩ := Option.map_eq_some_iff.mp he
  rcases inline_of_mem hm with rfl | hi
  · obtain ⟨rfl, rest, rfl⟩ := exactly_eq_some hn
    refine ⟨by decide, ?_⟩
    rw [List.length_append, String.length_toList]
    exact Nat.le_add_right _ _
  · exact hi.bounds hn

theorem escapedLength_le (quote : Char) (text : List Char) :
    escapedLength quote text ≤ text.length := by
  fun_induction escapedLength quote text <;> simp only [List.length_cons, List.length_nil] at * <;>
    omega

/-- Quoted text that does not take the last line feed is the same whatever follows. -/
theorem escapedLength_settled {quote : Char} (hq : quote ≠ '\n') {text : List Char}
    (h : escapedLength quote (text ++ ['\n']) ≤ text.length) (rest : List Char) :
    escapedLength quote (text ++ '\n' :: rest) = escapedLength quote (text ++ ['\n']) := by
  fun_induction escapedLength quote text with
  | case1 => simp [escapedLength, hq.symm] at h
  | case2 c hc => rcases hc with rfl | rfl <;> simp [escapedLength]
  | case3 c hc => simp [escapedLength, not_or.mp hc, hq.symm] at h
  | case4 d tail => simp [escapedLength]
  | case5 tail hc => simp [escapedLength, hc]
  | case6 d tail hd hc ih =>
    simp only [List.cons_append, escapedLength, if_neg hc, if_neg hd, if_true,
      List.length_cons] at h ⊢
    rw [ih (by omega)]
  | case7 c d tail hc hb ih =>
    simp only [List.cons_append, escapedLength, if_neg hc, if_neg hb, List.length_cons] at h ih ⊢
    rw [ih (by omega)]

def TokenKind.isQuoted : TokenKind → Bool
  | .string | .symbol | .heredoc | .unknown => true
  | _ => false

/-- What the proofs need of a way to quote. An opener has no line feed in it, and what stands
between the quotes does not change once it ends before a line feed. -/
structure QuoteForm.Sound (form : QuoteForm) : Prop where
  kind_quoted : form.kind.isQuoted = true
  opener_ne : form.opener.toList ≠ []
  opener_inline : '\n' ∉ form.opener.toList
  inner_le : ∀ text, form.inner form.quote text ≤ text.length
  inner_settled : ∀ {text : List Char}, form.inner form.quote (text ++ ['\n']) ≤ text.length →
    ∀ rest, form.inner form.quote (text ++ '\n' :: rest) =
      form.inner form.quote (text ++ ['\n'])

theorem sound_escaped {kind : TokenKind} {opener : String} {quote : Char}
    (hk : kind.isQuoted = true) (hne : opener.toList ≠ []) (hn : '\n' ∉ opener.toList)
    (hq : quote ≠ '\n') : QuoteForm.Sound ⟨kind, opener, quote, escapedLength⟩ :=
  ⟨hk, hne, hn, escapedLength_le quote, escapedLength_settled hq⟩

theorem sound_plain {kind : TokenKind} {opener : String} {quote : Char}
    (hk : kind.isQuoted = true) (hne : opener.toList ≠ []) (hn : '\n' ∉ opener.toList) :
    QuoteForm.Sound ⟨kind, opener, quote, plainLength⟩ := by
  refine ⟨hk, hne, hn, fun text => length_takeWhile_le _ text, fun _ rest => ?_⟩
  simp only [plainLength]
  rw [takeWhile_newline (by simp), takeWhile_newline (by simp)]

theorem sound_of_mem {form : QuoteForm} (hm : form ∈ quoteForms) : form.Sound := by
  obtain ⟨quote, hq, hf⟩ := List.mem_flatMap.mp hm
  fin_cases hq <;> fin_cases hf
  any_goals (apply sound_escaped <;> decide)
  all_goals (apply sound_plain <;> decide)

theorem QuoteForm.token?_of_opener (form : QuoteForm) (rest : List Char) :
    form.token? (form.opener.toList ++ rest) =
      some (if (rest.drop (form.inner form.quote rest)).head? = some form.quote then
        (form.kind, form.opener.length + form.inner form.quote rest + 1)
      else (.unknown, form.opener.length + form.inner form.quote rest)) := by
  have hp : form.opener.toList.isPrefixOf (form.opener.toList ++ rest) = true := by simp
  have hd : (form.opener.toList ++ rest).drop form.opener.length = rest := by
    rw [← String.length_toList, List.drop_left]
  simp only [QuoteForm.token?, if_pos hp, hd]
  split <;> rfl

theorem QuoteForm.token?_cases (form : QuoteForm) (text : List Char) :
    (∃ rest, text = form.opener.toList ++ rest) ∨
      form.opener.toList.isPrefixOf text = false ∧ form.token? text = none := by
  cases hp : form.opener.toList.isPrefixOf text with
  | true =>
    obtain ⟨rest, hr⟩ := List.isPrefixOf_iff_prefix.mp hp
    exact .inl ⟨rest, hr.symm⟩
  | false => exact .inr ⟨rfl, by simp [QuoteForm.token?, hp]⟩

theorem QuoteForm.Sound.bounds {form : QuoteForm} (hf : form.Sound) {text : List Char}
    {token : TokenKind × Nat} (h : form.token? text = some token) :
    token.1.isQuoted = true ∧ 0 < token.2 ∧ token.2 ≤ text.length := by
  rcases form.token?_cases text with ⟨rest, rfl⟩ | ⟨_, hn⟩
  · have hopener : 0 < form.opener.length := by
      rw [← String.length_toList]
      exact List.length_pos_iff.mpr hf.opener_ne
    have hin := hf.inner_le rest
    rw [form.token?_of_opener] at h
    rw [List.length_append, String.length_toList]
    split at h
    next hq =>
      have hlt : form.inner form.quote rest < rest.length := by
        rw [List.head?_drop] at hq
        exact (List.getElem?_eq_some_iff.mp hq).1
      obtain rfl := Option.some.inj h
      exact ⟨hf.kind_quoted, by omega, by omega⟩
    next =>
      obtain rfl := Option.some.inj h
      exact ⟨rfl, by omega, by omega⟩
  · simp [hn] at h

/-- A quoted text that does not reach the last line feed is cut the same whatever follows. -/
theorem QuoteForm.Sound.settled {form : QuoteForm} (hf : form.Sound) {text : List Char}
    (h : ∀ token, form.token? (text ++ ['\n']) = some token → token.2 ≤ text.length)
    (rest : List Char) : form.token? (text ++ '\n' :: rest) = form.token? (text ++ ['\n']) := by
  rcases form.token?_cases text with ⟨inner, rfl⟩ | ⟨hp, _⟩
  · rw [List.append_assoc, form.token?_of_opener] at h
    rw [List.append_assoc, List.append_assoc, form.token?_of_opener, form.token?_of_opener]
    have hin : form.inner form.quote (inner ++ ['\n']) ≤ inner.length := by
      have hb := h _ rfl
      rw [List.length_append, String.length_toList] at hb
      split at hb <;> simp only at hb <;> omega
    rw [hf.inner_settled hin rest, List.drop_append_of_le_length hin,
      List.drop_append_of_le_length hin]
    cases inner.drop (form.inner form.quote (inner ++ ['\n'])) <;> rfl
  · have hnone : ∀ more, form.token? (text ++ '\n' :: more) = none := by
      intro more
      simp [QuoteForm.token?, isPrefixOf_newline hf.opener_inline, hp]
    rw [hnone, hnone]

theorem findSome?_settled {forms : List QuoteForm} (hf : ∀ form ∈ forms, form.Sound)
    {text : List Char}
    (h : ∀ token, forms.findSome? (·.token? (text ++ ['\n'])) = some token →
      token.2 ≤ text.length) (rest : List Char) :
    forms.findSome? (·.token? (text ++ '\n' :: rest)) =
      forms.findSome? (·.token? (text ++ ['\n'])) := by
  induction forms with
  | nil => rfl
  | cons form forms ih =>
    have hone : form.token? (text ++ '\n' :: rest) = form.token? (text ++ ['\n']) := by
      apply (hf form List.mem_cons_self).settled
      intro token ht
      exact h token (by simp [ht])
    simp only [List.findSome?_cons, hone] at h ⊢
    cases ht : form.token? (text ++ ['\n']) with
    | some token => rfl
    | none =>
      rw [ht] at h
      exact ih (fun other hm => hf other (List.mem_cons_of_mem form hm)) h

theorem sound_of_findSome? {text : List Char} {token : TokenKind × Nat}
    (h : quoteForms.findSome? (·.token? text) = some token) :
    token.1.isQuoted = true ∧ 0 < token.2 ∧ token.2 ≤ text.length := by
  obtain ⟨form, hm, ht⟩ := List.exists_of_findSome?_eq_some h
  exact (sound_of_mem hm).bounds ht

theorem tokenAt_bounds {text : List Char} (hne : text ≠ []) :
    0 < (tokenAt text).2 ∧ (tokenAt text).2 ≤ text.length := by
  unfold tokenAt
  split
  next token h => exact (sound_of_findSome? h).2
  next =>
    cases hl : longest (proposals text) with
    | none => exact ⟨Nat.one_pos, List.length_pos_iff.mpr hne⟩
    | some proposal => exact bounds_of_mem_proposals (longest_mem hl)

/-- A token of a kind that needs no quotes is what its pattern proposes. -/
theorem exists_pattern (text : List Char) (h : (tokenAt text).1.isQuoted = false) :
    ∃ p, ((tokenAt text).1, p) ∈ tokenPatterns ∧ p text = some (tokenAt text).2 := by
  unfold tokenAt at h ⊢
  split at h
  next token hq => exact absurd (sound_of_findSome? hq).1 (by simp [h])
  next hq =>
    cases hl : longest (proposals text) with
    | none => simp [hl, TokenKind.isQuoted] at h
    | some proposal =>
      obtain ⟨⟨kind, p⟩, hm, he⟩ := List.mem_filterMap.mp (longest_mem hl)
      obtain ⟨n, hn, rfl⟩ := Option.map_eq_some_iff.mp he
      exact ⟨p, by simpa [hq] using hm, by simpa [hq] using hn⟩

theorem newline_pattern {p : Pattern} (hm : (.newline, p) ∈ tokenPatterns) :
    p = exactly "\n" := by
  simpa [tokenPatterns] using hm

theorem assign_pattern {p : Pattern} (hm : (.assign, p) ∈ tokenPatterns) : p = exactly "=" := by
  simpa [tokenPatterns] using hm

theorem tokenAt_eq_newline {text : List Char} (h : (tokenAt text).1 = .newline) :
    ∃ rest, text = '\n' :: rest := by
  obtain ⟨p, hm, hp⟩ := exists_pattern text (by rw [h]; rfl)
  rw [h] at hm
  rw [newline_pattern hm] at hp
  exact (exactly_eq_some hp).2

theorem tokenAt_eq_assign {text : List Char} (h : (tokenAt text).1 = .assign) :
    (tokenAt text).2 = 1 := by
  obtain ⟨p, hm, hp⟩ := exists_pattern text (by rw [h]; rfl)
  rw [h] at hm
  rw [assign_pattern hm] at hp
  exact (exactly_eq_some hp).1

@[simp] theorem tokenAt_newline (rest : List Char) : tokenAt ('\n' :: rest) = (.newline, 1) := by
  have hquoted : quoteForms.findSome? (·.token? ('\n' :: rest)) = none := by
    rw [List.findSome?_eq_none_iff]
    intro form hm
    have hf := sound_of_mem hm
    have hp : form.opener.toList.isPrefixOf ('\n' :: rest) = form.opener.toList.isPrefixOf [] :=
      isPrefixOf_newline hf.opener_inline [] rest
    have hnil : form.opener.toList.isPrefixOf [] = false := by
      cases ho : form.opener.toList with
      | nil => exact absurd ho hf.opener_ne
      | cons => rfl
    simp [QuoteForm.token?, hp, hnil]
  have hplain : proposals ('\n' :: rest) = proposals ['\n'] := proposals_newline [] rest
  simp only [tokenAt, hquoted, hplain]
  decide

/-- A token that leaves the last line feed of a text alone is cut the same whatever follows. -/
theorem tokenAt_settled {text : List Char} (h : (tokenAt (text ++ ['\n'])).2 ≤ text.length)
    (rest : List Char) : tokenAt (text ++ '\n' :: rest) = tokenAt (text ++ ['\n']) := by
  have hquoted : quoteForms.findSome? (·.token? (text ++ '\n' :: rest)) =
      quoteForms.findSome? (·.token? (text ++ ['\n'])) := by
    apply findSome?_settled (fun form hm => sound_of_mem hm)
    intro token ht
    simpa only [tokenAt, ht] using h
  unfold tokenAt
  rw [hquoted, proposals_newline]

end RakeOutline
