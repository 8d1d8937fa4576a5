import RakeOutline.Proofs.Written

namespace RakeOutline

/-- How two runs of tokens may differ: whether arrows may be cut in two, and what stands behind the
part that they have in common. -/
structure Variation where
  cuts : Prop
  tail : List Token
  other : List Token

/-- The same without the tails, for runs that end before them. -/
def Variation.within (variation : Variation) : Variation :=
  { variation with tail := [], other := [] }

/-- An arrow, and the two tokens that have its text. -/
structure Token.CutInTwo (arrow assign gt : Token) : Prop where
  whole : arrow.kind = .assoc
  left : assign.kind = .assign
  right : gt.kind = .gt
  text : arrow.text = assign.text ++ gt.text

def TokenKind.InArrow (kind : TokenKind) : Prop :=
  kind = .assoc ∨ kind = .assign ∨ kind = .gt

theorem Token.CutInTwo.inArrow {arrow assign gt : Token} (h : arrow.CutInTwo assign gt) :
    arrow.kind.InArrow ∧ assign.kind.InArrow ∧ gt.kind.InArrow :=
  ⟨.inl h.whole, .inr (.inl h.left), .inr (.inr h.right)⟩

/-- The second run differs from the first as the variation allows. -/
inductive Variation.Relates (variation : Variation) : List Token → List Token → Prop
  | rest : Relates variation variation.tail variation.other
  | keep (token : Token) {first second : List Token} : Relates variation first second →
      Relates variation (token :: first) (token :: second)
  | cut {arrow assign gt : Token} {first second : List Token} : variation.cuts →
      arrow.CutInTwo assign gt → Relates variation first second →
      Relates variation (arrow :: first) (assign :: gt :: second)

/-- The tail has not been reached. Where there is none, there is nothing to reach. -/
def Variation.Ahead (variation : Variation) (tokens : List Token) : Prop :=
  (variation.tail = [] ∧ variation.other = []) ∨ variation.tail.length < tokens.length

variable {variation : Variation} {first second : List Token}

theorem Variation.Ahead.of_suffix (h : variation.Ahead second) (hs : second <:+ first) :
    variation.Ahead first := by
  rcases h with hnone | hlt
  · exact .inl hnone
  · exact .inr (Nat.lt_of_lt_of_le hlt hs.length_le)

theorem Variation.Ahead.no_tails {n : Nat} (h : variation.Ahead (variation.tail.drop n)) :
    variation.tail = [] ∧ variation.other = [] := by
  rcases h with hnone | hlt
  · exact hnone
  · rw [List.length_drop] at hlt
    omega

theorem Variation.Relates.eq_nil (h : variation.Relates [] second) (ha : variation.Ahead []) :
    second = [] := by
  rcases ha with hnone | hlt
  · generalize hf : ([] : List Token) = first at h
    cases h with
    | rest => exact hnone.2.trans hf
    | keep | cut => simp at hf
  · simp at hlt

/-- Before the tail, a token stands in both runs or is an arrow that is cut in two. -/
theorem Variation.Relates.cons_cases {token : Token}
    (h : variation.Relates (token :: first) second) (ha : variation.Ahead (token :: first)) :
    (∃ rest, second = token :: rest ∧ variation.Relates first rest) ∨
      ∃ assign gt rest, variation.cuts ∧ token.CutInTwo assign gt ∧
        second = assign :: gt :: rest ∧ variation.Relates first rest := by
  generalize hf : token :: first = tokens at h
  cases h with
  | rest =>
    have hnone := Variation.Ahead.no_tails (n := 0) (by rw [List.drop_zero, ← hf]; exact ha)
    rw [hnone.1] at hf
    simp at hf
  | keep other h =>
    obtain ⟨rfl, rfl⟩ := List.cons.inj hf
    exact .inl ⟨_, rfl, h⟩
  | cut hcuts harrow h =>
    obtain ⟨rfl, rfl⟩ := List.cons.inj hf
    exact .inr ⟨_, _, _, hcuts, harrow, rfl, h⟩

theorem Variation.Relates.cons_of_ne {token : Token}
    (h : variation.Relates (token :: first) second) (ha : variation.Ahead (token :: first))
    (hk : token.kind ≠ .assoc) : ∃ rest, second = token :: rest ∧ variation.Relates first rest := by
  rcases h.cons_cases ha with hkeep | ⟨_, _, _, _, harrow, _⟩
  · exact hkeep
  · exact absurd harrow.whole hk

theorem Variation.Relates.append {run run' : List Token} (h : variation.within.Relates run run')
    (k : variation.Relates first second) :
    variation.Relates (run ++ first) (run' ++ second) := by
  induction h with
  | rest => exact k
  | keep token _ ih => exact .keep token ih
  | cut hcuts harrow _ ih => exact .cut hcuts harrow ih

theorem Variation.Relates.sourceOf_eq (h : variation.within.Relates first second) :
    sourceOf second = sourceOf first := by
  induction h with
  | rest => rfl
  | keep token _ ih => simp [ih]
  | cut _ harrow _ ih =>
    simp [ih, harrow.text, String.append_assoc]

theorem Variation.Relates.filterMap_eq {α : Type} {f : Token → Option α}
    (h : variation.within.Relates first second)
    (hf : ∀ token : Token, token.kind.InArrow → f token = none) :
    second.filterMap f = first.filterMap f := by
  induction h with
  | rest => rfl
  | keep token _ ih => rw [List.filterMap_cons, List.filterMap_cons, ih]
  | cut _ harrow _ ih =>
    obtain ⟨hwhole, hleft, hright⟩ := harrow.inArrow
    simp only [List.filterMap_cons, hf _ hwhole, hf _ hleft, hf _ hright, ih]

/-- The two runs can be split where the first is read for `n` tokens and the second for `n'`. -/
def Variation.SplitsAt (variation : Variation) (n n' : Nat) (first second : List Token) : Prop :=
  ∃ run run' rest rest', first = run ++ rest ∧ second = run' ++ rest' ∧ run.length = n ∧
    run'.length = n' ∧ variation.within.Relates run run' ∧ variation.Relates rest rest'

theorem Variation.Relates.splitsAt_zero (h : variation.Relates first second) :
    variation.SplitsAt 0 0 first second :=
  ⟨[], [], first, second, rfl, rfl, rfl, rfl, .rest, h⟩

theorem Variation.splitsAt_nil (h : variation.tail = [] ∧ variation.other = []) :
    variation.SplitsAt 0 0 [] [] := by
  have hrest : variation.Relates variation.tail variation.other := .rest
  rw [h.1, h.2] at hrest
  exact hrest.splitsAt_zero

theorem Variation.SplitsAt.keep {n n' : Nat} (h : variation.SplitsAt n n' first second)
    (token : Token) : variation.SplitsAt (n + 1) (n' + 1) (token :: first) (token :: second) := by
  obtain ⟨run, run', rest, rest', rfl, rfl, rfl, rfl, hrun, hrest⟩ := h
  exact ⟨token :: run, token :: run', rest, rest', rfl, rfl, rfl, rfl, .keep token hrun, hrest⟩

theorem Variation.SplitsAt.cut {n n' : Nat} {arrow assign gt : Token}
    (h : variation.SplitsAt n n' first second) (hcuts : variation.cuts)
    (harrow : arrow.CutInTwo assign gt) :
    variation.SplitsAt (n + 1) (n' + 2) (arrow :: first) (assign :: gt :: second) := by
  obtain ⟨run, run', rest, rest', rfl, rfl, rfl, rfl, hrun, hrest⟩ := h
  exact ⟨arrow :: run, assign :: gt :: run', rest, rest', rfl, rfl, rfl, rfl,
    .cut hcuts harrow hrun, hrest⟩

theorem Variation.Relates.splitsAt_takeWhile {p : Token → Bool}
    (h : variation.Relates first second)
    (hp : ∀ token : Token, token.kind.InArrow → p token = false)
    (ha : variation.Ahead (first.drop (first.takeWhile p).length)) :
    variation.SplitsAt (first.takeWhile p).length (second.takeWhile p).length first second := by
  induction h with
  | rest =>
    have hnone := ha.no_tails
    rw [hnone.1, hnone.2]
    exact Variation.splitsAt_nil hnone
  | keep token h ih =>
    by_cases ht : p token = true
    · rw [List.takeWhile_cons_of_pos ht] at ha ⊢
      rw [List.takeWhile_cons_of_pos ht]
      exact (ih ha).keep token
    · rw [List.takeWhile_cons_of_neg ht, List.takeWhile_cons_of_neg ht]
      exact (h.keep token).splitsAt_zero
  | cut hcuts harrow h _ =>
    obtain ⟨hwhole, hleft, _⟩ := harrow.inArrow
    rw [List.takeWhile_cons_of_neg (by simp [hp _ hwhole]),
      List.takeWhile_cons_of_neg (by simp [hp _ hleft])]
    exact (h.cut hcuts harrow).splitsAt_zero

theorem Variation.Relates.splitsAt_lengthThrough {stop : Token → Bool}
    (h : variation.Relates first second)
    (hstop : ∀ token : Token, token.kind.InArrow → stop token = false)
    (ha : variation.Ahead (first.drop (lengthThrough stop first))) :
    variation.SplitsAt (lengthThrough stop first) (lengthThrough stop second) first second := by
  induction h with
  | rest =>
    have hnone := ha.no_tails
    rw [hnone.1, hnone.2]
    exact Variation.splitsAt_nil hnone
  | keep token h ih =>
    unfold lengthThrough at ha ⊢
    split
    next => exact h.splitsAt_zero.keep token
    next hgo =>
      rw [if_neg hgo] at ha
      exact (ih ha).keep token
  | cut hcuts harrow _ ih =>
    obtain ⟨hwhole, hleft, hright⟩ := harrow.inArrow
    simp only [lengthThrough, hstop _ hwhole, hstop _ hleft, hstop _ hright] at ha ⊢
    exact (ih ha).cut hcuts harrow

theorem statementLength_of_inArrow {token : Token} {opened : Bool} {depth : Int}
    (h : token.kind.InArrow) (hopen : opened = true → depth ≠ 0) (rest : List Token) :
    statementLength opened depth (token :: rest) = statementLength opened depth rest + 1 := by
  have hkind : token.kind ≠ .newline ∧ token.kind.opensBlock = false ∧
      token.kind.blockChange = 0 := by
    rcases h with hk | hk | hk <;> rw [hk] <;> decide
  obtain ⟨hline, hopens, hchange⟩ := hkind
  rw [statementLength]
  simp only [hline, hopens, hchange, Bool.or_false, Int.add_zero, false_and, false_or]
  rw [if_neg fun hs => hopen hs.1 hs.2]

theorem Variation.Relates.splitsAt_statementLength {opened : Bool} {depth : Int}
    (h : variation.Relates first second) (hopen : opened = true → depth ≠ 0)
    (ha : variation.Ahead (first.drop (statementLength opened depth first))) :
    variation.SplitsAt (statementLength opened depth first) (statementLength opened depth second)
      first second := by
  induction h generalizing opened depth with
  | rest =>
    have hnone := ha.no_tails
    rw [hnone.1, hnone.2]
    exact Variation.splitsAt_nil hnone
  | keep token h ih =>
    unfold statementLength at ha ⊢
    simp only at ha ⊢
    split
    next => exact h.splitsAt_zero.keep token
    next hgo =>
      rw [if_neg hgo] at ha
      exact (ih (fun ho hz => hgo (.inr ⟨ho, hz⟩)) ha).keep token
  | cut hcuts harrow _ ih =>
    obtain ⟨hwhole, hleft, hright⟩ := harrow.inArrow
    rw [statementLength_of_inArrow hwhole hopen] at ha ⊢
    rw [statementLength_of_inArrow hleft hopen, statementLength_of_inArrow hright hopen]
    exact (ih hopen ha).cut hcuts harrow

theorem nestedConstants_of_other {token : Token} (rest : List Token)
    (h : token.kind ≠ .colonColon) : nestedConstants (token :: rest) = ([], 0) := by
  cases rest <;> simp [nestedConstants, h]

/-- A path of constants is the same in both, and takes the same tokens. -/
theorem Variation.Relates.splitsAt_nestedConstants (h : variation.Relates first second)
    (ha : variation.Ahead (first.drop (nestedConstants first).2)) :
    nestedConstants second = nestedConstants first ∧
      variation.SplitsAt (nestedConstants first).2 (nestedConstants first).2 first second := by
  fun_induction nestedConstants first generalizing second with
  | case1 separator segment rest hcolons hconstant names n hrest ih =>
    rw [hrest] at ih
    have hrestAhead : variation.Ahead (rest.drop n) := ha
    have hsegment : variation.Ahead (segment :: rest) :=
      hrestAhead.of_suffix ((List.drop_suffix n rest).trans (List.suffix_cons segment rest))
    obtain ⟨tokens, rfl, htail⟩ := h.cons_of_ne
      (hsegment.of_suffix (List.suffix_cons _ _)) (by rw [hcolons]; decide)
    obtain ⟨later, rfl, hlater⟩ := htail.cons_of_ne hsegment (by rw [hconstant]; decide)
    obtain ⟨heq, hsplit⟩ := ih hlater hrestAhead
    exact ⟨by simp [nestedConstants, hcolons, hconstant, heq], (hsplit.keep segment).keep separator⟩
  | case2 separator segment rest hcolons hother =>
    have hsegment : variation.Ahead (segment :: rest) := ha
    obtain ⟨tokens, rfl, htail⟩ := h.cons_of_ne
      (hsegment.of_suffix (List.suffix_cons _ _)) (by rw [hcolons]; decide)
    refine ⟨?_, htail.splitsAt_zero.keep separator⟩
    rcases htail.cons_cases hsegment with ⟨_, rfl, _⟩ | ⟨assign, _, _, _, harrow, rfl, _⟩
    · simp [nestedConstants, hcolons, hother]
    · simp [nestedConstants, hcolons, harrow.left]
  | case3 separator segment rest hother =>
    refine ⟨?_, h.splitsAt_zero⟩
    rcases h.cons_cases ha with ⟨_, rfl, _⟩ | ⟨_, _, _, _, harrow, rfl, _⟩
    · exact nestedConstants_of_other _ hother
    · exact nestedConstants_of_other _ (by rw [harrow.left]; decide)
  | case4 separator =>
    by_cases hcolons : separator.kind = .colonColon
    · simp only [hcolons, if_true] at ha ⊢
      have hnone : variation.Ahead [] := ha
      obtain ⟨tokens, rfl, htail⟩ := h.cons_of_ne
        (hnone.of_suffix List.nil_suffix) (by rw [hcolons]; decide)
      obtain rfl := htail.eq_nil hnone
      exact ⟨by simp [nestedConstants, hcolons], htail.splitsAt_zero.keep separator⟩
    · simp only [hcolons, if_false] at ha ⊢
      refine ⟨?_, h.splitsAt_zero⟩
      rcases h.cons_cases ha with ⟨_, rfl, _⟩ | ⟨_, _, _, _, harrow, rfl, _⟩
      · exact nestedConstants_of_other _ hcolons
      · exact nestedConstants_of_other _ (by rw [harrow.left]; decide)
  | case5 =>
    obtain rfl := h.eq_nil ha
    exact ⟨rfl, h.splitsAt_zero⟩

/-- The two streams were read side by side: related runs were read from them, and what is left is
related. -/
structure Variation.InStep (variation : Variation) (before before' after after' : TokenStream) :
    Prop where
  reads : ∃ run run', TokenStream.Consumes run before after ∧
    TokenStream.Consumes run' before' after' ∧ variation.within.Relates run run'
  tokens : variation.Relates after.tokens after'.tokens

/-- What stands next in the two streams: nothing, the same token, or an arrow that is whole in one
and cut in two in the other. In each case the token can be pushed back. -/
inductive Variation.Meets (variation : Variation) (stream stream' : TokenStream) :
    Option Token × TokenStream → Option Token × TokenStream → Prop
  | none {after after' : TokenStream} : variation.InStep stream stream' after after' →
      Meets variation stream stream' (none, after) (none, after')
  | same {token : Token} {after after' : TokenStream} :
      variation.InStep stream stream' after after' →
      variation.InStep stream stream' (after.unget token) (after'.unget token) →
      Meets variation stream stream' (some token, after) (some token, after')
  | arrow {arrow assign gt : Token} {after between after' : TokenStream} :
      arrow.CutInTwo assign gt → between.next = (some gt, after') →
      variation.InStep stream stream' after after' →
      variation.InStep stream stream' (after.unget arrow) (between.unget assign) →
      Meets variation stream stream' (some arrow, after) (some assign, between)

variable {stream stream' : TokenStream}

theorem Variation.InStep.trans {a a' b b' c c' : TokenStream} (h : variation.InStep a a' b b')
    (k : variation.InStep b b' c c') : variation.InStep a a' c c' := by
  obtain ⟨run, run', hr, hr', hrun⟩ := h.reads
  obtain ⟨later, later', hl, hl', hlater⟩ := k.reads
  refine ⟨⟨run ++ later, run' ++ later', hr.trans hl, hr'.trans hl', ?_⟩, k.tokens⟩
  exact @Variation.Relates.append variation.within _ _ _ _ hrun hlater

theorem Variation.InStep.meets {a a' b b' : TokenStream} {read read' : Option Token × TokenStream}
    (h : variation.InStep a a' b b') (k : variation.Meets b b' read read') :
    variation.Meets a a' read read' := by
  cases k with
  | none hin => exact .none (h.trans hin)
  | same hin hback => exact .same (h.trans hin) (h.trans hback)
  | arrow harrow hnext hin hback => exact .arrow harrow hnext (h.trans hin) (h.trans hback)

@[simp] theorem TokenStream.tokens_peek (stream : TokenStream) :
    stream.peek.2.tokens = stream.tokens :=
  stream.consumes_peek.tokens.symm

@[simp] theorem TokenStream.tokens_read (n : Nat) (stream : TokenStream) :
    (stream.read n).2.tokens = stream.tokens.drop n := by
  unfold TokenStream.read
  split
  next hn => rw [hn, List.drop_zero]
  next => rfl

theorem Variation.InStep.peek {a a' b b' : TokenStream} (h : variation.InStep a a' b b') :
    variation.InStep a a' b.peek.2 b'.peek.2 := by
  refine h.trans ⟨⟨[], [], b.consumes_peek, b'.consumes_peek, .rest⟩, ?_⟩
  simp only [TokenStream.tokens_peek]
  exact h.tokens

theorem Variation.SplitsAt.read {n n' : Nat}
    (h : variation.SplitsAt n n' stream.tokens stream'.tokens) :
    variation.InStep stream stream' (stream.read n).2 (stream'.read n').2 ∧
      variation.within.Relates (stream.read n).1 (stream'.read n').1 := by
  obtain ⟨run, run', rest, rest', ht, ht', rfl, rfl, hrun, hrest⟩ := h
  obtain ⟨after, hr, hc⟩ := TokenStream.read_of_length ht
  obtain ⟨after', hr', hc'⟩ := TokenStream.read_of_length ht'
  rw [hr, hr']
  refine ⟨⟨⟨run, run', hc, hc', hrun⟩, ?_⟩, hrun⟩
  rw [hc.rest ht, hc'.rest ht']
  exact hrest

theorem TokenStream.consumes_next_unget {after : TokenStream} {token : Token}
    (h : stream.next = (some token, after)) :
    TokenStream.Consumes [] stream (after.unget token) := by
  obtain ⟨hc, hfree⟩ := TokenStream.consumes_next h
  have hrun : TokenStream.Consumes ([] ++ [token]) stream after := hc
  exact hrun.unget hfree

/-- Pushing back what was read last leaves the two streams as they were. -/
theorem Variation.Relates.inStep_unget {after after' : TokenStream} {token token' : Token}
    (h : variation.Relates stream.tokens stream'.tokens)
    (hn : stream.next = (some token, after)) (hn' : stream'.next = (some token', after')) :
    variation.InStep stream stream' (after.unget token) (after'.unget token') := by
  have hc := TokenStream.consumes_next_unget hn
  have hc' := TokenStream.consumes_next_unget hn'
  refine ⟨⟨[], [], hc, hc', .rest⟩, ?_⟩
  rw [hc.rest (List.nil_append _).symm, hc'.rest (List.nil_append _).symm]
  exact h

theorem Variation.Relates.meets_next (h : variation.Relates stream.tokens stream'.tokens)
    (ha : variation.Ahead stream.tokens) :
    variation.Meets stream stream' stream.next stream'.next := by
  cases ht : stream.tokens with
  | nil =>
    rw [ht] at h ha
    have ht' := h.eq_nil ha
    rw [TokenStream.next_of_nil ht, TokenStream.next_of_nil ht']
    exact .none ⟨⟨[], [], .refl stream, .refl stream', .rest⟩, by rw [ht, ht']; rwa [ht'] at h⟩
  | cons token tokens =>
    have hall := h
    rw [ht] at h ha
    obtain ⟨after, hn, hc, _⟩ := TokenStream.next_of_tokens ht
    rw [hn]
    rcases h.cons_cases ha with ⟨rest, ht', hrest⟩ | ⟨assign, gt, rest, hcuts, harrow, ht', hrest⟩
    · obtain ⟨after', hn', hc', _⟩ := TokenStream.next_of_tokens ht'
      rw [hn']
      refine .same ⟨⟨[token], [token], hc, hc', .keep token .rest⟩, ?_⟩ (hall.inStep_unget hn hn')
      rw [hc.rest ht, hc'.rest ht']
      exact hrest
    · obtain ⟨between, hb, hcb, _⟩ := TokenStream.next_of_tokens ht'
      have hgt : between.tokens = gt :: rest := hcb.rest ht'
      obtain ⟨after', hn', hc', _⟩ := TokenStream.next_of_tokens hgt
      rw [hb]
      refine .arrow harrow hn' ⟨⟨[token], [assign, gt], hc, hcb.trans hc', .cut hcuts harrow .rest⟩,
        ?_⟩ (hall.inStep_unget hn hb)
      rw [hc.rest ht, hc'.rest hgt]
      exact hrest

theorem Variation.Relates.inStep_skip {p : Token → Bool}
    (h : variation.Relates stream.tokens stream'.tokens)
    (hp : ∀ token : Token, token.kind.InArrow → p token = false)
    (ha : variation.Ahead (stream.read (stream.tokens.takeWhile p).length).2.peek.2.tokens) :
    variation.InStep stream stream' (stream.read (stream.tokens.takeWhile p).length).2.peek.2
      (stream'.read (stream'.tokens.takeWhile p).length).2.peek.2 := by
  rw [TokenStream.tokens_peek, TokenStream.tokens_read] at ha
  exact (h.splitsAt_takeWhile hp ha).read.1.peek

theorem TokenKind.InArrow.not_skipped {kind : TokenKind} (h : kind.InArrow) (crossLines : Bool) :
    kind.isSkipped crossLines = false := by
  rcases h with hk | hk | hk <;> rw [hk] <;> cases crossLines <;> rfl

theorem Variation.Relates.inStep_skipWhitespace {crossLines : Bool}
    (h : variation.Relates stream.tokens stream'.tokens)
    (ha : variation.Ahead (stream.skipWhitespace crossLines).tokens) :
    variation.InStep stream stream' (stream.skipWhitespace crossLines)
      (stream'.skipWhitespace crossLines) :=
  h.inStep_skip (fun _ hk => hk.not_skipped crossLines) ha

theorem Variation.Relates.meets_next_skip {crossLines : Bool}
    (h : variation.Relates stream.tokens stream'.tokens)
    (ha : variation.Ahead (stream.skipWhitespace crossLines).tokens) :
    variation.Meets stream stream' (stream.skipWhitespace crossLines).next
      (stream'.skipWhitespace crossLines).next := by
  have hskip := h.inStep_skipWhitespace ha
  exact hskip.meets (hskip.tokens.meets_next ha)

def heldTokens (read : Option Token × TokenStream) : List Token :=
  read.1.toList ++ read.2.tokens

@[simp] theorem heldTokens_next (stream : TokenStream) :
    heldTokens stream.next = stream.tokens := by
  unfold TokenStream.next
  split
  next h => simp [heldTokens, h]
  next token rest h => exact h.symm

theorem TokenStream.suffix_nextArgument (crossLines : Bool) (stream : TokenStream) :
    heldTokens (stream.nextArgument crossLines) <:+ (stream.skipWhitespace crossLines).tokens := by
  have hheld := heldTokens_next (stream.skipWhitespace crossLines)
  rw [← hheld]
  unfold TokenStream.nextArgument
  split
  next h => exact h ▸ List.suffix_rfl
  next token after h =>
    rw [h]
    split
    · rw [heldTokens_next]
      exact (after.reads_skipWhitespace true).suffix.trans (List.suffix_cons token after.tokens)
    · exact List.suffix_rfl

theorem Variation.Relates.meets_nextArgument {crossLines : Bool}
    (h : variation.Relates stream.tokens stream'.tokens)
    (ha : variation.Ahead (heldTokens (stream.nextArgument crossLines))) :
    variation.Meets stream stream' (stream.nextArgument crossLines)
      (stream'.nextArgument crossLines) := by
  have hm := h.meets_next_skip (ha.of_suffix (stream.suffix_nextArgument crossLines))
  unfold TokenStream.nextArgument at ha ⊢
  generalize (stream.skipWhitespace crossLines).next = read at hm ha ⊢
  generalize (stream'.skipWhitespace crossLines).next = read' at hm ⊢
  cases hm with
  | none hin => exact .none hin
  | same hin hback =>
    simp only at ha ⊢
    split
    next hparen =>
      rw [if_pos hparen, heldTokens_next] at ha
      exact hin.meets (hin.tokens.meets_next_skip ha)
    next => exact .same hin hback
  | arrow harrow hnext hin hback =>
    simp only [harrow.whole, harrow.left, reduceCtorEq, if_false]
    exact .arrow harrow hnext hin hback

end RakeOutline
