import RakeOutline.Proofs.Variation

namespace RakeOutline

theorem TokenStream.peek_of_cons {stream : TokenStream} {token : Token} {rest : List Token}
    (h : stream.tokens = token :: rest) :
    stream.peek.2 = { stream with unread := rest, pushedBack := some token } := by
  simp [TokenStream.peek, TokenStream.next, h, TokenStream.unget, TokenStream.pushBack,
    uncapture, Function.comp_def]

@[simp] theorem TokenStream.peek_peek (stream : TokenStream) :
    stream.peek.2.peek.2 = stream.peek.2 := by
  cases h : stream.tokens with
  | nil =>
    have hp : stream.peek.2 = stream := by simp [TokenStream.peek, TokenStream.next_of_nil h]
    rw [hp, hp]
  | cons token rest =>
    rw [TokenStream.peek_of_cons h]
    exact TokenStream.peek_of_cons rfl

theorem takeWhile_dropWhile (p : Token → Bool) (tokens : List Token) :
    (tokens.dropWhile p).takeWhile p = [] := by
  induction tokens with
  | nil => rfl
  | cons token tokens ih =>
    by_cases h : p token = true
    · rw [List.dropWhile_cons_of_pos h, ih]
    · rw [List.dropWhile_cons_of_neg h, List.takeWhile_cons_of_neg h]

@[simp] theorem TokenStream.skipWhitespace_idem (crossLines : Bool) (stream : TokenStream) :
    (stream.skipWhitespace crossLines).skipWhitespace crossLines =
      stream.skipWhitespace crossLines := by
  have ht : (stream.skipWhitespace crossLines).tokens =
      stream.tokens.dropWhile (·.kind.isSkipped crossLines) := by
    rw [TokenStream.skipWhitespace, TokenStream.tokens_peek, TokenStream.tokens_read]
    have hsplit := List.takeWhile_append_dropWhile
      (p := fun token : Token => token.kind.isSkipped crossLines) (l := stream.tokens)
    exact (congrArg (List.drop _) hsplit.symm).trans List.drop_left
  rw [TokenStream.skipWhitespace, ht, takeWhile_dropWhile]
  exact TokenStream.peek_peek _

theorem TokenStream.tokens_unget (token : Token) (stream : TokenStream) :
    (stream.unget token).tokens = token :: stream.tokens ∨
      (stream.unget token).tokens = stream.tokens := by
  unfold TokenStream.unget TokenStream.pushBack
  cases hp : stream.pushedBack with
  | none => exact .inl (by simp [TokenStream.tokens, hp])
  | some waiting => exact .inr (by simp [TokenStream.tokens, hp])

theorem TokenStream.suffix_unget (token : Token) (stream : TokenStream) :
    (stream.unget token).tokens <:+ token :: stream.tokens := by
  rcases stream.tokens_unget token with h | h
  · exact h ▸ List.suffix_rfl
  · exact h ▸ List.suffix_cons token stream.tokens

variable {variation : Variation} {stream stream' : TokenStream}

theorem Variation.Relates.readUntil (h : variation.Relates stream.tokens stream'.tokens)
    {kinds : List TokenKind} (hk : ∀ kind : TokenKind, kind.InArrow → kinds.contains kind = false)
    (ha : variation.Ahead (stream.readUntil kinds).2.tokens) :
    variation.InStep stream stream' (stream.readUntil kinds).2 (stream'.readUntil kinds).2 ∧
      variation.within.Relates (stream.readUntil kinds).1 (stream'.readUntil kinds).1 := by
  rw [TokenStream.readUntil, TokenStream.tokens_read] at ha
  exact (h.splitsAt_lengthThrough (fun token => hk token.kind) ha).read

theorem Variation.Relates.readBody (h : variation.Relates stream.tokens stream'.tokens)
    (ha : variation.Ahead stream.readBody.2.tokens) :
    variation.InStep stream stream' stream.readBody.2 stream'.readBody.2 ∧
      variation.within.Relates stream.readBody.1 stream'.readBody.1 := by
  rw [TokenStream.readBody, TokenStream.tokens_read] at ha
  exact (h.splitsAt_statementLength (by simp) ha).read

theorem Token.dependencyName?_of_inArrow {token : Token} (h : token.kind.InArrow)
    (kind : TaskKind) : token.dependencyName? kind = none := by
  rcases h with hk | hk | hk <;> simp [Token.dependencyName?, hk]

theorem TokenKind.InArrow.not_rBracket {kind : TokenKind} (h : kind.InArrow) :
    [TokenKind.rBracket].contains kind = false := by
  rcases h with hk | hk | hk <;> rw [hk] <;> rfl

theorem TokenStream.suffix_readDependencies (kind : TaskKind) (stream : TokenStream) :
    (stream.readDependencies kind).2.tokens <:+ (stream.skipWhitespace true).tokens := by
  have hs := (stream.skipWhitespace true).reads_readDependencies kind
  simp only [TokenStream.readDependencies, TokenStream.skipWhitespace_idem] at hs
  exact hs.suffix

theorem Variation.Relates.readDependencies (h : variation.Relates stream.tokens stream'.tokens)
    {kind : TaskKind} (ha : variation.Ahead (stream.readDependencies kind).2.tokens) :
    (stream'.readDependencies kind).1 = (stream.readDependencies kind).1 ∧
      variation.InStep stream stream' (stream.readDependencies kind).2
        (stream'.readDependencies kind).2 := by
  have hm := h.meets_next_skip (ha.of_suffix (stream.suffix_readDependencies kind))
  unfold TokenStream.readDependencies at ha ⊢
  generalize (stream.skipWhitespace true).next = read at hm ha ⊢
  generalize (stream'.skipWhitespace true).next = read' at hm ⊢
  cases hm with
  | none hin => exact ⟨rfl, hin⟩
  | @same token after after' hin hback =>
    simp only at ha ⊢
    by_cases hbracket : token.kind = .lBracket
    · simp only [hbracket, if_true] at ha ⊢
      obtain ⟨hstep, hrun⟩ := hin.tokens.readUntil (fun _ hk => hk.not_rBracket) ha
      refine ⟨hrun.filterMap_eq fun _ hk => ?_, hin.trans hstep⟩
      exact Token.dependencyName?_of_inArrow hk kind
    · simp only [hbracket, if_false] at ha ⊢
      cases token.dependencyName? kind with
      | some name => exact ⟨rfl, hin⟩
      | none => exact ⟨rfl, hback⟩
  | arrow harrow hnext hin hback =>
    obtain ⟨hwhole, hleft, _⟩ := harrow.inArrow
    simp only [harrow.whole, harrow.left, reduceCtorEq, if_false,
      Token.dependencyName?_of_inArrow hwhole, Token.dependencyName?_of_inArrow hleft]
    exact ⟨trivial, hback⟩

theorem TokenStream.suffix_readArrow_of_assign {token : Token} (h : token.kind = .assign)
    (kind : TaskKind) (stream : TokenStream) :
    (stream.readArrow kind token).2.tokens <:+ stream.tokens := by
  simp only [TokenStream.readArrow, h]
  split
  next hn => exact (TokenStream.next_eq_none hn).1 ▸ List.suffix_rfl
  next other after hn =>
    have ht := TokenStream.takes_next hn
    split
    · exact (ht.toReads.trans (after.reads_readDependencies kind)).suffix
    · exact ht.unget.suffix

/-- An arrow leads to the same dependencies, be it whole or cut in two. -/
theorem Variation.Meets.readArrow {token token' : Token} {after after' : TokenStream}
    (h : variation.Meets stream stream' (some token, after) (some token', after'))
    {kind : TaskKind} (ha : variation.Ahead (after.readArrow kind token).2.tokens) :
    (after'.readArrow kind token').1 = (after.readArrow kind token).1 ∧
      variation.InStep stream stream' (after.readArrow kind token).2
        (after'.readArrow kind token').2 := by
  cases h with
  | same hin hback =>
    cases hk : token.kind with
    | assoc =>
      simp only [TokenStream.readArrow, hk] at ha ⊢
      obtain ⟨heq, hstep⟩ := hin.tokens.readDependencies ha
      exact ⟨heq, hin.trans hstep⟩
    | assign =>
      have hm := hin.tokens.meets_next
        (ha.of_suffix (TokenStream.suffix_readArrow_of_assign hk kind after))
      simp only [TokenStream.readArrow, hk] at ha ⊢
      generalize after.next = read at hm ha ⊢
      generalize after'.next = read' at hm ⊢
      cases hm with
      | none hnext => exact ⟨rfl, hin.trans hnext⟩
      | @same other later later' hnext hunget =>
        simp only at ha ⊢
        by_cases hgt : other.kind = .gt
        · simp only [hgt, if_true] at ha ⊢
          obtain ⟨heq, hstep⟩ := hnext.tokens.readDependencies ha
          exact ⟨heq, (hin.trans hnext).trans hstep⟩
        · simp only [hgt, if_false]
          exact ⟨trivial, hin.trans hunget⟩
      | arrow harrow _ _ hunget =>
        -- An `=` before an arrow: the first half of the arrow is no `>`, so both put it back.
        simp only [harrow.whole, harrow.left, reduceCtorEq, if_false]
        exact ⟨trivial, hin.trans hunget⟩
    | _ =>
      simp only [TokenStream.readArrow, hk]
      exact ⟨trivial, hback⟩
  | arrow harrow hnext hin hback =>
    simp only [TokenStream.readArrow, harrow.whole, harrow.left, hnext, harrow.right, if_true]
      at ha ⊢
    obtain ⟨heq, hstep⟩ := hin.tokens.readDependencies ha
    exact ⟨heq, hin.trans hstep⟩

theorem symbolNames_eq (tokens : List Token) :
    symbolNames tokens = tokens.filterMap fun token =>
      if token.kind = .symbol then some token.literalName else none := by
  induction tokens with
  | nil => rfl
  | cons token tokens ih =>
    by_cases hk : token.kind = .symbol
    · simp_all [symbolNames]
    · simp_all [symbolNames]

theorem Variation.Relates.symbolNames_eq {first second : List Token}
    (h : variation.within.Relates first second) : symbolNames second = symbolNames first := by
  rw [RakeOutline.symbolNames_eq, RakeOutline.symbolNames_eq]
  refine h.filterMap_eq fun token hk => ?_
  rcases hk with hk | hk | hk <;> simp [hk]

theorem TokenStream.suffix_readArgumentNames (stream : TokenStream) :
    stream.readArgumentNames.2.tokens <:+ (stream.skipWhitespace true).tokens := by
  have hs := (stream.skipWhitespace true).reads_readArgumentNames
  simp only [TokenStream.readArgumentNames, TokenStream.skipWhitespace_idem] at hs
  exact hs.suffix

theorem Variation.Relates.readArgumentNames (h : variation.Relates stream.tokens stream'.tokens)
    (ha : variation.Ahead stream.readArgumentNames.2.tokens) :
    stream'.readArgumentNames.1 = stream.readArgumentNames.1 ∧
      variation.InStep stream stream' stream.readArgumentNames.2 stream'.readArgumentNames.2 := by
  have hm := h.meets_next_skip (ha.of_suffix stream.suffix_readArgumentNames)
  unfold TokenStream.readArgumentNames at ha ⊢
  generalize (stream.skipWhitespace true).next = read at hm ha ⊢
  generalize (stream'.skipWhitespace true).next = read' at hm ⊢
  cases hm with
  | none hin => exact ⟨rfl, hin⟩
  | @same token after after' hin hback =>
    simp only at ha ⊢
    by_cases hbracket : token.kind = .lBracket
    · simp only [hbracket, if_true] at ha ⊢
      obtain ⟨hstep, hrun⟩ := hin.tokens.readUntil (fun _ hk => hk.not_rBracket) ha
      exact ⟨congrArg some hrun.symbolNames_eq, hin.trans hstep⟩
    · simp only [hbracket, if_false]
      exact ⟨trivial, hback⟩
  | arrow harrow _ _ hback =>
    simp only [harrow.whole, harrow.left, reduceCtorEq, if_false]
    exact ⟨trivial, hback⟩

def TokenStream.readArrowNext (kind : TaskKind) (stream : TokenStream) :
    List String × TokenStream :=
  match (stream.skipWhitespace false).next with
  | (none, stream) => ([], stream)
  | (some token, stream) => stream.readArrow kind token

theorem TokenStream.readTaskArguments_of_names {kind : TaskKind}
    {stream named listed : TokenStream} {comma : Token} {names : List String}
    (hn : (stream.skipWhitespace false).next = (some comma, named)) (hk : comma.kind = .comma)
    (hl : named.readArgumentNames = (some names, listed)) :
    stream.readTaskArguments kind false =
      (⟨names, (listed.readArrowNext kind).1⟩, (listed.readArrowNext kind).2) := by
  simp only [TokenStream.readTaskArguments, hn, hk, hl, TokenStream.readArrowNext]
  cases (listed.skipWhitespace false).next with
  | mk token rest => cases token <;> rfl

theorem TokenStream.suffix_readArrowNext (kind : TaskKind) (stream : TokenStream) :
    (stream.readArrowNext kind).2.tokens <:+ (stream.skipWhitespace false).tokens := by
  unfold TokenStream.readArrowNext
  split
  next hn => exact (TokenStream.next_eq_none hn).1 ▸ List.suffix_rfl
  next hn => exact ((TokenStream.takes_next hn).readArrow kind).suffix

theorem Variation.Relates.readArrowNext (h : variation.Relates stream.tokens stream'.tokens)
    {kind : TaskKind} (ha : variation.Ahead (stream.readArrowNext kind).2.tokens) :
    (stream'.readArrowNext kind).1 = (stream.readArrowNext kind).1 ∧
      variation.InStep stream stream' (stream.readArrowNext kind).2
        (stream'.readArrowNext kind).2 := by
  have hm := h.meets_next_skip (ha.of_suffix (stream.suffix_readArrowNext kind))
  unfold TokenStream.readArrowNext at ha ⊢
  generalize (stream.skipWhitespace false).next = read at hm ha ⊢
  generalize (stream'.skipWhitespace false).next = read' at hm ⊢
  cases hm with
  | none hin => exact ⟨rfl, hin⟩
  | same hin hback => exact (Variation.Meets.same hin hback).readArrow ha
  | arrow harrow hnext hin hback =>
    exact (Variation.Meets.arrow harrow hnext hin hback).readArrow ha

theorem TokenStream.readTaskArguments_skip (kind : TaskKind) (stream : TokenStream) :
    (stream.skipWhitespace false).readTaskArguments kind false =
      stream.readTaskArguments kind false := by
  simp only [TokenStream.readTaskArguments, TokenStream.skipWhitespace_idem, Bool.false_eq_true,
    if_false]

theorem TokenStream.suffix_readTaskArguments (kind : TaskKind) (stream : TokenStream) :
    (stream.readTaskArguments kind false).2.tokens <:+ (stream.skipWhitespace false).tokens := by
  have hs := (stream.skipWhitespace false).reads_readTaskArguments kind false
  rw [TokenStream.readTaskArguments_skip] at hs
  exact hs.suffix

/-- After a comma come the names of the arguments, and then the arrow. -/
theorem Variation.InStep.readTaskArguments_of_comma {comma : Token} {after after' : TokenStream}
    {kind : TaskKind} (h : variation.InStep stream stream' after after')
    (hr : (stream.skipWhitespace false).next = (some comma, after))
    (hr' : (stream'.skipWhitespace false).next = (some comma, after'))
    (hcomma : comma.kind = .comma)
    (ha : variation.Ahead (stream.readTaskArguments kind false).2.tokens) :
    (stream'.readTaskArguments kind false).1 = (stream.readTaskArguments kind false).1 ∧
      variation.InStep stream stream' (stream.readTaskArguments kind false).2
        (stream'.readTaskArguments kind false).2 := by
  cases hl : after.readArgumentNames with
  | mk names listed =>
  cases hl' : after'.readArgumentNames with
  | mk names' listed' =>
  have hnames := h.tokens.readArgumentNames
  rw [hl, hl'] at hnames
  cases names with
  | none =>
    simp only [TokenStream.readTaskArguments, hr, hcomma, hl, if_true, Bool.false_eq_true,
      if_false] at ha ⊢
    obtain ⟨rfl, hstep⟩ := hnames ha
    simp only [hr', hcomma, hl', if_true]
    exact ⟨trivial, h.trans hstep⟩
  | some names =>
    rw [TokenStream.readTaskArguments_of_names hr hcomma hl] at ha ⊢
    have hlisted := (listed.suffix_readArrowNext kind).trans
      (listed.reads_skipWhitespace false).suffix
    obtain ⟨rfl, hstep⟩ := hnames (ha.of_suffix hlisted)
    rw [TokenStream.readTaskArguments_of_names hr' hcomma hl']
    obtain ⟨heq, harrow⟩ := hstep.tokens.readArrowNext ha
    exact ⟨congrArg (TaskArguments.mk names) heq, (h.trans hstep).trans harrow⟩

theorem Variation.Relates.readTaskArguments (h : variation.Relates stream.tokens stream'.tokens)
    {kind : TaskKind} {labelled : Bool}
    (ha : variation.Ahead (stream.readTaskArguments kind labelled).2.tokens) :
    (stream'.readTaskArguments kind labelled).1 = (stream.readTaskArguments kind labelled).1 ∧
      variation.InStep stream stream' (stream.readTaskArguments kind labelled).2
        (stream'.readTaskArguments kind labelled).2 := by
  cases labelled with
  | true =>
    simp only [TokenStream.readTaskArguments, if_true] at ha ⊢
    obtain ⟨heq, hstep⟩ := h.readDependencies ha
    exact ⟨congrArg (TaskArguments.mk []) heq, hstep⟩
  | false =>
    have hm := h.meets_next_skip (ha.of_suffix (stream.suffix_readTaskArguments kind))
    cases hr : (stream.skipWhitespace false).next with
    | mk token after =>
    cases hr' : (stream'.skipWhitespace false).next with
    | mk token' after' =>
    rw [hr, hr'] at hm
    cases hm with
    | none hin =>
      simp only [TokenStream.readTaskArguments, hr, hr', Bool.false_eq_true, if_false]
      exact ⟨trivial, hin⟩
    | @same token _ _ hin hback =>
      by_cases hcomma : token.kind = .comma
      · exact Variation.InStep.readTaskArguments_of_comma hin hr hr' hcomma ha
      · simp only [TokenStream.readTaskArguments, hr, hr', hcomma, Bool.false_eq_true, if_false]
          at ha ⊢
        obtain ⟨heq, hstep⟩ := (Variation.Meets.same hin hback).readArrow ha
        exact ⟨congrArg (TaskArguments.mk []) heq, hstep⟩
    | arrow harrow hnext hin hback =>
      simp only [TokenStream.readTaskArguments, hr, hr', harrow.whole, harrow.left, reduceCtorEq,
        Bool.false_eq_true, if_false] at ha ⊢
      obtain ⟨heq, hstep⟩ := (Variation.Meets.arrow harrow hnext hin hback).readArrow ha
      exact ⟨congrArg (TaskArguments.mk []) heq, hstep⟩

/-- The same declaration, read from a run of tokens that may differ. -/
inductive Variation.Redeclares (variation : Variation) : Declaration → Declaration → Prop
  | mk {declaration : Declaration} {signature body : List Token} :
      variation.within.Relates declaration.signature signature →
      variation.within.Relates declaration.body body →
      Redeclares variation declaration { declaration with signature, body }

theorem Variation.InStep.finishCapture {keyword : Token} {after after' : TokenStream}
    (h : variation.InStep (stream.startCaptureWith keyword) (stream'.startCaptureWith keyword)
      after after') :
    variation.InStep stream stream' after.finishCapture.2 after'.finishCapture.2 ∧
      variation.within.Relates after.captured after'.captured := by
  obtain ⟨⟨run, run', hr, hr', hrun⟩, ht⟩ := h
  obtain ⟨hs, hc⟩ := hr.finishCapture
  obtain ⟨hs', hc'⟩ := hr'.finishCapture
  rw [hs, hs']
  exact ⟨⟨⟨run, run', hc, hc', hrun⟩, ht⟩, .keep keyword hrun⟩

theorem TokenStream.suffix_readDeclaration (kind : TaskKind) (keyword : Token)
    (stream : TokenStream) :
    (stream.readDeclaration kind keyword).2.tokens <:+
      heldTokens ((stream.startCaptureWith keyword).nextArgument false) := by
  unfold TokenStream.readDeclaration
  split
  next h => rw [h]; exact List.suffix_rfl
  next token named h =>
    rw [h]
    split
    next =>
      have hargued := (named.reads_readTaskArguments kind (token.kind = .label)).suffix
      have hbody := (named.readTaskArguments kind (token.kind = .label)).2.finishCapture.2
        |>.consumes_readBody.suffix
      exact (hbody.trans hargued).trans (List.suffix_cons token named.tokens)
    next => exact TokenStream.suffix_unget token named

theorem Token.isTaskName_of_inArrow {token : Token} (h : token.kind.InArrow) :
    token.isTaskName = false := by
  rcases h with hk | hk | hk <;> simp [Token.isTaskName, hk]

theorem Variation.Relates.readDeclaration (h : variation.Relates stream.tokens stream'.tokens)
    {kind : TaskKind} {keyword : Token}
    (ha : variation.Ahead (stream.readDeclaration kind keyword).2.tokens) :
    Option.Rel variation.Redeclares (stream.readDeclaration kind keyword).1
        (stream'.readDeclaration kind keyword).1 ∧
      variation.InStep stream stream' (stream.readDeclaration kind keyword).2
        (stream'.readDeclaration kind keyword).2 := by
  have hstart : variation.Relates (stream.startCaptureWith keyword).tokens
      (stream'.startCaptureWith keyword).tokens := h
  have hm := hstart.meets_nextArgument (ha.of_suffix (stream.suffix_readDeclaration kind keyword))
  unfold TokenStream.readDeclaration at ha ⊢
  generalize (stream.startCaptureWith keyword).nextArgument false = read at hm ha ⊢
  generalize (stream'.startCaptureWith keyword).nextArgument false = read' at hm ⊢
  cases hm with
  | none hin => exact ⟨.none, hin.finishCapture.1⟩
  | @same name named named' hin hback =>
    simp only at ha ⊢
    by_cases hname : name.isTaskName = true
    · simp only [hname, if_true] at ha ⊢
      have hbody := (named.readTaskArguments kind (name.kind = .label)).2.finishCapture.2
        |>.consumes_readBody.suffix
      obtain ⟨heq, hargued⟩ := hin.tokens.readTaskArguments (ha.of_suffix hbody)
      obtain ⟨hstep, hsignature⟩ := (hin.trans hargued).finishCapture
      obtain ⟨hrest, hrun⟩ := hstep.tokens.readBody ha
      rw [heq, hin.finishCapture.2.sourceOf_eq]
      exact ⟨.some (.mk hsignature hrun), hstep.trans hrest⟩
    · simp only [hname]
      exact ⟨.none, hback.finishCapture.1⟩
  | arrow harrow hnext hin hback =>
    obtain ⟨hwhole, hleft, _⟩ := harrow.inArrow
    simp only [Token.isTaskName_of_inArrow hwhole, Token.isTaskName_of_inArrow hleft]
    exact ⟨.none, hback.finishCapture.1⟩

theorem TokenStream.suffix_readString (crossLines : Bool) (stream : TokenStream) :
    (stream.readString crossLines).2.tokens <:+ heldTokens (stream.nextArgument crossLines) := by
  unfold TokenStream.readString
  split
  next h => rw [h]; exact List.suffix_rfl
  next token after h =>
    rw [h]
    split
    next => exact List.suffix_cons token after.tokens
    next => exact TokenStream.suffix_unget token after

theorem Variation.Relates.readString (h : variation.Relates stream.tokens stream'.tokens)
    {crossLines : Bool} (ha : variation.Ahead (stream.readString crossLines).2.tokens) :
    (stream'.readString crossLines).1 = (stream.readString crossLines).1 ∧
      variation.InStep stream stream' (stream.readString crossLines).2
        (stream'.readString crossLines).2 := by
  have hm := h.meets_nextArgument (ha.of_suffix (stream.suffix_readString crossLines))
  unfold TokenStream.readString
  generalize stream.nextArgument crossLines = read at hm ⊢
  generalize stream'.nextArgument crossLines = read' at hm ⊢
  cases hm with
  | none hin => exact ⟨rfl, hin⟩
  | @same token after after' hin hback =>
    by_cases hstring : token.kind = .string
    · simp only [hstring, if_true]
      exact ⟨trivial, hin⟩
    · simp only [hstring, if_false]
      exact ⟨trivial, hback⟩
  | arrow harrow hnext hin hback =>
    simp only [harrow.whole, harrow.left, reduceCtorEq, if_false]
    exact ⟨trivial, hback⟩

theorem TokenStream.suffix_readNamespaceHead (stream : TokenStream) :
    stream.readNamespaceHead.2.tokens <:+ heldTokens (stream.nextArgument true) := by
  unfold TokenStream.readNamespaceHead
  split
  next h => rw [h]; exact List.suffix_rfl
  next token after h =>
    rw [h]
    split
    next =>
      exact (after.reads_skipWhitespace false).suffix.trans (List.suffix_cons token after.tokens)
    next => exact TokenStream.suffix_unget token after

theorem Variation.Relates.readNamespaceHead (h : variation.Relates stream.tokens stream'.tokens)
    (ha : variation.Ahead stream.readNamespaceHead.2.tokens) :
    stream'.readNamespaceHead.1 = stream.readNamespaceHead.1 ∧
      variation.InStep stream stream' stream.readNamespaceHead.2 stream'.readNamespaceHead.2 := by
  have hm := h.meets_nextArgument (ha.of_suffix stream.suffix_readNamespaceHead)
  unfold TokenStream.readNamespaceHead at ha ⊢
  generalize stream.nextArgument true = read at hm ha ⊢
  generalize stream'.nextArgument true = read' at hm ⊢
  cases hm with
  | none hin => exact ⟨rfl, hin⟩
  | @same token after after' hin hback =>
    simp only at ha ⊢
    by_cases hname : token.kind = .symbol ∨ token.kind = .string
    · simp only [hname, if_true] at ha ⊢
      exact ⟨trivial, hin.trans (hin.tokens.inStep_skipWhitespace ha)⟩
    · simp only [hname, if_false]
      exact ⟨trivial, hback⟩
  | arrow harrow hnext hin hback =>
    simp only [harrow.whole, harrow.left, reduceCtorEq, or_self, if_false]
    exact ⟨trivial, hback⟩

theorem Variation.Relates.skipConstantPath (h : variation.Relates stream.tokens stream'.tokens)
    (ha : variation.Ahead stream.skipConstantPath.tokens) :
    variation.InStep stream stream' stream.skipConstantPath stream'.skipConstantPath := by
  have hs := (stream.skipWhitespace false).reads_read_peek
    (((stream.skipWhitespace false).tokens.takeWhile fun token =>
      token.kind = .constant || token.kind = .colonColon).length)
  have hskip := h.inStep_skipWhitespace (ha.of_suffix hs.suffix)
  refine hskip.trans (hskip.tokens.inStep_skip ?_ ha)
  intro token hk
  rcases hk with hk | hk | hk <;> simp [hk]

theorem Variation.Relates.skipDefinitionName (h : variation.Relates stream.tokens stream'.tokens)
    (ha : variation.Ahead stream.skipDefinitionName.tokens) :
    variation.InStep stream stream' stream.skipDefinitionName stream'.skipDefinitionName := by
  have hnamed : stream.skipDefinitionName.tokens <:+
      (stream.skipConstantPath.skipWhitespace false).tokens := by
    unfold TokenStream.skipDefinitionName
    split
    next hn => exact (TokenStream.next_eq_none hn).1 ▸ List.suffix_rfl
    next hn =>
      have ht := TokenStream.takes_next hn
      split
      · exact (ht.toReads.trans (TokenStream.reads_skipConstantPath _)).suffix
      · exact ht.unget.suffix
  have hahead := ha.of_suffix hnamed
  have hpath := h.skipConstantPath
    (hahead.of_suffix (stream.skipConstantPath.reads_skipWhitespace false).suffix)
  have hm := hpath.meets (hpath.tokens.meets_next_skip hahead)
  unfold TokenStream.skipDefinitionName at ha ⊢
  generalize (stream.skipConstantPath.skipWhitespace false).next = read at hm ha ⊢
  generalize (stream'.skipConstantPath.skipWhitespace false).next = read' at hm ⊢
  cases hm with
  | none hin => exact hin
  | @same token after after' hin hback =>
    simp only at ha ⊢
    by_cases hbase : token.kind = .operator ∧ token.text = "<"
    · rw [if_pos hbase] at ha ⊢
      rw [if_pos hbase]
      exact hin.trans (hin.tokens.skipConstantPath ha)
    · rw [if_neg hbase, if_neg hbase]
      exact hback
  | arrow harrow hnext hin hback =>
    simp only [harrow.whole, harrow.left, reduceCtorEq, false_and, if_false]
    exact hback

theorem Variation.Relates.readConstantPath (h : variation.Relates stream.tokens stream'.tokens)
    {token : Token} (ha : variation.Ahead (stream.readConstantPath token).2.tokens) :
    (stream'.readConstantPath token).1 = (stream.readConstantPath token).1 ∧
      variation.InStep stream stream' (stream.readConstantPath token).2
        (stream'.readConstantPath token).2 := by
  unfold TokenStream.readConstantPath at ha ⊢
  simp only [TokenStream.tokens_peek, TokenStream.tokens_read] at ha
  obtain ⟨heq, hsplit⟩ := h.splitsAt_nestedConstants ha
  rw [heq]
  exact ⟨rfl, hsplit.read.1.peek⟩

/-- Runs that are related end in the same token, or in a piece of an arrow. -/
theorem Variation.Relates.last_cases {first second : List Token}
    (h : variation.within.Relates first second) :
    (first = [] ∧ second = []) ∨
      (∃ initial initial' token, first = initial ++ [token] ∧ second = initial' ++ [token] ∧
        variation.within.Relates initial initial') ∨
      ∃ initial initial' arrow gt, first = initial ++ [arrow] ∧ second = initial' ++ [gt] ∧
        arrow.kind.InArrow ∧ gt.kind.InArrow := by
  induction h with
  | rest => exact .inl ⟨rfl, rfl⟩
  | keep token _ ih =>
    rcases ih with ⟨rfl, rfl⟩ | ⟨initial, initial', last, rfl, rfl, hinitial⟩ |
      ⟨initial, initial', arrow, gt, rfl, rfl, hkinds⟩
    · exact .inr (.inl ⟨[], [], token, rfl, rfl, .rest⟩)
    · exact .inr (.inl ⟨token :: initial, token :: initial', last, rfl, rfl, .keep token hinitial⟩)
    · exact .inr (.inr ⟨token :: initial, token :: initial', arrow, gt, rfl, rfl, hkinds⟩)
  | @cut arrow assign gt _ _ hcuts harrow _ ih =>
    rcases ih with ⟨rfl, rfl⟩ | ⟨initial, initial', last, rfl, rfl, hinitial⟩ |
      ⟨initial, initial', other, other', rfl, rfl, hkinds⟩
    · obtain ⟨hwhole, _, hright⟩ := harrow.inArrow
      exact .inr (.inr ⟨[], [assign], arrow, gt, rfl, rfl, hwhole, hright⟩)
    · exact .inr (.inl ⟨arrow :: initial, assign :: gt :: initial', last, rfl, rfl,
        .cut hcuts harrow hinitial⟩)
    · exact .inr (.inr ⟨arrow :: initial, assign :: gt :: initial', other, other', rfl, rfl,
        hkinds⟩)

theorem statementLength_cons_pos (opened : Bool) (depth : Int) (token : Token)
    (rest : List Token) : 0 < statementLength opened depth (token :: rest) := by
  unfold statementLength
  simp only
  split <;> omega

theorem TokenStream.suffix_readBlockAfter (run : List Token) (stream : TokenStream) :
    (stream.readBlockAfter run).tokens <:+ stream.tokens := by
  unfold TokenStream.readBlockAfter
  split
  next => exact List.suffix_rfl
  next token _ =>
    split
    next =>
      rw [TokenStream.readBody, TokenStream.tokens_read]
      rcases stream.tokens_unget token with h | h
      · rw [h, ← Nat.succ_pred_eq_of_pos (statementLength_cons_pos false 0 token stream.tokens)]
        exact List.drop_suffix _ stream.tokens
      · rw [h]
        exact List.drop_suffix _ stream.tokens
    next => exact List.suffix_rfl

theorem TokenStream.consumes_readUntil_unget {kinds : List TokenKind} {initial : List Token}
    {token : Token} (h : (stream.readUntil kinds).1 = initial ++ [token]) :
    TokenStream.Consumes initial stream ((stream.readUntil kinds).2.unget token) ∧
      ((stream.readUntil kinds).2.unget token).tokens =
        token :: (stream.readUntil kinds).2.tokens := by
  have hc := stream.consumes_readUntil kinds
  rw [h] at hc
  have hback := hc.unget (TokenStream.free_read (by rw [← TokenStream.readUntil, h]; simp))
  exact ⟨hback, hback.rest (by rw [hc.tokens, List.append_assoc]; rfl)⟩

theorem TokenStream.readBlockAfter_of_inArrow {initial : List Token} {token : Token}
    (h : token.kind.InArrow) (stream : TokenStream) :
    stream.readBlockAfter (initial ++ [token]) = stream := by
  have hkind : token.kind ≠ .doBlock := by
    rcases h with hk | hk | hk <;> rw [hk] <;> decide
  simp only [TokenStream.readBlockAfter, List.getLast?_concat, hkind, if_false]

theorem Variation.Relates.readBlockAfter (h : variation.Relates stream.tokens stream'.tokens)
    {kinds : List TokenKind} (hk : ∀ kind : TokenKind, kind.InArrow → kinds.contains kind = false)
    (ha : variation.Ahead
      ((stream.readUntil kinds).2.readBlockAfter (stream.readUntil kinds).1).tokens) :
    variation.InStep stream stream'
      ((stream.readUntil kinds).2.readBlockAfter (stream.readUntil kinds).1)
      ((stream'.readUntil kinds).2.readBlockAfter (stream'.readUntil kinds).1) := by
  obtain ⟨hstep, hrun⟩ := h.readUntil hk (ha.of_suffix (TokenStream.suffix_readBlockAfter _ _))
  rcases hrun.last_cases with ⟨hf, hs⟩ | ⟨initial, initial', token, hf, hs, hinitial⟩ |
    ⟨_, _, arrow, gt, hf, hs, harrow, hgt⟩
  · rw [hf, hs]
    exact hstep
  · obtain ⟨hc, ht⟩ := TokenStream.consumes_readUntil_unget hf
    obtain ⟨hc', ht'⟩ := TokenStream.consumes_readUntil_unget hs
    rw [hf] at ha ⊢
    rw [hs]
    simp only [TokenStream.readBlockAfter, List.getLast?_concat] at ha ⊢
    split
    next hdo =>
      rw [if_pos hdo] at ha
      have hback : variation.InStep stream stream' ((stream.readUntil kinds).2.unget token)
          ((stream'.readUntil kinds).2.unget token) :=
        ⟨⟨initial, initial', hc, hc', hinitial⟩, by rw [ht, ht']; exact .keep token hstep.tokens⟩
      exact hback.trans (hback.tokens.readBody ha).1
    next => exact hstep
  · rw [hf, hs, TokenStream.readBlockAfter_of_inArrow harrow,
      TokenStream.readBlockAfter_of_inArrow hgt]
    exact hstep

theorem Variation.Relates.readBuilder (h : variation.Relates stream.tokens stream'.tokens)
    {ignored : List String} {token : Token}
    (ha : variation.Ahead (stream.readBuilder ignored token).2.tokens) :
    (stream'.readBuilder ignored token).1 = (stream.readBuilder ignored token).1 ∧
      variation.InStep stream stream' (stream.readBuilder ignored token).2
        (stream'.readBuilder ignored token).2 := by
  have hpath : (stream.readBuilder ignored token).2.tokens <:+
      (stream.readConstantPath token).2.tokens := by
    simp only [TokenStream.readBuilder]
    split
    · exact (TokenStream.reads_readUntil _ _).suffix
    · exact (TokenStream.reads_readBlockAfter _ _).suffix
  obtain ⟨heq, hstep⟩ := h.readConstantPath (ha.of_suffix hpath)
  simp only [TokenStream.readBuilder] at ha ⊢
  rw [heq]
  by_cases hignored : ignored.contains (stream.readConstantPath token).1 = true
  · simp only [hignored, if_true] at ha ⊢
    refine ⟨trivial, hstep.trans (hstep.tokens.readUntil ?_ ha).1⟩
    rintro kind (rfl | rfl | rfl) <;> rfl
  · simp only [hignored, Bool.false_eq_true, if_false] at ha ⊢
    refine ⟨trivial, hstep.trans (hstep.tokens.readBlockAfter ?_ ha)⟩
    rintro kind (rfl | rfl | rfl) <;> rfl

end RakeOutline
