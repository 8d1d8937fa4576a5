import RakeOutline.Proofs.Written

namespace RakeOutline

/-- The run ends a line and opens no block, or it opens blocks and closes as many. -/
def CompleteStatement (run : List Token) : Prop :=
  run.getLast?.map Token.kind = some .newline ∧ openers run = 0 ∨
    0 < openers run ∧ openers run = closers run

instance (run : List Token) : Decidable (CompleteStatement run) :=
  inferInstanceAs (Decidable (_ ∧ _ ∨ _ ∧ _))

/-- The run completes a statement that was read in part. In that part a block was opened or not,
and so many more blocks were opened than closed. -/
def Completes (opened : Bool) (depth : Int) (run : List Token) : Prop :=
  run ≠ [] ∧
    (run.getLast?.map Token.kind = some .newline ∧ opened = false ∧ openers run = 0 ∨
      (opened = true ∨ 0 < openers run) ∧ depth + openers run - closers run = 0)

theorem completes_start_iff (run : List Token) : Completes false 0 run ↔ CompleteStatement run := by
  unfold Completes CompleteStatement
  constructor
  · rintro ⟨_, ⟨hline, _, hnone⟩ | ⟨hopened, hclosed⟩⟩
    · exact .inl ⟨hline, hnone⟩
    · have hsome : 0 < openers run := by simpa using hopened
      exact .inr ⟨hsome, by omega⟩
  · rintro (⟨hline, hnone⟩ | ⟨hsome, hclosed⟩)
    · refine ⟨?_, .inl ⟨hline, rfl, hnone⟩⟩
      rintro rfl
      simp at hline
    · refine ⟨?_, .inr ⟨.inr hsome, by omega⟩⟩
      rintro rfl
      simp at hsome

theorem openers_cons_pos (token : Token) (tokens : List Token) :
    0 < openers (token :: tokens) ↔ token.kind.opensBlock = true ∨ 0 < openers tokens := by
  cases h : token.kind.opensBlock <;> simp [h, Nat.add_comm 1]

theorem completes_singleton (opened : Bool) (depth : Int) (token : Token) :
    Completes opened depth [token] ↔ (token.kind = .newline ∧ ¬ opened = true) ∨
      ((opened || token.kind.opensBlock) = true ∧ depth + token.kind.blockChange = 0) := by
  have hchange := token.kind.blockChange_eq
  have hopens : 0 < openers [token] ↔ token.kind.opensBlock = true := by
    rw [openers_cons_pos]
    simp
  unfold Completes
  rw [hopens, Bool.or_eq_true]
  simp only [blockCounts_cons, blockCounts_nil]
  constructor
  · rintro ⟨_, ⟨hlast, hclosed, _⟩ | ⟨hopened, hdepth⟩⟩
    · exact .inl ⟨by simpa using hlast, by simp [hclosed]⟩
    · exact .inr ⟨hopened, by omega⟩
  · rintro (⟨hlast, hclosed⟩ | ⟨hopened, hdepth⟩)
    · exact ⟨by simp, .inl ⟨by simp [hlast], by simpa using hclosed,
        by simp [hlast, TokenKind.opensBlock]⟩⟩
    · exact ⟨by simp, .inr ⟨hopened, by omega⟩⟩

theorem completes_cons (opened : Bool) (depth : Int) (token : Token) {run : List Token}
    (hne : run ≠ []) :
    Completes opened depth (token :: run) ↔
      Completes (opened || token.kind.opensBlock) (depth + token.kind.blockChange) run := by
  have hlast : (token :: run).getLast? = run.getLast? := by
    rw [List.getLast?_cons, List.getLast?_eq_some_getLast hne]
    rfl
  have hopened : (opened = true ∨ 0 < openers (token :: run)) ↔
      ((opened || token.kind.opensBlock) = true ∨ 0 < openers run) := by
    rw [openers_cons_pos, Bool.or_eq_true, or_assoc]
  have hnone : (opened = false ∧ openers (token :: run) = 0) ↔
      ((opened || token.kind.opensBlock) = false ∧ openers run = 0) := by
    simpa [not_or] using not_congr hopened
  have hdepth : depth + openers (token :: run) - closers (token :: run) =
      depth + token.kind.blockChange + openers run - closers run := by
    simp [token.kind.blockChange_eq]
    omega
  unfold Completes
  rw [hlast, hnone, hopened, hdepth]
  simp [hne]

theorem statementLength_le {tokens run : List Token} {opened : Bool} {depth : Int}
    (hrun : run <+: tokens) (h : Completes opened depth run) :
    statementLength opened depth tokens ≤ run.length := by
  induction tokens generalizing opened depth run with
  | nil => exact Nat.zero_le _
  | cons token tokens ih =>
    obtain rfl | ⟨later, rfl, hlater⟩ := List.prefix_cons_iff.mp hrun
    · exact absurd rfl h.1
    rw [statementLength]
    split
    next => simp
    next hgo =>
      by_cases hne : later = []
      · subst hne
        exact absurd ((completes_singleton opened depth token).mp h) hgo
      · have hle := ih hlater ((completes_cons opened depth token hne).mp h)
        rw [List.length_cons]
        omega

/-- The tokens up to the length of the statement complete it, unless there are no others. -/
theorem completes_take (opened : Bool) (depth : Int) (tokens : List Token) :
    Completes opened depth (tokens.take (statementLength opened depth tokens)) ∨
      statementLength opened depth tokens = tokens.length := by
  induction tokens generalizing opened depth with
  | nil => exact .inr rfl
  | cons token tokens ih =>
    rw [statementLength]
    split
    next hstop =>
      left
      rw [List.take_succ_cons, List.take_zero]
      exact (completes_singleton opened depth token).mpr hstop
    next =>
      rcases ih (opened || token.kind.opensBlock) (depth + token.kind.blockChange) with h | h
      · left
        rw [List.take_succ_cons]
        exact (completes_cons opened depth token h.1).mpr h
      · right
        rw [h, List.length_cons]

theorem TokenStream.readBody_fst (stream : TokenStream) :
    stream.readBody.1 = stream.tokens.take (statementLength false 0 stream.tokens) := by
  unfold TokenStream.readBody TokenStream.read
  split
  next hzero => rw [hzero, List.take_zero]
  next => rfl

/-- The run is the shortest complete statement that the tokens begin with. -/
structure ShortestStatement (tokens run : List Token) : Prop where
  initial : run <+: tokens
  complete : CompleteStatement run
  shortest : ∀ other, other <+: tokens → CompleteStatement other → run.length ≤ other.length

theorem TokenStream.shortest_readBody {stream : TokenStream} {run : List Token}
    (hrun : run <+: stream.tokens) (h : CompleteStatement run) :
    ShortestStatement stream.tokens stream.readBody.1 := by
  have hle : ∀ other, other <+: stream.tokens → CompleteStatement other →
      stream.readBody.1.length ≤ other.length := by
    intro other hother hc
    have hl := statementLength_le hother ((completes_start_iff other).mpr hc)
    rw [stream.readBody_fst, List.length_take]
    omega
  rw [stream.readBody_fst] at hle ⊢
  refine ⟨List.take_prefix _ _, ?_, hle⟩
  rcases completes_take false 0 stream.tokens with hc | hall
  · exact (completes_start_iff _).mp hc
  · -- all tokens are taken, and the complete run is not shorter, so it is all of them
    rw [hall, List.take_length] at hle ⊢
    exact hrun.eq_of_length_le (hle run hrun h) ▸ h

theorem TokenStream.readBody_of_incomplete {stream : TokenStream}
    (h : ∀ run, run <+: stream.tokens → ¬ CompleteStatement run) :
    stream.readBody.1 = stream.tokens := by
  rw [stream.readBody_fst]
  rcases completes_take false 0 stream.tokens with hc | hall
  · exact absurd ((completes_start_iff _).mp hc) (h _ (List.take_prefix _ _))
  · rw [hall, List.take_length]

/-- Reading a body takes the shortest complete statement off the stream, or all of it if no start of
it is complete. In particular a block on the line is taken with its own `end` and no further. -/
theorem body_is_shortest_complete_statement (stream : TokenStream) :
    TokenStream.Consumes stream.readBody.1 stream stream.readBody.2 ∧
    ((∃ run, run <+: stream.tokens ∧ CompleteStatement run) →
      ShortestStatement stream.tokens stream.readBody.1) ∧
    ((∀ run, run <+: stream.tokens → ¬ CompleteStatement run) →
      stream.readBody.1 = stream.tokens ∧ stream.readBody.2.isExhausted = true) ∧
    (∀ (lead inner rest : List Token) (opener closer : Token),
      stream.tokens = lead ++ [opener] ++ inner ++ [closer] ++ rest →
      (∀ token ∈ lead, token.kind ≠ .newline ∧ token.kind.opensBlock = false ∧
        token.kind ≠ .endBlock) →
      opener.kind.opensBlock = true → Balanced inner → closer.kind = .endBlock →
      stream.readBody.1 = lead ++ [opener] ++ inner ++ [closer] ∧
        stream.readBody.2.tokens = rest) := by
  have hc := stream.consumes_readBody
  refine ⟨hc, ?_, ?_, ?_⟩
  · rintro ⟨run, hrun, hcomplete⟩
    exact TokenStream.shortest_readBody hrun hcomplete
  · intro hnone
    have hall := TokenStream.readBody_of_incomplete hnone
    rw [hall] at hc
    have hrest : stream.readBody.2.tokens = [] := hc.rest (List.append_nil _).symm
    exact ⟨hall, by rw [TokenStream.isExhausted, hrest]; rfl⟩
  · intro lead inner rest opener closer ht hlead hopener hinner hcloser
    have hplain : ∀ token ∈ lead, token.kind ≠ .newline ∧ token.kind.opensBlock = false ∧
        token.kind.closesBlock = false := by
      intro token hm
      obtain ⟨hline, hopens, hend⟩ := hlead token hm
      exact ⟨hline, hopens, by simp [TokenKind.closesBlock, hend]⟩
    have hlength := statementLength_block lead rest hplain hopener hinner hcloser
    have hrun : lead ++ opener :: (inner ++ [closer]) = lead ++ [opener] ++ inner ++ [closer] := by
      simp
    have hall : lead ++ opener :: (inner ++ closer :: rest) =
        lead ++ [opener] ++ inner ++ [closer] ++ rest := by
      simp
    rw [hrun, hall] at hlength
    obtain ⟨after, hread, hcr⟩ := TokenStream.readBody_of_tokens ht hlength
    rw [hread]
    exact ⟨rfl, hcr.rest ht⟩

theorem body_is_shortest_complete_statement_at_ends :
    let tokens (kinds : List TokenKind) : List Token := kinds.map fun kind => ⟨kind, 1, 0, ""⟩
    let inner := tokens [.newline, .ifBlock, .newline, .endBlock, .ifModifier, .newline]
    let run := tokens [.space] ++ tokens [.whileLoop] ++ inner ++ tokens [.endBlock]
    let block : TokenStream := { unread := run ++ tokens [.endBlock, .newline] }
    let stray : TokenStream := { unread := tokens [.endBlock, .doBlock, .endBlock, .newline] }
    let unclosed : TokenStream := { unread := tokens [.doBlock, .newline, .ifBlock, .endBlock] }
    (Balanced inner ∧ block.readBody.1 = run ∧
      block.readBody.2.tokens = tokens [.endBlock, .newline]) ∧
    (CompleteStatement (tokens [.endBlock, .doBlock]) ∧
      ShortestStatement stray.tokens stray.readBody.1) ∧
    (∀ run, run <+: unclosed.tokens → ¬ CompleteStatement run) ∧
      unclosed.readBody.1 = unclosed.tokens ∧ unclosed.readBody.2.isExhausted = true := by
  intro tokens inner run block stray unclosed
  have hinner : Balanced inner := by decide
  have hstray : CompleteStatement (tokens [.endBlock, .doBlock]) := by decide
  have hinits : ∀ run ∈ unclosed.tokens.inits, ¬ CompleteStatement run := by decide
  have hnone : ∀ run, run <+: unclosed.tokens → ¬ CompleteStatement run := fun run hrun =>
    hinits run ((List.mem_inits run unclosed.tokens).mpr hrun)
  obtain ⟨_, _, _, hblock⟩ := body_is_shortest_complete_statement block
  obtain ⟨_, hshortest, _, _⟩ := body_is_shortest_complete_statement stray
  obtain ⟨_, _, hall, _⟩ := body_is_shortest_complete_statement unclosed
  exact ⟨⟨hinner, hblock (tokens [.space]) inner _ _ _ rfl (by decide) rfl hinner rfl⟩,
    ⟨hstray, hshortest ⟨_, ⟨tokens [.endBlock, .newline], rfl⟩, hstray⟩⟩, hnone, hall hnone⟩

end RakeOutline
