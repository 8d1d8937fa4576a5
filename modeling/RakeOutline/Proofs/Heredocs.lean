import RakeOutline.Proofs.Lexing

namespace RakeOutline

def terminatorsOf (tokens : List Token) : List Terminator :=
  (tokens.filter (·.kind = .heredoc)).map fun token => .ofOpener token.text.toList

/-- Where `before` is open at the start, the tokens end with a line break at which `after` is open,
and no heredoc is open at an earlier one. -/
inductive OpenAtBreak : List Terminator → List Token → List Terminator → Prop
  | last {terminators : List Terminator} {newline : Token} (hn : newline.kind = .newline) :
      OpenAtBreak terminators [newline] terminators
  | line {newline : Token} {rest : List Token} {after : List Terminator}
      (hn : newline.kind = .newline) (hrest : OpenAtBreak [] rest after) :
      OpenAtBreak [] (newline :: rest) after
  | token {before after : List Terminator} {token : Token} {rest : List Token}
      (hk : token.kind ≠ .newline)
      (hrest : OpenAtBreak (openAfter token.kind token.text.toList before) rest after) :
      OpenAtBreak before (token :: rest) after

theorem openAfter_of_ne {kind : TokenKind} (hn : kind ≠ .newline) (hh : kind ≠ .heredoc)
    (text : List Char) (terminators : List Terminator) :
    openAfter kind text terminators = terminators := by
  unfold openAfter
  split <;> simp_all

/-- On one line the heredocs wait in the order in which they are opened. -/
theorem openAtBreak_line {line : List Token} {newline : Token} (hn : newline.kind = .newline)
    (hline : ∀ token ∈ line, token.kind ≠ .newline) (terminators : List Terminator) :
    OpenAtBreak terminators (line ++ [newline]) (terminators ++ terminatorsOf line) := by
  induction line generalizing terminators with
  | nil =>
    rw [terminatorsOf, List.filter_nil, List.map_nil, List.append_nil]
    exact .last hn
  | cons token line ih =>
    obtain ⟨hk, hline⟩ := List.forall_mem_cons.mp hline
    have hrest := ih hline (openAfter token.kind token.text.toList terminators)
    have hopen : openAfter token.kind token.text.toList terminators ++ terminatorsOf line =
        terminators ++ terminatorsOf (token :: line) := by
      by_cases hh : token.kind = .heredoc
      · simp [openAfter, terminatorsOf, hh]
      · simp [openAfter_of_ne hk hh, terminatorsOf, hh]
    exact .token hk (hopen ▸ hrest)

theorem openAtBreak_append {earlier rest : List Token} {after : List Terminator}
    (hearlier : ∀ token ∈ earlier, token.kind ≠ .heredoc) (h : OpenAtBreak [] rest after) :
    OpenAtBreak [] (earlier ++ rest) after := by
  induction earlier with
  | nil => exact h
  | cons token earlier ih =>
    obtain ⟨hh, hearlier⟩ := List.forall_mem_cons.mp hearlier
    by_cases hn : token.kind = .newline
    · exact .line hn (ih hearlier)
    · refine .token hn ?_
      rw [openAfter_of_ne hn hh]
      exact ih hearlier

theorem OpenAtBreak.exists_last {before after : List Terminator} {tokens : List Token}
    (h : OpenAtBreak before tokens after) :
    ∃ init newline, tokens = init ++ [newline] ∧ newline.kind = .newline := by
  induction h with
  | last hn => exact ⟨[], _, rfl, hn⟩
  | line hn hrest ih =>
    obtain ⟨init, newline, rfl, hn'⟩ := ih
    exact ⟨_ :: init, newline, rfl, hn'⟩
  | token hk hrest ih =>
    obtain ⟨init, newline, rfl, hn⟩ := ih
    exact ⟨_ :: init, newline, rfl, hn⟩

theorem lexemeAt_settled {lineStart : Bool} {text : List Char}
    (h : (lexemeAt lineStart (text ++ ['\n'])).2 ≤ text.length)
    (ha : lineStart = true → (lexemeAt lineStart (text ++ ['\n'])).1 ≠ .assign)
    (rest : List Char) :
    lexemeAt lineStart (text ++ '\n' :: rest) = lexemeAt lineStart (text ++ ['\n']) := by
  by_cases hd : (tokenAt (text ++ ['\n'])).1 = .assign ∧ lineStart = true
  · have hne : text ≠ [] := by
      rintro rfl
      rw [List.nil_append, tokenAt_newline] at hd
      simp at hd
    have hone : (tokenAt (text ++ ['\n'])).2 ≤ text.length := by
      rw [tokenAt_eq_assign hd.1]
      exact List.length_pos_iff.mpr hne
    cases hn : documentLength? (text ++ ['\n']) with
    | none => exact absurd (by simp [lexemeAt, hd, hn]) (ha hd.2)
    | some n => simp [lexemeAt, tokenAt_settled hone, hd, hn, documentLength?_newline hn rest]
  · have ht : (tokenAt (text ++ ['\n'])).2 ≤ text.length := by
      simpa only [lexemeAt, if_neg hd] using h
    simp only [lexemeAt, tokenAt_settled ht, if_neg hd]

theorem Cuts.text_newline {position : Position} {terminators : List Terminator} {text : List Char}
    {tokens : List Token} (h : Cuts position terminators text tokens) :
    ∀ token ∈ tokens, token.kind = .newline → token.text = "\n" := by
  induction h with
  | nil => simp
  | piece hne hk hat hrest ih =>
    exact List.forall_mem_cons.mpr ⟨fun he => absurd he hk, ih⟩
  | line hnone hrest ih => exact List.forall_mem_cons.mpr ⟨fun _ => rfl, ih⟩
  | fold hbody hrest ih =>
    exact List.forall_mem_cons.mpr ⟨fun _ => rfl,
      List.forall_mem_cons.mpr ⟨fun he => absurd he (by simp [Position.token]), ih⟩⟩

theorem Cuts.ends_with_newline {position : Position} {terminators : List Terminator}
    {text : List Char} {init : List Token} {newline : Token}
    (h : Cuts position terminators text (init ++ [newline])) (hn : newline.kind = .newline) :
    ∃ before, text = before ++ ['\n'] := by
  have ht := h.text_newline newline (by simp) hn
  refine ⟨(sourceOf init).toList, ?_⟩
  simp [← h.text_eq, ht]

@[simp] theorem heredocLength?_nil (text : List Char) : heredocLength? [] text = none :=
  rfl

/-- The tokens of a text that ends with a line break stay when more is written after it, and the
bodies of the heredocs that are open there are folded. An equals sign at the start of a line is
left out, since a document that it begins could end in what is written after. -/
theorem Cuts.extend {position : Position} {before after : List Terminator} {text : List Char}
    {tokens more : List Token} {body rest : List Char} (h : Cuts position before text tokens)
    (hopen : OpenAtBreak before tokens after)
    (hassign : ∀ token ∈ tokens, token.kind = .assign → token.column ≠ 0)
    (hbody : heredocLength? after (body ++ rest) = some body.length)
    (hrest : Cuts ((position.advance text).advance body) [] rest more) :
    Cuts position before (text ++ (body ++ rest))
      (tokens ++ (position.advance text).token .string body :: more) := by
  induction h with
  | nil => cases hopen
  | @piece position before kind text tail tokens hne hk hat hcuts ih =>
    obtain ⟨ha, hassign⟩ := List.forall_mem_cons.mp hassign
    cases hopen with
    | last hn => exact absurd hn hk
    | line hn => exact absurd hn hk
    | token _ hopen =>
      rw [Position.toList_token] at hopen
      rw [Position.advance_append] at hrest ⊢
      obtain ⟨init, newline, rfl, hn⟩ := hopen.exists_last
      obtain ⟨start, rfl⟩ := hcuts.ends_with_newline hn
      rw [← List.append_assoc] at hat
      have hsettled : lexemeAt position.startsLine ((text ++ start) ++ '\n' :: (body ++ rest)) =
          (kind, text.length) := by
        rw [lexemeAt_settled, hat]
        · rw [hat, List.length_append]
          omega
        · rw [hat]
          intro hs he
          have hzero : position.column = 0 := by simpa [Position.startsLine] using hs
          exact ha he hzero
      have hassoc : (text ++ start) ++ '\n' :: (body ++ rest) =
          text ++ ((start ++ ['\n']) ++ (body ++ rest)) := by simp
      rw [hassoc] at hsettled
      rw [List.append_assoc text]
      exact .piece hne hk hsettled (ih hopen hassign hrest)
  | @line position before tail tokens hnone hcuts ih =>
    obtain ⟨_, hassign⟩ := List.forall_mem_cons.mp hassign
    cases hopen with
    | last hn =>
      obtain rfl : tail = [] := hcuts.text_eq.symm
      exact .fold hbody hrest
    | line hn hopen => exact .line (heredocLength?_nil _) (ih hopen hassign hrest)
    | token hk => exact absurd rfl hk
  | fold hfold hcuts ih =>
    cases hopen with
    | line => simp at hfold
    | token hk => exact absurd rfl hk

def Token.code (token : Token) : TokenKind × String :=
  (token.kind, token.text)

theorem column_advance {first second : Position} (h : first.column = second.column)
    (text : List Char) : (first.advance text).column = (second.advance text).column := by
  induction text generalizing first second with
  | nil => exact h
  | cons c text ih =>
    apply ih
    unfold Position.step
    split
    · rfl
    · exact congrArg (· + 1) h

theorem unlined_place {first second : Position} (h : first.column = second.column)
    (list : List Lexeme) :
    (place first list).map Token.unlined = (place second list).map Token.unlined := by
  induction list generalizing first second with
  | nil => rfl
  | cons lexeme list ih =>
    rw [place, place, List.map_cons, List.map_cons, ih (column_advance h lexeme.text)]
    simp only [Token.unlined, h]

/-- Where a text begins in its line decides how its keywords are resolved; the number of the line
does not matter. -/
theorem code_resolveKeywords_place {first second : Position} (h : first.column = second.column)
    (list : List Lexeme) :
    (resolveKeywords (place first list)).map Token.code =
      (resolveKeywords (place second list)).map Token.code := by
  have hcode : ∀ tokens : List Token,
      tokens.map Token.code = (tokens.map Token.unlined).map Token.code := by
    intro tokens
    rw [List.map_map]
    rfl
  rw [hcode, ← resolveKeywords_unlined, unlined_place h, resolveKeywords_unlined, ← hcode]

theorem resolveKeywords_of_fixed (line : List Token) {newline : Token}
    (hn : newline.kind = .newline)
    (hself : resolveKeywords (line ++ [newline]) = line ++ [newline]) (rest : List Token) :
    resolveKeywords (line ++ newline :: rest) = line ++ newline :: resolveKeywords rest := by
  obtain ⟨resolved, h⟩ := resolveKeywords_newline hn line
  have hline : resolved = line := List.append_cancel_right ((h []).symm.trans hself)
  rw [h, hline]

theorem resolveKeywords_of_newline {newline : Token} (hn : newline.kind = .newline)
    (rest : List Token) : resolveKeywords (newline :: rest) = newline :: resolveKeywords rest := by
  apply resolveKeywords_of_fixed [] hn
  cases newline
  simp_all [resolveKeywords, demoteMethods, mergeLabels, classify, LineState.kindOf]

theorem resolveKeywords_of_string {body newline : Token} (hb : body.kind = .string)
    (hn : newline.kind = .newline) (rest : List Token) :
    resolveKeywords (body :: newline :: rest) = body :: newline :: resolveKeywords rest := by
  apply resolveKeywords_of_fixed [body] hn
  cases body
  cases newline
  simp_all [resolveKeywords, demoteMethods, mergeLabels, classify, LineState.kindOf,
    TokenKind.namesLabel, TokenKind.isKeyword, TokenKind.opensBlock]

theorem lexemes_of_line_feed (lineStart : Bool) (rest : List Char) :
    lexemes lineStart [] ('\n' :: rest) = ⟨.newline, ['\n']⟩ :: lexemes true [] rest :=
  lexemes_line lineStart (heredocLength?_nil rest)

/-- After a string, a rest that begins a new line is to its kinds and texts as if it stood alone. -/
theorem Cuts.code_after_string {position : Position} {rest : String} {more : List Token}
    (h : Cuts position [] rest.toList more)
    (hrest : rest = "" ∨ rest.toList.head? = some '\n') {string : Token}
    (hs : string.kind = .string) :
    ∃ later, resolveKeywords (string :: more) = string :: later ∧
      later.map Token.code = (lex rest).map Token.code := by
  rcases hrest with rfl | hhead
  · obtain rfl : more = [] := by simpa [lexemes, place] using h.eq_place
    refine ⟨[], ?_, ?_⟩
    · cases string
      simp_all [resolveKeywords, demoteMethods, mergeLabels, classify, LineState.kindOf]
    · simp [lex, tokenize, lexemes, place, resolveKeywords, demoteMethods, mergeLabels, classify]
  · obtain ⟨tail, htail⟩ := List.head?_eq_some_iff.mp hhead
    have hmore := h.eq_place
    rw [htail, lexemes_of_line_feed, place] at hmore
    refine ⟨_, by rw [hmore]; exact resolveKeywords_of_string hs rfl _, ?_⟩
    have hlex : lex rest = Position.token {} .newline ['\n'] ::
        resolveKeywords (place (Position.advance {} ['\n']) (lexemes true [] tail)) := by
      rw [lex, tokenize, htail, lexemes_of_line_feed, place]
      exact resolveKeywords_of_newline rfl _
    have hcolumn : (position.advance ['\n']).column = (Position.advance {} ['\n']).column := rfl
    rw [hlex, List.map_cons, List.map_cons, code_resolveKeywords_place hcolumn]
    rfl

theorem OpenAtBreak.resolveKeywords_append {before after : List Terminator} {tokens : List Token}
    (h : OpenAtBreak before tokens after) (rest : List Token) :
    resolveKeywords (tokens ++ rest) = resolveKeywords tokens ++ resolveKeywords rest := by
  obtain ⟨init, newline, rfl, hn⟩ := h.exists_last
  obtain ⟨line, hline⟩ := resolveKeywords_newline hn init
  rw [List.append_assoc, List.singleton_append, hline, hline, List.append_assoc]
  rfl

/-- After a source that ends where heredocs are open, a text that closes them is one string, and
what follows is to its kinds and texts as if it stood alone. -/
theorem lex_over_body {source body rest : String} {after : List Terminator}
    (hopen : OpenAtBreak [] (tokenize source) after)
    (hassign : ∀ token ∈ tokenize source, token.kind = .assign → token.column ≠ 0)
    (hrest : rest = "" ∨ rest.toList.head? = some '\n')
    (hbody : heredocLength? after (body ++ rest).toList = some body.length) :
    ∃ string later, lex (source ++ body ++ rest) = lex source ++ string :: later ∧
      string.code = (.string, body) ∧ later.map Token.code = (lex rest).map Token.code := by
  let position := Position.advance {} source.toList
  let string := position.token .string body.toList
  obtain ⟨more, hmore⟩ := exists_cuts (position.advance body.toList) [] rest.toList
  rw [String.toList_append, ← String.length_toList] at hbody
  have hcuts := (cuts_tokenize source).extend hopen hassign hbody hmore
  have htokens : tokenize (source ++ body ++ rest) = tokenize source ++ string :: more := by
    rw [hcuts.eq_place, tokenize, String.toList_append, String.toList_append, List.append_assoc]
    rfl
  obtain ⟨later, hlater, hcode⟩ := hmore.code_after_string hrest (rfl : string.kind = .string)
  refine ⟨string, later, ?_, ?_, hcode⟩
  · rw [lex, htokens, hopen.resolveKeywords_append, hlater]
    rfl
  · simp [string, Token.code, Position.token]

theorem openAtBreak_of_split {earlier line : List Token} {newline : Token}
    (hn : newline.kind = .newline) (hearlier : ∀ token ∈ earlier, token.kind ≠ .heredoc)
    (hline : ∀ token ∈ line, token.kind ≠ .newline) :
    OpenAtBreak [] (earlier ++ line ++ [newline])
      (terminatorsOf (earlier ++ line ++ [newline])) := by
  have hnone : earlier.filter (·.kind = .heredoc) = [] := by simpa using hearlier
  have hopen : terminatorsOf (earlier ++ line ++ [newline]) = [] ++ terminatorsOf line := by
    simp [terminatorsOf, hnone, hn]
  rw [hopen, List.append_assoc]
  exact openAtBreak_append hearlier (openAtBreak_line hn hline [])

theorem kinds_and_texts_of_code {first second : List Token}
    (h : first.map Token.code = second.map Token.code) :
    first.map Token.kind = second.map Token.kind ∧
      first.map Token.text = second.map Token.text := by
  have hkind := congrArg (List.map Prod.fst) h
  have htext := congrArg (List.map Prod.snd) h
  rw [List.map_map, List.map_map] at hkind htext
  exact ⟨hkind, htext⟩

/-- The body of a heredoc cannot change the code around it. Let a source end with a line that opens
heredocs, the only ones in it, and let no equals sign begin a line; then two texts that close
those heredocs make one string each, and before and after it all kinds and texts are the same. -/
theorem code_around_heredocs_ignores_bodies {source first second rest : String}
    {earlier line : List Token} {newline : Token}
    (hsource : tokenize source = earlier ++ line ++ [newline])
    (hnewline : newline.kind = .newline)
    (hearlier : ∀ token ∈ earlier, token.kind ≠ .heredoc)
    (hline : ∀ token ∈ line, token.kind ≠ .newline)
    (hassign : ∀ token ∈ tokenize source, token.kind = .assign → token.column ≠ 0)
    (hrest : rest = "" ∨ rest.toList.head? = some '\n')
    (hfirst : heredocLength? (terminatorsOf (tokenize source)) (first ++ rest).toList =
      some first.length)
    (hsecond : heredocLength? (terminatorsOf (tokenize source)) (second ++ rest).toList =
      some second.length) :
    (lex (source ++ first ++ rest)).map Token.kind =
      (lex (source ++ second ++ rest)).map Token.kind ∧
    ∃ one other oneLater otherLater,
      lex (source ++ first ++ rest) = lex source ++ one :: oneLater ∧
      lex (source ++ second ++ rest) = lex source ++ other :: otherLater ∧
      one.code = (.string, first) ∧ other.code = (.string, second) ∧
      oneLater.map Token.text = otherLater.map Token.text := by
  have hopen : OpenAtBreak [] (tokenize source) (terminatorsOf (tokenize source)) := by
    rw [hsource]
    exact openAtBreak_of_split hnewline hearlier hline
  obtain ⟨one, oneLater, hone, honeCode, honeLater⟩ :=
    lex_over_body hopen hassign hrest hfirst
  obtain ⟨other, otherLater, hother, hotherCode, hotherLater⟩ :=
    lex_over_body hopen hassign hrest hsecond
  obtain ⟨hkinds, htexts⟩ := kinds_and_texts_of_code (honeLater.trans hotherLater.symm)
  have hkind : one.kind = other.kind :=
    (congrArg Prod.fst honeCode).trans (congrArg Prod.fst hotherCode).symm
  refine ⟨?_, one, other, oneLater, otherLater, hone, hother, honeCode, hotherCode, htexts⟩
  simp only [hone, hother, List.map_append, List.map_cons, hkind, hkinds]

theorem code_around_heredocs_ignores_openers_in_bodies :
    let source := "desc 'a'\nx = <<~A, <<'B' if y\n"
    let first := "while z do\n=begin\n  A\r\nend \"\nB"
    let second := "A\nB"
    let rest := "\n__END__\n"
    heredocLength? (terminatorsOf (tokenize source)) (first ++ rest).toList =
      some first.length ∧
    (lex (source ++ first ++ rest)).map Token.kind =
      (lex (source ++ second ++ rest)).map Token.kind := by
  intro source first second rest
  let earlier := (tokenize source).take 4
  let line := ((tokenize source).drop 4).dropLast
  have hsource : tokenize source = earlier ++ line ++ [⟨.newline, 2, 20, "\n"⟩] := by
    decide +kernel
  have hfirst : heredocLength? (terminatorsOf (tokenize source)) (first ++ rest).toList =
      some first.length := by decide +kernel
  have hsecond : heredocLength? (terminatorsOf (tokenize source)) (second ++ rest).toList =
      some second.length := by decide +kernel
  exact ⟨hfirst, (code_around_heredocs_ignores_bodies hsource rfl (by decide +kernel)
    (by decide +kernel) (by decide +kernel) (.inr (by decide +kernel)) hfirst hsecond).1⟩

end RakeOutline
