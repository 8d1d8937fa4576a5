import RakeOutline.Proofs.Folding
import RakeOutline.Token.Lexeme

namespace RakeOutline

def Position.token (position : Position) (kind : TokenKind) (text : List Char) : Token :=
  ⟨kind, position.line, position.column, String.ofList text⟩

def Position.startsLine (position : Position) : Bool :=
  position.column == 0

/-- The tokens that a text at the given place is cut into while the given heredocs are open. -/
inductive Cuts : Position → List Terminator → List Char → List Token → Prop
  | nil (position : Position) (terminators : List Terminator) : Cuts position terminators [] []
  | piece {position : Position} {terminators : List Terminator} {kind : TokenKind}
      {text rest : List Char} {tokens : List Token} (hne : text ≠ []) (hk : kind ≠ .newline)
      (hat : lexemeAt position.startsLine (text ++ rest) = (kind, text.length))
      (hrest : Cuts (position.advance text) (openAfter kind text terminators) rest tokens) :
      Cuts position terminators (text ++ rest) (position.token kind text :: tokens)
  | line {position : Position} {terminators : List Terminator} {rest : List Char}
      {tokens : List Token} (hnone : heredocLength? terminators rest = none)
      (hrest : Cuts (position.advance ['\n']) [] rest tokens) :
      Cuts position terminators ('\n' :: rest) (position.token .newline ['\n'] :: tokens)
  | fold {position : Position} {terminators : List Terminator} {body rest : List Char}
      {tokens : List Token} (hbody : heredocLength? terminators (body ++ rest) = some body.length)
      (hrest : Cuts ((position.advance ['\n']).advance body) [] rest tokens) :
      Cuts position terminators ('\n' :: (body ++ rest)) (position.token .newline ['\n'] ::
        (position.advance ['\n']).token .string body :: tokens)

@[simp] theorem Position.advance_append (position : Position) (first second : List Char) :
    position.advance (first ++ second) = (position.advance first).advance second :=
  List.foldl_append

theorem Position.startsLine_advance (position : Position) {text : List Char} (hne : text ≠ []) :
    (position.advance text).startsLine = endsLine text := by
  obtain ⟨init, c, rfl⟩ := (List.eq_nil_or_concat text).resolve_left hne
  have hlast : endsLine (init ++ [c]) = (c == '\n') := by simp [endsLine]
  rw [List.concat_eq_append, Position.advance_append, hlast]
  simp only [Position.advance, List.foldl_cons, List.foldl_nil, Position.step]
  by_cases hc : c = '\n' <;> simp [hc, Position.startsLine]

theorem lexemeAt_bounds (lineStart : Bool) {text : List Char} (hne : text ≠ []) :
    0 < (lexemeAt lineStart text).2 ∧ (lexemeAt lineStart text).2 ≤ text.length := by
  have ht := tokenAt_bounds hne
  simp only [lexemeAt]
  split
  · split
    next n hn => exact documentLength?_bounds hn
    next => exact ht
  · exact ht

@[simp] theorem lexemeAt_newline (lineStart : Bool) (rest : List Char) :
    lexemeAt lineStart ('\n' :: rest) = (.newline, 1) := by
  simp [lexemeAt]

theorem lexemeAt_eq_newline {lineStart : Bool} {text : List Char}
    (h : (lexemeAt lineStart text).1 = .newline) : ∃ rest, text = '\n' :: rest := by
  simp only [lexemeAt] at h
  split at h
  next ha =>
    split at h
    · simp at h
    · rw [ha.1] at h
      simp at h
  next => exact tokenAt_eq_newline h

theorem lexemes_piece {lineStart : Bool} {terminators : List Terminator} {kind : TokenKind}
    {text rest : List Char} (hne : text ≠ []) (hk : kind ≠ .newline)
    (hat : lexemeAt lineStart (text ++ rest) = (kind, text.length)) :
    lexemes lineStart terminators (text ++ rest) =
      ⟨kind, text⟩ :: lexemes (endsLine text) (openAfter kind text terminators) rest := by
  cases text with
  | nil => exact absurd rfl hne
  | cons c text =>
    rw [List.cons_append] at hat ⊢
    rw [lexemes]
    simp [hat, hk]

theorem lexemes_line {terminators : List Terminator} {rest : List Char} (lineStart : Bool)
    (hnone : heredocLength? terminators rest = none) :
    lexemes lineStart terminators ('\n' :: rest) =
      ⟨.newline, ['\n']⟩ :: lexemes true [] rest := by
  rw [lexemes]
  simp [hnone, endsLine, openAfter]

theorem lexemes_fold {terminators : List Terminator} {body rest : List Char} (lineStart : Bool)
    (hbody : heredocLength? terminators (body ++ rest) = some body.length) :
    lexemes lineStart terminators ('\n' :: (body ++ rest)) =
      ⟨.newline, ['\n']⟩ :: ⟨.string, body⟩ :: lexemes (endsLine body) [] rest := by
  rw [lexemes]
  simp [hbody]

theorem Cuts.eq_place {position : Position} {terminators : List Terminator} {text : List Char}
    {tokens : List Token} (h : Cuts position terminators text tokens) :
    tokens = place position (lexemes position.startsLine terminators text) := by
  induction h with
  | nil position terminators => simp [lexemes, place]
  | piece hne hk hat hrest ih =>
    rw [lexemes_piece hne hk hat, place, ih, Position.startsLine_advance _ hne]
    rfl
  | line hnone hrest ih =>
    rw [lexemes_line _ hnone, place, ih, Position.startsLine_advance _ (by simp)]
    rfl
  | fold hbody hrest ih =>
    have hne : _ ≠ [] := List.length_pos_iff.mp (heredocLength?_bounds hbody).1
    rw [lexemes_fold _ hbody, place, place, ih, Position.startsLine_advance _ hne]
    rfl

theorem exists_cuts (position : Position) (terminators : List Terminator) (text : List Char) :
    ∃ tokens, Cuts position terminators text tokens := by
  -- what is left after a token is shorter, so the induction is on the length of the text
  induction hlen : text.length using Nat.strong_induction_on
    generalizing position terminators text with
  | _ length ih =>
  subst hlen
  by_cases hne : text = []
  · exact ⟨[], hne ▸ .nil position terminators⟩
  by_cases hk : (lexemeAt position.startsLine text).1 = .newline
  · obtain ⟨rest, rfl⟩ := lexemeAt_eq_newline hk
    cases hb : heredocLength? terminators rest with
    | none =>
      obtain ⟨tokens, ht⟩ := ih rest.length (by simp) (position.advance ['\n']) [] rest rfl
      exact ⟨_, .line hb ht⟩
    | some n =>
      have hn := heredocLength?_bounds hb
      have hbody : (rest.take n).length = n := List.length_take_of_le hn.2
      have hlt : (rest.drop n).length < ('\n' :: rest).length := by
        rw [List.length_drop, List.length_cons]
        omega
      obtain ⟨tokens, ht⟩ :=
        ih _ hlt ((position.advance ['\n']).advance (rest.take n)) [] (rest.drop n) rfl
      rw [← List.take_append_drop n rest] at hb ⊢
      exact ⟨_, .fold (by rw [hb, hbody]) ht⟩
  · obtain ⟨hpos, hle⟩ := lexemeAt_bounds position.startsLine hne
    cases hat : lexemeAt position.startsLine text with
    | mk kind n =>
      rw [hat] at hk hpos hle
      have hpiece : (text.take n).length = n := List.length_take_of_le hle
      have hlt : (text.drop n).length < text.length := by
        rw [List.length_drop]
        omega
      obtain ⟨tokens, ht⟩ := ih _ hlt (position.advance (text.take n))
        (openAfter kind (text.take n) terminators) (text.drop n) rfl
      rw [← List.take_append_drop n text] at hat ⊢
      exact ⟨_, .piece (List.length_pos_iff.mp (by omega)) hk (by rw [hat, hpiece]) ht⟩

@[simp] theorem Position.kind_token (position : Position) (kind : TokenKind) (text : List Char) :
    (position.token kind text).kind = kind :=
  rfl

@[simp] theorem Position.toList_token (position : Position) (kind : TokenKind) (text : List Char) :
    (position.token kind text).text.toList = text :=
  String.toList_ofList

/-- What holds of the tokens that one rule makes each holds of all tokens of a text. -/
theorem Cuts.forall_mem {P : TokenKind → List Char → Prop}
    (piece : ∀ (lineStart : Bool) (kind : TokenKind) (text rest : List Char), text ≠ [] →
      lexemeAt lineStart (text ++ rest) = (kind, text.length) → P kind text)
    (line : P .newline ['\n']) (fold : ∀ body : List Char, body ≠ [] → P .string body)
    {position : Position} {terminators : List Terminator} {text : List Char} {tokens : List Token}
    (h : Cuts position terminators text tokens) :
    ∀ token ∈ tokens, P token.kind token.text.toList := by
  induction h with
  | nil => simp
  | @piece position terminators kind text rest tokens hne hk hat hrest ih =>
    have hpiece := piece position.startsLine kind text rest hne hat
    exact List.forall_mem_cons.mpr ⟨by simpa using hpiece, ih⟩
  | line hnone hrest ih => exact List.forall_mem_cons.mpr ⟨by simpa using line, ih⟩
  | fold hbody hrest ih =>
    have hne : _ ≠ [] := List.length_pos_iff.mp (heredocLength?_bounds hbody).1
    exact List.forall_mem_cons.mpr ⟨by simpa using line,
      List.forall_mem_cons.mpr ⟨by simpa using fold _ hne, ih⟩⟩

theorem cuts_tokenize (source : String) : Cuts {} [] source.toList (tokenize source) := by
  obtain ⟨tokens, h⟩ := exists_cuts {} [] source.toList
  have he : tokens = tokenize source := h.eq_place
  exact he ▸ h

end RakeOutline
