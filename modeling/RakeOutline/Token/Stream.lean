import RakeOutline.Token.Keyword

namespace RakeOutline

/-- Captures stand innermost first, and each holds its newest token first. -/
structure TokenStream where
  unread : List Token
  pushedBack : Option Token := none
  captures : List (List Token) := []
  refusals : Nat := 0
  deriving DecidableEq, Repr

inductive PushBackError
  | occupied
  deriving DecidableEq, Repr

def PushBackError.message : PushBackError → String
  | .occupied => "only one token of lookahead may be pushed back"

def TokenStream.ofSource (source : String) : TokenStream :=
  { unread := lex source }

def TokenStream.tokens (stream : TokenStream) : List Token :=
  stream.pushedBack.toList ++ stream.unread

def TokenStream.isExhausted (stream : TokenStream) : Bool :=
  stream.tokens.isEmpty

/-- The next token. Every open capture records it. -/
def TokenStream.next (stream : TokenStream) : Option Token × TokenStream :=
  match stream.tokens with
  | [] => (none, stream)
  | token :: rest =>
    (some token, { stream with
      unread := rest, pushedBack := none, captures := stream.captures.map (token :: ·) })

def TokenStream.read (n : Nat) (stream : TokenStream) : List Token × TokenStream :=
  if n = 0 then ([], stream)
  else
    let run := stream.tokens.take n
    (run, { stream with
      unread := stream.tokens.drop n, pushedBack := none
      captures := stream.captures.map (run.reverse ++ ·) })

def uncapture (token : Token) : List Token → List Token
  | [] => []
  | newest :: earlier => if newest = token then earlier else newest :: earlier

/-- Puts a token in front of the tokens to come, unless one is waiting there already. -/
def TokenStream.pushBack (token : Token) (stream : TokenStream) :
    Except PushBackError TokenStream :=
  match stream.pushedBack with
  | some _ => .error .occupied
  | none => .ok { stream with
      pushedBack := some token, captures := stream.captures.map (uncapture token) }

/-- Pushes a token back; a token that cannot be pushed back is dropped and counted. -/
def TokenStream.unget (token : Token) (stream : TokenStream) : TokenStream :=
  match stream.pushBack token with
  | .ok stream => stream
  | .error .occupied => { stream with refusals := stream.refusals + 1 }

def TokenStream.peek (stream : TokenStream) : Option Token × TokenStream :=
  match stream.next with
  | (none, stream) => (none, stream)
  | (some token, stream) => (some token, stream.unget token)

def TokenKind.isSkipped (crossLines : Bool) (kind : TokenKind) : Bool :=
  kind.isSpace || (crossLines && kind = .newline)

/-- Reads past spaces, and past line breaks if asked to. -/
def TokenStream.skipWhitespace (crossLines : Bool) (stream : TokenStream) : TokenStream :=
  let run := stream.tokens.takeWhile (·.kind.isSkipped crossLines)
  (stream.read run.length).2.peek.2

/-- The length of the run up to and with the first token that satisfies `stop`. -/
def lengthThrough (stop : Token → Bool) : List Token → Nat
  | [] => 0
  | token :: rest => if stop token then 1 else lengthThrough stop rest + 1

def TokenStream.readUntil (kinds : List TokenKind) (stream : TokenStream) :
    List Token × TokenStream :=
  stream.read (lengthThrough (kinds.contains ·.kind) stream.tokens)

def TokenStream.startCapture (stream : TokenStream) : TokenStream :=
  { stream with captures := [] :: stream.captures }

def TokenStream.startCaptureWith (token : Token) (stream : TokenStream) : TokenStream :=
  { stream with captures := [token] :: stream.captures }

def TokenStream.captured (stream : TokenStream) : List Token :=
  (stream.captures.headD []).reverse

def TokenStream.finishCapture (stream : TokenStream) : List Token × TokenStream :=
  (stream.captured, { stream with captures := stream.captures.tail })

/-- The second stream is the first after the run was read from it: every capture holds the run, and
no token was refused. -/
structure TokenStream.Consumes (run : List Token) (before after : TokenStream) : Prop where
  tokens : before.tokens = run ++ after.tokens
  captures : after.captures = before.captures.map (run.reverse ++ ·)
  refusals : after.refusals = before.refusals

def TokenStream.Reads (before after : TokenStream) : Prop :=
  ∃ run, TokenStream.Consumes run before after

/-- The token is the last one that was read, and there is room to push it back. -/
structure TokenStream.Takes (token : Token) (before after : TokenStream) : Prop where
  reads : ∃ run, TokenStream.Consumes (run ++ [token]) before after
  free : after.pushedBack = none

theorem TokenStream.Consumes.refl (stream : TokenStream) :
    TokenStream.Consumes [] stream stream :=
  ⟨rfl, by simp, rfl⟩

theorem TokenStream.Consumes.trans {first second : List Token} {a b c : TokenStream}
    (h : TokenStream.Consumes first a b) (k : TokenStream.Consumes second b c) :
    TokenStream.Consumes (first ++ second) a c where
  tokens := by rw [h.tokens, k.tokens, List.append_assoc]
  captures := by simp [h.captures, k.captures, Function.comp_def]
  refusals := k.refusals.trans h.refusals

theorem TokenStream.Consumes.suffix {run : List Token} {before after : TokenStream}
    (h : TokenStream.Consumes run before after) : after.tokens <:+ before.tokens :=
  ⟨run, h.tokens.symm⟩

theorem TokenStream.Reads.refl (stream : TokenStream) : stream.Reads stream :=
  ⟨[], .refl stream⟩

theorem TokenStream.Reads.trans {a b c : TokenStream} (h : a.Reads b) (k : b.Reads c) :
    a.Reads c := by
  obtain ⟨first, hf⟩ := h
  obtain ⟨second, hs⟩ := k
  exact ⟨first ++ second, hf.trans hs⟩

theorem TokenStream.Reads.suffix {before after : TokenStream} (h : before.Reads after) :
    after.tokens <:+ before.tokens := by
  obtain ⟨run, hr⟩ := h
  exact hr.suffix

theorem TokenStream.Reads.takes {token : Token} {a b c : TokenStream} (h : a.Reads b)
    (k : TokenStream.Takes token b c) : TokenStream.Takes token a c := by
  obtain ⟨first, hf⟩ := h
  obtain ⟨⟨second, hs⟩, hp⟩ := k
  refine ⟨⟨first ++ second, ?_⟩, hp⟩
  rw [List.append_assoc]
  exact hf.trans hs

theorem TokenStream.Takes.toReads {token : Token} {before after : TokenStream}
    (h : TokenStream.Takes token before after) : before.Reads after := by
  obtain ⟨⟨run, hr⟩, _⟩ := h
  exact ⟨run ++ [token], hr⟩

theorem TokenStream.unget_of_free (token : Token) {stream : TokenStream}
    (free : stream.pushedBack = none) :
    stream.unget token = { stream with
      pushedBack := some token, captures := stream.captures.map (uncapture token) } := by
  simp only [TokenStream.unget, TokenStream.pushBack, free]

/-- Pushing back the last token of a run leaves the rest of the run read. -/
theorem TokenStream.Consumes.unget {run : List Token} {token : Token} {before after : TokenStream}
    (h : TokenStream.Consumes (run ++ [token]) before after) (free : after.pushedBack = none) :
    TokenStream.Consumes run before (after.unget token) := by
  have hu := TokenStream.unget_of_free token free
  have ht : after.tokens = after.unread := by simp [TokenStream.tokens, free]
  refine ⟨?_, ?_, ?_⟩
  · rw [h.tokens, hu, ht]
    simp [TokenStream.tokens]
  · rw [hu, h.captures]
    simp [uncapture, Function.comp_def]
  · rw [hu]
    exact h.refusals

theorem TokenStream.Takes.unget {token : Token} {before after : TokenStream}
    (h : TokenStream.Takes token before after) : before.Reads (after.unget token) := by
  obtain ⟨⟨run, hr⟩, hp⟩ := h
  exact ⟨run, hr.unget hp⟩

theorem TokenStream.consumes_next {stream rest : TokenStream} {token : Token}
    (h : stream.next = (some token, rest)) :
    TokenStream.Consumes [token] stream rest ∧ rest.pushedBack = none := by
  unfold TokenStream.next at h
  split at h
  next => simp at h
  next first later he =>
    obtain ⟨rfl, rfl⟩ : first = token ∧ _ = rest := by simpa using h
    exact ⟨⟨he, rfl, rfl⟩, rfl⟩

theorem TokenStream.takes_next {stream rest : TokenStream} {token : Token}
    (h : stream.next = (some token, rest)) : TokenStream.Takes token stream rest :=
  ⟨⟨[], (TokenStream.consumes_next h).1⟩, (TokenStream.consumes_next h).2⟩

theorem TokenStream.next_eq_none {stream rest : TokenStream}
    (h : stream.next = (none, rest)) : rest = stream ∧ stream.tokens = [] := by
  unfold TokenStream.next at h
  split at h
  next he => exact ⟨by simpa using h.symm, he⟩
  next => simp at h

theorem TokenStream.reads_next (stream : TokenStream) : stream.Reads stream.next.2 := by
  cases h : stream.next with
  | mk token rest =>
    cases token with
    | none => exact (TokenStream.next_eq_none h).1 ▸ .refl stream
    | some token => exact (TokenStream.takes_next h).toReads

theorem TokenStream.consumes_read (n : Nat) (stream : TokenStream) :
    TokenStream.Consumes (stream.read n).1 stream (stream.read n).2 := by
  unfold TokenStream.read
  split
  next => exact .refl stream
  next => exact ⟨by simp [TokenStream.tokens], rfl, rfl⟩

theorem TokenStream.consumes_peek (stream : TokenStream) :
    TokenStream.Consumes [] stream stream.peek.2 := by
  unfold TokenStream.peek
  split
  next rest h => exact (TokenStream.next_eq_none h).1 ▸ .refl stream
  next token rest h =>
    obtain ⟨hc, hp⟩ := TokenStream.consumes_next h
    have hr : TokenStream.Consumes ([] ++ [token]) stream rest := hc
    exact hr.unget hp

theorem TokenStream.reads_read_peek (n : Nat) (stream : TokenStream) :
    stream.Reads (stream.read n).2.peek.2 :=
  ⟨_, (stream.consumes_read n).trans (TokenStream.consumes_peek _)⟩

theorem TokenStream.reads_skipWhitespace (crossLines : Bool) (stream : TokenStream) :
    stream.Reads (stream.skipWhitespace crossLines) :=
  stream.reads_read_peek _

theorem TokenStream.consumes_readUntil (kinds : List TokenKind) (stream : TokenStream) :
    TokenStream.Consumes (stream.readUntil kinds).1 stream (stream.readUntil kinds).2 :=
  stream.consumes_read _

theorem TokenStream.reads_readUntil (kinds : List TokenKind) (stream : TokenStream) :
    stream.Reads (stream.readUntil kinds).2 :=
  ⟨_, stream.consumes_readUntil kinds⟩

end RakeOutline
