import RakeOutline.Proofs.Written

namespace RakeOutline

inductive StreamCall
  | next
  | skipWhitespace (crossLines : Bool)
  | readUntil (kinds : List TokenKind)
  | startCapture
  | startCaptureWith (token : Token)
  | finishCapture
  | unget (token : Token)
  deriving DecidableEq, Repr

/-- A stream with an account of the calls so far. Openings stand innermost first, as captures do,
and count the tokens before the first one of the capture. -/
structure Ledger where
  stream : TokenStream
  consumed : List Token := []
  openings : List Nat := []
  /-- The last token of a read, until it is pushed back, more is read or a capture begins
  after it. -/
  lastRead? : Option Token := none
  deriving DecidableEq, Repr

def Ledger.start (tokens : List Token) : Ledger where
  stream := { unread := tokens }

/-- Enters a run that was read and the stream that it left. -/
def Ledger.receive (ledger : Ledger) (run : List Token) (stream : TokenStream) : Ledger :=
  { ledger with stream, consumed := ledger.consumed ++ run, lastRead? := run.getLast? }

def Ledger.perform (ledger : Ledger) : StreamCall → Ledger
  | .next => ledger.receive ledger.stream.next.1.toList ledger.stream.next.2
  | .readUntil kinds =>
    ledger.receive (ledger.stream.readUntil kinds).1 (ledger.stream.readUntil kinds).2
  | .skipWhitespace crossLines =>
    { ledger.receive (ledger.stream.tokens.takeWhile (·.kind.isSkipped crossLines))
        (ledger.stream.skipWhitespace crossLines) with lastRead? := none }
  | .startCapture =>
    { ledger with
      stream := ledger.stream.startCapture
      openings := ledger.consumed.length :: ledger.openings
      lastRead? := none }
  | .startCaptureWith token =>
    { ledger with
      stream := ledger.stream.startCaptureWith token
      openings := (ledger.consumed.length - 1) :: ledger.openings }
  | .finishCapture =>
    { ledger with stream := ledger.stream.finishCapture.2, openings := ledger.openings.tail }
  | .unget token =>
    { ledger with
      stream := ledger.stream.unget token
      consumed := ledger.consumed.dropLast
      lastRead? := none }

def Ledger.performAll (ledger : Ledger) (calls : List StreamCall) : Ledger :=
  calls.foldl Ledger.perform ledger

/-- Only the token just read is pushed back, and a capture begins with no other token than the
last one before the place of reading. -/
def Ledger.allows (ledger : Ledger) : StreamCall → Bool
  | .unget token => ledger.lastRead? == some token
  | .startCaptureWith token => ledger.consumed.getLast? == some token
  | _ => true

def Ledger.allowsAll (ledger : Ledger) : List StreamCall → Bool
  | [] => true
  | call :: calls => ledger.allows call && (ledger.perform call).allowsAll calls

/-- The ledger accounts for every token and every capture of the stream. -/
structure Ledger.Sound (initial : List Token) (ledger : Ledger) : Prop where
  tokens : ledger.consumed ++ ledger.stream.tokens = initial
  captures : ledger.stream.captures =
    ledger.openings.map fun opening => (ledger.consumed.drop opening).reverse
  openings : ∀ opening ∈ ledger.openings, opening ≤ ledger.consumed.length
  refusals : ledger.stream.refusals = 0
  /-- A token that may be pushed back is the newest one of every capture. -/
  lastRead : ∀ token, ledger.lastRead? = some token → ledger.stream.pushedBack = none ∧
    ledger.consumed.getLast? = some token ∧
    ∀ opening ∈ ledger.openings, opening < ledger.consumed.length

theorem Ledger.sound_start (tokens : List Token) : (Ledger.start tokens).Sound tokens where
  tokens := rfl
  captures := rfl
  openings := by simp [Ledger.start]
  refusals := rfl
  lastRead := by simp [Ledger.start]

theorem Ledger.Sound.advance {initial run : List Token} {ledger : Ledger} {stream : TokenStream}
    (h : ledger.Sound initial) (hc : TokenStream.Consumes run ledger.stream stream) :
    { ledger.receive run stream with lastRead? := none }.Sound initial where
  tokens := by
    rw [← h.tokens, hc.tokens]
    exact List.append_assoc ..
  captures := by
    show stream.captures = ledger.openings.map fun opening =>
      ((ledger.consumed ++ run).drop opening).reverse
    rw [hc.captures, h.captures, List.map_map]
    apply List.map_congr_left
    intro opening hm
    rw [List.drop_append_of_le_length (h.openings opening hm), List.reverse_append]
    rfl
  openings := by
    intro opening hm
    have hle := h.openings opening hm
    show opening ≤ (ledger.consumed ++ run).length
    rw [List.length_append]
    omega
  refusals := hc.refusals.trans h.refusals
  lastRead := by simp

theorem Ledger.Sound.receive {initial run : List Token} {ledger : Ledger} {stream : TokenStream}
    (h : ledger.Sound initial) (hc : TokenStream.Consumes run ledger.stream stream)
    (free : run ≠ [] → stream.pushedBack = none) : (ledger.receive run stream).Sound initial := by
  have ha := h.advance hc
  refine ⟨ha.tokens, ha.captures, ha.openings, ha.refusals, ?_⟩
  intro token ht
  have hlast : run.getLast? = some token := ht
  have hne : run ≠ [] := by
    rintro rfl
    simp at hlast
  have hpos := List.length_pos_iff.mpr hne
  have hend : (ledger.consumed ++ run).getLast? = some token := by
    rw [List.getLast?_append, hlast]
    rfl
  refine ⟨free hne, hend, ?_⟩
  intro opening hm
  have hle := h.openings opening hm
  show opening < (ledger.consumed ++ run).length
  rw [List.length_append]
  omega

theorem Ledger.Sound.next {initial : List Token} {ledger : Ledger} (h : ledger.Sound initial) :
    (ledger.perform .next).Sound initial := by
  show (ledger.receive ledger.stream.next.1.toList ledger.stream.next.2).Sound initial
  cases hn : ledger.stream.next with
  | mk token? stream =>
    cases token? with
    | none =>
      obtain ⟨rfl, -⟩ := TokenStream.next_eq_none hn
      exact h.receive (.refl _) (by simp)
    | some token =>
      obtain ⟨hc, hfree⟩ := TokenStream.consumes_next hn
      exact h.receive hc fun _ => hfree

theorem Ledger.Sound.skipWhitespace {initial : List Token} {ledger : Ledger}
    (h : ledger.Sound initial) (crossLines : Bool) :
    (ledger.perform (.skipWhitespace crossLines)).Sound initial :=
  h.advance (ledger.stream.consumes_blanks crossLines)

theorem Ledger.Sound.startCapture {initial : List Token} {ledger : Ledger}
    (h : ledger.Sound initial) : (ledger.perform .startCapture).Sound initial where
  tokens := h.tokens
  captures := by
    show [] :: ledger.stream.captures = (ledger.consumed.length :: ledger.openings).map
      fun opening => (ledger.consumed.drop opening).reverse
    rw [List.map_cons, ← h.captures, List.drop_length, List.reverse_nil]
  openings := by
    intro opening hm
    rcases List.mem_cons.mp hm with rfl | hm
    · exact Nat.le_refl _
    · exact h.openings opening hm
  refusals := h.refusals
  lastRead := by simp [Ledger.perform]

theorem Ledger.Sound.startCaptureWith {initial : List Token} {ledger : Ledger} {token : Token}
    (h : ledger.Sound initial) (ht : ledger.consumed.getLast? = some token) :
    (ledger.perform (.startCaptureWith token)).Sound initial := by
  obtain ⟨earlier, he⟩ := List.getLast?_eq_some_iff.mp ht
  have hlength : ledger.consumed.length = earlier.length + 1 := by
    rw [he, List.length_append, List.length_singleton]
  refine ⟨h.tokens, ?_, ?_, h.refusals, ?_⟩
  · show [token] :: ledger.stream.captures =
      ((ledger.consumed.length - 1) :: ledger.openings).map
        fun opening => (ledger.consumed.drop opening).reverse
    rw [List.map_cons, ← h.captures, hlength, Nat.add_sub_cancel, he, List.drop_left,
      List.reverse_singleton]
  · intro opening hm
    rcases List.mem_cons.mp hm with rfl | hm
    · exact Nat.sub_le ..
    · exact h.openings opening hm
  · intro last hl
    obtain ⟨hfree, hend, hopen⟩ := h.lastRead last hl
    refine ⟨hfree, hend, ?_⟩
    intro opening hm
    rcases List.mem_cons.mp hm with rfl | hm
    · show ledger.consumed.length - 1 < ledger.consumed.length
      omega
    · exact hopen opening hm

theorem Ledger.Sound.finishCapture {initial : List Token} {ledger : Ledger}
    (h : ledger.Sound initial) : (ledger.perform .finishCapture).Sound initial where
  tokens := h.tokens
  captures := by
    show ledger.stream.captures.tail = ledger.openings.tail.map
      fun opening => (ledger.consumed.drop opening).reverse
    rw [h.captures, List.map_tail]
  openings := fun opening hm => h.openings opening (List.mem_of_mem_tail hm)
  refusals := h.refusals
  lastRead := by
    intro token ht
    obtain ⟨hfree, hend, hopen⟩ := h.lastRead token ht
    exact ⟨hfree, hend, fun opening hm => hopen opening (List.mem_of_mem_tail hm)⟩

/-- The token just read goes back, and every capture ends with that token and gives it up. -/
theorem Ledger.Sound.unget {initial : List Token} {ledger : Ledger} {token : Token}
    (h : ledger.Sound initial) (ht : ledger.lastRead? = some token) :
    (ledger.perform (.unget token)).Sound initial := by
  obtain ⟨hfree, hend, hopen⟩ := h.lastRead token ht
  obtain ⟨earlier, he⟩ := List.getLast?_eq_some_iff.mp hend
  have hopen : ∀ opening ∈ ledger.openings, opening ≤ earlier.length := by
    intro opening hm
    have hlt := hopen opening hm
    rw [he, List.length_append, List.length_singleton] at hlt
    omega
  have hperform : ledger.perform (.unget token) =
      ⟨ledger.stream.unget token, earlier, ledger.openings, none⟩ := by
    rw [Ledger.perform, he, List.dropLast_concat]
  rw [hperform, TokenStream.unget_of_free token hfree]
  refine ⟨?_, ?_, hopen, h.refusals, by simp⟩
  · have htokens := h.tokens
    rw [he] at htokens
    simpa [TokenStream.tokens, hfree] using htokens
  · show ledger.stream.captures.map (uncapture token) = _
    rw [h.captures, List.map_map]
    apply List.map_congr_left
    intro opening hm
    rw [Function.comp_apply, he, List.drop_append_of_le_length (hopen opening hm)]
    simp [uncapture]

theorem Ledger.Sound.perform {initial : List Token} {ledger : Ledger} {call : StreamCall}
    (h : ledger.Sound initial) (allowed : ledger.allows call = true) :
    (ledger.perform call).Sound initial := by
  cases call with
  | next => exact h.next
  | skipWhitespace crossLines => exact h.skipWhitespace crossLines
  | readUntil kinds =>
    exact h.receive (ledger.stream.consumes_readUntil kinds) TokenStream.free_read
  | startCapture => exact h.startCapture
  | startCaptureWith token => exact h.startCaptureWith (beq_iff_eq.mp allowed)
  | finishCapture => exact h.finishCapture
  | unget token => exact h.unget (beq_iff_eq.mp allowed)

theorem Ledger.Sound.performAll {initial : List Token} {ledger : Ledger} {calls : List StreamCall}
    (h : ledger.Sound initial) (allowed : ledger.allowsAll calls = true) :
    (ledger.performAll calls).Sound initial := by
  induction calls generalizing ledger with
  | nil => exact h
  | cons call calls ih =>
    obtain ⟨hcall, hcalls⟩ := Bool.and_eq_true_iff.mp allowed
    exact ih (h.perform hcall) hcalls

theorem Ledger.allowsAll_left {ledger : Ledger} {first second : List StreamCall}
    (h : ledger.allowsAll (first ++ second) = true) : ledger.allowsAll first = true := by
  induction first generalizing ledger with
  | nil => rfl
  | cons call calls ih =>
    obtain ⟨hcall, hcalls⟩ := Bool.and_eq_true_iff.mp h
    exact Bool.and_eq_true_iff.mpr ⟨hcall, ih hcalls⟩

/-- In terms of the input, a capture is what stands between its opening and the place of
reading. -/
theorem Ledger.Sound.captures_eq_extract {initial : List Token} {ledger : Ledger}
    (h : ledger.Sound initial) :
    ledger.stream.captures.map List.reverse =
      ledger.openings.map (initial.extract · ledger.consumed.length) := by
  rw [h.captures, List.map_map]
  apply List.map_congr_left
  intro opening hm
  rw [Function.comp_apply, List.reverse_reverse, List.extract_eq_take_drop, ← h.tokens,
    List.drop_append_of_le_length (h.openings opening hm), ← List.length_drop, List.take_left]

theorem Ledger.Sound.free_of_allows {initial : List Token} {ledger : Ledger} {token : Token}
    (h : ledger.Sound initial) (allowed : ledger.allows (.unget token) = true) :
    ledger.stream.pushedBack = none :=
  (h.lastRead token (beq_iff_eq.mp allowed)).1

theorem TokenStream.isExhausted_iff (stream : TokenStream) :
    stream.isExhausted = true ↔ stream.next.1 = none := by
  rw [TokenStream.isExhausted, List.isEmpty_iff, TokenStream.next]
  split
  next he => simp [he]
  next he => simp [he]

/-- However a stream is used, as long as only the token just read is pushed back: at every moment
no push back was refused and the next one will not be either, the tokens consumed, pushed back
and unread are the input, every open capture is the piece of the input from its opening to the
place of reading, and the stream is exhausted exactly when it has no next token. -/
theorem stream_accounts_for_every_token (initial : List Token) (calls performed : List StreamCall)
    (allowed : (Ledger.start initial).allowsAll calls = true) (hp : performed <+: calls) :
    let ledger := (Ledger.start initial).performAll performed
    ledger.stream.refusals = 0 ∧
    (∀ token, ledger.allows (.unget token) = true → ledger.stream.pushedBack = none) ∧
    ledger.consumed ++ ledger.stream.pushedBack.toList ++ ledger.stream.unread = initial ∧
    (∀ opening ∈ ledger.openings, opening ≤ ledger.consumed.length) ∧
    ledger.stream.captures.map List.reverse =
      ledger.openings.map (initial.extract · ledger.consumed.length) ∧
    (ledger.stream.isExhausted = true ↔ ledger.stream.next.1 = none) := by
  obtain ⟨later, rfl⟩ := hp
  have h := (Ledger.sound_start initial).performAll (Ledger.allowsAll_left allowed)
  refine ⟨h.refusals, fun _ => h.free_of_allows, ?_, h.openings, h.captures_eq_extract,
    TokenStream.isExhausted_iff _⟩
  rw [List.append_assoc]
  exact h.tokens

/-- The words are equal in every field. Three captures are open when one of them is pushed back;
the second began with the word before it. -/
theorem stream_accounts_for_every_token_of_equal_words :
    let word : Token := ⟨.identifier, 1, 0, "x"⟩
    let gap : Token := ⟨.space, 1, 1, " "⟩
    let calls : List StreamCall := [.startCapture, .next, .startCaptureWith word,
      .skipWhitespace false, .startCapture, .readUntil [.newline], .unget word]
    let ledger := (Ledger.start [word, gap, word, word]).performAll calls
    (Ledger.start [word, gap, word, word]).allowsAll calls = true ∧ calls <+: calls ∧
      ledger.stream.captures.map List.reverse =
        [[word], [word, gap, word], [word, gap, word]] := by
  intro word gap calls ledger
  have allowed : (Ledger.start [word, gap, word, word]).allowsAll calls = true := by
    decide +kernel
  obtain ⟨-, -, -, -, hcaptures, -⟩ :=
    stream_accounts_for_every_token [word, gap, word, word] calls calls allowed List.prefix_rfl
  refine ⟨allowed, List.prefix_rfl, hcaptures.trans ?_⟩
  decide +kernel

end RakeOutline
