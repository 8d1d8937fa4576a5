import RakeOutline.Proofs.Written
import RakeOutline.Scan.Context

namespace RakeOutline

/-- What is read of a constant's statement before blocks are counted. -/
def TokenStream.builderHead (ignored : List String) (token : Token) (stream : TokenStream) :
    List Token :=
  let stops : List TokenKind :=
    if ignored.contains (stream.readConstantPath token).1 then [.newline] else [.doBlock, .newline]
  stream.tokens.takeWhile fun other => !stops.contains other.kind

theorem nestedConstants_kind {tokens : List Token} {token : Token}
    (h : token ∈ tokens.take (nestedConstants tokens).2) :
    token.kind = .colonColon ∨ token.kind = .constant := by
  fun_induction nestedConstants tokens with
  | case1 separator segment rest hseparator hsegment names n hrest ih =>
    rw [hrest] at ih
    simp only [List.take_succ_cons, List.mem_cons] at h
    rcases h with rfl | rfl | hm
    · exact .inl hseparator
    · exact .inr hsegment
    · exact ih hm
  | case2 separator segment rest hseparator hsegment =>
    simp only [List.take_succ_cons, List.take_zero, List.mem_singleton] at h
    exact .inl (h ▸ hseparator)
  | case3 => simp at h
  | case4 separator =>
    by_cases hseparator : separator.kind = .colonColon
    · simp only [if_pos hseparator, List.take_succ_cons, List.take_zero, List.mem_singleton] at h
      exact .inl (h ▸ hseparator)
    · simp [hseparator] at h
  | case5 => simp at h

theorem TokenStream.consumes_readConstantPath (token : Token) (stream : TokenStream) :
    ∃ path, TokenStream.Consumes path stream (stream.readConstantPath token).2 ∧
      ∀ other ∈ path, other.kind = .colonColon ∨ other.kind = .constant := by
  let n := (nestedConstants stream.tokens).2
  have hread : (stream.read n).1 = stream.tokens.take n := by
    unfold TokenStream.read
    split
    next hz => rw [hz, List.take_zero]
    next => rfl
  have hc := (stream.consumes_read n).trans (stream.read n).2.consumes_peek
  rw [List.append_nil, hread] at hc
  exact ⟨stream.tokens.take n, hc, fun other hm => nestedConstants_kind hm⟩

theorem lengthThrough_of_none {stop : Token → Bool} {tokens : List Token}
    (h : ∀ token ∈ tokens, stop token = false) : lengthThrough stop tokens = tokens.length := by
  induction tokens with
  | nil => rfl
  | cons token tokens ih =>
    have htail := ih fun other hm => h other (List.mem_cons_of_mem token hm)
    rw [lengthThrough, h token List.mem_cons_self, htail]
    rfl

theorem TokenStream.readUntil_of_none {stream : TokenStream} {kinds : List TokenKind}
    (h : ∀ token ∈ stream.tokens, kinds.contains token.kind = false) :
    ∃ after, stream.readUntil kinds = (stream.tokens, after) ∧
      TokenStream.Consumes stream.tokens stream after := by
  rw [TokenStream.readUntil, lengthThrough_of_none h]
  exact TokenStream.read_of_length (List.append_nil stream.tokens).symm

theorem exists_first_of_kinds (kinds : List TokenKind) (tokens : List Token) :
    (∀ token ∈ tokens, kinds.contains token.kind = false) ∨
      ∃ head stop rest, tokens = head ++ stop :: rest ∧
        (∀ token ∈ head, kinds.contains token.kind = false) ∧ kinds.contains stop.kind = true := by
  induction tokens with
  | nil => simp
  | cons token tokens ih =>
    cases hk : kinds.contains token.kind with
    | true => exact .inr ⟨[], token, tokens, rfl, by simp, hk⟩
    | false =>
      rcases ih with hnone | ⟨head, stop, rest, rfl, hhead, hstop⟩
      · exact .inl (List.forall_mem_cons.mpr ⟨hk, hnone⟩)
      · exact .inr ⟨token :: head, stop, rest, rfl, List.forall_mem_cons.mpr ⟨hk, hhead⟩, hstop⟩

theorem takeWhile_not_contains {kinds : List TokenKind} {head : List Token} (tail : List Token)
    (hhead : ∀ token ∈ head, kinds.contains token.kind = false)
    (htail : ∀ stop ∈ tail.head?, kinds.contains stop.kind = true) :
    (head ++ tail).takeWhile (fun other => !kinds.contains other.kind) = head := by
  rw [List.takeWhile_append_of_pos (by simpa using hhead)]
  cases tail with
  | nil => simp
  | cons stop rest =>
    have hstop := htail stop rfl
    rw [List.takeWhile_cons_of_neg (by rw [hstop]; simp), List.append_nil]

/-- The `do` that ends a run is read again with its block, which is closed before the tokens end. -/
theorem TokenStream.consumes_block {stream : TokenStream} {opener : Token} {rest : List Token}
    (h : stream.tokens = opener :: rest) (hopener : opener.kind = .doBlock)
    (hclosed : 1 + openers rest ≤ closers rest) :
    ∃ block, TokenStream.Consumes block stream stream.readBody.2 ∧
      openers block = closers block := by
  have hlength : statementLength false 0 (opener :: rest) = statementLength true 1 rest + 1 := by
    simp [statementLength, hopener, TokenKind.blockChange, TokenKind.opensBlock]
  have hread := stream.consumes_readBody
  have hblock : stream.readBody.1 = opener :: rest.take (statementLength true 1 rest) := by
    rw [TokenStream.readBody, TokenStream.read, h, hlength]
    simp
  have hover : (1 : Int) + openers rest - closers rest ≤ 0 := by omega
  have hcloses := statementLength_closes Int.zero_lt_one hover
  refine ⟨_, hread, ?_⟩
  simp [hblock, hopener, TokenKind.opensBlock, TokenKind.closesBlock]
  omega

def SameExcess (run head : List Token) : Prop :=
  openers run + closers head = closers run + openers head

theorem sameExcess_newline {stop : Token} (head : List Token) (h : stop.kind = .newline) :
    SameExcess (head ++ [stop]) head := by
  simp [SameExcess, h, TokenKind.opensBlock, TokenKind.closesBlock, Nat.add_comm]

theorem TokenStream.consumes_line (stream : TokenStream) :
    ∃ run, TokenStream.Consumes run stream (stream.readUntil [.newline]).2 ∧
      SameExcess run
        (stream.tokens.takeWhile fun other => !([TokenKind.newline].contains other.kind)) := by
  rcases exists_first_of_kinds [.newline] stream.tokens with hnone | ⟨head, stop, rest, ht, hh, hs⟩
  · obtain ⟨after, hu, hc⟩ := TokenStream.readUntil_of_none hnone
    have hhead := takeWhile_not_contains [] hnone (by simp)
    rw [List.append_nil] at hhead
    rw [hu, hhead]
    exact ⟨stream.tokens, hc, Nat.add_comm _ _⟩
  · obtain ⟨after, hu, hc⟩ := TokenStream.readUntil_of_tokens [.newline] ht hh hs
    rw [hu, ht, takeWhile_not_contains _ hh (by simpa using hs)]
    exact ⟨head ++ [stop], hc, sameExcess_newline head (by simpa using hs)⟩

theorem TokenStream.consumes_lineOrBlock {stream : TokenStream}
    (h : ∀ rest, rest <:+ stream.tokens → openers rest ≤ closers rest) :
    ∃ run, TokenStream.Consumes run stream ((stream.readUntil [.doBlock, .newline]).2.readBlockAfter
        (stream.readUntil [.doBlock, .newline]).1) ∧
      SameExcess run (stream.tokens.takeWhile fun other =>
        !([TokenKind.doBlock, .newline].contains other.kind)) := by
  rcases exists_first_of_kinds [.doBlock, .newline] stream.tokens with
    hnone | ⟨head, stop, rest, ht, hh, hs⟩
  · obtain ⟨after, hu, hc⟩ := TokenStream.readUntil_of_none hnone
    have hhead := takeWhile_not_contains [] hnone (by simp)
    rw [List.append_nil] at hhead
    rw [hu, hhead]
    refine ⟨stream.tokens, ?_, Nat.add_comm _ _⟩
    unfold TokenStream.readBlockAfter
    split
    next => exact hc
    next last hl =>
      have hlast := hnone last (List.mem_of_getLast? hl)
      have hdo : last.kind ≠ .doBlock := by
        intro hk
        simp [hk] at hlast
      rwa [if_neg hdo]
  · obtain ⟨after, hu, hc⟩ := TokenStream.readUntil_of_tokens _ ht hh hs
    have hlast : (head ++ [stop]).getLast? = some stop := List.getLast?_concat
    rw [hu, ht, takeWhile_not_contains _ hh (by simpa using hs)]
    simp only [TokenStream.readBlockAfter, hlast]
    by_cases hdo : stop.kind = .doBlock
    · rw [if_pos hdo]
      have hfree : after.pushedBack = none := by
        have hr : (stream.readUntil [.doBlock, .newline]).2 = after := congrArg Prod.snd hu
        rw [← hr]
        exact TokenStream.free_read (by rw [← TokenStream.readUntil, hu]; simp)
      have hback := hc.unget hfree
      have hrest : (after.unget stop).tokens = stop :: rest := hback.rest ht
      have hclosed := h (stop :: rest) ⟨head, ht.symm⟩
      simp [hdo, TokenKind.opensBlock, TokenKind.closesBlock] at hclosed
      obtain ⟨block, hb, he⟩ := TokenStream.consumes_block hrest hdo (by omega)
      refine ⟨head ++ block, hback.trans hb, ?_⟩
      simp [SameExcess]
      omega
    · rw [if_neg hdo]
      exact ⟨head ++ [stop], hc, sameExcess_newline head (by simpa [hdo] using hs)⟩

theorem Balanced.suffix {tokens rest : List Token} (h : Balanced tokens) (hr : rest <:+ tokens) :
    openers rest ≤ closers rest := by
  obtain ⟨initial, rfl⟩ := hr
  have hnested := h.nested initial (List.prefix_append initial rest)
  have hclosed := h.closed
  simp at hclosed
  omega

/-- A constant's statement opens as many more blocks than it closes as its head does. -/
theorem TokenStream.consumes_readBuilder (ignored : List String) (token : Token)
    {stream : TokenStream} (h : Balanced stream.tokens) :
    ∃ run, TokenStream.Consumes run stream (stream.readBuilder ignored token).2 ∧
      SameExcess run (stream.builderHead ignored token) := by
  obtain ⟨path, hpath, hkinds⟩ := stream.consumes_readConstantPath token
  have hplain : openers path = 0 ∧ closers path = 0 := by
    refine blockCounts_eq_zero_iff.mpr fun other hm => ?_
    rcases hkinds other hm with hk | hk <;> simp [hk, TokenKind.opensBlock, TokenKind.closesBlock]
  -- The path holds no `do` and no line break, so the head of the statement begins with it.
  have hhead : ∀ kinds : List TokenKind, kinds = [.newline] ∨ kinds = [.doBlock, .newline] →
      stream.tokens.takeWhile (fun other => !kinds.contains other.kind) =
        path ++ (stream.readConstantPath token).2.tokens.takeWhile
          (fun other => !kinds.contains other.kind) := by
    intro kinds hk
    rw [hpath.tokens, List.takeWhile_append_of_pos]
    intro other hm
    rcases hk with rfl | rfl <;> rcases hkinds other hm with ho | ho <;> simp [ho]
  have hall : ∀ {run head : List Token}, SameExcess run head →
      SameExcess (path ++ run) (path ++ head) := by
    intro run head he
    simpa [SameExcess, hplain] using he
  unfold TokenStream.readBuilder TokenStream.builderHead
  simp only
  split
  next hi =>
    obtain ⟨run, hc, he⟩ := (stream.readConstantPath token).2.consumes_line
    rw [hhead _ (.inl rfl)]
    exact ⟨path ++ run, hpath.trans hc, hall he⟩
  next hi =>
    obtain ⟨run, hc, he⟩ := TokenStream.consumes_lineOrBlock
      (fun rest hr => h.suffix (hr.trans hpath.suffix))
    rw [hhead _ (.inr rfl)]
    exact ⟨path ++ run, hpath.trans hc, hall he⟩

/-- Only the block of the first `do` is counted, so the run is balanced exactly if what stands
before that `do` is. -/
theorem builder_run_balanced_iff (context : Context) (token : Token) (stream : TokenStream)
    (h : Balanced stream.tokens) :
    ∃ run, TokenStream.Consumes run stream (context.scanBuilder token stream).2 ∧
      (Balanced run ↔
        openers (stream.builderHead context.options.ignoredConstants token) =
          closers (stream.builderHead context.options.ignoredConstants token)) := by
  obtain ⟨run, hc, he⟩ :=
    TokenStream.consumes_readBuilder context.options.ignoredConstants token h
  refine ⟨run, hc, ?_⟩
  rw [h.prefix_iff ⟨_, hc.tokens.symm⟩]
  unfold SameExcess at he
  omega

theorem builder_run_balanced_iff_of_block :
    let tokens := lex "Hoe.spec 'x' do |s|\nif s then t end\nend\n"
    let stream : TokenStream := { unread := tokens.tail }
    Balanced stream.tokens ∧
      ∃ run, TokenStream.Consumes run stream
          ((Context.new "Rakefile" {} {}).scanBuilder tokens.head! stream).2 ∧ Balanced run := by
  have h : Balanced (lex "Hoe.spec 'x' do |s|\nif s then t end\nend\n").tail := by decide +kernel
  obtain ⟨run, hc, hb⟩ := builder_run_balanced_iff (Context.new "Rakefile" {} {})
    (lex "Hoe.spec 'x' do |s|\nif s then t end\nend\n").head!
    { unread := (lex "Hoe.spec 'x' do |s|\nif s then t end\nend\n").tail } h
  exact ⟨h, run, hc, hb.mpr (by decide +kernel)⟩

theorem TokenStream.Consumes.closed_rest {run : List Token} {before after : TokenStream}
    (hc : TokenStream.Consumes run before after) (h : Balanced before.tokens)
    (hr : Balanced run) : openers after.tokens = closers after.tokens := by
  simpa [hc.tokens, hr.closed] using h.closed

/-- An `if` on the line of a constant is read without its `end`, and so is the `do` of a constant
that is ignored. -/
theorem builder_run_not_balanced :
    let context := Context.new "Rakefile" {} {}
    let recorded := lex "X = if a\nend\n"
    let ignored := lex "ENV.each do |k|\nend\n"
    (Balanced recorded.tail ∧ ¬ ∃ run, Balanced run ∧
      TokenStream.Consumes run { unread := recorded.tail }
        (context.scanBuilder recorded.head! { unread := recorded.tail }).2) ∧
    (Balanced ignored.tail ∧ ¬ ∃ run, Balanced run ∧
      TokenStream.Consumes run { unread := ignored.tail }
        (context.scanBuilder ignored.head! { unread := ignored.tail }).2) := by
  have hrecorded : Balanced (lex "X = if a\nend\n").tail := by decide +kernel
  have hignored : Balanced (lex "ENV.each do |k|\nend\n").tail := by decide +kernel
  refine ⟨⟨hrecorded, ?_⟩, hignored, ?_⟩
  · rintro ⟨run, hr, hc⟩
    exact absurd (hc.closed_rest hrecorded hr) (by decide +kernel)
  · rintro ⟨run, hr, hc⟩
    exact absurd (hc.closed_rest hignored hr) (by decide +kernel)

end RakeOutline
