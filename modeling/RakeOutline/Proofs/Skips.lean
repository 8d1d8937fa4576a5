import Mathlib.Data.List.TakeWhile
import RakeOutline.Proofs.Written
import RakeOutline.Scan.Event

namespace RakeOutline

/-- The second stream is the first after a run of plain tokens. -/
def TokenStream.Skips (before after : TokenStream) : Prop :=
  ∃ run, TokenStream.Consumes run before after ∧ ∀ token ∈ run, token.kind.role = .plain

/-- The token was read last, after plain tokens, and there is room to push it back. -/
structure TokenStream.Fetches (token : Token) (before after : TokenStream) : Prop where
  reads : ∃ gap, TokenStream.Consumes (gap ++ [token]) before after ∧
    ∀ other ∈ gap, other.kind.role = .plain
  free : after.pushedBack = none

theorem TokenStream.Skips.refl (stream : TokenStream) : stream.Skips stream :=
  ⟨[], .refl stream, by simp⟩

theorem TokenStream.Skips.trans {a b c : TokenStream} (h : a.Skips b) (k : b.Skips c) :
    a.Skips c := by
  obtain ⟨first, hf, hp⟩ := h
  obtain ⟨second, hs, hq⟩ := k
  exact ⟨first ++ second, hf.trans hs, List.forall_mem_append.mpr ⟨hp, hq⟩⟩

theorem TokenStream.Skips.fetches {token : Token} {a b c : TokenStream} (h : a.Skips b)
    (k : TokenStream.Fetches token b c) : TokenStream.Fetches token a c := by
  obtain ⟨run, hr, hp⟩ := h
  obtain ⟨⟨gap, hg, hq⟩, hfree⟩ := k
  refine ⟨⟨run ++ gap, ?_, List.forall_mem_append.mpr ⟨hp, hq⟩⟩, hfree⟩
  rw [List.append_assoc]
  exact hr.trans hg

theorem TokenStream.Fetches.skips {token : Token} {before after : TokenStream}
    (h : TokenStream.Fetches token before after) (hrole : token.kind.role = .plain) :
    before.Skips after := by
  obtain ⟨⟨gap, hg, hp⟩, _⟩ := h
  exact ⟨gap ++ [token], hg, List.forall_mem_append.mpr ⟨hp, by simpa using hrole⟩⟩

theorem TokenStream.Fetches.unget {token : Token} {before after : TokenStream}
    (h : TokenStream.Fetches token before after) : before.Skips (after.unget token) := by
  obtain ⟨⟨gap, hg, hp⟩, hfree⟩ := h
  exact ⟨gap, hg.unget hfree, hp⟩

theorem TokenStream.fetches_next {stream after : TokenStream} {token : Token}
    (h : stream.next = (some token, after)) : TokenStream.Fetches token stream after := by
  obtain ⟨hc, hfree⟩ := TokenStream.consumes_next h
  exact ⟨⟨[], hc, by simp⟩, hfree⟩

theorem role_of_isSkipped {kind : TokenKind} {crossLines : Bool}
    (h : kind.isSkipped crossLines = true) : kind.role = .plain := by
  cases kind <;>
    simp_all [TokenKind.isSkipped, TokenKind.isSpace, TokenKind.role, TokenKind.opensBlock]

theorem TokenStream.skips_skipWhitespace (crossLines : Bool) (stream : TokenStream) :
    stream.Skips (stream.skipWhitespace crossLines) := by
  refine ⟨_, stream.consumes_blanks crossLines, ?_⟩
  intro token hm
  have hkind := List.mem_takeWhile_imp hm
  exact role_of_isSkipped hkind

theorem TokenStream.fetches_next_skip {stream after : TokenStream} {crossLines : Bool}
    {token : Token} (h : (stream.skipWhitespace crossLines).next = (some token, after)) :
    TokenStream.Fetches token stream after :=
  (stream.skips_skipWhitespace crossLines).fetches (TokenStream.fetches_next h)

theorem TokenStream.skips_next_skip {stream after : TokenStream} {crossLines : Bool}
    (h : (stream.skipWhitespace crossLines).next = (none, after)) :
    stream.Skips after ∧ after.tokens = [] := by
  obtain ⟨rfl, ht⟩ := TokenStream.next_eq_none h
  exact ⟨stream.skips_skipWhitespace crossLines, ht⟩

theorem TokenStream.fetches_nextArgument {stream after : TokenStream} {crossLines : Bool}
    {token : Token} (h : stream.nextArgument crossLines = (some token, after)) :
    TokenStream.Fetches token stream after := by
  unfold TokenStream.nextArgument at h
  split at h
  next => simp at h
  next first later hf =>
    have hl := TokenStream.fetches_next_skip hf
    split at h
    next hparen =>
      have hskips := hl.skips (by rw [hparen]; rfl)
      exact hskips.fetches (TokenStream.fetches_next_skip h)
    next =>
      obtain ⟨rfl, rfl⟩ : first = token ∧ later = after := by simpa using h
      exact hl

theorem TokenStream.skips_nextArgument {stream after : TokenStream} {crossLines : Bool}
    (h : stream.nextArgument crossLines = (none, after)) :
    stream.Skips after ∧ after.tokens = [] := by
  unfold TokenStream.nextArgument at h
  split at h
  next later hf =>
    obtain ⟨_, rfl⟩ := Prod.mk.inj h
    exact TokenStream.skips_next_skip hf
  next first later hf =>
    have hl := TokenStream.fetches_next_skip hf
    split at h
    next hparen =>
      have hskips := hl.skips (by rw [hparen]; rfl)
      obtain ⟨hrest, hnone⟩ := TokenStream.skips_next_skip h
      exact ⟨hskips.trans hrest, hnone⟩
    next => simp at h

theorem TokenStream.skips_readString (crossLines : Bool) (stream : TokenStream) :
    stream.Skips (stream.readString crossLines).2 := by
  unfold TokenStream.readString
  split
  next h => exact (TokenStream.skips_nextArgument h).1
  next h =>
    have hf := TokenStream.fetches_nextArgument h
    split
    next hstring => exact hf.skips (by rw [hstring]; rfl)
    next => exact hf.unget

theorem TokenStream.skips_readNamespaceHead (stream : TokenStream) :
    stream.Skips stream.readNamespaceHead.2 ∧
      (stream.readNamespaceHead.1 = .missing → stream.readNamespaceHead.2.tokens = []) := by
  unfold TokenStream.readNamespaceHead
  split
  next h =>
    obtain ⟨hskips, hnone⟩ := TokenStream.skips_nextArgument h
    exact ⟨hskips, fun _ => hnone⟩
  next h =>
    have hf := TokenStream.fetches_nextArgument h
    split
    next hname =>
      have hskips := hf.skips (by rcases hname with hk | hk <;> (rw [hk]; rfl))
      exact ⟨hskips.trans (TokenStream.skips_skipWhitespace false _), by simp⟩
    next => exact ⟨hf.unget, by simp⟩

/-- A capture that was opened for a run of plain tokens leaves them skipped. -/
theorem TokenStream.Skips.finishCapture {token : Token} {before after : TokenStream}
    (h : (before.startCaptureWith token).Skips after) : before.Skips after.finishCapture.2 := by
  obtain ⟨run, hr, hp⟩ := h
  exact ⟨run, hr.finishCapture.2, hp⟩

theorem TokenStream.skips_readDeclaration {kind : TaskKind} {keyword : Token}
    {stream after : TokenStream} (h : stream.readDeclaration kind keyword = (none, after)) :
    stream.Skips after := by
  unfold TokenStream.readDeclaration at h
  split at h
  next hn =>
    obtain ⟨_, rfl⟩ := Prod.mk.inj h
    exact (TokenStream.skips_nextArgument hn).1.finishCapture
  next hn =>
    split at h
    next => simp at h
    next =>
      obtain ⟨_, rfl⟩ := Prod.mk.inj h
      exact (TokenStream.fetches_nextArgument hn).unget.finishCapture

theorem TokenStream.Skips.suffix {before after : TokenStream} (h : before.Skips after) :
    after.tokens <:+ before.tokens := by
  obtain ⟨run, hr, _⟩ := h
  exact hr.suffix

theorem TokenStream.skips_skipConstantPath {stream : TokenStream}
    (h : ∀ token ∈ stream.tokens, token.kind ≠ .constant) :
    stream.Skips stream.skipConstantPath := by
  have hspace := stream.skips_skipWhitespace false
  have ht := List.takeWhile_append_dropWhile
    (p := fun token : Token => decide (token.kind = .constant) || decide (token.kind = .colonColon))
    (l := (stream.skipWhitespace false).tokens)
  refine hspace.trans ⟨_, TokenStream.consumes_read_peek ht.symm, ?_⟩
  intro token hm
  have hkind := List.mem_takeWhile_imp hm
  have hplain := h token (hspace.suffix.subset (List.takeWhile_subset _ hm))
  simp only [hplain, decide_false, Bool.false_or, decide_eq_true_eq] at hkind
  rw [hkind]
  rfl

theorem TokenStream.skips_skipDefinitionName {stream : TokenStream}
    (h : ∀ token ∈ stream.tokens, token.kind ≠ .constant) :
    stream.Skips stream.skipDefinitionName := by
  have hpath := TokenStream.skips_skipConstantPath h
  unfold TokenStream.skipDefinitionName
  split
  next hn => exact hpath.trans (TokenStream.skips_next_skip hn).1
  next hn =>
    have hf := TokenStream.fetches_next_skip hn
    split
    next hbase =>
      have hskips := hpath.trans (hf.skips (by rw [hbase.1]; rfl))
      exact hskips.trans
        (TokenStream.skips_skipConstantPath fun token hm => h token (hskips.suffix.subset hm))
    next => exact hpath.trans hf.unget

theorem TokenKind.eq_of_role (kind : TokenKind) :
    (kind.role = .comment → kind = .comment) ∧ (kind.role = .method → kind = .defBlock) ∧
      (kind.role = .closer → kind = .endBlock) ∧ (kind.role = .constant → kind = .constant) ∧
      (kind.role = .scriptEnd → kind = .endOfScript) := by
  cases kind <;> decide

theorem TokenKind.blocks_of_role (kind : TokenKind) :
    kind.opensBlock = (kind.role matches .opener | .definition | .method) ∧
      kind.closesBlock = (kind.role matches .closer) := by
  cases kind <;> decide

theorem blockCounts_of_plain {tokens : List Token}
    (h : ∀ token ∈ tokens, token.kind.role = .plain) : openers tokens = 0 ∧ closers tokens = 0 := by
  refine blockCounts_eq_zero_iff.mpr fun token hm => ?_
  rw [token.kind.blocks_of_role.1, token.kind.blocks_of_role.2, h token hm]
  exact ⟨rfl, rfl⟩

end RakeOutline
