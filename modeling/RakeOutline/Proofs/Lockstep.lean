import Mathlib.Data.List.Forall2
import RakeOutline.Proofs.Nesting
import RakeOutline.Proofs.Parallel
import RakeOutline.Proofs.Slices

namespace RakeOutline

/-- The same event; a declaration may have been read from tokens that differ. -/
inductive Variation.Repeats (variation : Variation) : Event → Event → Prop
  | same {event : Event} : event.declaration? = none → Repeats variation event event
  | declared {declaration declaration' : Declaration} :
      variation.Redeclares declaration declaration' →
      Repeats variation (.declared declaration) (.declared declaration')

/-- The second reader is the first, before tokens that may differ. -/
inductive Variation.Alongside (variation : Variation) : Reader → Reader → Prop
  | mk {reader : Reader} {stream : TokenStream} :
      variation.Relates reader.stream.tokens stream.tokens →
      Alongside variation reader { reader with stream }

/-- The second scan ends as the first does, or comes to stand beside it again; it may take further
steps for that, in which nothing happens. -/
inductive Variation.Follows (variation : Variation) (ignored : List String) : Step → Step → Prop
  | done {flow : Flow} {later later' : Reader} : later'.outer = later.outer →
      Follows variation ignored (.done flow later) (.done flow later')
  | more {events events' : List Event} {later between later' : Reader} :
      List.Forall₂ variation.Repeats events events' →
      Reader.Reaches ignored between [] later' → variation.Alongside later later' →
      Follows variation ignored (.more events later) (.more events' between)

variable {variation : Variation} {ignored : List String}

theorem Variation.repeats_map {α : Type} {f : α → Event} (h : ∀ x, (f x).declaration? = none)
    (xs : List α) : List.Forall₂ variation.Repeats (xs.map f) (xs.map f) := by
  refine List.forall₂_same.mpr fun event hm => ?_
  obtain ⟨x, _, rfl⟩ := List.mem_map.mp hm
  exact .same (h x)

theorem Variation.repeats_declared {declaration declaration' : Option Declaration}
    (h : Option.Rel variation.Redeclares declaration declaration') :
    List.Forall₂ variation.Repeats (declaration.toList.map .declared)
      (declaration'.toList.map .declared) := by
  cases h with
  | none => exact .nil
  | some h => exact .cons (.declared h) .nil

variable {reader : Reader} {stream : TokenStream}

theorem Variation.Relates.follows (state : Reader) {after after' : TokenStream}
    {events events' : List Event} (h : variation.Relates after.tokens after'.tokens)
    (hevents : List.Forall₂ variation.Repeats events events') :
    variation.Follows ignored (.more events { state with stream := after })
      (.more events' { state with stream := after' }) := by
  have halong : variation.Alongside { state with stream := after }
      { state with stream := after' } :=
    @Variation.Alongside.mk _ { state with stream := after } _ h
  exact .more hevents (.refl _) halong

@[simp] theorem Reader.stream_openNamespace (reader : Reader) :
    reader.openNamespace.stream = reader.stream.readNamespaceHead.2 := by
  unfold Reader.openNamespace
  split
  all_goals next hhead => rw [hhead]; rfl

theorem Variation.Relates.openNamespace
    (h : variation.Relates reader.stream.tokens stream.tokens)
    (ha : variation.Ahead reader.openNamespace.stream.tokens) :
    variation.Follows ignored reader.openNamespace { reader with stream }.openNamespace := by
  rw [Reader.stream_openNamespace] at ha
  obtain ⟨heq, hstep⟩ := h.readNamespaceHead ha
  unfold Reader.openNamespace
  generalize reader.stream.readNamespaceHead = read at heq hstep ⊢
  generalize hread : stream.readNamespaceHead = read' at heq hstep
  obtain ⟨head, after⟩ := read
  obtain ⟨head', after'⟩ := read'
  obtain rfl : head' = head := heq
  cases head' with
  | missing =>
    simp only
    exact .done rfl
  | unnamed =>
    simp only
    exact Variation.Relates.follows reader hstep.tokens .nil
  | named name =>
    simp only
    refine Variation.Relates.follows { reader with
      depth := reader.depth + 1, floor := reader.depth + 1
      outer := ⟨reader.depth, reader.floor⟩ :: reader.outer } hstep.tokens ?_
    exact .cons (.same rfl) .nil

theorem Variation.Relates.obey {directive : Directive} {token : Token}
    (h : variation.Relates reader.stream.tokens stream.tokens)
    (ha : variation.Ahead (reader.obey directive token).stream.tokens) :
    variation.Follows ignored (reader.obey directive token)
      ({ reader with stream }.obey directive token) := by
  cases directive with
  | describe =>
    simp [Reader.obey, Reader.follow, TokenStream.readDescription] at ha ⊢
    obtain ⟨heq, hstep⟩ := h.readString ha
    rw [heq]
    exact Variation.Relates.follows reader hstep.tokens (Variation.repeats_map (fun _ => rfl) _)
  | require relative =>
    simp [Reader.obey, Reader.follow, TokenStream.readRequire] at ha ⊢
    obtain ⟨heq, hstep⟩ := h.readString ha
    rw [heq]
    exact Variation.Relates.follows reader hstep.tokens (Variation.repeats_map (fun _ => rfl) _)
  | declare kind =>
    simp [Reader.obey, Reader.follow] at ha ⊢
    obtain ⟨hrel, hstep⟩ := h.readDeclaration ha
    exact Variation.Relates.follows reader hstep.tokens (Variation.repeats_declared hrel)
  | openNamespace => exact h.openNamespace ha

theorem Variation.Relates.closeBlock (h : variation.Relates reader.stream.tokens stream.tokens) :
    variation.Follows ignored reader.closeBlock { reader with stream }.closeBlock := by
  unfold Reader.closeBlock
  simp only
  split
  next =>
    split
    next => exact .done rfl
    next level outer _ =>
      refine Variation.Relates.follows { reader with
        depth := level.depth, floor := level.floor, outer := outer } h ?_
      exact .cons (.same rfl) .nil
  next => exact Variation.Relates.follows { reader with depth := reader.depth - 1 } h .nil

theorem Reader.step_of_plain {token : Token} {after : TokenStream}
    (hn : reader.stream.next = (some token, after)) (hrole : token.kind.role = .plain) :
    reader.step ignored =
      .more [] { reader with stream := after, afterCall := token.kind.isCall } := by
  simp only [Reader.step, hn, Reader.dispatch, hrole]

/-- The second half of an arrow is a step in which nothing happens. -/
theorem Token.CutInTwo.reaches {arrow assign gt : Token} {after : TokenStream}
    (h : arrow.CutInTwo assign gt) (hn : reader.stream.next = (some gt, after))
    (hcall : reader.afterCall = false) :
    Reader.Reaches ignored reader [] { reader with stream := after } := by
  have hstep : reader.step ignored = .more [] { reader with stream := after } := by
    rw [Reader.step_of_plain hn (by rw [h.right]; rfl), h.right, hcall]
    rfl
  exact .step hstep (.refl _)

/-- A method whose name is an arrow takes the arrow, or the first half of it. -/
theorem Variation.Relates.method (h : variation.Relates reader.stream.tokens stream.tokens)
    (hcall : reader.afterCall = false)
    (ha : variation.Ahead (reader.stream.skipWhitespace false).next.2.tokens) :
    variation.Follows ignored
      (.more [] { reader with
        depth := reader.depth + 1, stream := (reader.stream.skipWhitespace false).next.2 })
      (.more [] { reader with
        depth := reader.depth + 1, stream := (stream.skipWhitespace false).next.2 }) := by
  have hm := @Variation.Relates.meets_next_skip _ _ _ false h
    (ha.of_suffix (TokenStream.reads_next _).suffix)
  generalize (reader.stream.skipWhitespace false).next = read at hm ⊢
  generalize (stream.skipWhitespace false).next = read' at hm ⊢
  cases hm with
  | none hin => exact Variation.Relates.follows { reader with depth := reader.depth + 1 } hin.tokens .nil
  | same hin => exact Variation.Relates.follows { reader with depth := reader.depth + 1 } hin.tokens .nil
  | arrow harrow hnext hin => exact .more .nil (harrow.reaches hnext hcall) (.mk hin.tokens)

theorem Token.role_of_endsScan {token : Token} (h : token.endsScan = true) :
    token.kind.role = .scriptEnd ∨ token.kind.role = .comment := by
  simp only [Token.endsScan, Bool.or_eq_true, decide_eq_true_eq, Bool.and_eq_true] at h
  rcases h with hk | ⟨hk, _⟩
  · exact .inl (by rw [hk]; rfl)
  · exact .inr (by rw [hk]; rfl)

/-- What belongs to a token is the same in both scans. A token that ends the scan is the last that
is read; what stands after it does not matter. -/
theorem Variation.Relates.dispatch {token : Token} {called : Bool}
    (h : variation.Relates reader.stream.tokens stream.tokens)
    (hcall : reader.afterCall = token.kind.isCall)
    (ha : token.endsScan = true ∨
      variation.Ahead (reader.dispatch ignored called token).stream.tokens) :
    variation.Follows ignored (reader.dispatch ignored called token)
      ({ reader with stream }.dispatch ignored called token) := by
  -- All other tokens may have something read after them, and need the tail to be further on.
  have hreads : token.kind.role ≠ .scriptEnd → token.kind.role ≠ .comment →
      variation.Ahead (reader.dispatch ignored called token).stream.tokens := by
    intro hscript hcomment
    refine ha.resolve_left fun hends => ?_
    exact (Token.role_of_endsScan hends).elim hscript hcomment
  unfold Reader.dispatch at hreads ⊢
  cases hr : token.kind.role with
  | constant =>
    have hahead := hreads (by simp [hr]) (by simp [hr])
    simp only [hr, Reader.follow, Step.stream_more] at hahead ⊢
    obtain ⟨heq, hstep⟩ := h.readBuilder hahead
    rw [heq]
    exact Variation.Relates.follows reader hstep.tokens (Variation.repeats_map (fun _ => rfl) _)
  | definition =>
    have hahead := hreads (by simp [hr]) (by simp [hr])
    simp only [hr, Step.stream_more] at hahead ⊢
    have hstep := h.skipDefinitionName hahead
    exact Variation.Relates.follows { reader with depth := reader.depth + 1 } hstep.tokens .nil
  | method =>
    have hahead := hreads (by simp [hr]) (by simp [hr])
    simp only [hr, Step.stream_more] at hahead ⊢
    exact h.method (by rw [hcall, token.kind.eq_of_role.2.1 hr]; rfl) hahead
  | closer => exact h.closeBlock
  | word =>
    have hahead := hreads (by simp [hr]) (by simp [hr])
    simp only [hr] at hahead ⊢
    split
    next => exact Variation.Relates.follows reader h .nil
    next hcalled =>
      rw [if_neg hcalled] at hahead
      cases hi : Directive.ofIdentifier? token.text with
      | none => exact Variation.Relates.follows reader h .nil
      | some directive =>
        rw [hi] at hahead
        exact h.obey hahead
  | scriptEnd => exact .done rfl
  | comment =>
    simp only
    split
    next => exact .done rfl
    next => exact Variation.Relates.follows reader h .nil
  | opener => exact Variation.Relates.follows { reader with depth := reader.depth + 1 } h .nil
  | plain => exact Variation.Relates.follows reader h .nil

/-- The token that the scan reads next is its last. -/
def Reader.Stops (reader : Reader) : Prop :=
  ∃ token after, reader.stream.next = (some token, after) ∧ token.endsScan = true

/-- The second scan follows each step of the first one, up to the last token before the tail. -/
theorem Variation.Alongside.step {reader' : Reader} (h : variation.Alongside reader reader')
    (ha : variation.Ahead reader.stream.tokens)
    (hl : reader.Stops ∨ variation.Ahead (reader.step ignored).stream.tokens) :
    variation.Follows ignored (reader.step ignored) (reader'.step ignored) := by
  cases h with
  | @mk stream hrel =>
  have hm := hrel.meets_next ha
  have hends : ∀ token after, reader.stream.next = (some token, after) →
      token.endsScan = true ∨ variation.Ahead (reader.step ignored).stream.tokens := by
    intro token after hn
    rcases hl with ⟨last, _, hlast, hends⟩ | hahead
    · obtain ⟨htoken, _⟩ := Prod.mk.inj (hn.symm.trans hlast)
      exact .inl (Option.some.inj htoken ▸ hends)
    · exact .inr hahead
  cases hn : reader.stream.next with
  | mk read after =>
  cases hn' : stream.next with
  | mk read' after' =>
  rw [hn, hn'] at hm
  cases hm with
  | none hin =>
    simp only [Reader.step, hn, hn']
    exact .done rfl
  | @same token _ _ hin _ =>
    have hahead := hends token after hn
    simp only [Reader.step, hn, hn'] at hahead ⊢
    exact hin.tokens.dispatch rfl hahead
  | arrow harrow hnext hin =>
    -- Neither an arrow nor a half of it makes a call of the word that follows.
    rw [Reader.step_of_plain hn (by rw [harrow.whole]; rfl),
      Reader.step_of_plain hn' (by rw [harrow.left]; rfl), harrow.whole, harrow.left]
    exact .more .nil (harrow.reaches hnext rfl) (.mk hin.tokens)

/-- A scan that does not come to the tail. It may end at the last token before it. -/
inductive Variation.Spares (variation : Variation) (ignored : List String) : Reader → Prop
  | done {reader later : Reader} {flow : Flow} : reader.step ignored = .done flow later →
      variation.Ahead reader.stream.tokens →
      reader.Stops ∨ variation.Ahead later.stream.tokens → Spares variation ignored reader
  | more {reader later : Reader} {events : List Event} :
      reader.step ignored = .more events later → variation.Ahead later.stream.tokens →
      Spares variation ignored later → Spares variation ignored reader

/-- Two scans side by side find the same events, if the first does not come to the tail. -/
theorem Variation.Spares.run {reader' : Reader} (h : variation.Spares ignored reader)
    (hr : variation.Alongside reader reader') :
    List.Forall₂ variation.Repeats (reader.run ignored).events (reader'.run ignored).events := by
  induction h generalizing reader' with
  | done hs ha hl =>
    have hf := hr.step ha (by rw [hs]; exact hl)
    generalize hs' : reader'.step ignored = step' at hf
    rw [hs] at hf
    cases hf with
    | done houter =>
      rw [Reader.run_of_done hs, Reader.run_of_done hs', Reader.finish, Reader.finish, houter]
      exact Variation.repeats_map (fun _ => rfl) _
  | @more reader later events hs hl _ ih =>
    have hreads := reader.reads_step ignored
    rw [hs] at hreads
    have hf := hr.step (hl.of_suffix hreads.suffix) (.inr (by rw [hs]; exact hl))
    generalize hs' : reader'.step ignored = step' at hf
    rw [hs] at hf
    cases hf with
    | more hevents hreach halong =>
      rw [Reader.run_of_more hs, Reader.run_of_more hs', hreach.run]
      exact List.rel_append hevents (ih halong)

theorem Variation.Spares.readScope {tokens tokens' : List Token}
    (h : variation.Spares ignored { stream := { unread := tokens }, depth := 0, floor := 0 })
    (hrel : variation.Relates tokens tokens') :
    List.Forall₂ variation.Repeats
      (({ unread := tokens } : TokenStream).readScope ignored 0).events
      (({ unread := tokens' } : TokenStream).readScope ignored 0).events :=
  h.run (@Variation.Alongside.mk _ { stream := { unread := tokens }, depth := 0, floor := 0 } _ hrel)

theorem scanTokens_eq (file : String) (tokens : List Token) (options : ScanOptions)
    (tally : Tally) :
    scanTokens file tokens options tally =
      let context := (Context.new file tally options).applyAll
        (({ unread := tokens } : TokenStream).readScope options.ignoredConstants 0).events
      (context.document, context.tally) := rfl

end RakeOutline
