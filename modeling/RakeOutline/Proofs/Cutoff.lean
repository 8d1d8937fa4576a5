import RakeOutline.Proofs.Lockstep

namespace RakeOutline

def Reader.ground (reader : Reader) : Int :=
  (reader.outer.getLast?.map Level.floor).getD reader.floor

/-- Namespaces come and go, but the outermost scope stays the same. -/
theorem Reader.ground_step {ignored : List String} {reader later : Reader} {events : List Event}
    (h : reader.step ignored = .more events later) : later.ground = reader.ground := by
  rcases Reader.outer_step h with ⟨hfloor, houter, _⟩ | ⟨_, level, _, hfloor, houter⟩ |
    ⟨level, _, hfloor, houter⟩
  · rw [Reader.ground, Reader.ground, hfloor, houter]
  · rw [Reader.ground, Reader.ground, houter, map_getLast?_cons, hfloor]
  · rw [Reader.ground, Reader.ground, houter, map_getLast?_cons, hfloor]

/-- Above the ground a scan that leaves tokens unread ends with a token that ends it. -/
theorem Reader.stops_of_done {ignored : List String} {reader later : Reader} {flow : Flow}
    (h : reader.step ignored = .done flow later) (hground : reader.ground ≤ 0)
    (hleft : later.stream.tokens ≠ []) :
    ∃ token, reader.stream.next = (some token, later.stream) ∧ token.endsScan = true := by
  cases (Reader.halts_of_done h).2 with
  | exhausted hnone => exact absurd hnone hleft
  | closed hfloor houter =>
    have hbase : reader.ground = reader.floor := by simp [Reader.ground, houter]
    omega
  | aborted token hn hends => exact ⟨token, hn, hends⟩

theorem Reader.run_takes_last (ignored : List String) (reader : Reader)
    (hground : reader.ground ≤ 0) (hleft : (reader.run ignored).stream.tokens ≠ []) :
    ∃ token, TokenStream.Takes token reader.stream (reader.run ignored).stream ∧
      token.endsScan = true := by
  induction reader using Reader.run_induction ignored with
  | done reader flow later h =>
    obtain ⟨token, hn, hends⟩ := Reader.stops_of_done h hground hleft
    exact ⟨token, TokenStream.takes_next hn, hends⟩
  | more reader events later h ih =>
    obtain ⟨token, htakes, hends⟩ := ih (Reader.ground_step h ▸ hground) hleft
    have hreads := reader.reads_step ignored
    rw [h] at hreads
    exact ⟨token, hreads.takes htakes, hends⟩

def Variation.retail (tail other : List Token) : Variation where
  cuts := False
  tail := tail
  other := other

theorem TokenStream.Takes.ahead {token : Token} {before after : TokenStream}
    (h : TokenStream.Takes token before after) (other : List Token) :
    (Variation.retail after.tokens other).Ahead before.tokens := by
  obtain ⟨⟨run, hr⟩, _⟩ := h
  refine .inr ?_
  rw [hr.tokens, List.length_append, List.length_append]
  exact Nat.lt_add_of_pos_left (Nat.succ_pos _)

theorem Reader.run_spares (ignored : List String) (reader : Reader) (other : List Token)
    (hground : reader.ground ≤ 0) (hleft : (reader.run ignored).stream.tokens ≠ []) :
    (Variation.retail (reader.run ignored).stream.tokens other).Spares ignored reader := by
  induction reader using Reader.run_induction ignored with
  | done reader flow later h =>
    obtain ⟨token, hn, hends⟩ := Reader.stops_of_done h hground hleft
    exact .done h ((TokenStream.takes_next hn).ahead other) (.inl ⟨token, _, hn, hends⟩)
  | more reader events later h ih =>
    have hlater : later.ground ≤ 0 := Reader.ground_step h ▸ hground
    obtain ⟨token, htakes, _⟩ := later.run_takes_last ignored hlater hleft
    exact .more h (htakes.ahead other) (ih hlater hleft)

variable {variation : Variation}

theorem Variation.Relates.refl (tokens : List Token) : variation.within.Relates tokens tokens := by
  induction tokens with
  | nil => exact .rest
  | cons token tokens ih => exact .keep token ih

theorem Variation.Relates.eq_of_whole {first second : List Token} (hwhole : ¬ variation.cuts)
    (h : variation.within.Relates first second) : second = first := by
  induction h with
  | rest => rfl
  | keep token _ ih => rw [ih]
  | cut hcuts => exact absurd hcuts hwhole

theorem Variation.Repeats.eq_of_whole {event event' : Event} (hwhole : ¬ variation.cuts)
    (h : variation.Repeats event event') : event' = event := by
  cases h with
  | same => rfl
  | declared h =>
    cases h with
    | mk hsignature hbody => rw [hsignature.eq_of_whole hwhole, hbody.eq_of_whole hwhole]

theorem Variation.repeats_eq_of_whole {events events' : List Event} (hwhole : ¬ variation.cuts)
    (h : List.Forall₂ variation.Repeats events events') : events' = events := by
  induction h with
  | nil => rfl
  | cons hevent _ ih => rw [hevent.eq_of_whole hwhole, ih]

theorem Variation.relates_retail (run tail other : List Token) :
    (Variation.retail tail other).Relates (run ++ tail) (run ++ other) :=
  (Variation.Relates.refl run).append .rest

def tokensRead (file : String) (tokens : List Token) (options : ScanOptions) (tally : Tally) :
    List Token :=
  let (_, _, stream) := (Context.new file tally options).scanScope { unread := tokens }
  tokens.take (tokens.length - stream.tokens.length)

theorem tokensRead_eq {file : String} {tokens run : List Token} {options : ScanOptions}
    {tally : Tally} (h : tokens = run ++
      (({ unread := tokens } : TokenStream).readScope options.ignoredConstants 0).stream.tokens) :
    tokensRead file tokens options tally = run := by
  have hlength := congrArg List.length h
  rw [List.length_append] at hlength
  show tokens.take (tokens.length -
    (({ unread := tokens } : TokenStream).readScope options.ignoredConstants 0).stream.tokens.length)
    = run
  rw [hlength, Nat.add_sub_cancel]
  nth_rewrite 1 [h]
  exact List.take_left

/-- A scan that leaves tokens unread has just read a token that ends it, in whatever namespace and
block. Whatever stands in the place of the unread tokens, the outline and the tally are the same. -/
theorem scan_independent_of_unread_tokens (file : String) (tokens : List Token)
    (options : ScanOptions) (tally : Tally)
    (h : (tokensRead file tokens options tally).length < tokens.length) :
    tokens = tokensRead file tokens options tally ++
      ((Context.new file tally options).scanScope { unread := tokens }).2.2.unread ∧
    (∃ earlier last, tokensRead file tokens options tally = earlier ++ [last] ∧
      last.endsScan = true) ∧
    ∀ other, scanTokens file (tokensRead file tokens options tally ++ other) options tally =
      scanTokens file tokens options tally := by
  let reader : Reader := { stream := { unread := tokens }, depth := 0, floor := 0 }
  have hground : reader.ground ≤ 0 := Int.le_refl 0
  obtain ⟨run, hrun⟩ := reader.reads_run options.ignoredConstants
  have htokens : tokens = run ++ (reader.run options.ignoredConstants).stream.tokens := hrun.tokens
  rw [tokensRead_eq htokens] at h ⊢
  have hleft : (reader.run options.ignoredConstants).stream.tokens ≠ [] := by
    intro hnone
    rw [hnone, List.append_nil] at htokens
    exact absurd (congrArg List.length htokens) (Nat.ne_of_gt h)
  obtain ⟨last, ⟨⟨earlier, hr⟩, hfree⟩, hends⟩ :=
    reader.run_takes_last options.ignoredConstants hground hleft
  refine ⟨?_, ⟨earlier, last, ?_, hends⟩, fun other => ?_⟩
  · -- No token waits to be read again, so what is left of the stream has not been looked at.
    have hunread : (reader.run options.ignoredConstants).stream.tokens =
        (reader.run options.ignoredConstants).stream.unread := by
      simp [TokenStream.tokens, hfree]
    exact htokens.trans (congrArg (run ++ ·) hunread)
  · exact List.append_cancel_right (htokens.symm.trans hr.tokens)
  · have hrel := Variation.relates_retail run
      (reader.run options.ignoredConstants).stream.tokens other
    rw [← htokens] at hrel
    have hspares := reader.run_spares options.ignoredConstants other hground hleft
    have hevents := Variation.repeats_eq_of_whole id (hspares.readScope hrel)
    rw [scanTokens_eq, scanTokens_eq, hevents]

/-- The comment stands inside a namespace and a block; the task after it is not found. -/
theorem scan_independent_of_unread_tokens_in_namespace :
    let tokens := lex "namespace :n do\nif x\ntask :a\n# :enddoc:\nend\nend\ntask :b\n"
    (tokensRead "Rakefile" tokens {} {}).length < tokens.length ∧
    ∀ other, scanTokens "Rakefile" (tokensRead "Rakefile" tokens {} {} ++ other) {} {} =
      scanTokens "Rakefile" tokens {} {} := by
  have hshort : (tokensRead "Rakefile"
      (lex "namespace :n do\nif x\ntask :a\n# :enddoc:\nend\nend\ntask :b\n") {} {}).length <
      (lex "namespace :n do\nif x\ntask :a\n# :enddoc:\nend\nend\ntask :b\n").length := by
    decide +kernel
  exact ⟨hshort, (scan_independent_of_unread_tokens "Rakefile" _ {} {} hshort).2.2⟩

end RakeOutline
