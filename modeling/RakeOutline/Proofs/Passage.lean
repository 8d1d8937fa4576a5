import RakeOutline.Proofs.Run
import RakeOutline.Proofs.Written

namespace RakeOutline

/-- Where a reader stands between two statements: all of it but its stream. -/
structure Frame where
  depth : Int
  floor : Int
  outer : List Level

def Frame.reader (frame : Frame) (stream : TokenStream) : Reader where
  stream := stream
  depth := frame.depth
  floor := frame.floor
  outer := frame.outer

/-- A reader in the first frame that finds the run before it reads the run, gives the events and
is then in the second frame. -/
def Passes (ignored : List String) (before : Frame) (run : List Token) (events : List Event)
    (after : Frame) : Prop :=
  ∀ (stream : TokenStream) (rest : List Token), stream.tokens = run ++ rest →
    ∃ later, later.tokens = rest ∧
      Reader.Reaches ignored (before.reader stream) events (after.reader later)

variable {ignored : List String} {before after : Frame}

theorem Passes.refl (frame : Frame) : Passes ignored frame [] [] frame :=
  fun stream _ h => ⟨stream, h, .refl _⟩

theorem Passes.trans {between : Frame} {first second : List Token} {early late : List Event}
    (h : Passes ignored before first early between)
    (k : Passes ignored between second late after) :
    Passes ignored before (first ++ second) (early ++ late) after := by
  intro stream rest ht
  rw [List.append_assoc] at ht
  obtain ⟨middle, hm, hfirst⟩ := h stream (second ++ rest) ht
  obtain ⟨later, hl, hsecond⟩ := k middle rest hm
  exact ⟨later, hl, hfirst.trans hsecond⟩

theorem Passes.of_dispatch {token : Token} {run : List Token} {events : List Event}
    (hcall : token.kind.isCall = false)
    (h : ∀ (stream : TokenStream) (rest : List Token), stream.tokens = run ++ rest →
      ∃ later, later.tokens = rest ∧
        (before.reader stream).dispatch ignored false token = .more events (after.reader later)) :
    Passes ignored before (token :: run) events after := by
  intro stream rest ht
  obtain ⟨next, hn, hc, _⟩ := TokenStream.next_of_tokens ht
  obtain ⟨later, hl, hd⟩ := h next rest (hc.rest ht)
  refine ⟨later, hl, ?_⟩
  have hs : (before.reader stream).step ignored = .more events (after.reader later) := by
    have hnext : (before.reader stream).stream.next = (some token, next) := hn
    simp only [Reader.step, hnext, hcall]
    exact hd
  have hr := Reader.Reaches.step hs (.refl (after.reader later))
  rwa [List.append_nil] at hr

theorem Passes.plain {token : Token} (frame : Frame) (hcall : token.kind.isCall = false)
    (h : token.kind.role = .plain) : Passes ignored frame [token] [] frame := by
  apply Passes.of_dispatch hcall
  intro stream rest ht
  exact ⟨stream, ht, by simp only [Reader.dispatch, h]⟩

theorem Passes.word {token : Token} (frame : Frame) (hkind : token.kind = .identifier)
    (h : Directive.ofIdentifier? token.text = none) : Passes ignored frame [token] [] frame := by
  apply Passes.of_dispatch (by rw [hkind]; rfl)
  intro stream rest ht
  exact ⟨stream, ht, by simp [Reader.dispatch, hkind, TokenKind.role, h]⟩

theorem Passes.opens {token : Token} (frame : Frame) (hcall : token.kind.isCall = false)
    (h : token.kind.role = .opener) :
    Passes ignored frame [token] [] { frame with depth := frame.depth + 1 } := by
  apply Passes.of_dispatch hcall
  intro stream rest ht
  exact ⟨stream, ht, by simp only [Reader.dispatch, h]; rfl⟩

theorem Passes.closes {token : Token} (frame : Frame) (hkind : token.kind = .endBlock)
    (hfloor : frame.floor ≤ 0 ∨ frame.floor < frame.depth) :
    Passes ignored { frame with depth := frame.depth + 1 } [token] [] frame := by
  apply Passes.of_dispatch (by rw [hkind]; rfl)
  intro stream rest ht
  refine ⟨stream, ht, ?_⟩
  have hinside : ¬ (0 < frame.floor ∧ frame.depth ≤ frame.floor) := by omega
  have hdepth : frame.depth + 1 - 1 = frame.depth := by omega
  simp only [Reader.dispatch, hkind, TokenKind.role, Reader.closeBlock, Frame.reader, hdepth,
    hinside, if_false]

theorem Passes.leaves {token : Token} (frame : Frame) (hkind : token.kind = .endBlock)
    (hdepth : 0 ≤ frame.depth) :
    Passes ignored
      ⟨frame.depth + 2, frame.depth + 1, ⟨frame.depth, frame.floor⟩ :: frame.outer⟩
      [token] [.left] frame := by
  apply Passes.of_dispatch (by rw [hkind]; rfl)
  intro stream rest ht
  refine ⟨stream, ht, ?_⟩
  have hends : 0 < frame.depth + 1 ∧ frame.depth + 2 - 1 ≤ frame.depth + 1 := by omega
  simp only [Reader.dispatch, hkind, TokenKind.role, Reader.closeBlock, Frame.reader, hends,
    and_self, if_true]

theorem Passes.enters {keyword name opener : Token} {gap space : List Token} (frame : Frame)
    (hkeyword : keyword.kind = .identifier) (htext : keyword.text = "namespace")
    (hgap : ∀ other ∈ gap, other.kind.isSkipped true = true) (hname : name.kind = .symbol)
    (hspace : ∀ other ∈ space, other.kind.isSkipped false = true)
    (hopener : opener.kind = .doBlock) :
    Passes ignored frame (keyword :: (gap ++ name :: (space ++ [opener])))
      [.entered name.literalName]
      ⟨frame.depth + 2, frame.depth + 1, ⟨frame.depth, frame.floor⟩ :: frame.outer⟩ := by
  intro stream rest ht
  -- The head is read by one step, which looks as far as the `do`; the next step reads that.
  have hhead : stream.tokens =
      keyword :: (gap ++ name :: (space ++ opener :: rest)) := by simpa using ht
  obtain ⟨next, hn, hc, _⟩ := TokenStream.next_of_tokens hhead
  obtain ⟨named, hr, hcn⟩ := TokenStream.readNamespaceHead_of_symbol (hc.rest hhead) hgap hname
    hspace (by rw [hopener]; rfl)
  have hnamed : named.tokens = [opener] ++ rest := hcn.rest (by rw [hc.rest hhead]; simp)
  let inside : Frame :=
    ⟨frame.depth + 1, frame.depth + 1, ⟨frame.depth, frame.floor⟩ :: frame.outer⟩
  have hstep : (frame.reader stream).step ignored =
      .more [.entered name.literalName] (inside.reader named) := by
    have hnext : (frame.reader stream).stream.next = (some keyword, next) := hn
    have hd : Directive.ofIdentifier? "namespace" = some .openNamespace := by decide
    simp only [Reader.step, hnext, Reader.dispatch, hkeyword, TokenKind.role, htext, hd,
      Reader.obey, Reader.openNamespace, hr]
    rfl
  obtain ⟨later, hl, ho⟩ := Passes.opens inside (by rw [hopener]; rfl) (by rw [hopener]; rfl)
    named rest hnamed
  refine ⟨later, hl, ?_⟩
  have hdepth : frame.depth + 1 + 1 = frame.depth + 2 := by omega
  have hall := Reader.Reaches.step hstep ho
  simp only [inside, hdepth] at hall
  exact hall

/-- A word that names a method of Rake is read with what the method takes. -/
theorem Passes.obeys {keyword : Token} {run : List Token} {events : List Event}
    (directive : Directive) (hkeyword : keyword.kind = .identifier)
    (htext : Directive.ofIdentifier? keyword.text = some directive)
    (h : ∀ (stream : TokenStream) (rest : List Token), stream.tokens = run ++ rest →
      ∃ later, later.tokens = rest ∧
        (before.reader stream).obey directive keyword = .more events (after.reader later)) :
    Passes ignored before (keyword :: run) events after := by
  apply Passes.of_dispatch (by rw [hkeyword]; rfl)
  intro stream rest ht
  obtain ⟨later, hl, ho⟩ := h stream rest ht
  refine ⟨later, hl, ?_⟩
  simp only [Reader.dispatch, hkeyword, TokenKind.role, htext]
  exact ho

theorem Passes.describes {keyword text : Token} {gap : List Token} (frame : Frame)
    (hkeyword : keyword.kind = .identifier) (hdesc : keyword.text = "desc")
    (hgap : ∀ other ∈ gap, other.kind.isSkipped true = true) (htext : text.kind = .string) :
    Passes ignored frame (keyword :: (gap ++ [text])) [.described text.literalName] frame := by
  apply Passes.obeys .describe hkeyword (by rw [hdesc]; decide)
  intro stream rest ht
  obtain ⟨after, hr, hc⟩ := TokenStream.readString_of_tokens
    (by rw [ht, List.append_assoc]; rfl) hgap htext
  refine ⟨after, hc.rest ht, ?_⟩
  have hstream : (frame.reader stream).stream = stream := rfl
  simp only [Reader.obey, hstream, TokenStream.readDescription, hr]
  rfl

theorem Passes.requires {keyword file : Token} {gap : List Token} (frame : Frame)
    (hkeyword : keyword.kind = .identifier) (hrequire : keyword.text = "require")
    (hgap : ∀ other ∈ gap, other.kind.isSkipped false = true) (hfile : file.kind = .string) :
    Passes ignored frame (keyword :: (gap ++ [file]))
      [.required ⟨file.literalName, false, file.line⟩] frame := by
  apply Passes.obeys (.require false) hkeyword (by rw [hrequire]; decide)
  intro stream rest ht
  obtain ⟨after, hr, hc⟩ := TokenStream.readString_of_tokens
    (by rw [ht, List.append_assoc]; rfl) hgap hfile
  refine ⟨after, hc.rest ht, ?_⟩
  have hstream : (frame.reader stream).stream = stream := rfl
  simp only [Reader.obey, hstream, TokenStream.readRequire, hr]
  rfl

theorem Passes.declares {kind : TaskKind} {keyword name : Token} {gap later body : List Token}
    {names : List String} (frame : Frame) (hkeyword : keyword.kind = .identifier)
    (hkind : Directive.ofIdentifier? keyword.text = some (.declare kind))
    (hgap : ∀ other ∈ gap, other.kind.isSkipped false = true) (hname : name.kind = .symbol)
    (hlater : ∀ (named : TokenStream) (rest : List Token), named.tokens = later ++ (body ++ rest) →
      ∃ after, named.readTaskArguments kind false = (⟨[], names⟩, after) ∧
        TokenStream.Consumes later named after)
    (hbody : ∀ rest, statementLength false 0 (body ++ rest) = body.length) :
    Passes ignored frame (keyword :: (gap ++ name :: (later ++ body)))
      [.declared {
        kind, name := name.text, line := keyword.line
        text := sourceOf (keyword :: (gap ++ [name])), arguments := [], dependencies := names
        signature := keyword :: (gap ++ name :: later), body }] frame := by
  apply Passes.obeys (.declare kind) hkeyword hkind
  intro stream rest ht
  have hparts : stream.tokens = gap ++ name :: (later ++ (body ++ rest)) := by simpa using ht
  obtain ⟨after, hr, hc⟩ := TokenStream.readDeclaration_of_parts kind keyword hparts hgap hname
    (fun named hn => hlater named rest hn) (hbody rest)
  refine ⟨after, hc.rest ht, ?_⟩
  have hstream : (frame.reader stream).stream = stream := rfl
  simp only [Reader.obey, hstream, hr]
  rfl

theorem Passes.builds {constant dot opener closer : Token} {call inner : List Token}
    (frame : Frame) (hconstant : constant.kind = .constant)
    (hrecorded : ignored.contains constant.text = false) (hdot : dot.kind = .dot)
    (hcall : ∀ token ∈ call, [TokenKind.doBlock, .newline].contains token.kind = false)
    (hopener : opener.kind = .doBlock) (hinner : Balanced inner)
    (hcloser : closer.kind = .endBlock) :
    Passes ignored frame (constant :: dot :: (call ++ opener :: (inner ++ [closer])))
      [.included ⟨constant.text, constant.line⟩] frame := by
  apply Passes.of_dispatch (by rw [hconstant]; rfl)
  intro stream rest ht
  have hcalled : stream.tokens = dot :: (call ++ opener :: (inner ++ closer :: rest)) := by
    simpa using ht
  obtain ⟨after, hr, hc⟩ := TokenStream.readBuilder_of_block hcalled hrecorded hdot hcall hopener
    hinner hcloser
  refine ⟨after, hc.rest ht, ?_⟩
  have hstream : (frame.reader stream).stream = stream := rfl
  simp only [Reader.dispatch, hconstant, TokenKind.role, hstream, hr]
  rfl

end RakeOutline
