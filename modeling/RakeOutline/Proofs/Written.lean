import RakeOutline.Declaration.Basic
import RakeOutline.Proofs.Blocks

namespace RakeOutline

theorem TokenStream.Consumes.rest {run rest : List Token} {before after : TokenStream}
    (h : TokenStream.Consumes run before after) (ht : before.tokens = run ++ rest) :
    after.tokens = rest :=
  List.append_cancel_left (h.tokens.symm.trans ht)

/-- Wherever the tokens to come are the run and then the rest, the value is given and the run is
read. -/
def TokenStream.Yields {α : Type} (read : TokenStream → α × TokenStream) (run rest : List Token)
    (value : α) : Prop :=
  ∀ stream : TokenStream, stream.tokens = run ++ rest →
    ∃ after, read stream = (value, after) ∧ TokenStream.Consumes run stream after

theorem TokenStream.next_of_tokens {stream : TokenStream} {token : Token} {rest : List Token}
    (h : stream.tokens = token :: rest) :
    ∃ after, stream.next = (some token, after) ∧
      TokenStream.Consumes [token] stream after ∧ after.pushedBack = none := by
  have hn : ∃ after, stream.next = (some token, after) := by
    unfold TokenStream.next
    rw [h]
    exact ⟨_, rfl⟩
  obtain ⟨after, ha⟩ := hn
  exact ⟨after, ha, TokenStream.consumes_next ha⟩

theorem TokenStream.next_of_nil {stream : TokenStream} (h : stream.tokens = []) :
    stream.next = (none, stream) := by
  unfold TokenStream.next
  rw [h]

theorem TokenStream.read_of_length {stream : TokenStream} {run rest : List Token}
    (h : stream.tokens = run ++ rest) :
    ∃ after, stream.read run.length = (run, after) ∧ TokenStream.Consumes run stream after := by
  have hr : (stream.read run.length).1 = run := by
    unfold TokenStream.read
    split
    next hz => exact (List.eq_nil_of_length_eq_zero hz).symm
    next => rw [h]; exact List.take_left
  have hc := stream.consumes_read run.length
  rw [hr] at hc
  exact ⟨_, Prod.ext hr rfl, hc⟩

theorem TokenStream.consumes_read_peek {stream : TokenStream} {run rest : List Token}
    (h : stream.tokens = run ++ rest) :
    TokenStream.Consumes run stream (stream.read run.length).2.peek.2 := by
  obtain ⟨after, hr, hc⟩ := TokenStream.read_of_length h
  have hp := hc.trans after.consumes_peek
  rw [List.append_nil] at hp
  rwa [hr]

theorem TokenStream.consumes_blanks (crossLines : Bool) (stream : TokenStream) :
    TokenStream.Consumes (stream.tokens.takeWhile (·.kind.isSkipped crossLines)) stream
      (stream.skipWhitespace crossLines) :=
  TokenStream.consumes_read_peek List.takeWhile_append_dropWhile.symm

theorem TokenStream.consumes_skipWhitespace {stream : TokenStream} {crossLines : Bool}
    {gap rest : List Token} {token : Token} (h : stream.tokens = gap ++ token :: rest)
    (hgap : ∀ other ∈ gap, other.kind.isSkipped crossLines = true)
    (htoken : token.kind.isSkipped crossLines = false) :
    TokenStream.Consumes gap stream (stream.skipWhitespace crossLines) := by
  have hrun : stream.tokens.takeWhile (·.kind.isSkipped crossLines) = gap := by
    rw [h, List.takeWhile_append_of_pos hgap, List.takeWhile_cons_of_neg (by simp [htoken]),
      List.append_nil]
  have hs := stream.consumes_blanks crossLines
  rwa [hrun] at hs

theorem TokenStream.next_skip_of_tokens {stream : TokenStream} {crossLines : Bool}
    {gap rest : List Token} {token : Token} (h : stream.tokens = gap ++ token :: rest)
    (hgap : ∀ other ∈ gap, other.kind.isSkipped crossLines = true)
    (htoken : token.kind.isSkipped crossLines = false) :
    ∃ after, (stream.skipWhitespace crossLines).next = (some token, after) ∧
      TokenStream.Consumes (gap ++ [token]) stream after ∧ after.pushedBack = none := by
  have hs := TokenStream.consumes_skipWhitespace h hgap htoken
  obtain ⟨after, hn, hc, hp⟩ := TokenStream.next_of_tokens (hs.rest h)
  exact ⟨after, hn, hs.trans hc, hp⟩

theorem TokenStream.nextArgument_of_tokens {stream : TokenStream} {crossLines : Bool}
    {gap rest : List Token} {token : Token} (h : stream.tokens = gap ++ token :: rest)
    (hgap : ∀ other ∈ gap, other.kind.isSkipped crossLines = true)
    (htoken : token.kind.isSkipped crossLines = false) (hparen : token.kind ≠ .lParen) :
    ∃ after, stream.nextArgument crossLines = (some token, after) ∧
      TokenStream.Consumes (gap ++ [token]) stream after ∧ after.pushedBack = none := by
  obtain ⟨after, hn, hc⟩ := TokenStream.next_skip_of_tokens h hgap htoken
  refine ⟨after, ?_, hc⟩
  simp only [TokenStream.nextArgument, hn, hparen, if_false]

theorem lengthThrough_append {stop : Token → Bool} {run : List Token} {token : Token}
    (rest : List Token) (hrun : ∀ other ∈ run, stop other = false) (htoken : stop token = true) :
    lengthThrough stop (run ++ token :: rest) = (run ++ [token]).length := by
  induction run with
  | nil => simp [lengthThrough, htoken]
  | cons other run ih =>
    have hother := hrun other List.mem_cons_self
    have htail := ih fun later hm => hrun later (List.mem_cons_of_mem other hm)
    rw [List.cons_append, lengthThrough, hother, htail]
    simp

theorem TokenStream.readUntil_of_tokens {stream : TokenStream} (kinds : List TokenKind)
    {run rest : List Token} {token : Token} (h : stream.tokens = run ++ token :: rest)
    (hrun : ∀ other ∈ run, kinds.contains other.kind = false)
    (htoken : kinds.contains token.kind = true) :
    ∃ after, stream.readUntil kinds = (run ++ [token], after) ∧
      TokenStream.Consumes (run ++ [token]) stream after := by
  rw [TokenStream.readUntil, h, lengthThrough_append rest hrun htoken]
  rw [List.append_cons] at h
  exact TokenStream.read_of_length h

theorem TokenStream.array_of_tokens {stream : TokenStream} {gap elements rest : List Token}
    {opening closing : Token}
    (h : stream.tokens = gap ++ opening :: (elements ++ closing :: rest))
    (hgap : ∀ other ∈ gap, other.kind.isSkipped true = true)
    (hopening : opening.kind = .lBracket)
    (helements : ∀ element ∈ elements, element.kind ≠ .rBracket)
    (hclosing : closing.kind = .rBracket) :
    ∃ opened after, (stream.skipWhitespace true).next = (some opening, opened) ∧
      opened.readUntil [.rBracket] = (elements ++ [closing], after) ∧
      TokenStream.Consumes (gap ++ opening :: (elements ++ [closing])) stream after := by
  obtain ⟨opened, hn, ho, _⟩ := TokenStream.next_skip_of_tokens h hgap (by rw [hopening]; rfl)
  rw [List.append_cons] at h
  obtain ⟨after, hu, hc⟩ := TokenStream.readUntil_of_tokens [.rBracket]
    (ho.rest h) (by simpa using helements) (by simp [hclosing])
  have hall := ho.trans hc
  rw [List.append_assoc] at hall
  exact ⟨opened, after, hn, hu, hall⟩

theorem TokenStream.readDependencies_of_array {stream : TokenStream} (kind : TaskKind)
    {gap elements rest : List Token} {opening closing : Token}
    (h : stream.tokens = gap ++ opening :: (elements ++ closing :: rest))
    (hgap : ∀ other ∈ gap, other.kind.isSkipped true = true)
    (hopening : opening.kind = .lBracket)
    (helements : ∀ element ∈ elements, element.kind ≠ .rBracket)
    (hclosing : closing.kind = .rBracket) :
    ∃ after, stream.readDependencies kind =
        (elements.filterMap (·.dependencyName? kind), after) ∧
      TokenStream.Consumes (gap ++ opening :: (elements ++ [closing])) stream after := by
  obtain ⟨opened, after, hn, hu, hc⟩ :=
    TokenStream.array_of_tokens h hgap hopening helements hclosing
  refine ⟨after, ?_, hc⟩
  have hlast : closing.dependencyName? kind = none := by
    simp [Token.dependencyName?, hclosing]
  simp only [TokenStream.readDependencies, hn, hopening, if_true, hu]
  simp [hlast]

theorem TokenStream.readArgumentNames_of_array {stream : TokenStream}
    {gap elements rest : List Token} {opening closing : Token}
    (h : stream.tokens = gap ++ opening :: (elements ++ closing :: rest))
    (hgap : ∀ other ∈ gap, other.kind.isSkipped true = true)
    (hopening : opening.kind = .lBracket)
    (helements : ∀ element ∈ elements, element.kind ≠ .rBracket)
    (hclosing : closing.kind = .rBracket) :
    ∃ after, stream.readArgumentNames = (some (symbolNames elements), after) ∧
      TokenStream.Consumes (gap ++ opening :: (elements ++ [closing])) stream after := by
  obtain ⟨opened, after, hn, hu, hc⟩ :=
    TokenStream.array_of_tokens h hgap hopening helements hclosing
  refine ⟨after, ?_, hc⟩
  have hlast : symbolNames (elements ++ [closing]) = symbolNames elements := by
    simp [symbolNames, List.filter_append, hclosing]
  simp only [TokenStream.readArgumentNames, hn, hopening, if_true, hu, hlast]

theorem TokenStream.readDependencies_of_single {stream : TokenStream} {kind : TaskKind}
    {gap rest : List Token} {token : Token} {name : String}
    (h : stream.tokens = gap ++ token :: rest)
    (hgap : ∀ other ∈ gap, other.kind.isSkipped true = true)
    (htoken : token.kind.isSkipped true = false) (hbracket : token.kind ≠ .lBracket)
    (hname : token.dependencyName? kind = some name) :
    ∃ after, stream.readDependencies kind = ([name], after) ∧
      TokenStream.Consumes (gap ++ [token]) stream after := by
  obtain ⟨after, hn, hc, _⟩ := TokenStream.next_skip_of_tokens h hgap htoken
  refine ⟨after, ?_, hc⟩
  simp only [TokenStream.readDependencies, hn, hbracket, if_false, hname]

theorem TokenStream.readDependencies_of_other {stream : TokenStream} {kind : TaskKind}
    {gap rest : List Token} {token : Token} (h : stream.tokens = gap ++ token :: rest)
    (hgap : ∀ other ∈ gap, other.kind.isSkipped true = true)
    (htoken : token.kind.isSkipped true = false) (hbracket : token.kind ≠ .lBracket)
    (hname : token.dependencyName? kind = none) :
    ∃ after, stream.readDependencies kind = ([], after) ∧
      TokenStream.Consumes gap stream after := by
  obtain ⟨after, hn, hc, hfree⟩ := TokenStream.next_skip_of_tokens h hgap htoken
  refine ⟨after.unget token, ?_, hc.unget hfree⟩
  simp only [TokenStream.readDependencies, hn, hbracket, if_false, hname]

/-- An arrow, as one token or as two. -/
inductive Arrow
  | joined (arrow : Token) (isArrow : arrow.kind = .assoc)
  | split (shaft head : Token) (isShaft : shaft.kind = .assign) (isHead : head.kind = .gt)

def Arrow.first : Arrow → Token
  | .joined arrow _ => arrow
  | .split shaft _ _ _ => shaft

def Arrow.later : Arrow → List Token
  | .joined _ _ => []
  | .split _ head _ _ => [head]

def Arrow.tokens (arrow : Arrow) : List Token :=
  arrow.first :: arrow.later

theorem Arrow.kind_first (arrow : Arrow) :
    arrow.first.kind.isSkipped false = false ∧ arrow.first.kind ≠ .comma := by
  cases arrow with
  | joined arrow isArrow => exact ⟨by rw [Arrow.first, isArrow]; rfl, by simp [Arrow.first, isArrow]⟩
  | split shaft _ isShaft _ => exact ⟨by rw [Arrow.first, isShaft]; rfl, by simp [Arrow.first, isShaft]⟩

section Arrow

variable {kind : TaskKind} {dependencies rest : List Token} {names : List String}
  (hdependencies :
    TokenStream.Yields (TokenStream.readDependencies kind) dependencies rest names)
include hdependencies

theorem TokenStream.readArrow_of_arrow {stream : TokenStream} (arrow : Arrow)
    (h : stream.tokens = arrow.later ++ (dependencies ++ rest)) :
    ∃ after, stream.readArrow kind arrow.first = (names, after) ∧
      TokenStream.Consumes (arrow.later ++ dependencies) stream after := by
  cases arrow with
  | joined arrow isArrow =>
    obtain ⟨after, hd, hc⟩ := hdependencies stream h
    exact ⟨after, by simp only [TokenStream.readArrow, Arrow.first, isArrow, hd], hc⟩
  | split shaft head isShaft isHead =>
    obtain ⟨pointed, hn, hp, _⟩ := TokenStream.next_of_tokens h
    obtain ⟨after, hd, hc⟩ := hdependencies pointed (hp.rest h)
    refine ⟨after, ?_, hp.trans hc⟩
    simp only [TokenStream.readArrow, Arrow.first, isShaft, hn, isHead, if_true, hd]

theorem TokenStream.arrow_of_tokens {stream : TokenStream} {gap : List Token} (arrow : Arrow)
    (h : stream.tokens = gap ++ (arrow.tokens ++ (dependencies ++ rest)))
    (hgap : ∀ other ∈ gap, other.kind.isSkipped false = true) :
    ∃ pointed after, (stream.skipWhitespace false).next = (some arrow.first, pointed) ∧
      pointed.readArrow kind arrow.first = (names, after) ∧
      TokenStream.Consumes (gap ++ (arrow.tokens ++ dependencies)) stream after := by
  obtain ⟨pointed, hn, hp, _⟩ := TokenStream.next_skip_of_tokens h hgap arrow.kind_first.1
  obtain ⟨after, hd, hc⟩ := TokenStream.readArrow_of_arrow hdependencies arrow
    (hp.rest (h.trans (List.append_cons _ _ _)))
  have hall := hp.trans hc
  rw [List.append_assoc, List.singleton_append] at hall
  exact ⟨pointed, after, hn, hd, hall⟩

theorem TokenStream.readTaskArguments_of_arrow {stream : TokenStream} {gap : List Token}
    (arrow : Arrow) (h : stream.tokens = gap ++ (arrow.tokens ++ (dependencies ++ rest)))
    (hgap : ∀ other ∈ gap, other.kind.isSkipped false = true) :
    ∃ after, stream.readTaskArguments kind false = (⟨[], names⟩, after) ∧
      TokenStream.Consumes (gap ++ (arrow.tokens ++ dependencies)) stream after := by
  obtain ⟨pointed, after, hn, hd, hc⟩ := TokenStream.arrow_of_tokens hdependencies arrow h hgap
  refine ⟨after, ?_, hc⟩
  simp [TokenStream.readTaskArguments, hn, arrow.kind_first.2, hd]

/-- Between the name and the arrow there may be a comma and an array of argument names. -/
theorem TokenStream.readTaskArguments_of_array {stream : TokenStream}
    {lead array gap : List Token} {comma : Token} {arguments : List String} (arrow : Arrow)
    (h : stream.tokens =
      lead ++ comma :: (array ++ (gap ++ (arrow.tokens ++ (dependencies ++ rest)))))
    (hlead : ∀ other ∈ lead, other.kind.isSkipped false = true) (hcomma : comma.kind = .comma)
    (harray : ∀ left, TokenStream.Yields TokenStream.readArgumentNames array left (some arguments))
    (hgap : ∀ other ∈ gap, other.kind.isSkipped false = true) :
    ∃ after, stream.readTaskArguments kind false = (⟨arguments, names⟩, after) ∧
      TokenStream.Consumes (lead ++ comma :: (array ++ (gap ++ (arrow.tokens ++ dependencies))))
        stream after := by
  obtain ⟨parted, hn, hp, _⟩ := TokenStream.next_skip_of_tokens h hlead (by rw [hcomma]; rfl)
  have hparted := hp.rest (h.trans (List.append_cons _ _ _))
  obtain ⟨named, ha, hca⟩ := harray _ parted hparted
  obtain ⟨pointed, after, hn', hd, hc⟩ :=
    TokenStream.arrow_of_tokens hdependencies arrow (hca.rest hparted) hgap
  refine ⟨after, ?_, ?_⟩
  · simp [TokenStream.readTaskArguments, hn, hcomma, ha, hn', hd]
  · have hall := hp.trans (hca.trans hc)
    rwa [List.append_assoc, List.singleton_append] at hall

end Arrow

/-- A name that neither a comma nor an arrow follows has no arguments; the spaces after it are
read. -/
theorem TokenStream.readTaskArguments_of_none {stream : TokenStream} (kind : TaskKind)
    (gap : List Token) {rest : List Token} {token : Token} (h : stream.tokens = gap ++ token :: rest)
    (hgap : ∀ other ∈ gap, other.kind.isSkipped false = true)
    (hspace : token.kind.isSkipped false = false)
    (htoken : token.kind ≠ .comma ∧ token.kind ≠ .assoc ∧ token.kind ≠ .assign) :
    ∃ after, stream.readTaskArguments kind false = ({}, after) ∧
      TokenStream.Consumes gap stream after := by
  obtain ⟨hcomma, hassoc, hassign⟩ := htoken
  obtain ⟨passed, hn, hp, hfree⟩ := TokenStream.next_skip_of_tokens h hgap hspace
  have harrow : passed.readArrow kind token = ([], passed.unget token) := by
    unfold TokenStream.readArrow
    split
    · exact absurd ‹_› hassoc
    · exact absurd ‹_› hassign
    · rfl
  refine ⟨passed.unget token, ?_, hp.unget hfree⟩
  simp [TokenStream.readTaskArguments, hn, hcomma, harrow]

theorem TokenStream.readBody_of_tokens {stream : TokenStream} {body rest : List Token}
    (h : stream.tokens = body ++ rest)
    (hlength : statementLength false 0 (body ++ rest) = body.length) :
    ∃ after, stream.readBody = (body, after) ∧ TokenStream.Consumes body stream after := by
  rw [TokenStream.readBody, h, hlength]
  exact TokenStream.read_of_length h

/-- A declaration is read as its parts are: the name, what follows the name, and the rest of the
statement. -/
theorem TokenStream.readDeclaration_of_parts {stream : TokenStream} (kind : TaskKind)
    (keyword : Token) {gap later body rest : List Token} {name : Token} {names : List String}
    (h : stream.tokens = gap ++ name :: (later ++ (body ++ rest)))
    (hgap : ∀ other ∈ gap, other.kind.isSkipped false = true) (hname : name.kind = .symbol)
    (hlater : ∀ named : TokenStream, named.tokens = later ++ (body ++ rest) →
      ∃ after, named.readTaskArguments kind false = (⟨[], names⟩, after) ∧
        TokenStream.Consumes later named after)
    (hbody : statementLength false 0 (body ++ rest) = body.length) :
    ∃ after, stream.readDeclaration kind keyword = (some {
        kind, name := name.text, line := keyword.line
        text := sourceOf (keyword :: (gap ++ [name])), arguments := [], dependencies := names
        signature := keyword :: (gap ++ name :: later), body }, after) ∧
      TokenStream.Consumes (gap ++ name :: (later ++ body)) stream after := by
  have hstart : (stream.startCaptureWith keyword).tokens =
      gap ++ name :: (later ++ (body ++ rest)) := h
  obtain ⟨named, hn, hcn, _⟩ := TokenStream.nextArgument_of_tokens hstart hgap
    (by rw [hname]; rfl) (by rw [hname]; decide)
  obtain ⟨argued, ha, hca⟩ := hlater named (hcn.rest (by rw [hstart, List.append_cons]))
  obtain ⟨hsignature, hcs⟩ := (hcn.trans hca).finishCapture
  have hrest : argued.finishCapture.2.tokens = body ++ rest :=
    hcs.rest (by rw [h]; simp)
  obtain ⟨after, hb, hcb⟩ := TokenStream.readBody_of_tokens hrest hbody
  refine ⟨after, ?_, ?_⟩
  · have hsig : argued.finishCapture.1 = keyword :: (gap ++ name :: later) := by
      rw [TokenStream.finishCapture, hsignature, List.append_assoc, List.singleton_append]
    have htext : sourceOf named.captured = sourceOf (keyword :: (gap ++ [name])) :=
      congrArg sourceOf hcn.finishCapture.1
    simp only [TokenStream.readDeclaration, hn, Token.isTaskName, hname, Token.taskName]
    simp [ha, hb, hsig, htext]
  · have hall := hcs.trans hcb
    simpa using hall

theorem TokenStream.readString_of_tokens {stream : TokenStream} {crossLines : Bool}
    {gap rest : List Token} {token : Token} (h : stream.tokens = gap ++ token :: rest)
    (hgap : ∀ other ∈ gap, other.kind.isSkipped crossLines = true)
    (htoken : token.kind = .string) :
    ∃ after, stream.readString crossLines = (some token, after) ∧
      TokenStream.Consumes (gap ++ [token]) stream after := by
  obtain ⟨after, hn, hc, _⟩ := TokenStream.nextArgument_of_tokens h hgap
    (by rw [htoken]; cases crossLines <;> rfl) (by rw [htoken]; decide)
  refine ⟨after, ?_, hc⟩
  simp only [TokenStream.readString, hn, htoken, if_true]

theorem TokenStream.readNamespaceHead_of_symbol {stream : TokenStream}
    {gap space rest : List Token} {name token : Token}
    (h : stream.tokens = gap ++ name :: (space ++ token :: rest))
    (hgap : ∀ other ∈ gap, other.kind.isSkipped true = true) (hname : name.kind = .symbol)
    (hspace : ∀ other ∈ space, other.kind.isSkipped false = true)
    (htoken : token.kind.isSkipped false = false) :
    ∃ after, stream.readNamespaceHead = (.named name.literalName, after) ∧
      TokenStream.Consumes (gap ++ name :: space) stream after := by
  obtain ⟨named, hn, hc, _⟩ := TokenStream.nextArgument_of_tokens h hgap
    (by rw [hname]; rfl) (by rw [hname]; decide)
  rw [List.append_cons] at h ⊢
  have hs := TokenStream.consumes_skipWhitespace (hc.rest h) hspace htoken
  refine ⟨named.skipWhitespace false, ?_, hc.trans hs⟩
  simp only [TokenStream.readNamespaceHead, hn, hname, true_or, if_true]

theorem nestedConstants_of_call {token : Token} (rest : List Token) (h : token.kind = .dot) :
    nestedConstants (token :: rest) = ([], 0) := by
  cases rest <;> simp [nestedConstants, h]

/-- The statement of a constant that is not ignored is read to the `end` of its block. -/
theorem TokenStream.readBuilder_of_block {stream : TokenStream} {ignored : List String}
    {constant dot opener closer : Token} {call inner rest : List Token}
    (h : stream.tokens = dot :: (call ++ opener :: (inner ++ closer :: rest)))
    (hconstant : ignored.contains constant.text = false) (hdot : dot.kind = .dot)
    (hcall : ∀ token ∈ call, [TokenKind.doBlock, .newline].contains token.kind = false)
    (hopener : opener.kind = .doBlock) (hinner : Balanced inner)
    (hcloser : closer.kind = .endBlock) :
    ∃ after, stream.readBuilder ignored constant =
        (some ⟨constant.text, constant.line⟩, after) ∧
      TokenStream.Consumes (dot :: (call ++ opener :: (inner ++ [closer]))) stream after := by
  have hpath : stream.readConstantPath constant = (constant.text, (stream.read 0).2.peek.2) := by
    simp [TokenStream.readConstantPath, h, nestedConstants_of_call _ hdot, String.join]
  have hpeek : TokenStream.Consumes [] stream (stream.read 0).2.peek.2 :=
    TokenStream.consumes_read_peek (List.nil_append _).symm
  have hcalled : (stream.read 0).2.peek.2.tokens =
      (dot :: call) ++ opener :: (inner ++ closer :: rest) := hpeek.rest h
  obtain ⟨called, hu, hc⟩ := TokenStream.readUntil_of_tokens [.doBlock, .newline] hcalled
    (by simpa [hdot] using hcall) (by simp [hopener])
  have hfree : called.pushedBack = none := by
    have hr : ((stream.read 0).2.peek.2.readUntil [.doBlock, .newline]).2 = called :=
      congrArg Prod.snd hu
    rw [← hr]
    exact TokenStream.free_read (by rw [← TokenStream.readUntil, hu]; simp)
  have hback := hpeek.trans (hc.unget hfree)
  have hblock : (called.unget opener).tokens = (opener :: (inner ++ [closer])) ++ rest :=
    hback.rest (by rw [h]; simp)
  have hlength : statementLength false 0 ((opener :: (inner ++ [closer])) ++ rest) =
      (opener :: (inner ++ [closer])).length := by
    have hl := statementLength_block [] rest (by simp) (by rw [hopener]; rfl) hinner hcloser
    simpa using hl
  obtain ⟨after, hb, hcb⟩ := TokenStream.readBody_of_tokens hblock hlength
  refine ⟨after, ?_, ?_⟩
  · have hlast : (dot :: call ++ [opener]).getLast? = some opener := List.getLast?_concat
    simp only [TokenStream.readBuilder, hpath, hconstant, hu, TokenStream.readBlockAfter, hlast]
    simp [hopener, hb]
  · have hall := hback.trans hcb
    simpa using hall

end RakeOutline
