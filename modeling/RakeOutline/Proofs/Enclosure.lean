import RakeOutline.Proofs.Counting
import RakeOutline.Proofs.Merging
import RakeOutline.Proofs.Nesting
import RakeOutline.Proofs.Rendering

namespace RakeOutline

variable {base : Frame} {closer : Token} {after : List Token}

/-- The reader is at the tokens inside a namespace, which close the blocks that it has counted. A
namespace whose block has not begun still meets one. -/
structure Reader.Within (base : Frame) (tail inner : List Token) (reader : Reader) : Prop where
  tokens : reader.stream.tokens = inner ++ tail
  nests : ∃ blocks, base.Nests blocks reader.frame ∧ Closes blocks inner
  waits : reader.floor = reader.depth → opensNext inner = true

/-- Where no block comes next, the block of the innermost namespace has begun. -/
theorem Reader.Within.floor_lt {tail inner : List Token} {reader : Reader}
    (h : reader.Within base tail inner) (hbase : base.Open) (hnone : opensNext inner = false) :
    reader.floor < reader.depth := by
  obtain ⟨blocks, hn, _⟩ := h.nests
  have hbelow : reader.floor ≤ reader.depth := hn.floor_le hbase
  have hstarted : reader.floor ≠ reader.depth := by
    intro hwait
    simp [h.waits hwait] at hnone
  omega

/-- The step goes on, and the reader is still inside the namespace. -/
def Step.Stays (base : Frame) (tail more : List Token) : Step → Prop
  | .more _ later => ∃ rest, rest <:+ more ∧ later.Within base tail rest
  | .done _ _ => False

/-- Nothing is declared by the step but tasks that close the blocks which they open. -/
def Step.Closed : Step → Prop
  | .more events _ => ∀ declaration ∈ declarationsOf events,
      openers declaration.tokens = closers declaration.tokens
  | .done _ _ => True

/-- What stands after the namespace: its `end`, and tokens that open no block. -/
structure Ends (closer : Token) (after : List Token) : Prop where
  closes : closer.kind = .endBlock
  opens : openers after = 0
  constants : ∀ token ∈ after, token.kind ≠ .constant

theorem Reader.Within.counts {tail inner rest : List Token} {reader later : Reader}
    (h : reader.Within base tail inner) (hbase : base.Open) (run : List Token)
    (hinner : inner = run ++ rest) (htokens : later.stream.tokens = rest ++ tail)
    (hrun : closers run ≤ openers run)
    (hframe : later.frame =
      { reader.frame with depth := reader.depth + (openers run - closers run : Nat) })
    (hwaits : openers run = closers run → opensNext inner = true → opensNext rest = true) :
    later.Within base tail rest := by
  obtain ⟨blocks, hn, hc⟩ := h.nests
  have hdepth : later.depth = reader.depth + (openers run - closers run : Nat) :=
    congrArg Frame.depth hframe
  have hfloor : later.floor = reader.floor := congrArg Frame.floor hframe
  have hbelow : reader.floor ≤ reader.depth := hn.floor_le hbase
  have hblocks : blocks + (openers run - closers run) = blocks + openers run - closers run := by
    omega
  refine ⟨htokens, ⟨blocks + (openers run - closers run), ?_, ?_⟩, ?_⟩
  · rw [hframe]
    exact hn.raise _
  · rw [hblocks]
    rw [hinner] at hc
    exact hc.drop run
  · intro hwait
    exact hwaits (by omega) (h.waits (by omega))

theorem Reader.Within.split {token : Token} {more : List Token} {reader : Reader}
    {next later : TokenStream} (h : reader.Within base (closer :: after) (token :: more))
    (hends : Ends closer after) (hnext : next.tokens = more ++ closer :: after)
    (hskips : next.Skips later) (hcloses : closers [token] = 0) :
    ∃ run rest, more = run ++ rest ∧ later.tokens = rest ++ closer :: after ∧
      ∀ other ∈ run, other.kind.role = .plain := by
  obtain ⟨run, hr, hp⟩ := hskips
  obtain ⟨blocks, _, hc⟩ := h.nests
  have hclosed : closers (token :: run) = 0 := by simpa [blockCounts_of_plain hp] using hcloses
  have hsplit : token :: more ++ closer :: after = token :: run ++ later.tokens := by
    rw [List.cons_append, ← hnext, hr.tokens, List.cons_append]
  obtain ⟨rest, hinner, htokens⟩ :=
    hc.split hends.closes hends.opens (token :: run) hsplit (by omega)
  exact ⟨run, rest, (List.cons.inj hinner).2, htokens, hp⟩

/-- A token that opens `n` blocks is read with plain tokens after it. -/
theorem Reader.Within.reads {token : Token} {more : List Token} {reader later : Reader}
    {next : TokenStream} (h : reader.Within base (closer :: after) (token :: more))
    (hbase : base.Open) (hends : Ends closer after) (hnext : next.tokens = more ++ closer :: after)
    (hskips : next.Skips later.stream) (n : Nat) (hopens : openers [token] = n)
    (hcloses : closers [token] = 0)
    (hframe : later.frame = { reader.frame with depth := reader.depth + n })
    (hwaits : n = 0 → opensNext (token :: more) = true → opensNext more = true) :
    ∃ rest, rest <:+ more ∧ later.Within base (closer :: after) rest := by
  obtain ⟨run, rest, rfl, htokens, hp⟩ := h.split hends hnext hskips hcloses
  have hopened : openers (token :: run) = n := by simpa [blockCounts_of_plain hp] using hopens
  have hclosed : closers (token :: run) = 0 := by simpa [blockCounts_of_plain hp] using hcloses
  refine ⟨rest, List.suffix_append run rest, ?_⟩
  refine h.counts hbase (token :: run) rfl htokens (by omega) ?_ ?_
  · rw [hopened, hclosed, Nat.sub_zero]
    exact hframe
  · intro hnone hopen
    have hmet := hwaits (by omega) hopen
    rwa [opensNext_append rest hp] at hmet

theorem Reader.Within.enters {token : Token} {more : List Token} {reader later : Reader}
    {next : TokenStream} (h : reader.Within base (closer :: after) (token :: more))
    (hbase : base.Open) (hends : Ends closer after) (hnext : next.tokens = more ++ closer :: after)
    (hskips : next.Skips later.stream) (hkind : token.kind = .identifier)
    (hblock : opensNext more = true)
    (hframe : later.frame =
      ⟨reader.depth + 1, reader.depth + 1, ⟨reader.depth, reader.floor⟩ :: reader.outer⟩) :
    ∃ rest, rest <:+ more ∧ later.Within base (closer :: after) rest := by
  obtain ⟨run, rest, rfl, htokens, hp⟩ :=
    h.split hends hnext hskips (by simp [hkind, TokenKind.closesBlock])
  obtain ⟨blocks, hn, hc⟩ := h.nests
  have hfloor := h.floor_lt hbase (opensNext_of_word _ hkind)
  refine ⟨rest, List.suffix_append run rest, htokens, ⟨blocks, ?_, ?_⟩, ?_⟩
  · have hspace := Frame.Nests.space 0 hn hfloor
    rw [Nat.add_zero, Int.natCast_zero, Int.add_zero] at hspace
    rwa [hframe]
  · simpa [blockCounts_of_plain hp, hkind, TokenKind.opensBlock, TokenKind.closesBlock]
      using hc.drop (token :: run)
  · intro _
    rwa [opensNext_append rest hp] at hblock

/-- A declaration that closes the blocks that it opens is read as a whole. -/
theorem Reader.Within.declares {token : Token} {more : List Token} {reader later : Reader}
    {next : TokenStream} {kind : TaskKind} {declaration : Declaration}
    (h : reader.Within base (closer :: after) (token :: more)) (hbase : base.Open)
    (hends : Ends closer after) (hnext : next.tokens = more ++ closer :: after)
    (hread : next.readDeclaration kind token = (some declaration, later.stream))
    (hframe : later.frame = reader.frame) (hword : opensNext (token :: more) = false)
    (hbalanced : openers declaration.tokens = closers declaration.tokens) :
    ∃ rest, rest <:+ more ∧ later.Within base (closer :: after) rest := by
  obtain ⟨gap, name, arguments, _, _, _, _, _, hsignature, hc⟩ :=
    TokenStream.readDeclaration_eq_some hread
  have htokens : declaration.tokens =
      token :: (gap ++ [name] ++ arguments ++ declaration.body) := by
    rw [Declaration.tokens, hsignature, List.cons_append]
  have hsplit : token :: more ++ closer :: after =
      declaration.tokens ++ later.stream.tokens := by
    rw [htokens, List.cons_append, ← hnext, hc.tokens, List.cons_append]
  obtain ⟨blocks, _, hcloses⟩ := h.nests
  obtain ⟨rest, hinner, hrest⟩ := hcloses.split hends.closes hends.opens declaration.tokens hsplit
    (Nat.le_of_eq hbalanced.symm)
  have hmore : more = gap ++ [name] ++ arguments ++ declaration.body ++ rest := by
    rw [htokens, List.cons_append] at hinner
    exact (List.cons.inj hinner).2
  refine ⟨rest, ⟨_, hmore.symm⟩, ?_⟩
  refine h.counts hbase declaration.tokens hinner hrest (Nat.le_of_eq hbalanced.symm) ?_ ?_
  · rw [hbalanced, Nat.sub_self, hframe]
    exact reader.frame_add_zero.symm
  · simp [hword]

theorem openNamespace_of_directive {name : String}
    (h : Directive.ofIdentifier? name = some .openNamespace) : name = "namespace" := by
  unfold Directive.ofIdentifier? at h
  split at h
  case h_2 => rfl
  all_goals simp at h

/-- The word of a directive is read with what it asks for. A declaration has to close the blocks
that it opens, since nothing inside it is counted. -/
theorem Reader.Within.obey {token : Token} {more : List Token} {reader called : Reader}
    {directive : Directive} (h : reader.Within base (closer :: after) (token :: more))
    (hbase : base.Open) (hends : Ends closer after)
    (hnext : called.stream.tokens = more ++ closer :: after)
    (hframe : called.frame = reader.frame) (hkind : token.kind = .identifier)
    (hdirective : Directive.ofIdentifier? token.text = some directive)
    (hspaces : token.text = "namespace" → opensNext more = true)
    (hclosed : (called.obey directive token).Closed) :
    (called.obey directive token).Stays base (closer :: after) more := by
  have hopens : openers [token] = 0 := by simp [hkind, TokenKind.opensBlock]
  have hcloses : closers [token] = 0 := by simp [hkind, TokenKind.closesBlock]
  have hword : opensNext (token :: more) = false := opensNext_of_word more hkind
  -- All directives but two read plain tokens and count nothing.
  have hplain : ∀ later : Reader, called.stream.Skips later.stream → later.frame = called.frame →
      ∃ rest, rest <:+ more ∧ later.Within base (closer :: after) rest := by
    intro later hskips hstays
    refine h.reads hbase hends hnext hskips 0 hopens hcloses ?_ (by simp [hword])
    rw [hstays, hframe]
    exact reader.frame_add_zero.symm
  cases directive with
  | describe => exact hplain _ (called.stream.skips_readString true) rfl
  | require relative => exact hplain _ (called.stream.skips_readString false) rfl
  | openNamespace =>
    have htext := openNamespace_of_directive hdirective
    obtain ⟨hskips, hmissing⟩ := called.stream.skips_readNamespaceHead
    simp only [Reader.obey, Reader.openNamespace]
    cases hhead : called.stream.readNamespaceHead with
    | mk head later =>
      rw [hhead] at hskips hmissing
      cases head with
      | missing =>
        obtain ⟨run, rest, _, htokens, _⟩ := h.split hends hnext hskips hcloses
        simp [hmissing rfl] at htokens
      | unnamed => exact hplain { called with stream := later } hskips rfl
      | named name =>
        have hdepth : called.depth = reader.depth := congrArg Frame.depth hframe
        have hfloor : called.floor = reader.floor := congrArg Frame.floor hframe
        have houter : called.outer = reader.outer := congrArg Frame.outer hframe
        refine h.enters hbase hends hnext hskips hkind (hspaces htext) ?_
        rw [← hdepth, ← hfloor, ← houter]
        rfl
  | declare kind =>
    cases hread : called.stream.readDeclaration kind token with
    | mk declaration later =>
      have hstep : called.obey (.declare kind) token =
          .more (declaration.toList.map .declared) { called with stream := later } := by
        simp only [Reader.obey, hread]
        rfl
      rw [hstep] at hclosed ⊢
      cases declaration with
      | none => exact hplain _ (TokenStream.skips_readDeclaration hread) rfl
      | some declaration =>
        have hbalanced := hclosed declaration (by simp [declarationsOf, Event.declaration?])
        exact h.declares hbase hends hnext hread hframe hword hbalanced

theorem Reader.Within.defines {token : Token} {more : List Token} {reader later : Reader}
    {next : TokenStream} (h : reader.Within base (closer :: after) (token :: more))
    (hbase : base.Open) (hnext : next.tokens = more ++ closer :: after)
    (hkind : token.kind = .defBlock) (hname : namesNext more = true)
    (hstream : later.stream = (next.skipWhitespace false).next.2)
    (hframe : later.frame = { reader.frame with depth := reader.depth + 1 }) :
    ∃ rest, rest <:+ more ∧ later.Within base (closer :: after) rest := by
  obtain ⟨gap, name, rest, rfl, hgap, hkept, hopens, hcloses⟩ := exists_name_of_namesNext hname
  rw [List.append_assoc, List.cons_append] at hnext
  obtain ⟨named, hl, hc, _⟩ := TokenStream.next_skip_of_tokens hnext hgap hkept
  have hplain : ∀ other ∈ gap, other.kind.role = .plain :=
    fun other hm => role_of_isSkipped (hgap other hm)
  have hopened : openers (token :: (gap ++ [name])) = 1 := by
    simpa [blockCounts_of_plain hplain, hkind, TokenKind.opensBlock] using hopens
  have hclosed : closers (token :: (gap ++ [name])) = 0 := by
    simpa [blockCounts_of_plain hplain, hkind, TokenKind.closesBlock] using hcloses
  have htokens : later.stream.tokens = rest ++ closer :: after := by
    rw [hstream, hl]
    exact hc.rest (by simpa using hnext)
  refine ⟨rest, ⟨gap ++ [name], by simp⟩, ?_⟩
  refine h.counts hbase (token :: (gap ++ [name])) (by simp) htokens (by omega) ?_ (by omega)
  rw [hopened, hclosed]
  exact hframe

/-- An `end` inside the namespace closes a block that was opened inside it. -/
theorem Reader.Within.closes {token : Token} {more : List Token} {reader called : Reader}
    (h : reader.Within base (closer :: after) (token :: more)) (hbase : base.Open)
    (hnext : called.stream.tokens = more ++ closer :: after)
    (hframe : called.frame = reader.frame) (hkind : token.kind = .endBlock) :
    called.closeBlock.Stays base (closer :: after) more := by
  obtain ⟨blocks, hn, hc⟩ := h.nests
  have hone : closers [token] = 1 := by simp [hkind, TokenKind.closesBlock]
  have hnone : openers [token] = 0 := by simp [hkind, TokenKind.opensBlock]
  have hblocks := hc.nested [token] (List.prefix_append [token] more)
  have hdrop := hc.drop [token]
  have hend : opensNext (token :: more) = false := by
    rw [opensNext_cons_of_kept _ (by simp [hkind, TokenKind.role]), hkind]
    rfl
  have hfloor := h.floor_lt hbase hend
  rw [hone, hnone] at hdrop hblocks
  obtain ⟨events, later, hclose, hstream, hnests, hopen⟩ :=
    hn.closeBlock hframe hbase (by omega) hfloor
  rw [hclose]
  refine ⟨more, List.suffix_refl more, by rw [hstream, hnext], ⟨blocks - 1, hnests, hdrop⟩, ?_⟩
  intro hwait
  omega

theorem Reader.Within.dispatches {token : Token} {tail more : List Token} {reader : Reader}
    (h : reader.Within base tail (token :: more)) :
    ∃ called : Reader, called.frame = reader.frame ∧ called.stream.tokens = more ++ tail ∧
      ∀ ignored, reader.step ignored = called.dispatch ignored reader.afterCall token := by
  have htokens : reader.stream.tokens = token :: (more ++ tail) := h.tokens
  obtain ⟨next, hn, hc, _⟩ := TokenStream.next_of_tokens htokens
  refine ⟨{ reader with stream := next, afterCall := token.kind.isCall }, rfl, hc.rest htokens, ?_⟩
  intro ignored
  simp only [Reader.step, hn]

theorem Reader.Within.step {ignored : List String} {token : Token} {more : List Token}
    {reader : Reader} (h : reader.Within base (closer :: after) (token :: more))
    (hbase : base.Open) (hends : Ends closer after) (hregular : Regular (token :: more))
    (hclosed : (reader.step ignored).Closed) :
    (reader.step ignored).Stays base (closer :: after) more := by
  obtain ⟨called, hframe, hnext, hstep⟩ := h.dispatches
  have hraise : { called.frame with depth := called.depth + 1 } =
      { reader.frame with depth := reader.depth + 1 } :=
    congrArg (fun frame : Frame => { frame with depth := frame.depth + 1 }) hframe
  have hpass : openers [token] = 0 → closers [token] = 0 →
      (opensNext (token :: more) = true → opensNext more = true) →
      ∃ rest, rest <:+ more ∧ called.Within base (closer :: after) rest := by
    intro hopens hcloses hwaits
    refine h.reads hbase hends hnext (.refl called.stream) 0 hopens hcloses ?_ fun _ => hwaits
    rw [hframe]
    exact reader.frame_add_zero.symm
  have hopens : openers [token] = _ := congrArg Bool.toNat token.kind.blocks_of_role.1
  have hcloses : closers [token] = _ := congrArg Bool.toNat token.kind.blocks_of_role.2
  rw [hstep] at hclosed ⊢
  unfold Reader.dispatch at hclosed ⊢
  cases hr : token.kind.role with
  | plain =>
    rw [hr] at hopens hcloses
    exact hpass hopens hcloses (by rw [opensNext_cons_of_passed _ (.inl hr)]; exact id)
  | comment =>
    rw [hr] at hopens hcloses
    have hgoes := hregular.comments token List.mem_cons_self (token.kind.eq_of_role.1 hr)
    simp only [hgoes, Bool.false_eq_true, if_false]
    exact hpass hopens hcloses (by rw [opensNext_cons_of_passed _ (.inr hr)]; exact id)
  | opener =>
    rw [hr] at hopens hcloses
    exact h.reads hbase hends hnext (.refl called.stream) 1 hopens hcloses hraise (by simp)
  | definition =>
    rw [hr] at hopens hcloses
    have hconstants : ∀ other ∈ called.stream.tokens, other.kind ≠ .constant := by
      intro other hm
      rw [hnext] at hm
      rcases List.mem_append.mp hm with hm | hm
      · exact hregular.constants other (List.mem_cons_of_mem token hm)
      · rcases List.mem_cons.mp hm with rfl | hm
        · rw [hends.closes]
          decide
        · exact hends.constants other hm
    have hskips := TokenStream.skips_skipDefinitionName hconstants
    generalize called.stream.skipDefinitionName = named at hskips ⊢
    exact h.reads hbase hends hnext hskips 1 hopens hcloses hraise (by simp)
  | method =>
    have hkind := token.kind.eq_of_role.2.1 hr
    have hname := hregular.methods token more (List.suffix_refl _) hkind
    exact h.defines hbase hnext hkind hname rfl hraise
  | closer => exact h.closes hbase hnext hframe (token.kind.eq_of_role.2.2.1 hr)
  | word =>
    rw [hr] at hopens hcloses
    have hkind := role_eq_word hr
    have hword := opensNext_of_word more hkind
    simp only [hr] at hclosed
    simp only
    split
    next => exact hpass hopens hcloses (by simp [hword])
    next hcall =>
      rw [if_neg hcall] at hclosed
      split
      next => exact hpass hopens hcloses (by simp [hword])
      next directive hd =>
        rw [hd] at hclosed
        exact h.obey hbase hends hnext hframe hkind hd
          (hregular.spaces token more (List.suffix_refl _) hkind) hclosed
  | constant =>
    exact absurd (token.kind.eq_of_role.2.2.2.1 hr) (hregular.constants token List.mem_cons_self)
  | scriptEnd =>
    exact absurd (token.kind.eq_of_role.2.2.2.2 hr) (hregular.scriptEnds token List.mem_cons_self)

theorem Reader.Within.frame_eq {tail : List Token} {reader : Reader}
    (h : reader.Within base tail []) : reader.frame = base := by
  obtain ⟨blocks, hn, hc⟩ := h.nests
  have hzero : blocks = 0 := by simpa using hc.closed
  have hwaits : reader.frame.floor = reader.frame.depth → opensNext [] = true := h.waits
  generalize reader.frame = frame at hn hwaits
  cases hn with
  | base =>
    rw [hzero, Int.natCast_zero, Int.add_zero]
  | @space blocks frame own _ _ =>
    have hdepth : frame.depth + 1 = frame.depth + 1 + (own : Int) := by omega
    exact absurd (hwaits hdepth) (by decide)

-- The induction is on the tokens inside. A step keeps to them and leaves fewer; its events climb as
-- the reader does, since the base stays below every frame on the way.
theorem Reader.Within.run {ignored : List String} {inner : List Token} {reader : Reader}
    (h : reader.Within base (closer :: after) inner) (hbase : base.Open)
    (hends : Ends closer after) (hregular : Regular inner)
    (hclosed : ∀ declaration ∈ declarationsOf (reader.run ignored).events,
      openers declaration.tokens = closers declaration.tokens) :
    ∃ events later, Reader.Reaches ignored reader events later ∧ later.frame = base ∧
      later.stream.tokens = closer :: after ∧
      climb (reader.outer.length - base.outer.length) events = some 0 := by
  induction hlength : inner.length using Nat.strong_induction_on generalizing inner reader with
  | _ n ih =>
    cases inner with
    | nil =>
      have hframe := h.frame_eq
      have houter : reader.outer = base.outer := congrArg Frame.outer hframe
      refine ⟨[], reader, .refl reader, hframe, h.tokens, ?_⟩
      rw [houter, Nat.sub_self]
      rfl
    | cons token more =>
      have hstays : (reader.step ignored).Closed →
          (reader.step ignored).Stays base (closer :: after) more :=
        h.step hbase hends hregular
      cases hs : reader.step ignored with
      | done flow later =>
        rw [hs] at hstays
        exact (hstays trivial).elim
      | more events next =>
        rw [Reader.run_of_more hs, Reading.after, declarationsOf_append] at hclosed
        rw [hs] at hstays
        obtain ⟨rest, hrest, hwithin⟩ :=
          hstays fun declaration hm => hclosed declaration (List.mem_append_left _ hm)
        have hshorter : rest.length < n := by
          have hle := hrest.length_le
          rw [← hlength, List.length_cons]
          omega
        obtain ⟨late, later, hreach, hframe, htokens, hclimb⟩ := ih rest.length hshorter hwithin
          (hregular.suffix (hrest.trans (List.suffix_cons token more)))
          (fun declaration hm => hclosed declaration (List.mem_append_right _ hm)) rfl
        obtain ⟨_, hhere, _⟩ := h.nests
        obtain ⟨_, hthere, _⟩ := hwithin.nests
        refine ⟨events ++ late, later, .step hs hreach, hframe, htokens, ?_⟩
        rw [climb_append_of_eq late
          (Reader.climb_step base.outer.length hs hhere.outer_le hthere.outer_le)]
        exact hclimb

def spaceThenTask (layout : Layout) (name : String) (inner : List Token) (other : Layout)
    (task : String) : List Token :=
  layout.spell 0 [Word.identifier "namespace", Word.space, Word.symbol name, Word.space,
      Word.opener, Word.newline] ++
    (inner ++ (layout.spell 6 [Word.closer, Word.newline] ++
      WrittenTask.render ⟨.task, task, none, none⟩ other))

def Frame.top : Frame :=
  Frame.space ⟨0, 0, []⟩

theorem Reader.leaves_top (ignored : List String) {reader : Reader} {rest : List Token}
    (hframe : reader.frame = Frame.top) (hcloser : closer.kind = .endBlock)
    (htokens : reader.stream.tokens = closer :: rest) :
    ∃ next, next.tokens = rest ∧
      reader.step ignored = .more [.left] ((⟨0, 0, []⟩ : Frame).reader next) := by
  obtain ⟨next, hn, hc, _⟩ := TokenStream.next_of_tokens htokens
  have hdepth : reader.depth = 2 := congrArg Frame.depth hframe
  have hfloor : reader.floor = 1 := congrArg Frame.floor hframe
  have houter : reader.outer = [⟨0, 0⟩] := congrArg Frame.outer hframe
  refine ⟨next, hc.rest htokens, ?_⟩
  have hlast : (0 : Int) < 1 ∧ (2 : Int) - 1 ≤ 1 := by decide
  simp only [Reader.step, hn, Reader.dispatch, hcloser, TokenKind.role, Reader.closeBlock, hdepth,
    hfloor, houter, if_pos hlast]
  rfl

/-- The events of a namespace and a task after it, of which those inside the namespace come back to
where they began. -/
theorem reaches_spaceThenTask {ignored : List String} (layout other : Layout) (name task : String)
    {inner : List Token} (hbalanced : Balanced inner) (hregular : Regular inner)
    (hclosed : ∀ declaration ∈ declarationsOf
        ((Reader.start (spaceThenTask layout name inner other task)).run ignored).events,
      openers declaration.tokens = closers declaration.tokens) :
    ∃ events later, climb 0 events = some 0 ∧ later.stream.tokens = [] ∧
      Reader.Reaches ignored (Reader.start (spaceThenTask layout name inner other task))
        ([.entered (unquoteText name)] ++ (events ++ ([.left] ++
          [.declared (WrittenTask.declaration ⟨.task, task, none, none⟩ other)]))) later := by
  let line := WrittenTask.render ⟨.task, task, none, none⟩ other
  let ending := layout.token 7 Word.newline :: line
  have henters : Passes ignored ⟨0, 0, []⟩ _ _ Frame.top := Passes.heads layout name ⟨0, 0, []⟩
  obtain ⟨opened, ho, hhead⟩ := henters
    { unread := spaceThenTask layout name inner other task }
    (inner ++ layout.token 6 Word.closer :: ending) rfl
  have htop : Frame.top.Open := ⟨by decide, by decide⟩
  have hends : Ends (layout.token 6 Word.closer) ending := by
    refine ⟨rfl, rfl, ?_⟩
    simp [ending, line, WrittenTask.render, WrittenTask.head, WrittenTask.arrow, Layout.spell,
      Layout.token, Word.newline, Word.identifier, Word.space, Word.symbol]
  have hwithin : (Frame.top.reader opened).Within Frame.top
      (layout.token 6 Word.closer :: ending) inner := by
    refine ⟨ho, ⟨0, .refl Frame.top, hbalanced.closes⟩, ?_⟩
    intro hwait
    have hnever : (1 : Int) = 2 := hwait
    omega
  have hrun : (Reader.start (spaceThenTask layout name inner other task)).run ignored =
      ((Frame.top.reader opened).run ignored).after [.entered (unquoteText name)] := hhead.run
  have hinside : ∀ declaration ∈ declarationsOf ((Frame.top.reader opened).run ignored).events,
      openers declaration.tokens = closers declaration.tokens := by
    intro declaration hm
    apply hclosed
    simp [hrun, Reading.after, hm]
  obtain ⟨events, last, hreach, hframe, htokens, hclimb⟩ :=
    hwithin.run htop hends hregular hinside
  obtain ⟨left, hl, hleave⟩ := Reader.leaves_top ignored hframe hends.closes htokens
  have htask : Passes ignored ⟨0, 0, []⟩ ending _ ⟨0, 0, []⟩ :=
    (layout.passes_newline 7 ⟨0, 0, []⟩).trans
      (WrittenTask.passes ⟨.task, task, none, none⟩ other ⟨0, 0, []⟩)
  obtain ⟨later, hlater, hdeclare⟩ := htask left [] (by rw [hl, List.append_nil])
  exact ⟨events, _, hclimb, hlater, hhead.trans (hreach.trans (.step hleave hdeclare))⟩

/-- Where declarations, the heads of namespaces and the names of methods keep the count of blocks, a
namespace is closed by its own `end`, whatever balanced run it holds. -/
theorem namespace_closed_by_own_end (file : String) (options : ScanOptions) (tally : Tally)
    (layout other : Layout) (name task : String) (inner : List Token)
    (hbalanced : Balanced inner) (hregular : Regular inner)
    (hclosed : ∀ entry ∈ scanLog file (spaceThenTask layout name inner other task) options tally,
      openers entry.declaration.tokens = closers entry.declaration.tokens) :
    let document :=
      (scanTokens file (spaceThenTask layout name inner other task) options tally).1
    (document.tasksIn Document.rootId).map Task.name = [":" ++ task] ∧
      (document.childrenOf Document.rootId).map (fun child => child.2.name) =
        [unquoteText name] := by
  intro document
  let root := Context.new file tally options
  have hroot : root.WellFormed := Context.new_wellFormed file tally options
  have hdeclarations : ∀ declaration ∈ declarationsOf
      ((Reader.start (spaceThenTask layout name inner other task)).run
        options.ignoredConstants).events,
      openers declaration.tokens = closers declaration.tokens := by
    intro declaration hm
    rw [← root.declarations_log] at hm
    obtain ⟨entry, he, rfl⟩ := List.mem_map.mp hm
    exact hclosed entry he
  obtain ⟨events, later, hclimb, hend, hreach⟩ :=
    reaches_spaceThenTask layout other name task hbalanced hregular hdeclarations
  have hdocument := hreach.document_scanTokens hend file tally
  simp only [Context.applyAll_append] at hdocument
  let inside := (root.enter (unquoteText name)).applyAll events
  have hinside : inside.WellFormed := (hroot.enter (unquoteText name)).applyAll events
  obtain ⟨hback, hspace⟩ := hroot.enclosed rfl (unquoteText name) hclimb
  have hkept : inside.document.namespace? Document.rootId =
      some ⟨rootName, none, [1], [], []⟩ := hspace
  have hname : inside.document.namespaceName? 1 = some (unquoteText name) :=
    (hroot.enter (unquoteText name)).namespaceName?_applyAll events rfl
  have htasks : inside.leave.document.taskIds inside.leave.container = [] := by
    rw [hback, Document.taskIds]
    show (inside.document.namespace? Document.rootId).elim [] Namespace.tasks = []
    rw [hkept]
    rfl
  obtain ⟨hnames, hchildren, hspaces⟩ := hinside.leave.tasksIn_declare
    (WrittenTask.declaration ⟨.task, task, none, none⟩ other) htasks
  rw [hback] at hnames
  have hfinal : document = (inside.leave.declare
      (WrittenTask.declaration ⟨.task, task, none, none⟩ other)).document := hdocument
  refine ⟨by rw [hfinal]; exact hnames, ?_⟩
  rw [Document.names_childrenOf, hfinal, hchildren, hspaces]
  show ((inside.document.namespace? Document.rootId).elim [] Namespace.children).filterMap
    inside.document.namespaceName? = [unquoteText name]
  rw [hkept]
  simp [hname]

theorem namespace_closed_by_own_end_of_blocks :
    let inner := lex "task :a do\nif x then y end\nend\nnamespace :m do\ntask :b\nend\ndef f\nend\n"
    let tokens := spaceThenTask (fun _ => (1, 0)) "n" inner (fun _ => (9, 0)) "after"
    let document := (scanTokens "Rakefile" tokens {} {}).1
    (Balanced inner ∧ Regular inner ∧
      (∀ entry ∈ scanLog "Rakefile" tokens {} {},
        openers entry.declaration.tokens = closers entry.declaration.tokens) ∧
      document.taskCount = 3) ∧
    (document.tasksIn Document.rootId).map Task.name = [":after"] ∧
      (document.childrenOf Document.rootId).map (fun child => child.2.name) = ["n"] := by
  intro inner tokens document
  have hinner : Balanced inner ∧ Regular inner ∧
      (∀ entry ∈ scanLog "Rakefile" tokens {} {},
        openers entry.declaration.tokens = closers entry.declaration.tokens) ∧
      document.taskCount = 3 := by decide +kernel
  have hname : unquoteText "n" = "n" := by decide +kernel
  obtain ⟨htasks, hspaces⟩ := namespace_closed_by_own_end "Rakefile" {} {} (fun _ => (1, 0))
    (fun _ => (9, 0)) "n" "after" inner hinner.1 hinner.2.1 hinner.2.2.1
  rw [hname] at hspaces
  exact ⟨hinner, htasks, hspaces⟩

/-- A task takes the `end` of the condition on its line, which is missed outside: the namespace is
open when its own `end` has been read. -/
theorem namespace_not_closed_by_own_end :
    let inner := lex "if x then task :a end\n"
    let tokens := spaceThenTask (fun _ => (1, 0)) "n" inner (fun _ => (4, 0)) "after"
    Balanced inner ∧ Regular inner ∧ inner.getLast?.map Token.kind = some .newline ∧
      (scanTokens "Rakefile" tokens {} {}).1.taskCount = 2 ∧
      (scanTokens "Rakefile" tokens {} {}).1.tasksIn Document.rootId = [] := by
  decide +kernel

end RakeOutline
