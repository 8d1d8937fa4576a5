import RakeOutline.Proofs.Passage
import RakeOutline.Proofs.Skips

namespace RakeOutline

variable {base : Frame}

/-- The run closes this many blocks that it did not open, and opens none that it does not close. -/
structure Closes (blocks : Nat) (tokens : List Token) : Prop where
  nested : ∀ initial, initial <+: tokens → closers initial ≤ openers initial + blocks
  closed : openers tokens + blocks = closers tokens

theorem Balanced.closes {tokens : List Token} (h : Balanced tokens) : Closes 0 tokens :=
  ⟨h.nested, h.closed⟩

theorem Closes.drop {blocks : Nat} {rest : List Token} (run : List Token)
    (h : Closes blocks (run ++ rest)) : Closes (blocks + openers run - closers run) rest := by
  have hrun := h.nested run (List.prefix_append run rest)
  have hclosed := h.closed
  simp at hclosed
  refine ⟨?_, by omega⟩
  intro initial hi
  have hnested := h.nested (run ++ initial) ((List.prefix_append_right_inj run).mpr hi)
  simp at hnested
  omega

/-- A run that closes no more blocks than it opens does not reach the `end` after the tokens. -/
theorem Closes.split {blocks : Nat} {tokens tail rest : List Token} {closer : Token}
    (h : Closes blocks tokens) (hcloser : closer.kind = .endBlock) (htail : openers tail = 0)
    (run : List Token) (hsplit : tokens ++ closer :: tail = run ++ rest)
    (hrun : closers run ≤ openers run) :
    ∃ left, tokens = run ++ left ∧ rest = left ++ closer :: tail := by
  rcases List.append_eq_append_iff.mp hsplit with ⟨extra, rfl, hextra⟩ | ⟨left, rfl, hleft⟩
  · cases extra with
    | nil => exact ⟨[], by simp, by simpa using hextra.symm⟩
    | cons first extra =>
      obtain ⟨rfl, he⟩ : closer = first ∧ tail = extra ++ rest := List.cons.inj hextra
      have hclosed := h.closed
      simp [he] at htail
      simp [hcloser, TokenKind.opensBlock, TokenKind.closesBlock] at hrun
      omega
  · exact ⟨left, rfl, hleft⟩

def opensNext (tokens : List Token) : Bool :=
  match tokens.dropWhile fun token => token.kind.role = .plain ∨ token.kind.role = .comment with
  | [] => false
  | token :: _ => token.kind.opensBlock

/-- Whether a name stands after the spaces: any token that does not open or close a block. -/
def namesNext (tokens : List Token) : Bool :=
  match tokens.dropWhile fun token => token.kind.isSkipped false with
  | [] => false
  | token :: _ => !token.kind.opensBlock && !token.kind.closesBlock

theorem opensNext_cons_of_passed {token : Token} (tokens : List Token)
    (h : token.kind.role = .plain ∨ token.kind.role = .comment) :
    opensNext (token :: tokens) = opensNext tokens := by
  rw [opensNext, List.dropWhile_cons_of_pos (by simpa using h)]
  rfl

theorem opensNext_cons_of_kept {token : Token} (tokens : List Token)
    (h : ¬ (token.kind.role = .plain ∨ token.kind.role = .comment)) :
    opensNext (token :: tokens) = token.kind.opensBlock := by
  rw [opensNext, List.dropWhile_cons_of_neg (by simpa using h)]

theorem opensNext_of_word {token : Token} (tokens : List Token) (h : token.kind = .identifier) :
    opensNext (token :: tokens) = false := by
  rw [opensNext_cons_of_kept _ (by simp [h, TokenKind.role]), h]
  rfl

theorem opensNext_append {run : List Token} (tokens : List Token)
    (h : ∀ token ∈ run, token.kind.role = .plain) :
    opensNext (run ++ tokens) = opensNext tokens := by
  induction run with
  | nil => rfl
  | cons token run ih =>
    have htail := ih fun other hm => h other (List.mem_cons_of_mem token hm)
    rw [List.cons_append, opensNext_cons_of_passed _ (.inl (h token List.mem_cons_self)), htail]

theorem exists_name_of_namesNext {tokens : List Token} (h : namesNext tokens = true) :
    ∃ gap name rest, tokens = gap ++ name :: rest ∧
      (∀ other ∈ gap, other.kind.isSkipped false = true) ∧
      name.kind.isSkipped false = false ∧ openers [name] = 0 ∧ closers [name] = 0 := by
  have hparts := List.takeWhile_append_dropWhile
    (p := fun token : Token => token.kind.isSkipped false) (l := tokens)
  unfold namesNext at h
  split at h
  next => simp at h
  next name rest hdrop =>
    obtain ⟨hopens, hcloses⟩ : name.kind.opensBlock = false ∧ name.kind.closesBlock = false := by
      simpa using h
    have hname := List.head?_dropWhile_not (fun token : Token => token.kind.isSkipped false) tokens
    rw [hdrop] at hname hparts
    refine ⟨_, name, rest, hparts.symm, ?_, by simpa using hname, by simp [hopens],
      by simp [hcloses]⟩
    intro other hm
    simpa using List.mem_takeWhile_imp hm

/-- What may stand inside a namespace: tokens that do not end the reading, namespaces with a block
of their own, and methods whose names are no keywords for blocks. -/
structure Regular (tokens : List Token) : Prop where
  constants : ∀ token ∈ tokens, token.kind ≠ .constant
  scriptEnds : ∀ token ∈ tokens, token.kind ≠ .endOfScript
  comments : ∀ token ∈ tokens, token.kind = .comment → isEndOfDocument token.text = false
  spaces : ∀ keyword rest, keyword :: rest <:+ tokens → keyword.kind = .identifier →
    keyword.text = "namespace" → opensNext rest = true
  methods : ∀ keyword rest, keyword :: rest <:+ tokens → keyword.kind = .defBlock →
    namesNext rest = true

instance (tokens : List Token) : Decidable (Regular tokens) :=
  decidable_of_iff
    ((∀ token ∈ tokens, token.kind ≠ .constant ∧ token.kind ≠ .endOfScript ∧
        (token.kind = .comment → isEndOfDocument token.text = false)) ∧
      ∀ suffix ∈ tokens.tails, ∀ keyword ∈ suffix.head?,
        (keyword.kind = .identifier → keyword.text = "namespace" →
          opensNext suffix.tail = true) ∧
        (keyword.kind = .defBlock → namesNext suffix.tail = true))
    ⟨fun h => ⟨fun token hm => (h.1 token hm).1, fun token hm => (h.1 token hm).2.1,
        fun token hm => (h.1 token hm).2.2,
        fun keyword rest hs => (h.2 _ ((List.mem_tails _ _).mpr hs) keyword rfl).1,
        fun keyword rest hs => (h.2 _ ((List.mem_tails _ _).mpr hs) keyword rfl).2⟩,
      fun h => ⟨fun token hm => ⟨h.constants token hm, h.scriptEnds token hm, h.comments token hm⟩,
        fun suffix hs keyword hk => by
          obtain ⟨rest, rfl⟩ := List.head?_eq_some_iff.mp hk
          have hsuffix := (List.mem_tails _ _).mp hs
          exact ⟨h.spaces keyword rest hsuffix, h.methods keyword rest hsuffix⟩⟩⟩

theorem Regular.suffix {tokens rest : List Token} (h : Regular tokens) (hr : rest <:+ tokens) :
    Regular rest where
  constants := fun token hm => h.constants token (hr.subset hm)
  scriptEnds := fun token hm => h.scriptEnds token (hr.subset hm)
  comments := fun token hm => h.comments token (hr.subset hm)
  spaces := fun keyword later hs => h.spaces keyword later (hs.trans hr)
  methods := fun keyword later hs => h.methods keyword later (hs.trans hr)

def Reader.frame (reader : Reader) : Frame where
  depth := reader.depth
  floor := reader.floor
  outer := reader.outer

theorem Reader.frame_add_zero (reader : Reader) :
    { reader.frame with depth := reader.depth + (0 : Nat) } = reader.frame :=
  congrArg (Frame.mk · reader.floor reader.outer) (Int.add_zero reader.depth)

/-- The frame is the base with blocks opened in it, or one in a namespace inside such a frame. -/
inductive Frame.Nests (base : Frame) : Nat → Frame → Prop
  | base (blocks : Nat) : Nests base blocks ⟨base.depth + blocks, base.floor, base.outer⟩
  | space {blocks : Nat} {frame : Frame} (own : Nat) : Nests base blocks frame →
      frame.floor < frame.depth →
      Nests base (blocks + own)
        ⟨frame.depth + 1 + own, frame.depth + 1, ⟨frame.depth, frame.floor⟩ :: frame.outer⟩

theorem Frame.Nests.refl (base : Frame) : base.Nests 0 base := by
  have hbase : base.Nests 0 ⟨base.depth + (0 : Nat), base.floor, base.outer⟩ := .base 0
  rwa [Int.natCast_zero, Int.add_zero] at hbase

/-- A base where the scope has a block of its own open. -/
structure Frame.Open (base : Frame) : Prop where
  nonneg : 0 ≤ base.depth
  floor_lt : base.floor < base.depth

theorem Frame.Nests.depth_le {blocks : Nat} {frame : Frame} (h : base.Nests blocks frame) :
    base.depth ≤ frame.depth := by
  induction h with
  | base blocks => exact Int.le_add_of_nonneg_right (Int.natCast_nonneg blocks)
  | @space blocks frame own _ _ ih =>
    show base.depth ≤ frame.depth + 1 + own
    omega

theorem Frame.Nests.outer_le {blocks : Nat} {frame : Frame} (h : base.Nests blocks frame) :
    base.outer.length ≤ frame.outer.length := by
  induction h with
  | base blocks => exact Nat.le_refl _
  | space own _ _ ih => exact Nat.le_succ_of_le ih

theorem Frame.Nests.floor_le {blocks : Nat} {frame : Frame} (h : base.Nests blocks frame)
    (hbase : base.Open) : frame.floor ≤ frame.depth := by
  have hlt := hbase.floor_lt
  cases h with
  | base blocks =>
    show base.floor ≤ base.depth + blocks
    omega
  | @space blocks frame own _ _ =>
    show frame.depth + 1 ≤ frame.depth + 1 + own
    omega

theorem Frame.Nests.raise {blocks : Nat} {frame : Frame} (h : base.Nests blocks frame)
    (n : Nat) : base.Nests (blocks + n) { frame with depth := frame.depth + n } := by
  cases h with
  | base blocks =>
    have hdepth : base.depth + blocks + n = base.depth + (blocks + n : Nat) := by omega
    show base.Nests (blocks + n) ⟨base.depth + blocks + n, base.floor, base.outer⟩
    rw [hdepth]
    exact .base (blocks + n)
  | @space blocks frame own hn hf =>
    have hdepth : frame.depth + 1 + own + n = frame.depth + 1 + (own + n : Nat) := by omega
    show base.Nests (blocks + own + n)
      ⟨frame.depth + 1 + own + n, frame.depth + 1, ⟨frame.depth, frame.floor⟩ :: frame.outer⟩
    rw [hdepth, Nat.add_assoc]
    exact .space (own + n) hn hf

theorem Reader.closeBlock_of_stays {reader : Reader}
    (h : ¬ (0 < reader.floor ∧ reader.depth - 1 ≤ reader.floor)) :
    reader.closeBlock = .more [] { reader with depth := reader.depth - 1 } := by
  rw [Reader.closeBlock, if_neg h]

theorem Reader.closeBlock_of_ends {reader : Reader} {level : Level} {outer : List Level}
    (h : 0 < reader.floor ∧ reader.depth - 1 ≤ reader.floor)
    (houter : reader.outer = level :: outer) :
    reader.closeBlock = .more [.left]
      { reader with depth := level.depth, floor := level.floor, outer := outer } := by
  rw [Reader.closeBlock, if_pos h, houter]

/-- An `end` takes one block away: one of the innermost namespace, or its last one with the
namespace. -/
theorem Frame.Nests.closeBlock {blocks : Nat} {frame : Frame} {reader : Reader}
    (h : base.Nests blocks frame) (hframe : reader.frame = frame) (hbase : base.Open)
    (hblocks : 0 < blocks) (hfloor : frame.floor < frame.depth) :
    ∃ events later, reader.closeBlock = .more events later ∧ later.stream = reader.stream ∧
      base.Nests (blocks - 1) later.frame ∧ later.floor < later.depth := by
  obtain ⟨hnonneg, hlt⟩ := hbase
  cases h with
  | base =>
    obtain ⟨hd, hf, ho⟩ := Frame.mk.inj hframe
    have hstays : ¬ (0 < reader.floor ∧ reader.depth - 1 ≤ reader.floor) := by omega
    have hdepth : reader.depth - 1 = base.depth + (blocks - 1 : Nat) := by omega
    refine ⟨[], _, Reader.closeBlock_of_stays hstays, rfl, ?_, ?_⟩
    · show base.Nests (blocks - 1) ⟨reader.depth - 1, reader.floor, reader.outer⟩
      rw [hdepth, hf, ho]
      exact .base (blocks - 1)
    · show reader.floor < reader.depth - 1
      omega
  | @space blocks frame own hn hopen =>
    obtain ⟨hd, hf, ho⟩ := Frame.mk.inj hframe
    have hbelow := hn.depth_le
    have hown : 0 < own := by
      have hroom : frame.depth + 1 < frame.depth + 1 + (own : Int) := hfloor
      omega
    by_cases hlast : own = 1
    · have hends : 0 < reader.floor ∧ reader.depth - 1 ≤ reader.floor := by omega
      have hblock : blocks + own - 1 = blocks := by omega
      refine ⟨[.left], _, Reader.closeBlock_of_ends hends ho, rfl, ?_, hopen⟩
      rw [hblock]
      exact hn
    · have hstays : ¬ (0 < reader.floor ∧ reader.depth - 1 ≤ reader.floor) := by omega
      have hdepth : reader.depth - 1 = frame.depth + 1 + (own - 1 : Nat) := by omega
      have hblock : blocks + own - 1 = blocks + (own - 1) := by omega
      refine ⟨[], _, Reader.closeBlock_of_stays hstays, rfl, ?_, ?_⟩
      · show base.Nests (blocks + own - 1) ⟨reader.depth - 1, reader.floor, reader.outer⟩
        rw [hdepth, hf, ho, hblock]
        exact .space (own - 1) hn hopen
      · show reader.floor < reader.depth - 1
        omega

end RakeOutline
