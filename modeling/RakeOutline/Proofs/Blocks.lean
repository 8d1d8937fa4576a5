import RakeOutline.Declaration.Body
import Mathlib.Data.List.Infix

namespace RakeOutline

def openers (tokens : List Token) : Nat :=
  tokens.countP (·.kind.opensBlock)

def closers (tokens : List Token) : Nat :=
  tokens.countP (·.kind.closesBlock)

structure Balanced (tokens : List Token) : Prop where
  nested : ∀ initial, initial <+: tokens → closers initial ≤ openers initial
  closed : openers tokens = closers tokens

@[simp] theorem blockCounts_nil : openers [] = 0 ∧ closers [] = 0 :=
  ⟨rfl, rfl⟩

@[simp] theorem blockCounts_cons (token : Token) (tokens : List Token) :
    openers (token :: tokens) = token.kind.opensBlock.toNat + openers tokens ∧
      closers (token :: tokens) = token.kind.closesBlock.toNat + closers tokens := by
  unfold openers closers
  rw [List.countP_cons, List.countP_cons]
  cases token.kind.opensBlock <;> cases token.kind.closesBlock <;> simp [Nat.add_comm]

@[simp] theorem blockCounts_append (first second : List Token) :
    openers (first ++ second) = openers first + openers second ∧
      closers (first ++ second) = closers first + closers second :=
  ⟨List.countP_append, List.countP_append⟩

theorem blockCounts_eq_zero_iff {tokens : List Token} :
    openers tokens = 0 ∧ closers tokens = 0 ↔
      ∀ token ∈ tokens, token.kind.opensBlock = false ∧ token.kind.closesBlock = false := by
  simp only [openers, closers, List.countP_eq_zero, Bool.not_eq_true, forall_and]

instance (tokens : List Token) : Decidable (Balanced tokens) :=
  decidable_of_iff
    ((∀ initial ∈ tokens.inits, closers initial ≤ openers initial) ∧
      openers tokens = closers tokens)
    ⟨fun h => ⟨fun initial hi => h.1 initial ((List.mem_inits initial tokens).mpr hi), h.2⟩,
      fun h =>
        ⟨fun initial hi => h.nested initial ((List.mem_inits initial tokens).mp hi), h.closed⟩⟩

/-- The start of a balanced run is balanced as soon as its blocks are closed. -/
theorem Balanced.prefix_iff {tokens run : List Token} (h : Balanced tokens)
    (hr : run <+: tokens) : Balanced run ↔ openers run = closers run :=
  ⟨Balanced.closed, fun hc => ⟨fun initial hi => h.nested initial (hi.trans hr), hc⟩⟩

theorem TokenKind.blockChange_eq (kind : TokenKind) :
    kind.blockChange = (kind.opensBlock.toNat : Int) - kind.closesBlock.toNat := by
  cases kind <;> rfl

theorem statementLength_within {tokens : List Token} {depth : Int} (rest : List Token)
    (h : ∀ initial, initial <+: tokens → 0 < depth + openers initial - closers initial) :
    statementLength true depth (tokens ++ rest) =
      statementLength true (depth + openers tokens - closers tokens) rest + tokens.length := by
  induction tokens generalizing depth with
  | nil => simp
  | cons token tokens ih =>
    have hchange := token.kind.blockChange_eq
    have hhead := h [token] (List.prefix_append [token] tokens)
    have htail : ∀ initial, initial <+: tokens →
        0 < depth + token.kind.blockChange + openers initial - closers initial := by
      intro initial hi
      have hc := h (token :: initial) (List.cons_prefix_cons.mpr ⟨rfl, hi⟩)
      simp at hc
      omega
    have hdepth : depth + token.kind.blockChange + openers tokens - closers tokens =
        depth + openers (token :: tokens) - closers (token :: tokens) := by
      simp
      omega
    simp at hhead
    have hopen : ¬ depth + token.kind.blockChange = 0 := by omega
    rw [List.cons_append, statementLength]
    simp only [Bool.true_or, not_true_eq_false, and_false, false_or, hopen, if_false]
    rw [ih htail, hdepth, List.length_cons]
    omega

/-- A statement with open blocks that are closed in what follows ends where the last is closed. -/
theorem statementLength_closes {tokens : List Token} {depth : Int} (hdepth : 0 < depth)
    (h : depth + openers tokens - closers tokens ≤ 0) :
    depth + openers (tokens.take (statementLength true depth tokens)) -
      closers (tokens.take (statementLength true depth tokens)) = 0 := by
  induction tokens generalizing depth with
  | nil =>
    simp at h
    omega
  | cons token tokens ih =>
    have hchange := token.kind.blockChange_eq
    have hone := token.kind.closesBlock.toNat_le
    simp at h
    rw [statementLength]
    simp only [Bool.true_or, not_true_eq_false, and_false, false_or, true_and]
    by_cases hzero : depth + token.kind.blockChange = 0
    · rw [if_pos hzero, List.take_succ_cons, List.take_zero]
      simp
      omega
    · have hopen : 0 < depth + token.kind.blockChange := by omega
      have hover : depth + token.kind.blockChange + openers tokens - closers tokens ≤ 0 := by omega
      have hrest := ih hopen hover
      rw [if_neg hzero, List.take_succ_cons]
      simp
      omega

theorem statementLength_before {tokens : List Token} (rest : List Token)
    (h : ∀ token ∈ tokens, token.kind ≠ .newline ∧ token.kind.opensBlock = false ∧
      token.kind.closesBlock = false) :
    statementLength false 0 (tokens ++ rest) =
      statementLength false 0 rest + tokens.length := by
  induction tokens with
  | nil => rfl
  | cons token tokens ih =>
    obtain ⟨hline, hopens, hcloses⟩ := h token List.mem_cons_self
    have htail := ih fun other hm => h other (List.mem_cons_of_mem token hm)
    rw [List.cons_append, statementLength]
    simp only [hline, hopens, TokenKind.blockChange, hcloses, false_and, Bool.or_false,
      Bool.false_eq_true, or_self, if_false, Int.add_zero]
    rw [htail, List.length_cons, Nat.add_assoc]

theorem statementLength_line {token : Token} (rest : List Token) (h : token.kind = .newline) :
    statementLength false 0 (token :: rest) = 1 := by
  simp [statementLength, h]

/-- A statement with a block ends with the `end` of that block. -/
theorem statementLength_block (lead rest : List Token) {inner : List Token}
    {opener closer : Token}
    (hlead : ∀ token ∈ lead, token.kind ≠ .newline ∧ token.kind.opensBlock = false ∧
      token.kind.closesBlock = false)
    (hopener : opener.kind.opensBlock = true) (hinner : Balanced inner)
    (hcloser : closer.kind = .endBlock) :
    statementLength false 0 (lead ++ opener :: (inner ++ closer :: rest)) =
      (lead ++ opener :: (inner ++ [closer])).length := by
  have hnested : ∀ initial, initial <+: inner →
      0 < (1 : Int) + openers initial - closers initial := by
    intro initial hi
    have hn := hinner.nested initial hi
    omega
  have hclosed : (1 : Int) + openers inner - closers inner = 1 := by
    have hc := hinner.closed
    omega
  have hend : statementLength true 1 (closer :: rest) = 1 := by
    simp [statementLength, hcloser, TokenKind.blockChange, TokenKind.opensBlock,
      TokenKind.closesBlock]
  have hinside : statementLength true 1 (inner ++ closer :: rest) = 1 + inner.length := by
    rw [statementLength_within _ hnested, hclosed, hend]
  have hline : opener.kind ≠ .newline := by
    intro he
    simp [he, TokenKind.opensBlock] at hopener
  have hstart : statementLength false 0 (opener :: (inner ++ closer :: rest)) =
      statementLength true 1 (inner ++ closer :: rest) + 1 := by
    simp [statementLength, hline, hopener, TokenKind.blockChange]
  rw [statementLength_before _ hlead, hstart, hinside]
  simp only [List.length_append, List.length_cons, List.length_nil]
  omega

end RakeOutline
