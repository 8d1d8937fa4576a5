import Mathlib.Data.List.Forall2
import Mathlib.Order.Bounds.Image
import Mathlib.Order.WellFounded
import RakeOutline.Proofs.Folding

namespace RakeOutline

/-- The lines at the given indices close the heredocs, one line for each and in their order. -/
structure Closing (terminators : List Terminator) (contents : List (List Char))
    (indices : List Nat) : Prop where
  increasing : indices.Pairwise (· < ·)
  accepted : List.Forall₂ (fun terminator i => contents[i]?.any terminator.endsAt = true)
    terminators indices

/-- The text from the start through the content of the line with the given index. -/
def throughLine (contents : List (List Char)) (i : Nat) : List Char :=
  (contents.take i).flatMap (· ++ ['\n']) ++ contents[i]?.getD []

/-- Where the content of the last line ends, for all ways to close the heredocs. -/
def closingEnds (terminators : List Terminator) (contents : List (List Char)) : Set Nat :=
  {n | ∃ indices, Closing terminators contents indices ∧
    ∃ last ∈ indices.getLast?, (throughLine contents last).length = n}

theorem throughLine_succ (content : List Char) (contents : List (List Char)) (i : Nat) :
    throughLine (content :: contents) (i + 1) = content ++ '\n' :: throughLine contents i := by
  simp [throughLine]

@[simp] theorem length_throughLine_succ (content : List Char) (contents : List (List Char))
    (i : Nat) :
    (throughLine (content :: contents) (i + 1)).length =
      content.length + 1 + (throughLine contents i).length := by
  rw [throughLine_succ, List.length_append, List.length_cons]
  omega

theorem LinesOf.throughLine_prefix {text : List Char} {contents : List (List Char)}
    (h : LinesOf text contents) {i : Nat} (hi : i < contents.length) :
    throughLine contents i <+: text := by
  induction h generalizing i with
  | nil => simp at hi
  | last hne hn =>
    obtain rfl : i = 0 := by simpa using hi
    exact List.prefix_rfl
  | @line content rest contents hn hrest ih =>
    cases i with
    | zero => exact ⟨'\n' :: rest, rfl⟩
    | succ i =>
      rw [throughLine_succ]
      exact (List.prefix_append_right_inj content).mpr
        (List.cons_prefix_cons.mpr ⟨rfl, ih (Nat.lt_of_succ_lt_succ hi)⟩)

theorem Closing.skip {terminators : List Terminator} {contents : List (List Char)}
    {indices : List Nat} (h : Closing terminators contents indices) (content : List Char) :
    Closing terminators (content :: contents) (indices.map (· + 1)) where
  increasing := by
    refine List.pairwise_map.mpr (h.increasing.imp fun hij => ?_)
    omega
  accepted := List.forall₂_map_right_iff.mpr h.accepted

theorem Closing.accept {terminators : List Terminator} {contents : List (List Char)}
    {indices : List Nat} (h : Closing terminators contents indices) {terminator : Terminator}
    {content : List Char} (hends : terminator.endsAt content = true) :
    Closing (terminator :: terminators) (content :: contents) (0 :: indices.map (· + 1)) where
  increasing := by
    refine List.pairwise_cons.mpr ⟨fun i hi => ?_, (h.skip content).increasing⟩
    obtain ⟨j, -, rfl⟩ := List.mem_map.mp hi
    omega
  accepted := .cons hends (h.skip content).accepted

theorem Closing.tail {terminator : Terminator} {terminators : List Terminator}
    {contents : List (List Char)} {i : Nat} {indices : List Nat}
    (h : Closing (terminator :: terminators) contents (i :: indices)) :
    Closing terminators contents indices :=
  ⟨(List.pairwise_cons.mp h.increasing).2, (List.forall₂_cons.mp h.accepted).2⟩

theorem Closing.unskip {terminators : List Terminator} {content : List Char}
    {contents : List (List Char)} {indices : List Nat}
    (h : Closing terminators (content :: contents) indices) (hpos : ∀ i ∈ indices, 0 < i) :
    ∃ below, indices = below.map (· + 1) ∧ Closing terminators contents below := by
  have hindices : (indices.map (· - 1)).map (· + 1) = indices := by
    rw [List.map_map]
    refine (List.map_congr_left fun i hi => ?_).trans (List.map_id indices)
    exact Nat.sub_add_cancel (hpos i hi)
  rw [← hindices] at h
  refine ⟨indices.map (· - 1), hindices.symm, ?_, List.forall₂_map_right_iff.mp h.accepted⟩
  exact (List.pairwise_map.mp h.increasing).imp fun hij => Nat.lt_of_succ_lt_succ hij

theorem Closing.mem_image {terminators : List Terminator} {contents : List (List Char)}
    {indices : List Nat} (h : Closing terminators contents indices) {last : Nat}
    (hlast : last ∈ (indices.map (· + 1)).getLast?) (content : List Char) :
    (throughLine (content :: contents) last).length ∈
      (content.length + 1 + ·) '' closingEnds terminators contents := by
  rw [List.getLast?_map] at hlast
  obtain ⟨i, hi, rfl⟩ := Option.mem_map.mp hlast
  exact ⟨_, ⟨indices, h, i, hi, rfl⟩, (length_throughLine_succ content contents i).symm⟩

@[simp] theorem closingEnds_nil (terminators : List Terminator) :
    closingEnds terminators [] = ∅ := by
  refine Set.eq_empty_iff_forall_notMem.mpr ?_
  rintro n ⟨indices, h, last, hlast, -⟩
  cases h.accepted with
  | nil => simp at hlast
  | cons hends => simp at hends

@[simp] theorem closingEnds_of_no_terminators (contents : List (List Char)) :
    closingEnds [] contents = ∅ := by
  refine Set.eq_empty_iff_forall_notMem.mpr ?_
  rintro n ⟨indices, h, last, hlast, -⟩
  obtain rfl : indices = [] := List.forall₂_nil_left_iff.mp h.accepted
  simp at hlast

/-- The exchange: what closes a heredoc and the later ones closes the later ones, and ends with the
same line. -/
theorem closingEnds_subset_tail {terminators : List Terminator} (hne : terminators ≠ [])
    (terminator : Terminator) (contents : List (List Char)) :
    closingEnds (terminator :: terminators) contents ⊆ closingEnds terminators contents := by
  rintro n ⟨indices, h, last, hlast, rfl⟩
  obtain ⟨i, later, -, haccepted, rfl⟩ := List.forall₂_cons_left_iff.mp h.accepted
  obtain ⟨j, later, rfl⟩ : ∃ j rest, later = j :: rest := by
    refine List.exists_cons_of_ne_nil ?_
    rintro rfl
    exact hne (List.forall₂_nil_right_iff.mp haccepted)
  exact ⟨j :: later, h.tail, last, List.getLast?_cons_cons ▸ hlast, rfl⟩

-- the first line closes the first heredoc or none, since the others are closed further down
theorem mem_closingEnds_cons {terminator : Terminator} {terminators : List Terminator}
    {content : List Char} {contents : List (List Char)} {n : Nat} :
    n ∈ closingEnds (terminator :: terminators) (content :: contents) ↔
      (terminator.endsAt content = true ∧ ((terminators = [] ∧ content.length = n) ∨
        n ∈ (content.length + 1 + ·) '' closingEnds terminators contents)) ∨
      n ∈ (content.length + 1 + ·) '' closingEnds (terminator :: terminators) contents := by
  constructor
  · rintro ⟨indices, h, last, hlast, rfl⟩
    obtain ⟨i, later, hends, haccepted, rfl⟩ := List.forall₂_cons_left_iff.mp h.accepted
    have hlater := (List.pairwise_cons.mp h.increasing).1
    cases i with
    | zero =>
      obtain ⟨below, rfl, hbelow⟩ := h.tail.unskip hlater
      refine .inl ⟨hends, ?_⟩
      cases below with
      | nil =>
        obtain rfl : 0 = last := by simpa using hlast
        exact .inl ⟨List.forall₂_nil_right_iff.mp hbelow.accepted, rfl⟩
      | cons j below => exact .inr (hbelow.mem_image (List.getLast?_cons_cons ▸ hlast) content)
    | succ i =>
      have hpos : ∀ j ∈ (i + 1) :: later, 0 < j := by
        refine List.forall_mem_cons.mpr ⟨Nat.succ_pos i, fun j hj => ?_⟩
        have hlt := hlater j hj
        omega
      obtain ⟨below, hindices, hbelow⟩ := h.unskip hpos
      rw [hindices] at hlast
      exact .inr (hbelow.mem_image hlast content)
  · rintro (⟨hends, ⟨rfl, rfl⟩ | ⟨_, ⟨indices, h, last, hlast, rfl⟩, rfl⟩⟩ |
      ⟨_, ⟨indices, h, last, hlast, rfl⟩, rfl⟩)
    · have hnone : Closing [] contents [] := ⟨List.Pairwise.nil, .nil⟩
      exact ⟨[0], hnone.accept hends, 0, rfl, rfl⟩
    · refine ⟨_, h.accept hends, last + 1, ?_, length_throughLine_succ content contents last⟩
      simp [List.getLast?_cons, Option.mem_def.mp hlast]
    · refine ⟨_, h.skip content, last + 1, ?_, length_throughLine_succ content contents last⟩
      rw [List.getLast?_map, Option.mem_def.mp hlast]
      rfl

theorem closingEnds_of_reject {terminator : Terminator} {content : List Char}
    (hends : terminator.endsAt content = false) (terminators : List Terminator)
    (contents : List (List Char)) :
    closingEnds (terminator :: terminators) (content :: contents) =
      (content.length + 1 + ·) '' closingEnds (terminator :: terminators) contents := by
  ext n
  rw [mem_closingEnds_cons, hends]
  simp

theorem closingEnds_of_accept {terminator : Terminator} {content : List Char}
    (hends : terminator.endsAt content = true) {terminators : List Terminator}
    (hne : terminators ≠ []) (contents : List (List Char)) :
    closingEnds (terminator :: terminators) (content :: contents) =
      (content.length + 1 + ·) '' closingEnds terminators contents := by
  ext n
  rw [mem_closingEnds_cons]
  have hsubset := Set.image_mono (f := (content.length + 1 + ·))
    (closingEnds_subset_tail hne terminator contents)
  refine ⟨?_, fun hn => .inl ⟨hends, .inr hn⟩⟩
  rintro (⟨-, ⟨hnil, -⟩ | hn⟩ | hn)
  · exact absurd hnil hne
  · exact hn
  · exact hsubset hn

theorem isLeast_closingEnds_of_last {terminator : Terminator} {content : List Char}
    (hends : terminator.endsAt content = true) (contents : List (List Char)) :
    IsLeast (closingEnds [terminator] (content :: contents)) content.length := by
  have hbelow : ∀ m, content.length ≤ content.length + 1 + m := by
    intro m
    omega
  refine ⟨mem_closingEnds_cons.mpr (.inl ⟨hends, .inl ⟨rfl, rfl⟩⟩), fun n hn => ?_⟩
  rcases mem_closingEnds_cons.mp hn with ⟨-, ⟨-, rfl⟩ | ⟨m, -, rfl⟩⟩ | ⟨m, -, rfl⟩
  · exact Nat.le_refl _
  · exact hbelow m
  · exact hbelow m

theorem isLeast_image_add_iff {ends : Set Nat} {k n : Nat} :
    IsLeast ((k + ·) '' ends) n ↔ ∃ m, IsLeast ends m ∧ k + m = n := by
  constructor
  · rintro ⟨⟨m, hm, rfl⟩, hleast⟩
    refine ⟨m, ⟨hm, fun other hother => ?_⟩, rfl⟩
    have hle := hleast ⟨other, hother, rfl⟩
    exact Nat.le_of_add_le_add_left hle
  · rintro ⟨m, hm, rfl⟩
    exact Monotone.map_isLeast (fun _ _ hle => Nat.add_le_add_left hle k) hm

@[simp] theorem closingOffset_nil (terminators : List Terminator) :
    closingOffset terminators [] = none := by
  cases terminators <;> rfl

theorem closingOffset_last (terminators : List Terminator) {content : List Char}
    (hn : '\n' ∉ content) :
    closingOffset terminators [content] = closingOffset terminators [content ++ ['\n']] := by
  cases terminators with
  | nil => rfl
  | cons terminator later =>
    simp [closingOffset, lineContent_of_notMem hn]

theorem closingOffset_nil_iff (terminators : List Terminator) (n : Nat) :
    closingOffset terminators [] = some n ↔ IsLeast (closingEnds terminators []) n := by
  simp [IsLeast]

/-- One line: it closes the heredoc whose turn it is, or it is passed over. -/
theorem closingOffset_cons_iff {later contents : List (List Char)}
    (hlater : ∀ terminators n, closingOffset terminators later = some n ↔
      IsLeast (closingEnds terminators contents) n)
    (content : List Char) (terminators : List Terminator) (n : Nat) :
    closingOffset terminators ((content ++ ['\n']) :: later) = some n ↔
      IsLeast (closingEnds terminators (content :: contents)) n := by
  cases terminators with
  | nil => simp [closingOffset, IsLeast]
  | cons terminator rest =>
    have hshift : ∀ terminators,
        (closingOffset terminators later).map ((content ++ ['\n']).length + ·) = some n ↔
          IsLeast ((content.length + 1 + ·) '' closingEnds terminators contents) n := by
      intro terminators
      rw [Option.map_eq_some_iff, isLeast_image_add_iff, List.length_append]
      exact exists_congr fun m => and_congr_left' (hlater terminators m)
    rw [closingOffset, lineContent_newline]
    cases hends : terminator.endsAt content with
    | false => rw [closingEnds_of_reject hends, if_neg Bool.false_ne_true, hshift]
    | true =>
      rw [if_pos rfl]
      cases rest with
      | nil =>
        rw [(isLeast_closingEnds_of_last hends contents).isLeast_iff_eq]
        exact Option.some_inj
      | cons second rest =>
        rw [closingEnds_of_accept hends (List.cons_ne_nil second rest), ← hshift]
        rfl

theorem LinesOf.closingOffset_eq_some_iff {text : List Char} {contents : List (List Char)}
    (h : LinesOf text contents) (terminators : List Terminator) (n : Nat) :
    closingOffset terminators (lines text) = some n ↔
      IsLeast (closingEnds terminators contents) n := by
  induction h generalizing terminators n with
  | nil => exact closingOffset_nil_iff terminators n
  | last hne hn =>
    rw [lines_last hne hn, closingOffset_last terminators hn]
    exact closingOffset_cons_iff closingOffset_nil_iff _ terminators n
  | line hn hrest ih =>
    rw [lines_line hn]
    exact closingOffset_cons_iff ih _ terminators n

theorem LinesOf.heredocLength?_eq_some_iff {text : List Char} {contents : List (List Char)}
    (h : LinesOf text contents) (terminators : List Terminator) (n : Nat) :
    heredocLength? terminators text = some n ↔
      IsLeast (closingEnds terminators contents) n ∧ n ≠ 0 := by
  rw [← h.closingOffset_eq_some_iff, heredocLength?]
  cases terminators with
  | nil => simp [closingOffset]
  | cons terminator rest =>
    rw [List.isEmpty_cons, if_neg Bool.false_ne_true, Option.filter_eq_some_iff]
    simp [Nat.pos_iff_ne_zero]

theorem LinesOf.heredocLength?_eq_none_iff {text : List Char} {contents : List (List Char)}
    (h : LinesOf text contents) (terminators : List Terminator) :
    heredocLength? terminators text = none ↔
      closingEnds terminators contents = ∅ ∨ IsLeast (closingEnds terminators contents) 0 := by
  have hsome := h.heredocLength?_eq_some_iff terminators
  constructor
  · intro hnone
    rcases Set.eq_empty_or_nonempty (closingEnds terminators contents) with hempty | hends
    · exact .inl hempty
    · obtain ⟨n, hn, hmin⟩ := wellFounded_lt.has_min _ hends
      have hleast : IsLeast (closingEnds terminators contents) n :=
        ⟨hn, fun m hm => Nat.le_of_not_lt (hmin m hm)⟩
      by_cases hzero : n = 0
      · exact .inr (hzero ▸ hleast)
      · rw [(hsome n).mpr ⟨hleast, hzero⟩] at hnone
        simp at hnone
  · intro hends
    refine Option.eq_none_iff_forall_ne_some.mpr fun n hn => ?_
    obtain ⟨hleast, hne⟩ := (hsome n).mp hn
    rcases hends with hempty | hzero
    · simpa [hempty] using hleast.1
    · exact hne (hleast.unique hzero)

/-- A line that begins with the directive and has white space or nothing after it. -/
def Directs (directive : String) (content : List Char) : Prop :=
  ∃ after, content = directive.toList ++ after ∧ after.head?.all isBlank = true

theorem isDirective_iff (directive : String) (content : List Char) :
    isDirective directive content = true ↔ Directs directive content := by
  rw [isDirective, Bool.and_eq_true, List.isPrefixOf_iff_prefix, ← String.length_toList]
  constructor
  · rintro ⟨⟨after, rfl⟩, hblank⟩
    rw [List.drop_left] at hblank
    exact ⟨after, rfl, hblank⟩
  · rintro ⟨after, rfl, hblank⟩
    rw [List.drop_left]
    exact ⟨List.prefix_append _ after, hblank⟩

theorem LinesOf.documentEnd_eq {text : List Char} {contents : List (List Char)}
    (h : LinesOf text contents) :
    documentEnd (lines text) = (contents.findIdx? (isDirective "=end")).map fun i =>
      (throughLine contents i).length := by
  induction h with
  | nil => rfl
  | @last content hne hn =>
    rw [lines_last hne hn, documentEnd, lineContent_of_notMem hn, List.findIdx?_cons]
    split <;> rfl
  | @line content rest contents hn hrest ih =>
    rw [lines_line hn, documentEnd, lineContent_newline, List.findIdx?_cons]
    split
    next => rfl
    next =>
      rw [ih, Option.map_map, Option.map_map]
      refine congrArg (Option.map · _) (funext fun i => ?_)
      simp

theorem findIdx?_eq_some_iff_isLeast {contents : List (List Char)} {test : List Char → Bool}
    {i : Nat} : contents.findIdx? test = some i ↔
      IsLeast {j | ∃ content ∈ contents[j]?, test content = true} i := by
  rw [List.findIdx?_eq_some_iff_getElem]
  constructor
  · rintro ⟨hi, htest, hbefore⟩
    refine ⟨⟨contents[i], List.getElem?_eq_getElem hi, htest⟩, ?_⟩
    rintro j ⟨content, hj, hcontent⟩
    obtain ⟨hlt, rfl⟩ := List.getElem?_eq_some_iff.mp hj
    exact Nat.le_of_not_lt fun hji => hbefore j hji hcontent
  · rintro ⟨⟨content, hi, hcontent⟩, hleast⟩
    obtain ⟨hlt, rfl⟩ := List.getElem?_eq_some_iff.mp hi
    refine ⟨hlt, hcontent, fun j hji htest => ?_⟩
    have hle := hleast ⟨contents[j], List.getElem?_eq_getElem (hji.trans hlt), htest⟩
    omega

theorem LinesOf.documentLength?_eq_some_iff {text : List Char} {contents : List (List Char)}
    (h : LinesOf text contents) (n : Nat) :
    documentLength? text = some n ↔ ∃ first later i, contents = first :: later ∧
      Directs "=begin" first ∧
      IsLeast {j | ∃ content ∈ later[j]?, Directs "=end" content} i ∧
      (throughLine contents (i + 1)).length = n := by
  simp only [← isDirective_iff, ← findIdx?_eq_some_iff_isLeast]
  cases h with
  | nil => simp [documentLength?, lines]
  | last hne hn => simp [documentLength?, lines_last hne hn, documentEnd]
  | @line content rest later hn hrest =>
    rw [documentLength?, isDirective_line (by decide), lines_line hn]
    cases hbegin : isDirective "=begin" content with
    | false => simp [hbegin]
    | true =>
      simp only [if_true, hrest.documentEnd_eq, Option.map_map, Option.map_eq_some_iff]
      constructor
      · rintro ⟨i, hi, rfl⟩
        exact ⟨content, later, i, rfl, hbegin, hi, by simp⟩
      · rintro ⟨first, others, i, heq, -, hi, rfl⟩
        obtain ⟨rfl, rfl⟩ := List.cons.inj heq
        exact ⟨i, hi, by simp⟩

/-- A text has one division into lines. The bodies of heredocs at its start take as little of it as
possible: of all increasing runs of lines in which each line is accepted by its own terminator,
the one whose last line ends first ends them, and they are not folded if there is no such run or
nothing to take. An embedded document takes the lines from `=begin` through the first `=end`. -/
theorem folds_end_with_least_closing_line (text : List Char) (terminators : List Terminator) :
    ∃ contents, (∀ others, LinesOf text others ↔ others = contents) ∧
      (∀ i < contents.length, throughLine contents i <+: text) ∧
      (∀ n, heredocLength? terminators text = some n ↔
        IsLeast (closingEnds terminators contents) n ∧ n ≠ 0) ∧
      (heredocLength? terminators text = none ↔
        closingEnds terminators contents = ∅ ∨ IsLeast (closingEnds terminators contents) 0) ∧
      ∀ n, documentLength? text = some n ↔ ∃ first later i, contents = first :: later ∧
        Directs "=begin" first ∧
        IsLeast {j | ∃ content ∈ later[j]?, Directs "=end" content} i ∧
        (throughLine contents (i + 1)).length = n := by
  have h : LinesOf text ((lines text).map lineContent) := linesOf_iff.mpr rfl
  refine ⟨_, fun _ => linesOf_iff, fun i hi => h.throughLine_prefix hi, ?_, ?_, ?_⟩
  · exact h.heredocLength?_eq_some_iff terminators
  · exact h.heredocLength?_eq_none_iff terminators
  · exact h.documentLength?_eq_some_iff

-- two heredocs with the same word, of which only the one may be indented
example : heredocLength? [⟨['A'], true⟩, ⟨['A'], false⟩] "x\n A\r\nA".toList = some 7 ∧
    heredocLength? [⟨['A'], false⟩, ⟨['A'], true⟩] "x\n A\r\nA".toList = none := by
  decide

end RakeOutline
