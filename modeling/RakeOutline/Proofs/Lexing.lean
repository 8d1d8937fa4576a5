import Mathlib.Data.List.DropRight
import RakeOutline.Proofs.Keywords

namespace RakeOutline

@[simp] theorem toList_sourceOf (tokens : List Token) :
    (sourceOf tokens).toList = tokens.flatMap fun token => token.text.toList := by
  simp [sourceOf, String.toList_join, List.flatMap_map]

theorem Cuts.text_eq {position : Position} {terminators : List Terminator}
    {text : List Char} {tokens : List Token} (h : Cuts position terminators text tokens) :
    (sourceOf tokens).toList = text := by
  rw [toList_sourceOf]
  induction h with
  | nil => rfl
  | piece hne hk hat hrest ih => simp [ih]
  | line hnone hrest ih => simp [ih]
  | fold hbody hrest ih => simp [ih]

theorem Cuts.text_ne {position : Position} {terminators : List Terminator} {text : List Char}
    {tokens : List Token} (h : Cuts position terminators text tokens) :
    ∀ token ∈ tokens, token.text ≠ "" := by
  intro token hm he
  have hne : token.text.toList ≠ [] :=
    h.forall_mem (P := fun _ text => text ≠ []) (fun _ _ _ _ hne _ => hne) (by simp)
      (fun _ hne => hne) token hm
  rw [he] at hne
  exact hne rfl

@[simp] theorem sourceOf_tokenize (source : String) : sourceOf (tokenize source) = source :=
  String.toList_injective (cuts_tokenize source).text_eq

/-- Lexing loses nothing: the tokens are cut off the source one by one, each with the length that
its rule gives, none is empty, and together they are the source, with keywords resolved or not. -/
theorem lexing_is_lossless (source : String) :
    Cuts {} [] source.toList (tokenize source) ∧
    (∀ token ∈ tokenize source, token.text ≠ "") ∧
    sourceOf (tokenize source) = source ∧ sourceOf (lex source) = source := by
  have hcuts := cuts_tokenize source
  refine ⟨hcuts, hcuts.text_ne, sourceOf_tokenize source, ?_⟩
  simp [lex]

theorem lexing_is_lossless_over_folds :
    let source := "sh <<A, x: <<~''\r\nif é\r\nA\n  \n=begin\n=end it\nnamespace \"a"
    ∃ body ∈ tokenize source, body.text = "if é\r\nA\n  " ∧ body.text ≠ "" ∧
      sourceOf (lex source) = source := by
  intro source
  obtain ⟨hcuts, hne, hsource, hlex⟩ := lexing_is_lossless source
  have hm : ⟨.string, 2, 0, "if é\r\nA\n  "⟩ ∈ tokenize source := by decide +kernel
  exact ⟨_, hm, rfl, hne _ hm, hlex⟩

/-- The place after a text, read off the text: its line feeds, and what stands after the last. -/
theorem Position.advance_start (text : List Char) :
    Position.advance {} text =
      ⟨1 + text.count '\n', (text.rtakeWhile (· != '\n')).length⟩ := by
  induction text using List.reverseRecOn with
  | nil => rfl
  | append_singleton init c ih =>
    rw [Position.advance_append, ih]
    simp only [Position.advance, List.foldl_cons, List.foldl_nil, Position.step]
    by_cases hc : c = '\n'
    · simp [hc, List.count_append, Nat.add_assoc]
    · simp [hc, List.count_append]

theorem placed_place (position : Position) (list : List Lexeme) :
    Placed position (place position list) := by
  induction list generalizing position with
  | nil => trivial
  | cons lexeme rest ih =>
    refine ⟨rfl, rfl, ?_⟩
    rw [String.toList_ofList]
    exact ih _

theorem Placed.position_eq {position : Position} {tokens : List Token} {i : Nat} {token : Token}
    (h : Placed position tokens) (hi : tokens[i]? = some token) :
    ⟨token.line, token.column⟩ = position.advance (sourceOf (tokens.take i)).toList := by
  induction tokens generalizing position i with
  | nil => simp at hi
  | cons first rest ih =>
    obtain ⟨hl, hc, hrest⟩ := h
    cases i with
    | zero =>
      obtain rfl : first = token := by simpa using hi
      rw [hl, hc]
      rfl
    | succ i =>
      have hr : rest[i]? = some token := by simpa using hi
      simp [ih hrest hr]

/-- The token begins right after the text: on the line that the line feeds of the text lead to, and
as far in it as characters stand after the last of them. -/
def Token.StandsAfter (token : Token) (text : String) : Prop :=
  token.line = 1 + text.toList.count '\n' ∧
    token.column = (text.toList.rtakeWhile (· != '\n')).length

theorem Placed.standsAfter {tokens : List Token} (h : Placed {} tokens) {i : Nat} {token : Token}
    (hi : tokens[i]? = some token) : token.StandsAfter (sourceOf (tokens.take i)) := by
  have hp := h.position_eq hi
  rw [Position.advance_start, Position.mk.injEq] at hp
  exact hp

/-- Every token stands where the text of the tokens before it ends, with keywords resolved or
not. -/
theorem tokens_stand_after_their_predecessors (source : String) (i : Nat) (token : Token) :
    ((tokenize source)[i]? = some token →
      token.StandsAfter (sourceOf ((tokenize source).take i))) ∧
    ((lex source)[i]? = some token → token.StandsAfter (sourceOf ((lex source).take i))) := by
  have hplaced : Placed {} (tokenize source) := placed_place _ _
  exact ⟨hplaced.standsAfter, hplaced.resolveKeywords.standsAfter⟩

theorem tokens_stand_after_their_predecessors_past_folds :
    let source := "'é\n' <<A\nx\nA\n=begin\n=end\né b: \"c\n\\\n d"
    let token : Token := ⟨.identifier, 9, 1, "d"⟩
    (tokenize source)[17]? = some token ∧
      token.StandsAfter (sourceOf ((tokenize source).take 17)) ∧
    (lex source)[16]? = some token ∧ token.StandsAfter (sourceOf ((lex source).take 16)) := by
  intro source token
  have ht : (tokenize source)[17]? = some token := by decide +kernel
  have hl : (lex source)[16]? = some token := by decide +kernel
  exact ⟨ht, (tokens_stand_after_their_predecessors source 17 token).1 ht,
    hl, (tokens_stand_after_their_predecessors source 16 token).2 hl⟩

end RakeOutline
