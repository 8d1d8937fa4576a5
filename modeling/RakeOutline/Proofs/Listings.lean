import Mathlib.Data.List.Basic
import Mathlib.Logic.Function.Basic
import RakeOutline.Process.Basic
import RakeOutline.Proofs.Lines

namespace RakeOutline

/-- Whatever follows a written value, the text tells the value and where it ends. -/
def SelfDelimiting {α : Type} (write : α → List Char) : Prop :=
  ∀ ⦃first second : α⦄ ⦃rest others : List Char⦄,
    write first ++ rest = write second ++ others → first = second ∧ rest = others

section SelfDelimiting

variable {α β : Type} {write : α → List Char}

theorem SelfDelimiting.of_stop (hwrite : Function.Injective write) {stop : Char}
    (hstop : ∀ a, stop ∉ write a) : SelfDelimiting fun a => write a ++ [stop] := by
  intro first second rest others h
  simp only [List.append_assoc] at h
  have hpasses : ∀ a, ∀ c ∈ write a, (c != stop) = true := by
    intro a c hc
    rw [bne_iff_ne]
    rintro rfl
    exact hstop a hc
  obtain ⟨hwritten, htail⟩ := append_inj_of_head? h (hpasses first) (hpasses second)
    (by simp) (by simp)
  exact ⟨hwrite hwritten, (List.cons.inj htail).2⟩

theorem SelfDelimiting.append (h : SelfDelimiting write) {writeNext : β → List Char}
    (hnext : SelfDelimiting writeNext) :
    SelfDelimiting fun pair : α × β => write pair.1 ++ writeNext pair.2 := by
  intro first second rest others heq
  simp only [List.append_assoc] at heq
  obtain ⟨hfirst, heq⟩ := h heq
  obtain ⟨hsecond, hrest⟩ := hnext heq
  exact ⟨Prod.ext hfirst hsecond, hrest⟩

theorem SelfDelimiting.comp (h : SelfDelimiting write) {parts : β → α}
    (hparts : Function.Injective parts) : SelfDelimiting fun b => write (parts b) := by
  intro first second rest others heq
  obtain ⟨hfirst, hrest⟩ := h heq
  exact ⟨hparts hfirst, hrest⟩

theorem SelfDelimiting.cons (h : SelfDelimiting write) (start : Char) :
    SelfDelimiting fun a => start :: write a := by
  intro first second rest others heq
  exact h (List.cons.inj heq).2

theorem SelfDelimiting.concat (h : SelfDelimiting write) (stop : Char) :
    SelfDelimiting fun a => write a ++ [stop] := by
  intro first second rest others heq
  simp only [List.append_assoc] at heq
  obtain ⟨hfirst, heq⟩ := h heq
  exact ⟨hfirst, (List.cons.inj heq).2⟩

/-- A run of written values ends at a character that cannot begin one. -/
theorem SelfDelimiting.flatMap (h : SelfDelimiting write) {stop : Char}
    (hstop : ∀ a, ∃ c rest, write a = c :: rest ∧ c ≠ stop) :
    SelfDelimiting fun list : List α => list.flatMap write ++ [stop] := by
  have hne : ∀ a more rest, stop :: rest ≠ write a ++ more := by
    intro a more rest heq
    obtain ⟨c, tail, hwrite, hc⟩ := hstop a
    rw [hwrite] at heq
    exact hc (List.cons.inj heq).1.symm
  intro first
  induction first with
  | nil =>
    intro second rest others heq
    cases second with
    | nil => exact ⟨rfl, (List.cons.inj heq).2⟩
    | cons b second =>
      simp only [List.flatMap_cons, List.append_assoc] at heq
      exact absurd heq (hne b _ _)
  | cons a first ih =>
    intro second rest others heq
    cases second with
    | nil =>
      simp only [List.flatMap_cons, List.append_assoc] at heq
      exact absurd heq.symm (hne a _ _)
    | cons b second =>
      simp only [List.flatMap_cons, List.append_assoc] at heq
      obtain ⟨hab, htail⟩ := h heq
      obtain ⟨hlist, hrest⟩ := ih (by simpa only [List.append_assoc] using htail)
      exact ⟨congrArg₂ List.cons hab hlist, hrest⟩

theorem SelfDelimiting.flatMap_injective (h : SelfDelimiting write) (hne : ∀ a, write a ≠ []) :
    Function.Injective fun list : List α => list.flatMap write := by
  intro first
  induction first with
  | nil =>
    intro second heq
    cases second with
    | nil => rfl
    | cons b second => exact absurd (List.append_eq_nil_iff.mp heq.symm).1 (hne b)
  | cons a first ih =>
    intro second heq
    cases second with
    | nil => exact absurd (List.append_eq_nil_iff.mp heq).1 (hne a)
    | cons b second =>
      obtain ⟨hab, htail⟩ := h heq
      exact congrArg₂ List.cons hab (ih htail)

end SelfDelimiting

theorem not_mem_digits {c : Char} (hc : c.isDigit = false) (n : Nat) : c ∉ Nat.toDigits 10 n := by
  intro hm
  rw [Nat.isDigit_of_mem_toDigits (by decide) (by decide) hm] at hc
  exact Bool.noConfusion hc

theorem selfDelimiting_number {stop : Char} (hstop : stop.isDigit = false) :
    SelfDelimiting fun n : Nat => Nat.toDigits 10 n ++ [stop] := by
  refine .of_stop (fun m n h => ?_) (not_mem_digits hstop)
  rw [← Nat.ofDigitChars_ten_toDigits (n := m), h, Nat.ofDigitChars_ten_toDigits]

theorem hexDigits_eq (n : Nat) : hexDigits n =
    (if n < 16 then [] else hexDigits (n / 16)) ++ [Nat.digitChar (n % 16)] := by
  rw [hexDigits, Nat.toDigits_eq_if (by decide)]
  split
  next hn => rw [Nat.mod_eq_of_lt hn, List.nil_append]
  next => rfl

theorem digitChar_inj_of_lt : ∀ m < 16, ∀ n < 16, Nat.digitChar m = Nat.digitChar n → m = n := by
  decide

theorem hexDigits_injective : Function.Injective hexDigits := by
  have hne : ∀ n, hexDigits n ≠ [] := fun n => Nat.toDigits_ne_nil
  intro m
  induction m using Nat.strongRecOn with
  | ind m ih =>
    intro n h
    rw [hexDigits_eq, hexDigits_eq n] at h
    obtain ⟨hinit, hlast⟩ := List.append_inj' h rfl
    have hmod := digitChar_inj_of_lt (m % 16) (by omega) (n % 16) (by omega)
      (List.cons.inj hlast).1
    split at hinit
    · split at hinit
      · omega
      · exact absurd hinit.symm (hne (n / 16))
    · split at hinit
      · exact absurd hinit (hne (m / 16))
      · have hdiv := ih (m / 16) (by omega) hinit
        omega

theorem not_mem_hexDigits {c : Char} (hc : ∀ d, Nat.digitChar d ≠ c) (n : Nat) :
    c ∉ hexDigits n := by
  induction n using Nat.strongRecOn with
  | ind n ih =>
    rw [hexDigits_eq, List.mem_append, List.mem_singleton, not_or]
    refine ⟨?_, (hc (n % 16)).symm⟩
    split
    · exact List.not_mem_nil
    · exact ih (n / 16) (by omega)

/-- The characters that have an escape of one letter, and the letters. -/
def letterEscapes : List (Char × Char) :=
  [('"', '"'), ('\\', '\\'), ('\n', 'n'), ('\r', 'r'), ('\t', 't'), ('\x00', '0')]

/-- How a character stands in a listed text: as it is, as an escape of one letter or by its code. -/
inductive ListedAs (c : Char) : List Char → Prop
  | plain (hc : c ∉ ['"', '\\', '\n']) : ListedAs c [c]
  | letter {letter : Char} (hletter : (c, letter) ∈ letterEscapes) : ListedAs c ['\\', letter]
  | code : ListedAs c ('\\' :: 'u' :: '\x7b' :: (hexDigits c.toNat ++ ['\x7d']))

theorem listedAs_listedChar (c : Char) : ListedAs c (listedChar c) := by
  unfold listedChar
  split
  case h_7 hquote hbackslash hnewline _ _ _ =>
    split
    · refine .plain ?_
      simp only [List.mem_cons, List.not_mem_nil, or_false, not_or]
      exact ⟨hquote, hbackslash, hnewline⟩
    · exact .code
  all_goals exact .letter (by decide)

theorem letterEscapes_inj : ∀ first ∈ letterEscapes, ∀ second ∈ letterEscapes,
    first.2 = second.2 → first.1 = second.1 := by
  decide

theorem letter_ne_u : ∀ escape ∈ letterEscapes, escape.2 ≠ 'u' := by
  decide

theorem selfDelimiting_hexDigits : SelfDelimiting fun n => hexDigits n ++ ['\x7d'] := by
  refine .of_stop hexDigits_injective (not_mem_hexDigits fun d => ?_)
  exact Nat.digitChar_ne '\x7d' (by decide)

theorem ListedAs.append_inj {first second : Char} {written other rest others : List Char}
    (hfirst : ListedAs first written) (hsecond : ListedAs second other)
    (h : written ++ rest = other ++ others) : first = second ∧ rest = others := by
  cases hfirst with
  | plain hplain =>
    cases hsecond with
    | plain => exact List.cons.inj h
    | letter | code => exact absurd (List.cons.inj h).1 fun hc => hplain (by simp [hc])
  | letter hletter =>
    cases hsecond with
    | plain hplain => exact absurd (List.cons.inj h).1 fun hc => hplain (by simp [← hc])
    | letter hletter' =>
      obtain ⟨hsame, hrest⟩ := List.cons.inj (List.cons.inj h).2
      exact ⟨letterEscapes_inj _ hletter _ hletter' hsame, hrest⟩
    | code => exact absurd (List.cons.inj (List.cons.inj h).2).1 (letter_ne_u _ hletter)
  | code =>
    cases hsecond with
    | plain hplain => exact absurd (List.cons.inj h).1 fun hc => hplain (by simp [← hc])
    | letter hletter =>
      exact absurd (List.cons.inj (List.cons.inj h).2).1.symm (letter_ne_u _ hletter)
    | code =>
      obtain ⟨hcode, hrest⟩ := ((selfDelimiting_hexDigits.cons _).cons _).cons _ h
      exact ⟨Char.toNat_inj.mp hcode, hrest⟩

theorem ListedAs.head_ne_quote {c : Char} {written : List Char} (h : ListedAs c written) :
    ∃ first rest, written = first :: rest ∧ first ≠ '"' := by
  cases h with
  | plain hplain => exact ⟨c, [], rfl, fun hquote => hplain (by simp [hquote])⟩
  | letter | code => exact ⟨'\\', _, rfl, by decide⟩

theorem selfDelimiting_listedChar : SelfDelimiting listedChar :=
  fun first second _ _ => (listedAs_listedChar first).append_inj (listedAs_listedChar second)

theorem selfDelimiting_listed : SelfDelimiting fun text : String => (listed text).toList := by
  have hstop := fun c => (listedAs_listedChar c).head_ne_quote
  have htoList : Function.Injective String.toList := fun _ _ => String.toList_inj.mp
  have htext := ((selfDelimiting_listedChar.flatMap hstop).cons '"').comp htoList
  simpa [listed] using htext

def TokenKind.ofTitle? (title : String) : Option TokenKind :=
  TokenKind.all.find? fun kind => kind.title == title

theorem TokenKind.title_facts : ∀ kind ∈ TokenKind.all,
    TokenKind.ofTitle? kind.title = some kind ∧ kind.title.toList.all Char.isAlpha = true := by
  decide +kernel

theorem TokenKind.mem_all (kind : TokenKind) : kind ∈ TokenKind.all := by
  cases kind <;> decide

theorem TokenKind.not_mem_title {c : Char} (hc : c.isAlpha = false) (kind : TokenKind) :
    c ∉ kind.title.toList := by
  intro hm
  rw [List.all_eq_true.mp (TokenKind.title_facts kind kind.mem_all).2 c hm] at hc
  exact Bool.noConfusion hc

theorem selfDelimiting_title :
    SelfDelimiting fun kind : TokenKind => kind.title.toList ++ [' '] := by
  refine .of_stop (fun first second h => ?_) (TokenKind.not_mem_title (by decide))
  have hfirst := (TokenKind.title_facts first first.mem_all).1
  rw [String.toList_inj.mp h, (TokenKind.title_facts second second.mem_all).1] at hfirst
  exact (Option.some.inj hfirst).symm

theorem Token.toList_listing (token : Token) : token.listing.toList =
    (Nat.toDigits 10 token.line ++ [':']) ++ ((Nat.toDigits 10 token.column ++ [' ']) ++
      ((token.kind.title.toList ++ [' ']) ++ (listed token.text).toList)) := by
  have hcolon : (toString ":").toList = [':'] := rfl
  have hspace : (toString " ").toList = [' '] := rfl
  simp [Token.listing, hcolon, hspace]

theorem selfDelimiting_listing : SelfDelimiting fun token : Token => token.listing.toList := by
  have hparts : Function.Injective fun token : Token =>
      (token.line, token.column, token.kind, token.text) := by
    rintro ⟨⟩ ⟨⟩ h
    simp only [Prod.mk.injEq] at h
    obtain ⟨rfl, rfl, rfl, rfl⟩ := h
    rfl
  have hwritten := (selfDelimiting_number (by decide : ':'.isDigit = false)).append
    ((selfDelimiting_number (by decide : ' '.isDigit = false)).append
      (selfDelimiting_title.append selfDelimiting_listed))
  simpa only [Token.toList_listing] using hwritten.comp hparts

theorem ListedAs.newline_not_mem {c : Char} {written : List Char} (h : ListedAs c written) :
    '\n' ∉ written := by
  have hletters : ∀ escape ∈ letterEscapes, escape.2 ≠ '\n' := by decide
  cases h with
  | plain hplain =>
    intro hn
    exact hplain (by simp [← List.mem_singleton.mp hn])
  | letter hletter =>
    have hne := (hletters _ hletter).symm
    simp [hne]
  | code =>
    have hdigits := not_mem_hexDigits (fun d => Nat.digitChar_ne '\n' (by decide)) c.toNat
    simp [hdigits]

theorem newline_not_mem_listed (text : String) : '\n' ∉ (listed text).toList := by
  have hnone : ∀ c, '\n' ∉ listedChar c := fun c => (listedAs_listedChar c).newline_not_mem
  simp [listed, hnone]

theorem Token.newline_not_mem_listing (token : Token) : '\n' ∉ token.listing.toList := by
  have hdigits : '\n' ∉ Nat.toDigits 10 token.line ∧ '\n' ∉ Nat.toDigits 10 token.column :=
    ⟨not_mem_digits (by decide) _, not_mem_digits (by decide) _⟩
  have htitle : '\n' ∉ token.kind.title.toList := TokenKind.not_mem_title (by decide) _
  simp [token.toList_listing, hdigits, htitle, newline_not_mem_listed]

@[simp] theorem toList_listTokens (tokens : List Token) : (listTokens tokens).toList =
    tokens.flatMap fun token => token.listing.toList ++ ['\n'] := by
  simp [listTokens, String.toList_join, List.flatMap_map]

theorem lines_listTokens (tokens : List Token) : lines (listTokens tokens).toList =
    tokens.map fun token => token.listing.toList ++ ['\n'] := by
  have hinline : ∀ text ∈ tokens.map fun token => token.listing.toList, '\n' ∉ text := by
    intro text hm
    obtain ⟨token, -, rfl⟩ := List.mem_map.mp hm
    exact token.newline_not_mem_listing
  have hlines := lines_flatMap hinline
  rw [List.flatMap_map, List.map_map] at hlines
  rw [toList_listTokens, hlines]
  rfl

theorem listTokens_injective : Function.Injective listTokens := by
  intro first second h
  have hlists := congrArg String.toList h
  rw [toList_listTokens, toList_listTokens] at hlists
  refine (selfDelimiting_listing.concat '\n').flatMap_injective (fun token => ?_) hlists
  exact List.append_ne_nil_of_right_ne_nil _ (List.cons_ne_nil _ _)

/-- Any run of tokens has a listing, whatever the texts of the tokens hold. It has one line for each
token, and two runs with the same listing are the same. -/
theorem listings_are_uniquely_decodable (first second : List Token) :
    (∃ output, formatTokens first .simple = .ok output ∧
      (lines output.toList).length = first.length ∧
      lines output.toList = first.map fun token => (token.listing ++ "\n").toList) ∧
    (formatTokens first .simple = formatTokens second .simple ↔ first = second) := by
  have hlines := lines_listTokens first
  refine ⟨⟨listTokens first, rfl, ?_, ?_⟩, fun h => ?_, fun h => ?_⟩
  · rw [hlines, List.length_map]
  · rw [hlines]
    simp
  · exact listTokens_injective (Except.ok.inj h)
  · rw [h]

end RakeOutline
