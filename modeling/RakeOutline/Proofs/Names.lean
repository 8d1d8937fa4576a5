import RakeOutline.Proofs.Extension
import RakeOutline.Proofs.Paths
import RakeOutline.Proofs.Rewrites

namespace RakeOutline

def StartsWord (text : List Char) : Prop :=
  ∃ c rest, text = c :: rest ∧ isWordStart c = true

theorem StartsWord.of_append {text rest : List Char} (h : StartsWord (text ++ rest))
    (hne : text ≠ []) : StartsWord text := by
  obtain ⟨c, later, he, hc⟩ := h
  cases text with
  | nil => exact absurd rfl hne
  | cons d text =>
    obtain ⟨rfl, _⟩ := List.cons.inj he
    exact ⟨d, text, rfl, hc⟩

theorem StartsWord.unquote_eq {text : List Char} (h : StartsWord text) : unquote text = text := by
  obtain ⟨c, rest, rfl, hc⟩ := h
  apply unquote_of_head
  intro d hd hquote
  obtain rfl : c = d := by simpa using hd
  rcases List.mem_pair.mp hquote with rfl | rfl <;> revert hc <;> decide

theorem startsWord_of_oneThen {first later : Char → Bool} {text : List Char} {n : Nat}
    (hfirst : ∀ c, first c = true → isWordStart c = true)
    (h : oneThen first later text = some n) : StartsWord text := by
  cases text with
  | nil => simp [oneThen] at h
  | cons c rest =>
    simp only [oneThen] at h
    split at h
    next hc => exact ⟨c, rest, rfl, hfirst c hc⟩
    next => simp at h

theorem startsWord_of_exactly {word : String} {text : List Char} {n : Nat}
    (hword : word.toList.head?.any isWordStart = true) (h : exactly word text = some n) :
    StartsWord text := by
  obtain ⟨_, rest, rfl⟩ := exactly_eq_some h
  cases hw : word.toList with
  | nil => simp [hw] at hword
  | cons c later => exact ⟨c, later ++ rest, rfl, by simpa [hw] using hword⟩

/-- Every pattern of a kind that can name a label asks for a word. -/
theorem startsWord_of_pattern {entry : TokenKind × Pattern} (hm : entry ∈ tokenPatterns)
    (hk : entry.1.namesLabel = true) {text : List Char} {n : Nat} (h : entry.2 text = some n) :
    StartsWord text := by
  have hstart : ∀ c : Char, isWordStart c = (c.isUpper || c.isLower || c == '_') := fun _ => rfl
  have hlower : ∀ c : Char, (c.isLower || c == '_') = true → isWordStart c = true := by
    intro c hc
    rw [hstart, Bool.or_assoc, hc, Bool.or_true]
  have hupper : ∀ c : Char, c.isUpper = true → isWordStart c = true := by
    intro c hc
    rw [hstart, hc, Bool.true_or, Bool.true_or]
  unfold tokenPatterns at hm
  fin_cases hm
  -- no other kind names a label than the keywords, which go together, and the two kinds of names
  any_goals (refine absurd hk ?_; decide)
  any_goals (refine startsWord_of_exactly ?_ h; decide)
  · obtain ⟨m, hone, _⟩ := Option.map_eq_some_iff.mp h
    exact startsWord_of_oneThen hlower hone
  · exact startsWord_of_oneThen hupper h

theorem TokenKind.isQuoted_of_namesLabel {kind : TokenKind} (h : kind.namesLabel = true) :
    kind.isQuoted = false ∧ kind ≠ .comment := by
  revert h
  cases kind <;> decide

theorem tokenAt_startsWord {text : List Char} (h : (tokenAt text).1.namesLabel = true) :
    StartsWord text := by
  obtain ⟨p, hm, hp⟩ := exists_pattern text (TokenKind.isQuoted_of_namesLabel h).1
  exact startsWord_of_pattern hm h hp

theorem tokenAt_colon {text : List Char} (h : (tokenAt text).1 = .colon) :
    (tokenAt text).2 = 1 ∧ ∃ rest, text = ':' :: rest := by
  have hpattern : ∀ p, (TokenKind.colon, p) ∈ tokenPatterns → p = exactly ":" := by
    intro p hm
    simpa [tokenPatterns] using hm
  obtain ⟨p, hm, hp⟩ := exists_pattern text (by rw [h]; rfl)
  rw [h] at hm
  rw [hpattern p hm] at hp
  exact exactly_eq_some hp

/-- Only a comment can be longer than its pattern. -/
theorem lexemeAt_eq_tokenAt (lineStart : Bool) (text : List Char)
    (h : (lexemeAt lineStart text).1 ≠ .comment) : lexemeAt lineStart text = tokenAt text := by
  simp only [lexemeAt] at h ⊢
  split
  next ha =>
    rw [if_pos ha] at h
    split
    next n hn => simp [hn] at h
    next => rfl
  next => rfl

/-- The tokens that labels are made of: a name begins like a word, and a colon is a colon. -/
theorem Cuts.label_parts {position : Position} {terminators : List Terminator}
    {text : List Char} {tokens : List Token} (h : Cuts position terminators text tokens) :
    ∀ token ∈ tokens, (token.kind.namesLabel = true → StartsWord token.text.toList) ∧
      (token.kind = .colon → token.text.toList = [':']) := by
  refine h.forall_mem (P := fun kind text => (kind.namesLabel = true → StartsWord text) ∧
    (kind = .colon → text = [':'])) ?_ ?_ ?_
  · intro lineStart kind text rest hne hat
    constructor
    · intro hk
      have hplain := lexemeAt_eq_tokenAt lineStart (text ++ rest)
        (by rw [hat]; exact (TokenKind.isQuoted_of_namesLabel hk).2)
      rw [hat] at hplain
      exact (tokenAt_startsWord (by rw [← hplain]; exact hk)).of_append hne
    · rintro rfl
      have hplain := lexemeAt_eq_tokenAt lineStart (text ++ rest)
        (by rw [hat]; simp)
      rw [hat] at hplain
      obtain ⟨hlength, later, hcolon⟩ := tokenAt_colon (by rw [← hplain])
      rw [← hplain] at hlength
      obtain ⟨c, rfl⟩ := List.length_eq_one_iff.mp hlength
      rw [(List.cons.inj hcolon).1]
  · exact ⟨fun hk => absurd hk (by decide), by simp⟩
  · exact fun _ _ => ⟨fun hk => absurd hk (by decide), by simp⟩

/-- A label is the text of a name and of the colon right after it. -/
theorem Resolves.exists_parts {afterCall : Bool} {tokens resolved : List Token}
    (h : Resolves afterCall tokens resolved) :
    ∀ label ∈ resolved, label.kind = .label → ∃ name ∈ tokens, ∃ colon ∈ tokens,
      name.kind.namesLabel = true ∧ colon.kind = .colon ∧ label.text = name.text ++ colon.text := by
  induction h with
  | nil => simp
  | token hk hl hrest ih =>
    intro label hm hlabel
    rcases List.mem_cons.mp hm with rfl | hm
    · exact absurd hlabel hl
    · obtain ⟨name, hname, colon, hcolon, hparts⟩ := ih label hm hlabel
      exact ⟨name, List.mem_cons_of_mem _ hname, colon, List.mem_cons_of_mem _ hcolon, hparts⟩
  | @label afterCall name colon tokens resolved hn hc hrest ih =>
    intro label hm hlabel
    rcases List.mem_cons.mp hm with rfl | hm
    · exact ⟨name, by simp, colon, by simp, hn, hc, rfl⟩
    · obtain ⟨name', hname, colon', hcolon, hparts⟩ := ih label hm hlabel
      exact ⟨name', by simp [hname], colon', by simp [hcolon], hparts⟩

theorem label_of_lex {source : String} {label : Token} (hm : label ∈ lex source)
    (hk : label.kind = .label) :
    ∃ name : String, label.text = name ++ ":" ∧ StartsWord name.toList := by
  have hcuts := cuts_tokenize source
  have hnone : ∀ token ∈ tokenize source, token.kind ≠ .label := by
    intro token ht he
    have hcontext := hcuts.isContextual token ht
    simp [he, TokenKind.isContextual] at hcontext
  obtain ⟨name, hname, colon, hcolon, hn, hc, htext⟩ :=
    (resolves_resolveKeywords hnone).exists_parts label hm hk
  have hcolonText : colon.text = ":" :=
    String.toList_injective ((hcuts.label_parts colon hcolon).2 hc)
  exact ⟨name.text, by rw [htext, hcolonText], (hcuts.label_parts name hname).1 hn⟩

theorem Token.literalName_of_label {label : Token} {name : String} (hk : label.kind = .label)
    (ht : label.text = name ++ ":") : label.literalName = name := by
  have hcolon : (name ++ ":").toList = name.toList ++ [':'] := String.toList_append
  simp [Token.literalName, hk, ht, hcolon, dropLastColon]

theorem Token.taskName_of_label {label : Token} {name : String} (hk : label.kind = .label)
    (ht : label.text = name ++ ":") : label.taskName = ":" ++ name := by
  rw [Token.taskName, if_pos hk, Token.literalName_of_label hk ht]

theorem Task.rakeName_of_colon {task : Task} {name : String} (h : task.name = ":" ++ name) :
    task.rakeName = String.ofList (unquote name.toList) := by
  have hcolon : (":" ++ name).toList = ':' :: name.toList := String.toList_append
  simp [Task.rakeName, h, hcolon, dropColon]

/-- Rake knows a task by the literal name of the token that it is declared with. -/
theorem Task.rakeName_eq_literalName {task : Task} {token : Token} {source : String}
    (hm : token ∈ lex source)
    (hk : token.kind = .symbol ∨ token.kind = .label ∨
      token.kind = .string ∧ token.text.toList.head? ≠ some ':')
    (hname : task.name = token.taskName) : task.rakeName = token.literalName := by
  rcases hk with hk | hk | ⟨hk, hcolon⟩
  · have htask : token.taskName = token.text := by simp [Token.taskName, hk]
    rw [Task.rakeName, hname, htask]
    simp [Token.literalName, hk]
  · obtain ⟨name, ht, hword⟩ := label_of_lex hm hk
    rw [Token.taskName_of_label hk ht] at hname
    rw [Task.rakeName_of_colon hname, hword.unquote_eq, String.ofList_toList,
      Token.literalName_of_label hk ht]
  · have htask : token.taskName = token.text := by simp [Token.taskName, hk]
    rw [Task.rakeName, hname, htask, dropColon, if_neg hcolon]
    simp [Token.literalName, hk, unquoteText]

@[simp] theorem TokenStream.tokens_skipWhitespace (crossLines : Bool) (stream : TokenStream) :
    (stream.skipWhitespace crossLines).tokens =
      stream.tokens.dropWhile (·.kind.isSkipped crossLines) :=
  (stream.consumes_blanks crossLines).rest List.takeWhile_append_dropWhile.symm

theorem TokenStream.next_congr {first second : TokenStream} (h : first.tokens = second.tokens) :
    first.next.1 = second.next.1 ∧ first.next.2.tokens = second.next.2.tokens := by
  cases ht : second.tokens with
  | nil => rw [TokenStream.next_of_nil (h.trans ht), TokenStream.next_of_nil ht]; exact ⟨rfl, h⟩
  | cons token rest =>
    obtain ⟨after, hn, hc, _⟩ := TokenStream.next_of_tokens (h.trans ht)
    obtain ⟨after', hn', hc', _⟩ := TokenStream.next_of_tokens ht
    rw [hn, hn']
    exact ⟨rfl, (hc.rest (h.trans ht)).trans (hc'.rest ht).symm⟩

/-- The tokens to come tell what the next argument is; open captures have no part in it. -/
theorem TokenStream.nextArgument_congr {first second : TokenStream} (crossLines : Bool)
    (h : first.tokens = second.tokens) :
    (first.nextArgument crossLines).1 = (second.nextArgument crossLines).1 := by
  have hskip : ∀ crossLines, ∀ {a b : TokenStream}, a.tokens = b.tokens →
      (a.skipWhitespace crossLines).tokens = (b.skipWhitespace crossLines).tokens := by
    intro crossLines a b hab
    simp [hab]
  obtain ⟨htoken, hrest⟩ := TokenStream.next_congr (hskip crossLines h)
  unfold TokenStream.nextArgument
  generalize (first.skipWhitespace crossLines).next = read at htoken hrest ⊢
  generalize (second.skipWhitespace crossLines).next = read' at htoken hrest ⊢
  obtain ⟨token, after⟩ := read
  obtain ⟨token', after'⟩ := read'
  obtain rfl : token = token' := htoken
  cases token with
  | none => rfl
  | some token =>
    by_cases hparen : token.kind = .lParen
    · simp only [hparen, if_true]
      exact (TokenStream.next_congr (hskip true hrest)).1
    · simp only [hparen, if_false]

theorem TokenStream.readDeclaration_of_name {stream : TokenStream} {token : Token}
    (kind : TaskKind) (keyword : Token) (hn : (stream.nextArgument false).1 = some token)
    (hname : token.isTaskName = true) :
    ∃ declaration after, stream.readDeclaration kind keyword = (some declaration, after) ∧
      declaration.name = token.taskName := by
  have hcapture : (stream.startCaptureWith keyword).tokens = stream.tokens := rfl
  have htoken := (TokenStream.nextArgument_congr false hcapture).trans hn
  unfold TokenStream.readDeclaration
  generalize (stream.startCaptureWith keyword).nextArgument false = read at htoken ⊢
  obtain ⟨found, after⟩ := read
  obtain rfl : found = some token := htoken
  simp only [hname, if_true]
  exact ⟨_, _, rfl, rfl⟩

theorem Context.findTask?_declare (context : Context) (declaration : Declaration) :
    ∃ id, (context.declare declaration).document.findTask? context.container declaration.name =
      some id := by
  cases hf : context.document.findTask? context.container declaration.name with
  | some id =>
    rw [Context.declare_of_known hf]
    exact ⟨id, hf⟩
  | none =>
    rw [Context.declare_of_new hf]
    exact ⟨_, (Document.findTask?_addTask hf _ _).trans (if_pos rfl)⟩

theorem Context.scanTask_of_name (context : Context) {stream : TokenStream} {token : Token}
    (kind : TaskKind) (keyword : Token) (hn : (stream.nextArgument false).1 = some token)
    (hname : token.isTaskName = true) :
    ∃ declaration : Declaration, declaration.name = token.taskName ∧
      (context.scanTask kind keyword stream).2.1 = context.declare declaration ∧
      (context.scanTask kind keyword stream).1 =
        (context.declare declaration).document.findTask? context.container token.taskName := by
  obtain ⟨declaration, after, hread, hd⟩ :=
    TokenStream.readDeclaration_of_name kind keyword hn hname
  refine ⟨declaration, hd, ?_, ?_⟩
  · simp only [Context.scanTask, hread]
  · simp [Context.scanTask, hread, hd]

theorem Document.Extends.findTask?_eq {before after : Document} (h : before.Extends after)
    (hb : before.WellFormed) (ha : after.WellFormed) {container : NamespaceId} {name : String}
    {id : TaskId} (hf : before.findTask? container name = some id) :
    after.findTask? container name = some id := by
  obtain ⟨task, ht, hk⟩ := Option.map_eq_some_iff.mp ((hb.findTask?_iff container name id).mp hf)
  obtain ⟨later, hl, he⟩ := h.tasks id task ht
  have hcontainer : later.container = task.container := by rw [he.others]
  have hname : later.name = task.name := by rw [he.others]
  rw [ha.findTask?_iff, Document.taskKey?, hl]
  simp only [Option.map_some, hcontainer, hname, hk]

/-- Where a declaration with the first name has been read and one with the second follows in the
same namespace, whatever has happened in between, they declare one task. -/
def Token.SharesTask (first second : Token) : Prop :=
  ∀ (context later : Context) (kind kind' : TaskKind) (keyword keyword' : Token)
    (stream stream' : TokenStream) (events : List Event), context.Reachable →
    (stream.nextArgument false).1 = some first → (stream'.nextArgument false).1 = some second →
    later.document = ((context.scanTask kind keyword stream).2.1.applyAll events).document →
    later.container = context.container →
    ∃ id, (context.scanTask kind keyword stream).1 = some id ∧
      (later.scanTask kind' keyword' stream').1 = some id ∧
      (later.scanTask kind' keyword' stream').2.1.document.taskCount = later.document.taskCount

theorem Token.sharesTask_of_taskName {first second : Token} (hfirst : first.isTaskName = true)
    (hsecond : second.isTaskName = true) (h : first.taskName = second.taskName) :
    first.SharesTask second := by
  intro context later kind kind' keyword keyword' stream stream' events hr hn hn' hlater hcontainer
  obtain ⟨declaration, hd, hcontext, hid⟩ := context.scanTask_of_name kind keyword hn hfirst
  obtain ⟨declaration', hd', hcontext', hid'⟩ := later.scanTask_of_name kind' keyword' hn' hsecond
  obtain ⟨id, hfind⟩ := context.findTask?_declare declaration
  -- the task is still found when the second declaration is read, so it is merged into it
  have hw := hr.wellFormed.declare declaration
  have hknown : later.document.findTask? later.container declaration'.name = some id := by
    rw [hcontext] at hlater
    rw [hcontainer, hd', ← h, ← hd, hlater]
    exact ((context.declare declaration).extends_applyAll events).findTask?_eq hw.document
      (hw.applyAll events).document hfind
  have hmerged := Context.declare_of_known hknown
  refine ⟨id, ?_, ?_, ?_⟩
  · rw [hid, ← hd]
    exact hfind
  · rw [hid', ← hd', hmerged]
    exact hknown
  · rw [hcontext', hmerged]
    exact List.length_modify _ _ _

/-- Rake knows a task by the literal name of the token that declares it: of a symbol, a label or a
string that does not begin with a colon. A label and the symbol of the same name declare one
task. -/
theorem rake_names_are_literal_names (source : String) :
    (∀ token ∈ lex source, token.kind = .symbol ∨ token.kind = .label ∨
        token.kind = .string ∧ token.text.toList.head? ≠ some ':' →
      ∀ task : Task, task.name = token.taskName → task.rakeName = token.literalName) ∧
    (∀ (label symbol : Token) (name : String), label.kind = .label → label.text = name ++ ":" →
      symbol.kind = .symbol → symbol.text = ":" ++ name →
      label.taskName = symbol.taskName ∧ label.SharesTask symbol ∧ symbol.SharesTask label) := by
  constructor
  · intro token hm hk task hname
    exact Task.rakeName_eq_literalName hm hk hname
  · intro label symbol name hlabel hlabelText hsymbol hsymbolText
    have hsame : label.taskName = symbol.taskName := by
      rw [Token.taskName_of_label hlabel hlabelText, Token.taskName, if_neg (by simp [hsymbol]),
        hsymbolText]
    have hl : label.isTaskName = true := by simp [Token.isTaskName, hlabel]
    have hs : symbol.isTaskName = true := by simp [Token.isTaskName, hsymbol]
    exact ⟨hsame, Token.sharesTask_of_taskName hl hs hsame,
      Token.sharesTask_of_taskName hs hl hsame.symm⟩

theorem rake_names_are_literal_names_of_keyword :
    let source := "task end: :a\ntask :\"x\\\"y\"\n"
    let label : Token := ⟨.label, 1, 5, "end:"⟩
    let quoted : Token := ⟨.symbol, 2, 5, ":\"x\\\"y\""⟩
    let keyword : Token := ⟨.identifier, 1, 0, "task"⟩
    let context := Context.new "Rakefile" {} {}
    let stream : TokenStream := { unread := (lex source).tail }
    let stream' : TokenStream := .ofSource "( :end) do\nend"
    let later := (context.scanTask .task keyword stream).2.1.applyAll [.entered "n", .left]
    (label ∈ lex source ∧ ∀ task : Task, task.name = ":end" → task.rakeName = "end") ∧
    (quoted ∈ lex source ∧ ∀ task : Task, task.name = quoted.text → task.rakeName = "x\"y") ∧
    later.container = context.container ∧
    ∃ id, (context.scanTask .task keyword stream).1 = some id ∧
      (later.scanTask .file keyword stream').1 = some id := by
  intro source label quoted keyword context stream stream' later
  obtain ⟨hnames, hshares⟩ := rake_names_are_literal_names source
  have hclosed : (label ∈ lex source ∧ label.taskName = ":end" ∧ label.literalName = "end") ∧
      (quoted ∈ lex source ∧ quoted.literalName = "x\"y") ∧
      (stream.nextArgument false).1 = some label ∧
      (stream'.nextArgument false).1 = some ⟨.symbol, 1, 2, ":end"⟩ ∧
      later.container = context.container := by decide +kernel
  obtain ⟨⟨hlabel, htask, hliteral⟩, ⟨hquoted, hliteral'⟩, hn, hn', hcontainer⟩ := hclosed
  obtain ⟨_, hone, _⟩ := hshares label ⟨.symbol, 1, 2, ":end"⟩ "end" rfl rfl rfl rfl
  obtain ⟨id, hfirst, hsecond, _⟩ := hone context later .task .file keyword keyword stream stream'
    [.entered "n", .left] (.fresh "Rakefile" {} {}) hn hn' rfl hcontainer
  refine ⟨⟨hlabel, ?_⟩, ⟨hquoted, ?_⟩, hcontainer, id, hfirst, hsecond⟩
  · intro task ht
    rw [hnames label hlabel (.inr (.inl rfl)) task (ht.trans htask.symm), hliteral]
  · intro task ht
    rw [hnames quoted hquoted (.inl rfl) task ht, hliteral']

end RakeOutline
