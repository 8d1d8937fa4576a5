import RakeOutline.Proofs.Written

namespace RakeOutline

/-- Spaces, and line breaks too where the line may end. -/
structure Gap (crossLines : Bool) where
  tokens : List Token
  blank : ∀ token ∈ tokens, token.kind = .space ∨ crossLines = true ∧ token.kind = .newline

/-- An array: what stands between two brackets has no closing bracket in it. -/
structure WrittenArray where
  opening : Token
  elements : List Token
  closing : Token
  opens : opening.kind = .lBracket
  inside : ∀ element ∈ elements, element.kind ≠ .rBracket
  closes : closing.kind = .rBracket

def WrittenArray.tokens (array : WrittenArray) : List Token :=
  array.opening :: (array.elements ++ [array.closing])

/-- A comma and the array of the argument names. -/
structure WrittenNames where
  comma : Token
  gap : Gap true
  array : WrittenArray
  isComma : comma.kind = .comma

def WrittenNames.tokens (names : WrittenNames) : List Token :=
  names.comma :: (names.gap.tokens ++ names.array.tokens)

/-- Symbols are dependencies, and for tasks that stand for a path strings are too. -/
def Token.isDependency (kind : TaskKind) (token : Token) : Bool :=
  token.kind = .symbol || token.kind = .string && (kind = .file || kind = .directory)

/-- What can stand after the arrow. -/
inductive WrittenDependencies (kind : TaskKind)
  | several (array : WrittenArray)
  | single (token : Token) (isDependency : token.isDependency kind = true)

def WrittenDependencies.tokens {kind : TaskKind} : WrittenDependencies kind → List Token
  | .several array => array.tokens
  | .single token _ => [token]

def argumentNames (names? : Option WrittenNames) : List String :=
  names?.elim [] fun names => symbolNames names.array.elements

def dependencyNames (kind : TaskKind) (tokens : List Token) : List String :=
  (tokens.filter (·.isDependency kind)).map Token.literalName

theorem Gap.skipped {crossLines : Bool} (gap : Gap crossLines) :
    ∀ token ∈ gap.tokens, token.kind.isSkipped crossLines = true := by
  intro token hm
  rcases gap.blank token hm with hspace | ⟨hcross, hline⟩
  · simp [TokenKind.isSkipped, TokenKind.isSpace, hspace]
  · simp [TokenKind.isSkipped, hcross, hline]

theorem Token.dependencyName?_eq (kind : TaskKind) (token : Token) :
    token.dependencyName? kind =
      if token.isDependency kind = true then some token.literalName else none := by
  have hpaths : kind.acceptsPaths = true ↔ kind = .file ∨ kind = .directory := by
    cases kind <;> simp [TaskKind.acceptsPaths]
  simp [Token.dependencyName?, Token.isDependency, hpaths]

theorem filterMap_dependencyName? (kind : TaskKind) (tokens : List Token) :
    tokens.filterMap (·.dependencyName? kind) = dependencyNames kind tokens := by
  induction tokens with
  | nil => rfl
  | cons token tokens ih =>
    rw [List.filterMap_cons, Token.dependencyName?_eq, ih]
    by_cases hd : token.isDependency kind = true <;> simp [dependencyNames, hd]

theorem Token.isDependency_iff (kind : TaskKind) (token : Token) :
    token.isDependency kind = true ↔
      token.kind = .symbol ∨ token.kind = .string ∧ (kind = .file ∨ kind = .directory) := by
  simp [Token.isDependency]

theorem WrittenArray.dependencyNames_tokens (array : WrittenArray) (kind : TaskKind) :
    dependencyNames kind array.tokens = dependencyNames kind array.elements := by
  have hopening : array.opening.isDependency kind = false := by
    simp [Token.isDependency, array.opens]
  have hclosing : array.closing.isDependency kind = false := by
    simp [Token.isDependency, array.closes]
  simp [dependencyNames, WrittenArray.tokens, List.filter_append, hopening, hclosing]

theorem WrittenDependencies.yields {kind : TaskKind} (dependencies : WrittenDependencies kind)
    (gap : Gap true) (rest : List Token) :
    TokenStream.Yields (TokenStream.readDependencies kind) (gap.tokens ++ dependencies.tokens) rest
      (dependencyNames kind dependencies.tokens) := by
  intro stream h
  rw [List.append_assoc] at h
  cases dependencies with
  | several array =>
    have htokens : array.tokens ++ rest =
        array.opening :: (array.elements ++ array.closing :: rest) := by
      simp [WrittenArray.tokens]
    rw [WrittenDependencies.tokens, htokens] at h
    have hread := TokenStream.readDependencies_of_array kind h gap.skipped array.opens array.inside
      array.closes
    rwa [filterMap_dependencyName?, ← array.dependencyNames_tokens] at hread
  | single token isDependency =>
    have hname : token.dependencyName? kind = some token.literalName := by
      rw [Token.dependencyName?_eq, if_pos isDependency]
    have hkind : token.kind.isSkipped true = false ∧ token.kind ≠ .lBracket := by
      rcases (token.isDependency_iff kind).mp isDependency with hk | ⟨hk, _⟩ <;>
        exact ⟨by rw [hk]; rfl, by simp [hk]⟩
    have hnames : dependencyNames kind [token] = [token.literalName] := by
      simp [dependencyNames, isDependency]
    rw [WrittenDependencies.tokens, hnames]
    exact TokenStream.readDependencies_of_single h gap.skipped hkind.1 hkind.2 hname

theorem yields_no_dependencies {kind : TaskKind} {token : Token} (gap : Gap true)
    (rest : List Token) (hspace : token.kind ≠ .space) (hline : token.kind ≠ .newline)
    (hbracket : token.kind ≠ .lBracket) (hother : token.isDependency kind = false) :
    TokenStream.Yields (TokenStream.readDependencies kind) gap.tokens (token :: rest) [] := by
  intro stream h
  have hskip : token.kind.isSkipped true = false := by
    simp [TokenKind.isSkipped, TokenKind.isSpace, hspace, hline]
  have hname : token.dependencyName? kind = none := by
    rw [Token.dependencyName?_eq, if_neg (by simp [hother])]
  exact TokenStream.readDependencies_of_other h gap.skipped hskip hbracket hname

theorem WrittenNames.yields (names : WrittenNames) (rest : List Token) :
    TokenStream.Yields TokenStream.readArgumentNames (names.gap.tokens ++ names.array.tokens) rest
      (some (symbolNames names.array.elements)) := by
  intro stream h
  have htokens : names.gap.tokens ++ names.array.tokens ++ rest = names.gap.tokens ++
      names.array.opening :: (names.array.elements ++ names.array.closing :: rest) := by
    simp [WrittenArray.tokens]
  rw [htokens] at h
  exact TokenStream.readArgumentNames_of_array h names.gap.skipped names.array.opens
    names.array.inside names.array.closes

/-- All that stands between the name of a task and its dependencies. -/
def writtenHead (lead : Gap false) (names? : Option WrittenNames) (gap : Gap false)
    (arrow : Arrow) : List Token :=
  lead.tokens ++ names?.elim [] WrittenNames.tokens ++ gap.tokens ++ arrow.tokens

/-- What is read as dependencies is read after the arrow too, with the argument names before it. -/
theorem TokenStream.Yields.after_head {kind : TaskKind} {run rest : List Token}
    {dependencies : List String}
    (h : TokenStream.Yields (TokenStream.readDependencies kind) run rest dependencies)
    (lead : Gap false) (names? : Option WrittenNames) (gap : Gap false) (arrow : Arrow) :
    TokenStream.Yields (TokenStream.readTaskArguments kind false)
      (writtenHead lead names? gap arrow ++ run) rest ⟨argumentNames names?, dependencies⟩ := by
  intro stream ht
  cases names? with
  | none =>
    have hgap : ∀ token ∈ lead.tokens ++ gap.tokens, token.kind.isSkipped false = true := by
      intro token hm
      exact (List.mem_append.mp hm).elim (lead.skipped token) (gap.skipped token)
    have hrun : writtenHead lead none gap arrow ++ run =
        lead.tokens ++ gap.tokens ++ (arrow.tokens ++ run) := by
      simp [writtenHead]
    rw [hrun] at ht ⊢
    exact TokenStream.readTaskArguments_of_arrow h arrow (by rw [ht]; simp) hgap
  | some names =>
    have hrun : writtenHead lead (some names) gap arrow ++ run = lead.tokens ++ names.comma ::
        (names.gap.tokens ++ names.array.tokens ++ (gap.tokens ++ (arrow.tokens ++ run))) := by
      simp [writtenHead, WrittenNames.tokens]
    rw [hrun] at ht ⊢
    exact TokenStream.readTaskArguments_of_array h arrow (by rw [ht]; simp) lead.skipped
      names.isComma names.yields gap.skipped

theorem TokenStream.Yields.labelled {kind : TaskKind} {run rest : List Token}
    {dependencies : List String}
    (h : TokenStream.Yields (TokenStream.readDependencies kind) run rest dependencies) :
    TokenStream.Yields (TokenStream.readTaskArguments kind true) run rest ⟨[], dependencies⟩ := by
  intro stream ht
  obtain ⟨after, hd, hc⟩ := h stream ht
  exact ⟨after, by simp [TokenStream.readTaskArguments, hd], hc⟩

/-- The arguments and dependencies of a task are read as they are written, with an array of argument
names or without, after an arrow of either form or after a label, and the stream is left right after
them. Where no dependency follows, none is read and the stream is left before what follows. -/
theorem task_arguments_read_as_written (kind : TaskKind) (lead : Gap false)
    (names? : Option WrittenNames) (gap : Gap false) (arrow : Arrow) (space : Gap true)
    (rest : List Token) :
    (∀ dependencies : WrittenDependencies kind,
      TokenStream.Yields (TokenStream.readTaskArguments kind false)
        (writtenHead lead names? gap arrow ++ (space.tokens ++ dependencies.tokens)) rest
        ⟨argumentNames names?, dependencyNames kind dependencies.tokens⟩ ∧
      TokenStream.Yields (TokenStream.readTaskArguments kind true)
        (space.tokens ++ dependencies.tokens) rest
        ⟨[], dependencyNames kind dependencies.tokens⟩) ∧
    (∀ token : Token, token.kind ≠ .space → token.kind ≠ .newline → token.kind ≠ .lBracket →
      token.isDependency kind = false →
      TokenStream.Yields (TokenStream.readTaskArguments kind false)
        (writtenHead lead names? gap arrow ++ space.tokens) (token :: rest)
        ⟨argumentNames names?, []⟩ ∧
      TokenStream.Yields (TokenStream.readTaskArguments kind true) space.tokens (token :: rest)
        ⟨[], []⟩) := by
  constructor
  · intro dependencies
    have hd := dependencies.yields space rest
    exact ⟨hd.after_head lead names? gap arrow, hd.labelled⟩
  · intro token hspace hline hbracket hother
    have hd := yields_no_dependencies space rest hspace hline hbracket hother
    exact ⟨hd.after_head lead names? gap arrow, hd.labelled⟩

theorem task_arguments_read_as_written_over_lines :
    let token (kind : TokenKind) (text : String) : Token := ⟨kind, 1, 0, text⟩
    let lead : Gap false := ⟨[token .space " "], by simp [token]⟩
    let line : Gap true := ⟨[token .space " ", token .newline "\n"], by simp [token]⟩
    let names : WrittenNames := ⟨token .comma ",", line, ⟨token .lBracket "[",
      [token .symbol ":a", token .string "'b'", token .lBracket "[", token .symbol ":'c d'"],
      token .rBracket "]", rfl, by simp [token], rfl⟩, rfl⟩
    let arrow : Arrow := .split (token .assign "=") (token .gt ">") rfl rfl
    let paths : WrittenDependencies .file := .several ⟨token .lBracket "[",
      [token .string "'x.c'", token .comma ",", token .symbol ":y"], token .rBracket "]",
      rfl, by simp [token], rfl⟩
    let rest := [token .space " ", token .doBlock "do"]
    let path := token .string "'x.c'"
    let head := writtenHead lead (some names) lead arrow ++ line.tokens
    let written : TokenStream := { unread := head ++ paths.tokens ++ rest }
    let other : TokenStream := { unread := head ++ path :: rest }
    (∃ after, written.readTaskArguments .file false = (⟨["a", "c d"], ["x.c", "y"]⟩, after) ∧
      after.tokens = rest) ∧
    (path.isDependency .task = false ∧
      ∃ after, other.readTaskArguments .task false = (⟨["a", "c d"], []⟩, after) ∧
        after.tokens = path :: rest) := by
  intro token lead line names arrow paths rest path head written other
  have hread := (task_arguments_read_as_written .file lead (some names) lead arrow line rest).1
  have hleft := (task_arguments_read_as_written .task lead (some names) lead arrow line rest).2
  have hnames : argumentNames (some names) = ["a", "c d"] := by decide +kernel
  have hpaths : dependencyNames .file paths.tokens = ["x.c", "y"] := by decide +kernel
  rw [hnames] at hread hleft
  obtain ⟨after, ha, hc⟩ := (hread paths).1 written rfl
  rw [hpaths] at ha
  obtain ⟨after', ha', hc'⟩ := (hleft path (by decide) (by decide) (by decide) rfl).1 other rfl
  exact ⟨⟨after, ha, hc.rest rfl⟩, rfl, after', ha', hc'.rest rfl⟩

end RakeOutline
