import RakeOutline.Proofs.Passage
import RakeOutline.Proofs.Rakefile
import RakeOutline.Proofs.Reachable

namespace RakeOutline

@[simp] theorem Layout.spell_append (layout : Layout) (i : Nat) (first second : List Word) :
    layout.spell i (first ++ second) =
      layout.spell i first ++ layout.spell (i + first.length) second := by
  induction first generalizing i with
  | nil => rfl
  | cons word words ih =>
    rw [List.cons_append, Layout.spell, ih, Layout.spell, List.cons_append, List.length_cons]
    congr 3
    omega

theorem Layout.literalName_symbol (layout : Layout) (i : Nat) (name : String) :
    (layout.token i (Word.symbol name)).literalName = unquoteText name := by
  simp [Layout.token, Word.symbol, Token.literalName, dropColon, unquoteText]

theorem Layout.names_symbols (layout : Layout) (kind : TaskKind) (names : List String) (i : Nat) :
    (layout.spell i (Word.symbols names)).filterMap (·.dependencyName? kind) =
      names.map unquoteText := by
  have hsymbol : ∀ i name, (layout.token i (Word.symbol name)).dependencyName? kind =
      some (unquoteText name) := by
    intro i name
    rw [← layout.literalName_symbol i name]
    exact if_pos (.inl rfl)
  have hplain : ∀ i word, word.1 = .comma ∨ word.1 = .space →
      (layout.token i word).dependencyName? kind = none := by
    intro i word hw
    rcases hw with hw | hw <;> simp [Token.dependencyName?, Layout.token, hw]
  fun_induction Word.symbols names generalizing i with
  | case1 => rfl
  | case2 name => simp [Layout.spell, hsymbol]
  | case3 name next names ih =>
    simp only [Layout.spell, List.filterMap_cons, hsymbol, ih, List.map_cons]
    rw [hplain _ _ (.inl rfl), hplain _ _ (.inr rfl)]

theorem Layout.symbols_ne_bracket (layout : Layout) (names : List String) (i : Nat) :
    ∀ token ∈ layout.spell i (Word.symbols names), token.kind ≠ .rBracket := by
  fun_induction Word.symbols names generalizing i with
  | case1 => simp [Layout.spell]
  | case2 name => simp [Layout.spell, Layout.token, Word.symbol]
  | case3 name next names ih =>
    simp only [Layout.spell, List.mem_cons]
    rintro token (rfl | rfl | rfl | hm)
    · simp [Layout.token, Word.symbol]
    · simp [Layout.token]
    · simp [Layout.token, Word.space]
    · exact ih _ token hm

theorem Balanced.newline {tokens : List Token} {token : Token} (h : Balanced tokens)
    (hkind : token.kind = .newline) : Balanced (token :: tokens) := by
  refine ⟨?_, by simp [hkind, TokenKind.opensBlock, TokenKind.closesBlock, h.closed]⟩
  intro initial hi
  rcases List.prefix_cons_iff.mp hi with rfl | ⟨inner, rfl, hinner⟩
  · exact Nat.le_refl 0
  · simpa [hkind, TokenKind.opensBlock, TokenKind.closesBlock] using h.nested inner hinner

def WrittenTask.declaration (task : WrittenTask) (layout : Layout) : Declaration where
  kind := task.kind
  name := ":" ++ task.name
  line := (layout 0).1
  text := task.kind.name ++ " :" ++ task.name
  arguments := []
  dependencies := task.dependencyNames
  signature := task.signature layout
  body := task.body layout

theorem Layout.skipped_space (layout : Layout) (i : Nat) (crossLines : Bool) :
    ∀ token ∈ [layout.token i Word.space], token.kind.isSkipped crossLines = true := by
  simp [Layout.token, Word.space, TokenKind.isSkipped, TokenKind.isSpace]

theorem WrittenTask.readTaskArguments (task : WrittenTask) (layout : Layout)
    (named : TokenStream) (rest : List Token)
    (h : named.tokens = layout.spell 3 task.tail ++ (task.body layout ++ rest)) :
    ∃ after, named.readTaskArguments task.kind false = (⟨[], task.dependencyNames⟩, after) ∧
      TokenStream.Consumes (layout.spell 3 task.tail) named after := by
  obtain ⟨kind, name, dependencies, block⟩ := task
  cases dependencies with
  | none =>
    cases block with
    | none =>
      exact TokenStream.readTaskArguments_of_none kind [] h (by simp) rfl
        (by simp [Layout.token, Word.newline])
    | some block =>
      exact TokenStream.readTaskArguments_of_none kind [layout.token 3 Word.space] h
        (layout.skipped_space 3 false) rfl (by simp [Layout.token, Word.opener])
  | some names =>
    have htail : layout.spell 3 (WrittenTask.tail ⟨kind, name, some names, block⟩) =
        [layout.token 3 Word.space] ++ layout.token 4 (.assoc, "=>") ::
          ([layout.token 5 Word.space] ++ layout.token 6 (.lBracket, "[") ::
            (layout.spell 7 (Word.symbols names) ++
              [layout.token (7 + (Word.symbols names).length) (.rBracket, "]")])) := by
      simp [WrittenTask.tail, WrittenTask.arrow, Layout.spell]
    rw [htail] at h ⊢
    rw [List.append_assoc, List.cons_append] at h
    refine TokenStream.readTaskArguments_of_arrow ?_ (.joined (layout.token 4 (.assoc, "=>")) rfl) h
      (layout.skipped_space 3 false)
    intro later hl
    have hbracket := layout.symbols_ne_bracket names 7
    have hlater : later.tokens =
        [layout.token 5 Word.space] ++ layout.token 6 (.lBracket, "[") ::
          (layout.spell 7 (Word.symbols names) ++
            layout.token (7 + (Word.symbols names).length) (.rBracket, "]") ::
              (WrittenTask.body ⟨kind, name, some names, block⟩ layout ++ rest)) := by
      rw [hl]
      simp
    have harray := TokenStream.readDependencies_of_array kind hlater
      (layout.skipped_space 5 true) rfl hbracket rfl
    rwa [layout.names_symbols] at harray

theorem Block.statementLength (block : Block) (layout : Layout) (i : Nat)
    (lead rest : List Token) (hlead : ∀ token ∈ lead, token.kind = .space) :
    statementLength false 0
        (lead ++ (layout.spell i [Word.opener, Word.newline] ++ block.tokens ++
          layout.spell (i + 2) [Word.closer]) ++ rest) =
      (lead ++ (layout.spell i [Word.opener, Word.newline] ++ block.tokens ++
          layout.spell (i + 2) [Word.closer])).length := by
  have hinner : Balanced (layout.token (i + 1) Word.newline :: block.tokens) :=
    block.balanced.newline rfl
  have hplain : ∀ token ∈ lead, token.kind ≠ .newline ∧ token.kind.opensBlock = false ∧
      token.kind.closesBlock = false := by
    intro token hm
    rw [hlead token hm]
    decide
  have hlength := statementLength_block lead rest hplain
    (show (layout.token i Word.opener).kind.opensBlock = true from rfl) hinner
    (show (layout.token (i + 2) Word.closer).kind = .endBlock from rfl)
  simpa [Layout.spell] using hlength

theorem WrittenTask.statementLength_body (task : WrittenTask) (layout : Layout)
    (rest : List Token) :
    statementLength false 0 (task.body layout ++ rest) = (task.body layout).length := by
  obtain ⟨kind, name, dependencies, block⟩ := task
  cases block with
  | none => cases dependencies <;> exact statementLength_line rest rfl
  | some block =>
    cases dependencies with
    | none => exact block.statementLength layout 4 [] rest (by simp)
    | some names =>
      let n := (WrittenTask.head ⟨kind, name, some names, some block⟩ ++
        WrittenTask.arrow ⟨kind, name, some names, some block⟩).length
      exact block.statementLength layout (n + 1) [layout.token n Word.space] rest
        (by simp [Layout.token, Word.space])

theorem WrittenTask.render_eq (task : WrittenTask) (layout : Layout) :
    ∃ line, (∀ token ∈ line, token.kind = .newline) ∧
      task.render layout = task.signature layout ++ task.body layout ++ line := by
  obtain ⟨kind, name, dependencies, block⟩ := task
  cases block with
  | none =>
    refine ⟨[], by simp, ?_⟩
    cases dependencies <;>
      simp [WrittenTask.render, WrittenTask.signature, WrittenTask.body, WrittenTask.tail]
  | some block =>
    let n := (WrittenTask.head ⟨kind, name, dependencies, some block⟩ ++
      WrittenTask.arrow ⟨kind, name, dependencies, some block⟩).length
    refine ⟨[layout.token (n + 4) Word.newline], by simp [Layout.token, Word.newline], ?_⟩
    cases dependencies with
    | none =>
      simp [n, WrittenTask.render, WrittenTask.signature, WrittenTask.body, WrittenTask.tail,
        WrittenTask.arrow, Layout.spell]
    | some names =>
      simp [n, WrittenTask.render, WrittenTask.signature, WrittenTask.body, WrittenTask.tail,
        Layout.spell]

theorem Passes.newlines {ignored : List String} {line : List Token} (frame : Frame)
    (h : ∀ token ∈ line, token.kind = .newline) : Passes ignored frame line [] frame := by
  induction line with
  | nil => exact .refl frame
  | cons token line ih =>
    have hkind := h token List.mem_cons_self
    have hrest := ih fun other hm => h other (List.mem_cons_of_mem token hm)
    exact (Passes.plain frame (by rw [hkind]; rfl) (by rw [hkind]; rfl)).trans hrest

theorem TaskKind.directive_name (kind : TaskKind) :
    Directive.ofIdentifier? kind.name = some (.declare kind) := by
  cases kind <;> decide

theorem WrittenTask.text_eq (task : WrittenTask) (layout : Layout) :
    sourceOf (layout.spell 0 task.head) = task.kind.name ++ " :" ++ task.name := by
  have hcolon : " " ++ (":" ++ task.name) = " :" ++ task.name := by
    rw [← String.append_assoc]
    rfl
  simp [WrittenTask.head, Layout.spell, Layout.token, Word.identifier, Word.space,
    Word.symbol, String.append_assoc, hcolon]

theorem WrittenTask.passes {ignored : List String} (task : WrittenTask) (layout : Layout)
    (frame : Frame) :
    Passes ignored frame (task.render layout) [.declared (task.declaration layout)] frame := by
  have hdeclares : Passes ignored frame (task.signature layout ++ task.body layout)
      [.declared (task.declaration layout)] frame := by
    have hparts : Passes ignored frame _ _ frame := Passes.declares frame
      (show (layout.token 0 (Word.identifier task.kind.name)).kind = .identifier from rfl)
      task.kind.directive_name (layout.skipped_space 1 false)
      (show (layout.token 2 (Word.symbol task.name)).kind = .symbol from rfl)
      (task.readTaskArguments layout) (task.statementLength_body layout)
    have htext := task.text_eq layout
    rw [WrittenTask.declaration, ← htext]
    exact hparts
  obtain ⟨line, hline, hrender⟩ := task.render_eq layout
  have hall := hdeclares.trans (Passes.newlines frame hline)
  rw [List.append_nil] at hall
  rwa [hrender]

/-- Blocks are open in the frame, and an `end` that closes one more does not end its scope. -/
def Frame.Inside (frame : Frame) : Prop :=
  0 ≤ frame.depth ∧ (frame.floor ≤ 0 ∨ frame.floor < frame.depth)

mutual

def Statement.events : Statement → List Event
  | .describe _ text => [.described (unquoteText text)]
  | .declare layout task => [.declared (task.declaration layout)]
  | .enclose _ name statements => .entered (unquoteText name) :: (eventsOf statements ++ [.left])
  | .require layout file => [.required ⟨unquoteText file, false, (layout 2).1⟩]
  | .build layout builder _ _ => [.included ⟨builder.constant, (layout 0).1⟩]
  | .guard _ _ statements => eventsOf statements

def eventsOf : List Statement → List Event
  | [] => []
  | statement :: statements => statement.events ++ eventsOf statements

end

theorem Layout.passes_newline {ignored : List String} (layout : Layout) (i : Nat)
    (frame : Frame) : Passes ignored frame [layout.token i Word.newline] [] frame :=
  Passes.plain frame rfl rfl

def Frame.space (frame : Frame) : Frame where
  depth := frame.depth + 2
  floor := frame.depth + 1
  outer := ⟨frame.depth, frame.floor⟩ :: frame.outer

def Frame.branch (frame : Frame) : Frame :=
  { frame with depth := frame.depth + 1 }

theorem Frame.Inside.space {frame : Frame} (h : frame.Inside) : frame.space.Inside := by
  obtain ⟨hdepth, _⟩ := h
  simp only [Frame.Inside, Frame.space]
  omega

theorem Frame.Inside.branch {frame : Frame} (h : frame.Inside) : frame.branch.Inside := by
  obtain ⟨hdepth, hfloor⟩ := h
  simp only [Frame.Inside, Frame.branch]
  omega

theorem Passes.heads {ignored : List String} (layout : Layout) (name : String) (frame : Frame) :
    Passes ignored frame
      (layout.spell 0 [Word.identifier "namespace", Word.space, Word.symbol name, Word.space,
        Word.opener, Word.newline]) [.entered (unquoteText name)] frame.space := by
  have henters : Passes ignored frame
      (layout.spell 0 [Word.identifier "namespace", Word.space, Word.symbol name, Word.space,
        Word.opener]) [.entered (unquoteText name)] frame.space := by
    rw [← layout.literalName_symbol 2 name]
    exact Passes.enters frame rfl rfl (layout.skipped_space 1 true) rfl
      (layout.skipped_space 3 false) rfl
  exact henters.trans (layout.passes_newline 5 frame.space)

theorem Passes.enclose {ignored : List String} {frame : Frame} {run : List Token}
    {events : List Event} (layout : Layout) (name : String) (h : frame.Inside)
    (hrun : Passes ignored frame.space run events frame.space) :
    Passes ignored frame
      (layout.spell 0 [Word.identifier "namespace", Word.space, Word.symbol name, Word.space,
          Word.opener, Word.newline] ++
        run ++ layout.spell 6 [Word.closer, Word.newline])
      (.entered (unquoteText name) :: (events ++ [.left])) frame := by
  have hopen : Passes ignored frame _ _ frame.space := Passes.heads layout name frame
  have hleave : Passes ignored frame.space [layout.token 6 Word.closer] [.left] frame :=
    Passes.leaves frame rfl h.1
  have hall := (hopen.trans hrun).trans (hleave.trans (layout.passes_newline 7 frame))
  simpa [Layout.spell] using hall

theorem Passes.branches {ignored : List String} (layout : Layout) (condition : Condition)
    (frame : Frame) :
    Passes ignored frame
      (layout.spell 0 [(.ifBlock, "if"), Word.space, Word.identifier condition.word,
        Word.newline]) [] frame.branch := by
  have hif : Passes ignored frame [layout.token 0 (.ifBlock, "if")] [] frame.branch :=
    Passes.opens frame rfl rfl
  have hspace : Passes ignored frame.branch [layout.token 1 Word.space] [] frame.branch :=
    Passes.plain frame.branch rfl rfl
  have hword : Passes ignored frame.branch [layout.token 2 (Word.identifier condition.word)] []
      frame.branch := Passes.word frame.branch rfl condition.plain
  exact ((hif.trans hspace).trans hword).trans (layout.passes_newline 3 frame.branch)

theorem Passes.guard {frame : Frame} {ignored : List String} {run : List Token}
    {events : List Event} (layout : Layout) (condition : Condition) (h : frame.Inside)
    (hrun : Passes ignored frame.branch run events frame.branch) :
    Passes ignored frame
      (layout.spell 0 [(.ifBlock, "if"), Word.space, Word.identifier condition.word,
          Word.newline] ++
        run ++ layout.spell 4 [Word.closer, Word.newline]) events frame := by
  have hopen : Passes ignored frame _ [] frame.branch := Passes.branches layout condition frame
  have hclose : Passes ignored frame.branch [layout.token 4 Word.closer] [] frame :=
    Passes.closes frame rfl h.2
  have hall := (hopen.trans hrun).trans (hclose.trans (layout.passes_newline 5 frame))
  simpa [Layout.spell] using hall

theorem Passes.build {ignored : List String} {builder : Builder} (layout : Layout)
    (method : String) (block : Block) (frame : Frame)
    (hrecorded : ignored.contains builder.constant = false) :
    Passes ignored frame
      (layout.spell 0 [(.constant, builder.constant), (.dot, "."), Word.identifier method,
          Word.space, Word.opener, Word.newline] ++
        block.tokens ++ layout.spell 6 [Word.closer, Word.newline])
      [.included ⟨builder.constant, (layout 0).1⟩] frame := by
  have hinner : Balanced (layout.token 5 Word.newline :: block.tokens) :=
    block.balanced.newline rfl
  have hcall : ∀ token ∈ [layout.token 2 (Word.identifier method), layout.token 3 Word.space],
      [TokenKind.doBlock, .newline].contains token.kind = false := by
    simp [Layout.token, Word.identifier, Word.space]
  have hblock : Passes ignored frame _ [.included ⟨builder.constant, (layout 0).1⟩] frame :=
    Passes.builds frame (show (layout.token 0 (.constant, builder.constant)).kind = _ from rfl)
      hrecorded (show (layout.token 1 (.dot, ".")).kind = _ from rfl) hcall
      (show (layout.token 4 Word.opener).kind = _ from rfl) hinner
      (show (layout.token 6 Word.closer).kind = _ from rfl)
  have hall := hblock.trans (layout.passes_newline 7 frame)
  simpa [Layout.spell] using hall

-- The induction is on the syntax. Each statement leaves its reader in the frame where it found it;
-- what it holds is read in a frame of its own, which is inside its scope again.
mutual

theorem Statement.passes (statement : Statement) {frame : Frame} (h : frame.Inside) :
    Passes ({} : ScanOptions).ignoredConstants frame statement.render statement.events frame :=
  match statement with
  | .describe layout _ =>
    (Passes.describes frame rfl rfl (layout.skipped_space 1 true) rfl).trans
      (layout.passes_newline 3 frame)
  | .declare layout task => task.passes layout frame
  | .enclose layout name statements =>
    Passes.enclose layout name h (passes_renderAll statements h.space)
  | .require layout _ =>
    (Passes.requires frame rfl rfl (layout.skipped_space 1 false) rfl).trans
      (layout.passes_newline 3 frame)
  | .build layout builder method block => Passes.build layout method block frame builder.recorded
  | .guard layout condition statements =>
    Passes.guard layout condition h (passes_renderAll statements h.branch)

theorem passes_renderAll (statements : List Statement) {frame : Frame} (h : frame.Inside) :
    Passes ({} : ScanOptions).ignoredConstants frame (renderAll statements)
      (eventsOf statements) frame :=
  match statements with
  | [] => Passes.refl frame
  | statement :: statements => (statement.passes h).trans (passes_renderAll statements h)

end

/-- The scan has come to the draft, and declares tasks in the namespace. -/
structure Context.Draws (context : Context) (container : NamespaceId) (draft : Draft) : Prop where
  wellFormed : context.WellFormed
  capture : context.options.captureTokens = true
  container : context.container = container
  document : context.document = draft.document
  comment : context.description.text? = draft.comment

theorem Task.merge_of_no_arguments (task : Task) {declaration : Declaration}
    (h : declaration.arguments = []) :
    task.merge declaration =
      { task with dependencies := task.dependencies ++ declaration.dependencies } := by
  have hkeep : (if task.arguments.isEmpty then declaration.arguments else task.arguments) =
      task.arguments := by
    rw [h]
    cases hargs : task.arguments <;> rfl
  rw [Task.merge, hkeep]

theorem Context.Draws.declare {context : Context} {container : NamespaceId} {draft : Draft}
    (h : context.Draws container draft) (layout : Layout) (task : WrittenTask) :
    (context.declare (task.declaration layout)).Draws container
      (draft.declare container layout task) := by
  have hname : (task.declaration layout).name = ":" ++ task.name := rfl
  obtain ⟨hwell, hcapture, rfl, hdocument, hcomment⟩ := h
  have hdeclared := hwell.declare (task.declaration layout)
  cases hf : context.document.findTask? context.container (task.declaration layout).name with
  | some id =>
    rw [Context.declare_of_known hf] at hdeclared ⊢
    refine ⟨hdeclared, hcapture, rfl, ?_, rfl⟩
    rw [hdocument, hname] at hf
    simp only [Draft.declare, hf, hdocument]
    congr 1
    funext known
    exact known.merge_of_no_arguments rfl
  | none =>
    rw [Context.declare_of_new hf] at hdeclared ⊢
    refine ⟨hdeclared, hcapture, rfl, ?_, rfl⟩
    rw [hdocument, hname] at hf
    simp only [Draft.declare, hf, hdocument, hcapture, Task.ofDeclaration, if_true,
      PendingDescription.text, hcomment]
    rfl

theorem Context.Draws.enter {context : Context} {container : NamespaceId} {draft : Draft}
    (h : context.Draws container draft) (name : String) :
    (context.enter name).Draws (draft.document.subspace container name).1
      { draft with document := (draft.document.subspace container name).2 } := by
  obtain ⟨hwell, hcapture, rfl, hdocument, hcomment⟩ := h
  have hentered := hwell.enter name
  cases hf : context.document.findChild? context.container name with
  | some id =>
    rw [Context.enter_of_known hf] at hentered ⊢
    rw [hdocument] at hf
    simp only [Document.subspace, hf]
    exact ⟨hentered, hcapture, rfl, hdocument, hcomment⟩
  | none =>
    rw [Context.enter_of_new hf] at hentered ⊢
    rw [hdocument] at hf
    simp only [Document.subspace, hf]
    exact ⟨hentered, hcapture, by rw [hdocument]; rfl, by rw [hdocument], hcomment⟩

/-- Leaving a namespace after some events leads back to where it was entered. -/
theorem Context.Draws.leave {context : Context} {name : String} {events : List Event}
    {inner : NamespaceId} {draft : Draft} (h : context.WellFormed)
    (hinner : ((context.enter name).applyAll events).Draws inner draft)
    (hback : inner = (context.enter name).container) :
    ((context.enter name).applyAll events).leave.Draws context.container draft := by
  obtain ⟨hwell, hcapture, hcontainer, hdocument, hcomment⟩ := hinner
  have hparent := (h.enter name).parent?_applyAll events (h.parent?_enter name)
  refine ⟨hwell.leave, hcapture, ?_, hdocument, hcomment⟩
  change (Document.parent? _ _).getD _ = _
  rw [hcontainer, hback, hparent]
  rfl

mutual

theorem Statement.draws (statement : Statement) {context : Context} {container : NamespaceId}
    {draft : Draft} (h : context.Draws container draft) :
    (context.applyAll statement.events).Draws container (statement.interpret container draft) :=
  match statement with
  | .describe _ _ => ⟨⟨h.wellFormed.document, h.wellFormed.container⟩, h.capture, h.container,
      h.document, rfl⟩
  | .declare layout task => h.declare layout task
  | .enclose _ name statements => by
    have hentered := h.enter (unquoteText name)
    have hinner := draws_eventsOf statements hentered
    have hleft := Context.Draws.leave h.wellFormed hinner hentered.container.symm
    rw [h.container] at hleft
    simpa [Statement.events, Statement.interpret, Context.apply] using hleft
  | .require layout file => by
    have hwell := h.wellFormed.apply (.required ⟨unquoteText file, false, (layout 2).1⟩)
    refine ⟨hwell, h.capture, h.container, ?_, h.comment⟩
    exact congrArg (Document.addRequire · _) h.document
  | .build layout builder _ _ => by
    have hwell := h.wellFormed.apply (.included ⟨builder.constant, (layout 0).1⟩)
    refine ⟨hwell, h.capture, h.container, ?_, h.comment⟩
    exact congrArg₂ (Document.addInclude · · _) h.document h.container
  | .guard _ _ statements => draws_eventsOf statements h

theorem draws_eventsOf (statements : List Statement) {context : Context}
    {container : NamespaceId} {draft : Draft} (h : context.Draws container draft) :
    (context.applyAll (eventsOf statements)).Draws container
      (interpretAll container draft statements) :=
  match statements with
  | [] => h
  | statement :: statements => by
    simpa [eventsOf, interpretAll] using draws_eventsOf statements (statement.draws h)

end

/-- Where the tokens end, the namespaces that are still open are left. -/
theorem Reader.Reaches.events_run {ignored : List String} {reader later : Reader}
    {events : List Event} (h : Reader.Reaches ignored reader events later)
    (hend : later.stream.tokens = []) :
    (reader.run ignored).events = events ++ later.outer.map fun _ => .left := by
  have hstep : later.step ignored = .done .endOfInput later := by
    simp only [Reader.step, TokenStream.next_of_nil hend]
  rw [h.run, Reader.run_of_done hstep]
  rfl

@[simp] theorem Context.document_leaves (context : Context) (n : Nat) :
    (context.applyAll (List.replicate n .left)).document = context.document := by
  induction n generalizing context with
  | zero => rfl
  | succ n ih => exact ih context.leave

def Reader.start (tokens : List Token) : Reader :=
  (⟨0, 0, []⟩ : Frame).reader { unread := tokens }

theorem Reader.Reaches.document_scanTokens {options : ScanOptions} {tokens : List Token}
    {later : Reader} {events : List Event}
    (h : Reader.Reaches options.ignoredConstants (Reader.start tokens) events later)
    (hend : later.stream.tokens = []) (file : String) (tally : Tally) :
    (scanTokens file tokens options tally).1 =
      ((Context.new file tally options).applyAll events).document := by
  have hscan : (scanTokens file tokens options tally).1 =
      ((Context.new file tally options).applyAll
        ((Reader.start tokens).run options.ignoredConstants).events).document := rfl
  simp [hscan, h.events_run hend]

theorem Passes.reaches {ignored : List String} {run : List Token} {events : List Event}
    {after : Frame} (h : Passes ignored ⟨0, 0, []⟩ run events after) :
    ∃ later, later.tokens = [] ∧
      Reader.Reaches ignored (Reader.start run) events (after.reader later) :=
  h { unread := run } [] (List.append_nil run).symm

theorem events_readScope (rakefile : List Statement) :
    (({ unread := renderAll rakefile } : TokenStream).readScope
      ({} : ScanOptions).ignoredConstants 0).events = eventsOf rakefile := by
  have hstart : (⟨0, 0, []⟩ : Frame).Inside := ⟨Int.le_refl 0, .inl (Int.le_refl 0)⟩
  obtain ⟨later, hend, hreach⟩ := (passes_renderAll rakefile hstart).reaches
  exact (hreach.events_run hend).trans (List.append_nil (eventsOf rakefile))

/-- Scanning a Rakefile gives the outline that its statements stand for. -/
theorem scan_of_rendering_is_interpretation (file : String) (rakefile : List Statement)
    (tally : Tally) :
    (scanTokens file (renderAll rakefile) {} tally).1 =
      (interpretAll Document.rootId ⟨Document.new file, none⟩ rakefile).document := by
  have hnew : (Context.new file tally {}).Draws Document.rootId ⟨Document.new file, none⟩ :=
    ⟨Context.new_wellFormed file tally {}, rfl, rfl, rfl, rfl⟩
  have hdraws := draws_eventsOf rakefile hnew
  rw [← hdraws.document, ← events_readScope]
  rfl

example :
    (renderAll [
      .enclose (fun _ => (1, 0)) "db" [
        .describe (fun _ => (2, 0)) "'Fill'",
        .declare (fun _ => (3, 0)) ⟨.task, "seed", some ["a", "b"], none⟩],
      .guard (fun _ => (5, 0)) ⟨"ready", by decide⟩ [.require (fun _ => (6, 0)) "'c'"]]).map
        (fun token => (token.kind, token.text)) =
    (lex ("namespace :db do\ndesc 'Fill'\ntask :seed => [:a, :b]\nend\n" ++
      "if ready\nrequire 'c'\nend\n")).map (fun token => (token.kind, token.text)) := by
  decide +kernel

end RakeOutline
