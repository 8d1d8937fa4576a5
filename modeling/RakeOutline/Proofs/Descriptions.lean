import RakeOutline.Proofs.Extension
import RakeOutline.Proofs.Merging

namespace RakeOutline

def Event.description? : Event → Option String
  | .described text => some text
  | _ => none

def lastDescription? (events : List Event) : Option String :=
  (events.reverse.takeWhile (·.declaration?.isNone)).findSome? Event.description?

theorem lastDescription?_concat (events : List Event) (event : Event) :
    lastDescription? (events ++ [event]) =
      if event.declaration?.isSome then none
      else event.description?.or (lastDescription? events) := by
  unfold lastDescription?
  rw [List.reverse_concat, List.takeWhile_cons]
  cases event <;> rfl

theorem Context.description_apply (context : Context) (event : Event) :
    (context.apply event).description.text? =
      if event.declaration?.isSome then none
      else event.description?.or context.description.text? := by
  cases event with
  | declared | entered => simp [Context.apply, Event.declaration?, Event.description?]
  | described | left | required | included => rfl

/-- The description that waits is the last one since the last declaration. -/
theorem Context.description_applyAll {context : Context} (h : context.description = {})
    (events : List Event) :
    (context.applyAll events).description.text? = lastDescription? events := by
  induction events using List.reverseRecOn with
  | nil => simp [h, lastDescription?]
  | append_singleton events event ih =>
    rw [Context.applyAll_append, lastDescription?_concat, ← ih]
    exact Context.description_apply _ event

theorem Document.Extends.comment {before after : Document} (h : before.Extends after)
    {id : TaskId} {task : Task} (ht : before.task? id = some task) :
    ∃ later, after.task? id = some later ∧ later.key = task.key ∧ later.comment = task.comment := by
  obtain ⟨later, hl, he⟩ := h.tasks id task ht
  exact ⟨later, hl, by rw [he.others]; rfl, by rw [he.others]⟩

theorem Context.task?_declare {context : Context} {declaration : Declaration}
    (fresh : context.document.findTask? context.container declaration.name = none) :
    (context.declare declaration).document.task? context.document.taskCount =
      some (.ofDeclaration context.container context.description.text
        context.options.captureTokens declaration) := by
  rw [Context.declare_of_new fresh, Document.addTask_of_fresh fresh]
  exact List.getElem?_concat_length

theorem Context.taskCount_apply (context : Context) (event : Event) :
    (context.apply event).document.taskCount = context.document.taskCount ∨
      ∃ declaration, event = .declared declaration ∧
        context.document.findTask? context.container declaration.name = none ∧
        (context.apply event).document.taskCount = context.document.taskCount + 1 := by
  cases event with
  | declared declaration =>
    show (context.declare declaration).document.taskCount = _ ∨ _
    cases hf : context.document.findTask? context.container declaration.name with
    | some id =>
      rw [Context.declare_of_known hf]
      exact .inl (List.length_modify _ _ _)
    | none =>
      refine .inr ⟨declaration, rfl, hf, ?_⟩
      show (context.declare declaration).document.taskCount = _
      rw [Context.declare_of_new hf, Document.addTask_of_fresh hf]
      exact List.length_append
  | entered name => exact .inl (by simp [Context.apply, Document.taskCount])
  | described | left | required | included => exact .inl rfl

theorem Context.exists_declared {context : Context} {events : List Event} {id : TaskId}
    (hlow : context.document.taskCount ≤ id)
    (hid : id < (context.applyAll events).document.taskCount) :
    ∃ before declaration after, events = before ++ .declared declaration :: after ∧
      id = (context.applyAll before).document.taskCount ∧
      (context.applyAll before).document.findTask? (context.applyAll before).container
        declaration.name = none := by
  induction events using List.reverseRecOn with
  | nil => exact absurd hid (Nat.not_lt_of_le hlow)
  | append_singleton events event ih =>
    by_cases hold : id < (context.applyAll events).document.taskCount
    · obtain ⟨before, declaration, after, rfl, hcount, hfresh⟩ := ih hold
      exact ⟨before, declaration, after ++ [event], by simp, hcount, hfresh⟩
    · rw [Context.applyAll_append] at hid
      rcases (context.applyAll events).taskCount_apply event with hsame | ⟨declaration, rfl, hf, hs⟩
      · exact absurd (Nat.lt_of_lt_of_eq hid hsame) hold
      · have hlast := Nat.lt_succ_iff.mp (Nat.lt_of_lt_of_eq hid hs)
        exact ⟨events, declaration, [], rfl, Nat.le_antisymm hlast (Nat.le_of_not_lt hold), hf⟩

/-- The next step reads a word that names a directive and is no method call. -/
structure Reader.Calls (reader : Reader) (directive : Directive) (token : Token)
    (stream : TokenStream) : Prop where
  next : reader.stream.next = (some token, stream)
  word : token.kind = .identifier
  plain : reader.afterCall = false
  directive : Directive.ofIdentifier? token.text = some directive

theorem Reader.Calls.step {reader : Reader} {directive : Directive} {token : Token}
    {stream : TokenStream} (h : reader.Calls directive token stream) (ignored : List String) :
    reader.step ignored =
      { reader with stream := stream, afterCall := false }.obey directive token := by
  have hr : token.kind.role = .word := by rw [h.word]; rfl
  have hc : token.kind.isCall = false := by rw [h.word]; rfl
  simp only [Reader.step, h.next, Reader.dispatch, hr, hc, h.plain, h.directive]
  rfl

/-- A step that calls no directive neither describes nor declares. -/
theorem Reader.calls_or_quiet {ignored : List String} {reader later : Reader}
    {events : List Event} (h : reader.step ignored = .more events later) :
    (∃ directive token stream, reader.Calls directive token stream) ∨
      ∀ event ∈ events, event.description? = none ∧ event.declaration? = none := by
  unfold Reader.step at h
  split at h
  next => simp at h
  next token stream hn =>
    cases hr : token.kind.role with
    | word =>
      simp only [Reader.dispatch, hr] at h
      split at h
      · obtain ⟨rfl, _⟩ := Step.more.inj h
        simp
      · next hplain =>
        split at h
        · obtain ⟨rfl, _⟩ := Step.more.inj h
          simp
        · next directive hd =>
          exact .inl ⟨directive, token, stream, hn, role_eq_word hr, by simpa using hplain, hd⟩
    | constant =>
      simp only [Reader.dispatch, hr, Reader.follow, Step.more.injEq] at h
      obtain ⟨rfl, _⟩ := h
      simp [Event.description?, Event.declaration?]
    | closer =>
      simp only [Reader.dispatch, hr, Reader.closeBlock] at h
      split at h
      · split at h
        · simp at h
        · obtain ⟨rfl, _⟩ := Step.more.inj h
          simp [Event.description?, Event.declaration?]
      · obtain ⟨rfl, _⟩ := Step.more.inj h
        simp
    | comment =>
      simp only [Reader.dispatch, hr] at h
      split at h
      · simp at h
      · obtain ⟨rfl, _⟩ := Step.more.inj h
        simp
    | scriptEnd => simp [Reader.dispatch, hr] at h
    | definition | method | opener | plain =>
      simp only [Reader.dispatch, hr] at h
      obtain ⟨rfl, _⟩ := Step.more.inj h
      simp

theorem TokenStream.kind_readString {stream : TokenStream} {crossLines : Bool} {token : Token}
    (h : (stream.readString crossLines).1 = some token) : token.kind = .string := by
  unfold TokenStream.readString at h
  split at h
  next => simp at h
  next =>
    split at h
    next hstring =>
      obtain rfl := Option.some.inj h
      exact hstring
    next => simp at h

theorem TokenStream.readDescription_eq (stream : TokenStream) :
    stream.readDescription.1 =
      (stream.readString true).1.map fun string => unquoteText string.text := by
  show (stream.readString true).1.map Token.literalName = _
  cases hs : (stream.readString true).1 with
  | none => rfl
  | some string => simp [Token.literalName, TokenStream.kind_readString hs]

/-- What the events of a step have to do with descriptions: a call of `desc` gives the string that
follows, a call that declares tasks gives the declaration that follows, and no other step gives
either. -/
inductive Reader.Hears (reader : Reader) : List Event → Prop
  | describe {token : Token} {stream : TokenStream} : reader.Calls .describe token stream →
      Hears reader ((stream.readString true).1.toList.map fun string =>
        .described (unquoteText string.text))
  | declare {kind : TaskKind} {token : Token} {stream : TokenStream} :
      reader.Calls (.declare kind) token stream →
      Hears reader ((stream.readDeclaration kind token).1.toList.map .declared)
  | quiet {events : List Event} : (∀ token stream, ¬ reader.Calls .describe token stream) →
      (∀ kind token stream, ¬ reader.Calls (.declare kind) token stream) →
      (∀ event ∈ events, event.description? = none ∧ event.declaration? = none) →
      Hears reader events

theorem Reader.Calls.directive_eq {reader : Reader} {first second : Directive}
    {token other : Token} {stream rest : TokenStream} (h : reader.Calls first token stream)
    (k : reader.Calls second other rest) : first = second := by
  obtain ⟨ht, _⟩ := Prod.mk.inj (h.next.symm.trans k.next)
  have hd := h.directive
  rw [Option.some.inj ht, k.directive] at hd
  exact (Option.some.inj hd).symm

theorem Reader.hears_step {ignored : List String} {reader later : Reader} {events : List Event}
    (h : reader.step ignored = .more events later) : reader.Hears events := by
  by_cases hcalls : ∃ directive token stream, reader.Calls directive token stream
  · obtain ⟨directive, token, stream, hc⟩ := hcalls
    rw [hc.step ignored] at h
    cases directive with
    | describe =>
      simp only [Reader.obey, Reader.follow, Step.more.injEq, TokenStream.readDescription_eq] at h
      obtain ⟨rfl, _⟩ := h
      rw [Option.toList_map, List.map_map]
      exact .describe hc
    | declare kind =>
      simp only [Reader.obey, Reader.follow, Step.more.injEq] at h
      obtain ⟨rfl, _⟩ := h
      exact .declare hc
    | require relative =>
      simp only [Reader.obey, Reader.follow, Step.more.injEq] at h
      obtain ⟨rfl, _⟩ := h
      refine .quiet (fun _ _ k => ?_) (fun _ _ _ k => ?_) (by
        simp [Event.description?, Event.declaration?])
      all_goals exact absurd (hc.directive_eq k) (by simp)
    | openNamespace =>
      refine .quiet (fun _ _ k => ?_) (fun _ _ _ k => ?_) ?_
      · exact absurd (hc.directive_eq k) (by simp)
      · exact absurd (hc.directive_eq k) (by simp)
      · simp only [Reader.obey, Reader.openNamespace] at h
        split at h
        · simp at h
        · obtain ⟨rfl, _⟩ := Step.more.inj h
          simp
        · obtain ⟨rfl, _⟩ := Step.more.inj h
          simp [Event.description?, Event.declaration?]
  · refine .quiet (fun token stream k => hcalls ⟨_, token, stream, k⟩)
      (fun kind token stream k => hcalls ⟨_, token, stream, k⟩) ?_
    exact (Reader.calls_or_quiet h).resolve_left hcalls

/-- A declaration that is read leaves no description waiting; where none is read, the scan is as it
was. -/
theorem Context.description_scanTask (context : Context) (kind : TaskKind) (keyword : Token)
    (stream : TokenStream) :
    ((context.scanTask kind keyword stream).1 = none →
      (context.scanTask kind keyword stream).2.1 = context) ∧
    ((context.scanTask kind keyword stream).1 ≠ none →
      (context.scanTask kind keyword stream).2.1.description = {}) := by
  unfold Context.scanTask
  split
  next => simp
  next declaration rest _ =>
    refine ⟨fun hnone => ?_, fun _ => by simp⟩
    cases hf : context.document.findTask? context.container declaration.name with
    | some id =>
      simp only [Context.declare_of_known hf] at hnone
      exact absurd (hf.symm.trans hnone) (by simp)
    | none =>
      simp only [Context.declare_of_new hf] at hnone
      rw [Document.findTask?_addTask hf] at hnone
      simp [Task.ofDeclaration] at hnone

/-- The first declaration of a task gives it the description that waits, and it keeps it. -/
theorem Context.comment_of_first {context : Context} {declaration : Declaration}
    (fresh : context.document.findTask? context.container declaration.name = none)
    (after : List Event) :
    ∃ task, (context.applyAll (.declared declaration :: after)).document.task?
        context.document.taskCount = some task ∧
      task.key = (context.container, declaration.name) ∧
      task.comment = context.description.text := by
  have hadded := Context.task?_declare fresh
  have hlater := (context.declare declaration).extends_applyAll after
  obtain ⟨task, ht, hkey, hcomment⟩ := hlater.comment hadded
  exact ⟨task, ht, hkey, hcomment⟩

theorem Context.comments_of_known {context : Context} {declaration : Declaration} {id : TaskId}
    (known : context.document.findTask? context.container declaration.name = some id) :
    (context.declare declaration).document.tasks.map Task.comment =
      context.document.tasks.map Task.comment := by
  have keeps : ∀ task : Task, (task.merge declaration).comment = task.comment := fun _ => rfl
  rw [Context.declare_of_known known]
  exact map_modify_of_keeps keeps context.document.tasks id

/-- Descriptions and declarations are what the calls of a scan read. The first declaration of a
task gives it the last description since the declaration before, in whatever namespace, and later
ones change no comment. A declaration leaves no description waiting; a call that declares nothing
leaves it as it is. -/
theorem descriptions_go_to_next_declaration (file : String) (tokens : List Token)
    (options : ScanOptions) (tally : Tally) :
    let events := (TokenStream.readScope options.ignoredConstants 0 { unread := tokens }).events
    let start := Context.new file tally options
    let document := (scanTokens file tokens options tally).1
    (∀ (reader later : Reader) (heard : List Event),
      reader.step options.ignoredConstants = .more heard later → reader.Hears heard) ∧
    (∀ before declaration after, events = before ++ .declared declaration :: after →
      let context := start.applyAll before
      (context.declare declaration).description = {} ∧
      (context.document.findTask? context.container declaration.name = none →
        ∃ task, document.task? context.document.taskCount = some task ∧
          task.key = (context.container, declaration.name) ∧
          task.comment = (lastDescription? before).getD "") ∧
      (context.document.findTask? context.container declaration.name ≠ none →
        (context.declare declaration).document.tasks.map Task.comment =
          context.document.tasks.map Task.comment)) ∧
    (∀ id < document.taskCount, ∃ before declaration after,
      events = before ++ .declared declaration :: after ∧
      id = (start.applyAll before).document.taskCount ∧
      (start.applyAll before).document.findTask? (start.applyAll before).container
        declaration.name = none) ∧
    ∀ (context : Context) (kind : TaskKind) (keyword : Token) (stream : TokenStream),
      ((context.scanTask kind keyword stream).1 = none →
        (context.scanTask kind keyword stream).2.1 = context) ∧
      ((context.scanTask kind keyword stream).1 ≠ none →
        (context.scanTask kind keyword stream).2.1.description = {}) := by
  intro events start document
  have hall : document = (start.applyAll events).document := rfl
  refine ⟨fun _ _ _ => Reader.hears_step, ?_, ?_, Context.description_scanTask⟩
  · intro before declaration after he context
    refine ⟨by simp, fun fresh => ?_, fun known => ?_⟩
    · rw [hall, he, Context.applyAll_append]
      obtain ⟨task, ht, hkey, hcomment⟩ := Context.comment_of_first fresh after
      refine ⟨task, ht, hkey, hcomment.trans ?_⟩
      rw [PendingDescription.text, Context.description_applyAll rfl before]
    · obtain ⟨id, hid⟩ := Option.ne_none_iff_exists'.mp known
      exact Context.comments_of_known hid
  · intro id hid
    exact Context.exists_declared (Nat.zero_le id) hid

/-- The word `task` before a number declares nothing, so the description goes to the task after
it, inside the namespace. -/
theorem descriptions_go_to_next_declaration_after_failed_call :
    let tokens := lex "desc 'a'\nnamespace :n do\ntask 1\ntask :x\nend\n"
    let events := (TokenStream.readScope ({} : ScanOptions).ignoredConstants 0
      { unread := tokens }).events
    ∃ before declaration after, events = before ++ .declared declaration :: after ∧
      lastDescription? before = some "a" ∧
      ∃ task, (scanTokens "Rakefile" tokens {} {}).1.task? 0 = some task ∧
        task.comment = "a" := by
  intro tokens events
  have he : events = [.described "a", .entered "n"] ++
      .declared ((declarationsOf events).headD default) :: [.left] := by decide +kernel
  refine ⟨_, _, _, he, rfl, ?_⟩
  obtain ⟨task, ht, _, hc⟩ := ((descriptions_go_to_next_declaration "Rakefile" tokens {} {}).2.1
    _ _ _ he).2.1 (by decide +kernel)
  exact ⟨task, ht, hc⟩

end RakeOutline
