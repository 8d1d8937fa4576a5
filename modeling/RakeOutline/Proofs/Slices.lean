import RakeOutline.Proofs.Reachable
import RakeOutline.Proofs.Run

namespace RakeOutline

def Event.declaration? : Event → Option Declaration
  | .declared declaration => some declaration
  | _ => none

def declarationsOf (events : List Event) : List Declaration :=
  events.filterMap Event.declaration?

@[simp] theorem declarationsOf_cons (event : Event) (events : List Event) :
    declarationsOf (event :: events) = event.declaration?.toList ++ declarationsOf events := by
  cases h : event.declaration? <;> simp [declarationsOf, h]

@[simp] theorem declarationsOf_append (first second : List Event) :
    declarationsOf (first ++ second) = declarationsOf first ++ declarationsOf second :=
  List.filterMap_append

theorem declarationsOf_map {α : Type} {f : α → Event} (h : ∀ x, (f x).declaration? = none)
    (xs : List α) : declarationsOf (xs.map f) = [] := by
  simp [declarationsOf, List.filterMap_map, h]

def Declaration.tokens (declaration : Declaration) : List Token :=
  declaration.signature ++ declaration.body

theorem role_eq_word {kind : TokenKind} (h : kind.role = .word) : kind = .identifier := by
  cases kind <;> first | rfl | simp [TokenKind.role, TokenKind.opensBlock] at h

/-- Only a word that declares a task gives a declaration, and then it gives nothing else. -/
theorem Reader.declared_of_obey {directive : Directive} {token : Token} {reader later : Reader}
    {events : List Event} (h : reader.obey directive token = .more events later) :
    declarationsOf events = [] ∨ ∃ kind declaration, directive = .declare kind ∧
      reader.stream.readDeclaration kind token = (some declaration, later.stream) ∧
      events = [.declared declaration] := by
  cases directive with
  | describe =>
    simp only [Reader.obey, Reader.follow, Step.more.injEq] at h
    exact .inl (h.1 ▸ declarationsOf_map (fun _ => rfl) _)
  | require relative =>
    simp only [Reader.obey, Reader.follow, Step.more.injEq] at h
    exact .inl (h.1 ▸ declarationsOf_map (fun _ => rfl) _)
  | openNamespace =>
    left
    simp only [Reader.obey, Reader.openNamespace] at h
    split at h
    · simp at h
    · obtain ⟨rfl, _⟩ := Step.more.inj h; rfl
    · obtain ⟨rfl, _⟩ := Step.more.inj h; rfl
  | declare kind =>
    simp only [Reader.obey, Reader.follow, Step.more.injEq] at h
    obtain ⟨rfl, rfl⟩ := h
    cases hd : reader.stream.readDeclaration kind token with
    | mk declaration rest =>
      cases declaration with
      | none => exact .inl rfl
      | some declaration => exact .inr ⟨kind, declaration, rfl, hd, rfl⟩

theorem Reader.declared_of_dispatch {ignored : List String} {called : Bool} {token : Token}
    {reader later : Reader} {events : List Event}
    (h : reader.dispatch ignored called token = .more events later) :
    declarationsOf events = [] ∨ ∃ kind declaration, token.kind = .identifier ∧
      Directive.ofIdentifier? token.text = some (.declare kind) ∧
      reader.stream.readDeclaration kind token = (some declaration, later.stream) ∧
      events = [.declared declaration] := by
  cases hr : token.kind.role with
  | word =>
    simp only [Reader.dispatch, hr] at h
    split at h
    · obtain ⟨rfl, _⟩ := Step.more.inj h; exact .inl rfl
    · split at h
      · obtain ⟨rfl, _⟩ := Step.more.inj h; exact .inl rfl
      · next directive hi =>
        rcases Reader.declared_of_obey h with hn | ⟨kind, declaration, rfl, hd, he⟩
        · exact .inl hn
        · exact .inr ⟨kind, declaration, role_eq_word hr, hi, hd, he⟩
  | constant =>
    simp only [Reader.dispatch, hr, Reader.follow, Step.more.injEq] at h
    exact .inl (h.1 ▸ declarationsOf_map (fun _ => rfl) _)
  | closer =>
    left
    simp only [Reader.dispatch, hr, Reader.closeBlock] at h
    split at h
    · split at h
      · simp at h
      · obtain ⟨rfl, _⟩ := Step.more.inj h; rfl
    · obtain ⟨rfl, _⟩ := Step.more.inj h; rfl
  | comment =>
    left
    simp only [Reader.dispatch, hr] at h
    split at h
    · simp at h
    · obtain ⟨rfl, _⟩ := Step.more.inj h; rfl
  | scriptEnd => simp [Reader.dispatch, hr] at h
  | definition | method | opener | plain =>
    simp only [Reader.dispatch, hr] at h
    obtain ⟨rfl, _⟩ := Step.more.inj h
    exact .inl rfl

/-- The signature begins with the word that declares the task, the text ends with the name. -/
def Declaration.Exact (declaration : Declaration) : Prop :=
  ∃ keyword gap name later, declaration.signature = keyword :: (gap ++ name :: later) ∧
    keyword.kind = .identifier ∧
    Directive.ofIdentifier? keyword.text = some (.declare declaration.kind) ∧
    declaration.line = keyword.line ∧ name.isTaskName = true ∧
    declaration.name = name.taskName ∧
    declaration.text = sourceOf (keyword :: gap) ++ name.text

/-- A step reads a run of tokens. If it declares a task, the run is that declaration's. -/
theorem Reader.consumes_step {ignored : List String} {reader later : Reader}
    {events : List Event} (h : reader.step ignored = .more events later) :
    ∃ run, TokenStream.Consumes run reader.stream later.stream ∧
      (declarationsOf events = [] ∨
        ∃ declaration, events = [.declared declaration] ∧ declaration.Exact ∧
          run = declaration.tokens) := by
  obtain ⟨run, hr⟩ : reader.stream.Reads later.stream := by
    have hs := reader.reads_step ignored
    rwa [h] at hs
  unfold Reader.step at h
  split at h
  next => simp at h
  next keyword stream hn =>
    rcases Reader.declared_of_dispatch h with hd | ⟨kind, declaration, hk, hi, hd, he⟩
    · exact ⟨run, hr, .inl hd⟩
    · obtain ⟨gap, name, rest, hname, hdn, rfl, hl, ht, hs, hc⟩ :=
        TokenStream.readDeclaration_eq_some hd
      refine ⟨_, (TokenStream.consumes_next hn).1.trans hc, .inr ⟨declaration, he, ?_, ?_⟩⟩
      · refine ⟨keyword, gap, name, rest, by simp [hs], hk, hi, hl, hname, hdn, ?_⟩
        simp [ht, String.append_assoc]
      · simp [Declaration.tokens, hs]

/-- The runs stand in the tokens one after another, with gaps between them. -/
inductive Slices : List (List Token) → List Token → Prop
  | nil (tokens : List Token) : Slices [] tokens
  | cons {runs : List (List Token)} {tokens : List Token} (gap run : List Token) :
      Slices runs tokens → Slices (run :: runs) (gap ++ (run ++ tokens))

theorem Slices.skip {runs : List (List Token)} {tokens : List Token} (h : Slices runs tokens)
    (gap : List Token) : Slices runs (gap ++ tokens) := by
  cases h with
  | nil => exact .nil _
  | cons inner run h =>
    rw [← List.append_assoc]
    exact .cons (gap ++ inner) run h

theorem Slices.sublist {runs : List (List Token)} {tokens : List Token} (h : Slices runs tokens)
    {chosen : List (List Token)} (hs : chosen.Sublist runs) : Slices chosen tokens := by
  induction h generalizing chosen with
  | nil tokens =>
    rw [List.sublist_nil.mp hs]
    exact .nil tokens
  | cons gap run _ ih =>
    cases hs with
    | cons _ hs => exact ((ih hs).skip run).skip gap
    | cons_cons _ hs => exact .cons gap run (ih hs)

/-- Each run has a place in the tokens, and ends before the place of any later run. -/
theorem Slices.exists_start {runs : List (List Token)} {tokens : List Token}
    (h : Slices runs tokens) :
    ∃ start : Nat → Nat, (∀ i run, runs[i]? = some run → run <+: tokens.drop (start i)) ∧
      ∀ i j run, i < j → j < runs.length → runs[i]? = some run →
        start i + run.length ≤ start j := by
  induction h with
  | nil tokens => exact ⟨fun _ => 0, by simp, by simp⟩
  | @cons runs tokens gap run _ ih =>
    obtain ⟨start, hp, ho⟩ := ih
    refine ⟨fun | 0 => gap.length | i + 1 => (gap ++ run).length + start i, ?_, ?_⟩
    · intro i other hi
      cases i with
      | zero =>
        obtain rfl : run = other := by simpa using hi
        show run <+: (gap ++ (run ++ tokens)).drop gap.length
        rw [List.drop_left]
        exact List.prefix_append run tokens
      | succ i =>
        show other <+: (gap ++ (run ++ tokens)).drop ((gap ++ run).length + start i)
        rw [← List.append_assoc, ← List.drop_drop, List.drop_left]
        exact hp i other (by simpa using hi)
    · intro i j other hij hj hi
      cases j with
      | zero => omega
      | succ j =>
        have hj' : j < runs.length := by simpa using hj
        cases i with
        | zero =>
          obtain rfl : run = other := by simpa using hi
          show gap.length + run.length ≤ (gap ++ run).length + start j
          rw [List.length_append]
          omega
        | succ i =>
          have hle := ho i j other (by omega) hj' (by simpa using hi)
          show (gap ++ run).length + start i + other.length ≤ (gap ++ run).length + start j
          omega

theorem Reader.slices_run (ignored : List String) (reader : Reader) :
    Slices ((declarationsOf (reader.run ignored).events).map Declaration.tokens)
      reader.stream.tokens ∧
    ∀ declaration ∈ declarationsOf (reader.run ignored).events, declaration.Exact := by
  induction reader using Reader.run_induction ignored with
  | done reader flow later h =>
    have hn : declarationsOf (later.finish flow).events = [] :=
      declarationsOf_map (fun _ => rfl) later.outer
    rw [hn]
    exact ⟨.nil _, by simp⟩
  | more reader events later h ih =>
    obtain ⟨hs, he⟩ := ih
    obtain ⟨run, hr, hd | ⟨declaration, rfl, hx, rfl⟩⟩ := Reader.consumes_step h
    · simp only [Reading.after, declarationsOf_append, hd, List.nil_append, hr.tokens]
      exact ⟨hs.skip run, he⟩
    · have hone : declarationsOf ((later.run ignored).after [.declared declaration]).events =
          declaration :: declarationsOf (later.run ignored).events := rfl
      rw [hone, hr.tokens]
      refine ⟨.cons [] declaration.tokens hs, ?_⟩
      intro other hm
      rcases List.mem_cons.mp hm with rfl | hm
      · exact hx
      · exact he other hm

/-- What a task keeps of its first declaration, whatever is declared later. -/
def Task.origin (task : Task) : Declaration where
  kind := task.kind
  name := task.name
  line := task.line
  text := task.text
  arguments := []
  dependencies := []
  signature := task.signature
  body := task.body

def Declaration.origin (declaration : Declaration) : Declaration :=
  { declaration with arguments := [], dependencies := [] }

theorem map_modify {α β : Type} {view : α → β} {change : α → α} {change' : β → β}
    (h : ∀ x, view (change x) = change' (view x)) (xs : List α) (i : Nat) :
    (xs.modify i change).map view = (xs.map view).modify i change' := by
  apply List.ext_getElem?
  intro j
  rw [List.getElem?_map, List.getElem?_modify, List.getElem?_modify, List.getElem?_map]
  cases xs[j]? with
  | none => rfl
  | some x =>
    by_cases hj : i = j
    · simp [hj, h]
    · simp [hj]

theorem map_modify_of_keeps {α β : Type} {change : α → α} {view : α → β}
    (keeps : ∀ x, view (change x) = view x) (xs : List α) (i : Nat) :
    (xs.modify i change).map view = xs.map view := by
  have hid : ∀ x, view (change x) = id (view x) := keeps
  rw [map_modify hid, List.modify_id]

/-- An event adds at most one task, and keeps what the tasks before it have of their origin. -/
theorem Context.origins_apply {context : Context} (capture : context.options.captureTokens = true)
    (event : Event) :
    ∃ first : List Declaration, first.Sublist (declarationsOf [event]) ∧
      (context.apply event).document.tasks.map Task.origin =
        context.document.tasks.map Task.origin ++ first.map Declaration.origin := by
  cases event with
  | declared declaration =>
    show ∃ first : List Declaration, first.Sublist [declaration] ∧
      (context.declare declaration).document.tasks.map Task.origin = _
    cases hf : context.document.findTask? context.container declaration.name with
    | some id =>
      refine ⟨[], List.nil_sublist _, ?_⟩
      have keeps : ∀ task : Task, (task.merge declaration).origin = task.origin := fun _ => rfl
      rw [Context.declare_of_known hf, List.map_nil, List.append_nil]
      exact map_modify_of_keeps keeps context.document.tasks id
    | none =>
      refine ⟨[declaration], List.Sublist.refl _, ?_⟩
      have ht : Task.origin (.ofDeclaration context.container context.description.text
          context.options.captureTokens declaration) = declaration.origin := by
        simp [Task.origin, Task.ofDeclaration, Declaration.origin, capture]
      have ha := @Document.addTask_of_fresh context.document (.ofDeclaration context.container
        context.description.text context.options.captureTokens declaration) hf
      rw [Context.declare_of_new hf, ha]
      simp [ht]
  | entered name =>
    refine ⟨[], List.nil_sublist _, ?_⟩
    show (context.enter name).document.tasks.map Task.origin = _
    cases hf : context.document.findChild? context.container name with
    | some id => rw [Context.enter_of_known hf, List.map_nil, List.append_nil]
    | none =>
      rw [Context.enter_of_new hf, List.map_nil, List.append_nil]
      rfl
  | described | left | required | included =>
    exact ⟨[], List.nil_sublist _, (List.append_nil _).symm⟩

theorem Context.origins_applyAll {context : Context}
    (capture : context.options.captureTokens = true) (events : List Event) :
    ∃ first : List Declaration, first.Sublist (declarationsOf events) ∧
      (context.applyAll events).document.tasks.map Task.origin =
        context.document.tasks.map Task.origin ++ first.map Declaration.origin := by
  induction events generalizing context with
  | nil => exact ⟨[], List.nil_sublist _, (List.append_nil _).symm⟩
  | cons event events ih =>
    obtain ⟨first, hf, he⟩ := Context.origins_apply capture event
    have captureNext : (context.apply event).options.captureTokens = true := by simpa using capture
    obtain ⟨later, hl, hr⟩ := ih captureNext
    refine ⟨first ++ later, ?_, ?_⟩
    · rw [← List.singleton_append, declarationsOf_append]
      exact hf.append hl
    · rw [List.map_append, ← List.append_assoc, ← he]
      exact hr

/-- The tokens of the task stand in the input at this place. They begin with the word that declares
the task, on the line of the task; its text is the source from there to its name. -/
def Task.CutFrom (task : Task) (tokens : List Token) (start : Nat) : Prop :=
  task.tokens <+: tokens.drop start ∧
  ∃ keyword gap name later, task.signature = keyword :: (gap ++ name :: later) ∧
    keyword.kind = .identifier ∧
    Directive.ofIdentifier? keyword.text = some (.declare task.kind) ∧
    task.line = keyword.line ∧ name.isTaskName = true ∧ task.name = name.taskName ∧
    task.text = sourceOf (keyword :: gap) ++ name.text ∧
    sourceOf task.signature = task.text ++ sourceOf later

theorem Task.cutFrom_of_origin {task : Task} {declaration : Declaration} {tokens : List Token}
    {start : Nat} (h : task.origin = declaration.origin) (hx : declaration.Exact)
    (hs : declaration.tokens <+: tokens.drop start) : task.CutFrom tokens start := by
  obtain ⟨hk, hn, hl, ht, _, _, hsig, hb⟩ := Declaration.mk.inj h
  obtain ⟨keyword, gap, name, later, hsig', hkind, hdir, hline, htask, hname, htext⟩ := hx
  refine ⟨?_, keyword, gap, name, later, hsig.trans hsig', hkind, by rwa [hk], hl.trans hline,
    htask, hn.trans hname, ht.trans htext, ?_⟩
  · rwa [Task.tokens, hsig, hb]
  · simp [hsig, hsig', ht, htext, String.append_assoc]

/-- The tokens that a task keeps are a piece of the input, and the pieces of different tasks stand
one after another. -/
theorem scanned_tasks_are_slices (file : String) (tokens : List Token) (options : ScanOptions)
    (tally : Tally) (capture : options.captureTokens = true) :
    ∃ start : TaskId → Nat,
      (∀ id task, (scanTokens file tokens options tally).1.task? id = some task →
        task.CutFrom tokens (start id)) ∧
      ∀ first second task, first < second →
        second < (scanTokens file tokens options tally).1.taskCount →
        (scanTokens file tokens options tally).1.task? first = some task →
        start first + task.tokens.length ≤ start second := by
  let reader : Reader := { stream := { unread := tokens }, depth := 0, floor := 0 }
  obtain ⟨hslices, hexact⟩ := reader.slices_run options.ignoredConstants
  obtain ⟨first, hsub, horigin⟩ := Context.origins_applyAll
    (show (Context.new file tally options).options.captureTokens = true from capture)
    (reader.run options.ignoredConstants).events
  obtain ⟨start, hplace, horder⟩ := (hslices.sublist (hsub.map Declaration.tokens)).exists_start
  have htasks : (scanTokens file tokens options tally).1.tasks.map Task.origin =
      first.map Declaration.origin := horigin
  have hcount : (scanTokens file tokens options tally).1.taskCount = first.length := by
    simpa [Document.taskCount] using congrArg List.length htasks
  have hfind : ∀ id task, (scanTokens file tokens options tally).1.task? id = some task →
      ∃ declaration, first[id]? = some declaration ∧ task.origin = declaration.origin := by
    intro id task ht
    have ho := congrArg (·[id]?) htasks
    simp only [List.getElem?_map] at ho
    rw [← Document.task?, ht] at ho
    obtain ⟨declaration, hd, he⟩ := Option.map_eq_some_iff.mp ho.symm
    exact ⟨declaration, hd, he.symm⟩
  refine ⟨start, ?_, ?_⟩
  · intro id task ht
    obtain ⟨declaration, hd, ho⟩ := hfind id task ht
    refine Task.cutFrom_of_origin ho (hexact declaration (hsub.subset (List.mem_of_getElem? hd))) ?_
    exact hplace id declaration.tokens (by simp [hd])
  · intro i j task hij hj ht
    obtain ⟨declaration, hd, ho⟩ := hfind i task ht
    obtain ⟨_, _, _, _, _, _, hsig, hb⟩ := Declaration.mk.inj ho
    have hlen : task.tokens = declaration.tokens := by rw [Task.tokens, hsig, hb]; rfl
    rw [hlen]
    exact horder i j declaration.tokens hij (by simpa [hcount] using hj) (by simp [hd])

theorem scanned_tasks_are_slices_with_block :
    ({} : ScanOptions).captureTokens = true ∧
    (scanTokens "Rakefile" (lex "task :a do\nend\ntask b: :a\n") {} {}).1.taskCount = 2 ∧
    ∃ start : TaskId → Nat, ∀ id task,
      (scanTokens "Rakefile" (lex "task :a do\nend\ntask b: :a\n") {} {}).1.task? id = some task →
      task.CutFrom (lex "task :a do\nend\ntask b: :a\n") (start id) := by
  refine ⟨rfl, by decide +kernel, ?_⟩
  obtain ⟨start, hcut, _⟩ := scanned_tasks_are_slices "Rakefile"
    (lex "task :a do\nend\ntask b: :a\n") {} {} rfl
  exact ⟨start, hcut⟩

end RakeOutline
