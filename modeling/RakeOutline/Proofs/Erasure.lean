import RakeOutline.Proofs.Slices

namespace RakeOutline

def Task.withoutTokens (task : Task) : Task :=
  { task with signature := [], body := [] }

def Document.withoutTokens (document : Document) : Document :=
  { document with tasks := document.tasks.map Task.withoutTokens }

def Context.withoutTokens (context : Context) : Context :=
  { context with
    document := context.document.withoutTokens
    options := { context.options with captureTokens := false } }

@[simp] theorem Document.taskCount_withoutTokens (document : Document) :
    document.withoutTokens.taskCount = document.taskCount :=
  List.length_map Task.withoutTokens

theorem Context.withoutTokens_declare (context : Context) (declaration : Declaration) :
    (context.declare declaration).withoutTokens = context.withoutTokens.declare declaration := by
  cases hf : context.document.findTask? context.container declaration.name with
  | some id =>
    have hf' : context.withoutTokens.document.findTask? context.withoutTokens.container
        declaration.name = some id := hf
    have htasks : (context.document.tasks.modify id (·.merge declaration)).map Task.withoutTokens =
        (context.document.tasks.map Task.withoutTokens).modify id (·.merge declaration) := by
      apply map_modify
      intro task
      rfl
    rw [Context.declare_of_known hf, Context.declare_of_known hf']
    simp only [Context.withoutTokens, Document.withoutTokens, Document.modifyTask, htasks]
  | none =>
    have hf' : context.withoutTokens.document.findTask? context.withoutTokens.container
        declaration.name = none := hf
    have hadd := @Document.addTask_of_fresh context.document (.ofDeclaration context.container
      context.description.text context.options.captureTokens declaration) hf
    have hadd' := @Document.addTask_of_fresh context.withoutTokens.document (.ofDeclaration
      context.withoutTokens.container context.withoutTokens.description.text
      context.withoutTokens.options.captureTokens declaration) hf'
    have hcount : context.withoutTokens.document.taskCount = context.document.taskCount :=
      context.document.taskCount_withoutTokens
    rw [Context.declare_of_new hf, Context.declare_of_new hf', hadd, hadd', hcount]
    simp only [Context.withoutTokens, Document.withoutTokens, List.map_append, List.map_singleton]
    rfl

theorem Context.withoutTokens_enter (context : Context) (name : String) :
    (context.enter name).withoutTokens = context.withoutTokens.enter name := by
  cases hf : context.document.findChild? context.container name with
  | some id =>
    have hf' : context.withoutTokens.document.findChild? context.withoutTokens.container name =
        some id := hf
    rw [Context.enter_of_known hf, Context.enter_of_known hf']
    rfl
  | none =>
    have hf' : context.withoutTokens.document.findChild? context.withoutTokens.container name =
        none := hf
    rw [Context.enter_of_new hf, Context.enter_of_new hf']
    rfl

theorem Context.withoutTokens_apply (context : Context) (event : Event) :
    (context.apply event).withoutTokens = context.withoutTokens.apply event := by
  cases event with
  | declared declaration => exact context.withoutTokens_declare declaration
  | entered name => exact context.withoutTokens_enter name
  | described | left | required | included => rfl

theorem Context.withoutTokens_applyAll (context : Context) (events : List Event) :
    (context.applyAll events).withoutTokens = context.withoutTokens.applyAll events := by
  induction events generalizing context with
  | nil => rfl
  | cons event events ih =>
    rw [Context.applyAll, List.foldl_cons]
    calc ((context.apply event).applyAll events).withoutTokens
        = (context.apply event).withoutTokens.applyAll events := ih (context.apply event)
      _ = (context.withoutTokens.apply event).applyAll events := by
        rw [context.withoutTokens_apply]

/-- A scope is read the same and ends the same, whatever is kept. -/
theorem Context.scanScope_withoutTokens (context : Context) (stream : TokenStream) :
    context.withoutTokens.scanScope stream =
      ((context.scanScope stream).1, (context.scanScope stream).2.1.withoutTokens,
        (context.scanScope stream).2.2) := by
  have hevents := context.withoutTokens_applyAll
    (stream.readScope context.options.ignoredConstants context.depth).events
  simp only [Context.scanScope, Context.withoutTokens] at hevents ⊢
  rw [← hevents]

/-- A task that keeps its tokens has a signature, which begins with its declaring word. -/
theorem signature_scanTokens (file : String) (tokens : List Token) {options : ScanOptions}
    (tally : Tally) (capture : options.captureTokens = true) :
    ∀ task ∈ (scanTokens file tokens options tally).1.tasks, task.signature ≠ [] := by
  intro task hm
  let reader : Reader := { stream := { unread := tokens }, depth := 0, floor := 0 }
  obtain ⟨_, hexact⟩ := reader.slices_run options.ignoredConstants
  obtain ⟨first, hsub, horigins⟩ := Context.origins_applyAll
    (show (Context.new file tally options).options.captureTokens = true from capture)
    (reader.run options.ignoredConstants).events
  have horigin : task.origin ∈ first.map Declaration.origin := by
    have htasks : (scanTokens file tokens options tally).1.tasks.map Task.origin =
        first.map Declaration.origin := horigins
    rw [← htasks]
    exact List.mem_map_of_mem hm
  obtain ⟨declaration, hd, he⟩ := List.mem_map.mp horigin
  obtain ⟨keyword, gap, name, later, hsignature, _⟩ := hexact declaration (hsub.subset hd)
  have hsame : declaration.signature = task.signature := congrArg Declaration.signature he
  rw [← hsame, hsignature]
  exact List.cons_ne_nil _ _

/-- Without captures a scan gives the outline that it gives with them, less the signatures and
bodies of the tasks, and the same tally. With captures no signature is empty. -/
theorem captures_change_token_runs_only (file : String) (tokens : List Token)
    (ignored : List String) (tally : Tally) :
    (scanTokens file tokens ⟨ignored, false⟩ tally).1 =
      (scanTokens file tokens ⟨ignored, true⟩ tally).1.withoutTokens ∧
    (scanTokens file tokens ⟨ignored, false⟩ tally).2 =
      (scanTokens file tokens ⟨ignored, true⟩ tally).2 ∧
    ∀ task ∈ (scanTokens file tokens ⟨ignored, true⟩ tally).1.tasks, task.signature ≠ [] := by
  have hscan := (Context.new file tally ⟨ignored, true⟩).scanScope_withoutTokens
    { unread := tokens }
  have hdocument := congrArg (·.2.1.document) hscan
  have htally := congrArg (·.2.1.tally) hscan
  exact ⟨hdocument, htally, signature_scanTokens file tokens tally rfl⟩

theorem captures_change_token_runs_only_of_merged :
    let tokens := lex "desc 'x'\ntask :a do\nend\ntask a: :b\n"
    let kept := (scanTokens "Rakefile" tokens ⟨[], true⟩ {}).1
    (scanTokens "Rakefile" tokens ⟨[], false⟩ {}).1 = kept.withoutTokens ∧
    ∃ task ∈ kept.tasks, task.signature ≠ [] ∧ task.withoutTokens ≠ task ∧
      task.dependencies = ["b"] := by
  intro tokens kept
  obtain ⟨hdocument, _, hsignature⟩ :=
    captures_change_token_runs_only "Rakefile" tokens [] {}
  have htask : ∃ task ∈ kept.tasks, task.dependencies = ["b"] := by decide +kernel
  obtain ⟨task, hm, hdependencies⟩ := htask
  refine ⟨hdocument, task, hm, hsignature task hm, ?_, hdependencies⟩
  intro he
  exact hsignature task hm (congrArg Task.signature he).symm

end RakeOutline
