import RakeOutline.Proofs.Reachable
import RakeOutline.Proofs.Run

namespace RakeOutline

def Document.updateNamespace? (document : Document) (id : NamespaceId)
    (change : Namespace → Namespace) : Option Document := do
  let space ← document.namespaces[id]?
  return { document with namespaces := document.namespaces.set id (change space) }

def Document.updateTask? (document : Document) (id : TaskId) (change : Task → Task) :
    Option Document := do
  let task ← document.tasks[id]?
  return { document with tasks := document.tasks.set id (change task) }

/-- Looks for a child by its name. The namespace and all its children have to be there. -/
def Document.lookForChild? (document : Document) (parent : NamespaceId) (name : String) :
    Option (Option NamespaceId) := do
  let space ← document.namespaces[parent]?
  let children ← space.children.mapM fun child =>
    (document.namespaces[child]?).map fun space => (child, space)
  return (children.find? (·.2.name == name)).map Prod.fst

def Document.insertNamespace? (document : Document) (parent : NamespaceId) (name : String) :
    Option Document := do
  let grown : Document := { document with
    namespaces := document.namespaces ++ [⟨name, some parent, [], [], []⟩] }
  grown.updateNamespace? parent fun space =>
    { space with children := space.children ++ [document.namespaceCount] }

def Document.insertTask? (document : Document) (task : Task) : Option Document := do
  let grown ← document.updateNamespace? task.container fun space =>
    { space with tasks := space.tasks ++ [document.taskCount] }
  return { grown with
    tasks := grown.tasks ++ [task]
    taskIndex := ((task.container, task.name), document.taskCount) :: grown.taskIndex }

/-- What an event does to a scan, or nothing if a number that it looks up is out of range. -/
def Context.applyChecked (context : Context) (event : Event) : Option Context :=
  match event with
  | .described text => some { context with description := .set text }
  | .declared declaration =>
    match context.document.findTask? context.container declaration.name with
    | some id => do
      let document ← context.document.updateTask? id (·.merge declaration)
      return { context with document, description := {} }
    | none => do
      let document ← context.document.insertTask? (.ofDeclaration context.container
        context.description.text context.options.captureTokens declaration)
      return { context with document, tally := context.tally.addTask, description := {} }
  | .entered name => do
    match ← context.document.lookForChild? context.container name with
    | some id => return { context with container := id }
    | none =>
      let document ← context.document.insertNamespace? context.container name
      return { context with
        document, tally := context.tally.addNamespace
        container := context.document.namespaceCount }
  | .left => do
    let space ← context.document.namespaces[context.container]?
    return { context with container := space.parent.getD context.container }
  | .required file => some { context with document := context.document.addRequire file }
  | .included constant => do
    let document ← context.document.updateNamespace? context.container fun space =>
      { space with includes := space.includes ++ [constant] }
    return { context with document }

theorem Document.updateNamespace?_eq {document : Document} {id : NamespaceId}
    (valid : id < document.namespaceCount) (change : Namespace → Namespace) :
    document.updateNamespace? id change = some (document.modifyNamespace id change) := by
  have hg : document.namespaces[id]? = some document.namespaces[id] :=
    List.getElem?_eq_getElem valid
  simp [Document.updateNamespace?, Document.modifyNamespace, List.modify_eq_set_getElem?, hg]

theorem Document.updateTask?_eq {document : Document} {id : TaskId} {task : Task}
    (h : document.task? id = some task) (change : Task → Task) :
    document.updateTask? id change = some (document.modifyTask id change) := by
  have hg : document.tasks[id]? = some task := h
  simp [Document.updateTask?, Document.modifyTask, List.modify_eq_set_getElem?, hg]

theorem Document.insertTask?_eq {document : Document} {task : Task}
    (valid : task.container < document.namespaceCount)
    (fresh : document.findTask? task.container task.name = none) :
    document.insertTask? task = some (document.addTask task).2 := by
  rw [Document.addTask_of_fresh fresh, Document.insertTask?, Document.updateNamespace?_eq valid]
  rfl

theorem Document.insertNamespace?_eq {document : Document} {parent : NamespaceId}
    (valid : parent < document.namespaceCount) (name : String) :
    document.insertNamespace? parent name = some (document.addNamespace parent name).2 := by
  have hg : document.namespaces[parent]? = some document.namespaces[parent] :=
    List.getElem?_eq_getElem valid
  simp [Document.insertNamespace?, Document.updateNamespace?, Document.addNamespace,
    Document.modifyNamespace, List.modify_eq_set_getElem?, List.getElem?_append_left valid,
    List.set_append_left _ _ valid, hg]

theorem Document.mapM_children {document : Document} {children : List NamespaceId}
    (valid : ∀ child ∈ children, child < document.namespaceCount) :
    children.mapM (fun child =>
      (document.namespaces[child]?).map fun space => (child, space)) =
    some (children.filterMap fun child =>
      (document.namespace? child).map fun space => (child, space)) := by
  induction children with
  | nil => rfl
  | cons child children ih =>
    obtain ⟨space, hs⟩ := Document.exists_namespace (valid child (by simp))
    have hg : document.namespaces[child]? = some space := hs
    rw [List.mapM_cons, ih fun other hm => valid other (by simp [hm])]
    simp [hg, hs]

theorem Document.WellFormed.lookForChild?_eq {document : Document} (h : document.WellFormed)
    {parent : NamespaceId} (valid : parent < document.namespaceCount) (name : String) :
    document.lookForChild? parent name = some (document.findChild? parent name) := by
  obtain ⟨space, hs⟩ := Document.exists_namespace valid
  have hg : document.namespaces[parent]? = some space := hs
  have hall : ∀ child ∈ space.children, child < document.namespaceCount := by
    intro child hm
    have hc : child ∈ document.childIds parent := by simpa [Document.childIds, hs]
    exact Document.lt_of_parent? (h.parent?_of_mem hc)
  simp only [Document.lookForChild?, hg, Option.bind_eq_bind, Option.bind_some,
    Document.mapM_children hall]
  simp [Document.findChild?, Document.childrenOf, hs]

theorem Context.WellFormed.applyChecked_eq {context : Context} (h : context.WellFormed)
    (event : Event) : context.applyChecked event = some (context.apply event) := by
  cases event with
  | described | required => rfl
  | declared declaration =>
    show _ = some (context.declare declaration)
    cases hf : context.document.findTask? context.container declaration.name with
    | some id =>
      obtain ⟨task, ht, _⟩ := Option.map_eq_some_iff.mp ((h.document.findTask?_iff _ _ _).mp hf)
      rw [Context.declare_of_known hf]
      simp only [Context.applyChecked, hf, Document.updateTask?_eq ht]
      rfl
    | none =>
      rw [Context.declare_of_new hf]
      simp only [Context.applyChecked, hf]
      rw [Document.insertTask?_eq h.container hf]
      rfl
  | entered name =>
    show _ = some (context.enter name)
    simp only [Context.applyChecked, h.document.lookForChild?_eq h.container]
    cases hf : context.document.findChild? context.container name with
    | some id =>
      rw [Context.enter_of_known hf]
      rfl
    | none =>
      rw [Context.enter_of_new hf]
      simp [Document.insertNamespace?_eq h.container]
  | left =>
    obtain ⟨space, hs⟩ := Document.exists_namespace h.container
    have hg : context.document.namespaces[context.container]? = some space := hs
    simp [Context.applyChecked, Context.apply, Context.leave, hg, hs]
  | included constant =>
    simp only [Context.applyChecked, Document.updateNamespace?_eq h.container]
    rfl

theorem Context.WellFormed.foldlM_applyChecked {context : Context} (h : context.WellFormed)
    (events : List Event) :
    events.foldlM Context.applyChecked context = some (context.applyAll events) := by
  induction events generalizing context with
  | nil => rfl
  | cons event events ih =>
    rw [List.foldlM_cons, h.applyChecked_eq event]
    exact ih (h.apply event)

/-- Reads to the end of the scope in at most the given number of steps. -/
def Reader.runWithin (ignored : List String) : Nat → Reader → Option Reading
  | 0, _ => none
  | n + 1, reader =>
    match reader.step ignored with
    | .done flow later => some (later.finish flow)
    | .more events later => (later.runWithin ignored n).map (·.after events)

theorem Reader.runWithin_eq {ignored : List String} {n : Nat} {reader : Reader}
    (h : reader.stream.tokens.length < n) :
    reader.runWithin ignored n = some (reader.run ignored) := by
  induction n generalizing reader with
  | zero => omega
  | succ n ih =>
    rw [Reader.runWithin]
    split
    next flow later hs => rw [Reader.run_of_done hs]
    next events later hs =>
      have hl := Reader.length_step hs
      rw [ih (by omega), Reader.run_of_more hs]
      rfl

/-- What is left of a stream is a suffix of it, no token was refused, and no capture is left open
that was not open before. -/
structure TokenStream.Settles (before after : TokenStream) : Prop where
  suffix : after.tokens <:+ before.tokens
  refusals : after.refusals = before.refusals
  captures : after.captures.length = before.captures.length

theorem TokenStream.Reads.settles {before after : TokenStream} (h : before.Reads after) :
    before.Settles after := by
  obtain ⟨run, hr⟩ := h
  exact ⟨hr.suffix, hr.refusals, by simp [hr.captures]⟩

theorem Context.reads_scanScope (context : Context) (stream : TokenStream) :
    stream.Reads (context.scanScope stream).2.2 :=
  Reader.reads_run _ { stream, depth := context.depth, floor := context.depth }

theorem Context.reads_scanNamespace (context : Context) (stream : TokenStream) :
    stream.Reads (context.scanNamespace stream).2.2 := by
  have hs := stream.reads_readNamespaceHead
  unfold Context.scanNamespace
  split
  next h => rw [h] at hs; exact hs
  next h => rw [h] at hs; exact hs
  next h => rw [h] at hs; exact hs.trans (Context.reads_scanScope _ _)

theorem Context.reads_scanTask (context : Context) (kind : TaskKind) (keyword : Token)
    (stream : TokenStream) : stream.Reads (context.scanTask kind keyword stream).2.2 := by
  have hs := stream.reads_readDeclaration kind keyword
  unfold Context.scanTask
  split
  all_goals next h => rw [h] at hs; exact hs

/-- A scan of any tokens takes no more steps than there are tokens, finds every number that it looks
up in the outline, and never pushes a token back where one is waiting already. -/
theorem scan_is_total_and_safe (file : String) (tokens : List Token) (options : ScanOptions)
    (tally : Tally) :
    (∃ reading context,
      Reader.runWithin options.ignoredConstants (tokens.length + 1)
        { stream := { unread := tokens }, depth := 0, floor := 0 } = some reading ∧
      reading.stream.refusals = 0 ∧
      reading.events.foldlM Context.applyChecked (Context.new file tally options) = some context ∧
      scanTokens file tokens options tally = (context.document, context.tally)) ∧
    ∀ (context : Context) (stream : TokenStream),
      stream.Settles (context.scanScope stream).2.2 ∧
      stream.Settles (context.scanNamespace stream).2.2 ∧
      (∀ kind keyword, stream.Settles (context.scanTask kind keyword stream).2.2) ∧
      (∀ token, stream.Settles (context.scanBuilder token stream).2) ∧
      stream.Settles (context.scanDescription stream).2 ∧
      ∀ relative, stream.Settles (context.scanRequire relative stream).2 := by
  constructor
  · let reader : Reader := { stream := { unread := tokens }, depth := 0, floor := 0 }
    have hn := Context.new_wellFormed file tally options
    refine ⟨reader.run options.ignoredConstants, _, Reader.runWithin_eq (Nat.lt_succ_self _), ?_,
      hn.foldlM_applyChecked _, rfl⟩
    exact (reader.reads_run options.ignoredConstants).settles.refusals
  · intro context stream
    refine ⟨(context.reads_scanScope stream).settles, (context.reads_scanNamespace stream).settles,
      fun kind keyword => (context.reads_scanTask kind keyword stream).settles,
      fun token => (stream.reads_readBuilder _ token).settles,
      stream.reads_readDescription.settles,
      fun relative => (stream.reads_readRequire relative).settles⟩

end RakeOutline
