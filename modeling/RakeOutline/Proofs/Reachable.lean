import RakeOutline.Proofs.Arena

namespace RakeOutline

/-- The outline is well formed and the current namespace is one of its namespaces. -/
structure Context.WellFormed (context : Context) : Prop where
  document : context.document.WellFormed
  container : context.container < context.document.namespaceCount

theorem Context.new_wellFormed (file : String) (tally : Tally) (options : ScanOptions) :
    (Context.new file tally options).WellFormed :=
  ⟨Document.new_wellFormed file, (Document.new_wellFormed file).root_lt⟩

theorem Context.WellFormed.of_sameTree {before after : Context} (h : before.WellFormed)
    (same : before.document.SameTree after.document) (hc : after.container = before.container) :
    after.WellFormed :=
  ⟨same.wellFormed h.document, by rw [hc, same.namespaceCount]; exact h.container⟩

theorem Context.declare_of_known {context : Context} {declaration : Declaration} {id : TaskId}
    (known : context.document.findTask? context.container declaration.name = some id) :
    context.declare declaration = { context with
      document := context.document.modifyTask id (·.merge declaration), description := {} } := by
  simp only [Context.declare, known, PendingDescription.take]

theorem Context.declare_of_new {context : Context} {declaration : Declaration}
    (fresh : context.document.findTask? context.container declaration.name = none) :
    context.declare declaration = { context with
      document := (context.document.addTask (.ofDeclaration context.container
        context.description.text context.options.captureTokens declaration)).2
      tally := context.tally.addTask, description := {} } := by
  simp only [Context.declare, fresh, PendingDescription.take]

theorem Context.enter_of_known {context : Context} {name : String} {id : NamespaceId}
    (known : context.document.findChild? context.container name = some id) :
    context.enter name = { context with container := id } := by
  simp only [Context.enter, known]

theorem Context.enter_of_new {context : Context} {name : String}
    (fresh : context.document.findChild? context.container name = none) :
    context.enter name = { context with
      document := (context.document.addNamespace context.container name).2
      tally := context.tally.addNamespace, container := context.document.namespaceCount } := by
  simp only [Context.enter, fresh]
  rfl

@[simp] theorem Context.declare_keeps (context : Context) (declaration : Declaration) :
    (context.declare declaration).options = context.options ∧
      (context.declare declaration).container = context.container ∧
      (context.declare declaration).description = {} := by
  cases hf : context.document.findTask? context.container declaration.name with
  | some id => simp [Context.declare_of_known hf]
  | none => simp [Context.declare_of_new hf]

@[simp] theorem Context.enter_keeps (context : Context) (name : String) :
    (context.enter name).options = context.options ∧
      (context.enter name).description = context.description ∧
      (context.enter name).document.tasks = context.document.tasks := by
  cases hf : context.document.findChild? context.container name with
  | some id => simp [Context.enter_of_known hf]
  | none =>
    rw [Context.enter_of_new hf]
    exact ⟨rfl, rfl, rfl⟩

theorem Context.WellFormed.declare {context : Context} (h : context.WellFormed)
    (declaration : Declaration) : (context.declare declaration).WellFormed := by
  cases hf : context.document.findTask? context.container declaration.name with
  | some id =>
    rw [Context.declare_of_known hf]
    exact h.of_sameTree (context.document.sameTree_modifyTask id fun _ => ⟨rfl, rfl⟩) rfl
  | none =>
    rw [Context.declare_of_new hf]
    refine ⟨h.document.addTask h.container hf, ?_⟩
    exact Nat.lt_of_lt_of_eq h.container (Document.namespaceCount_addTask hf).symm

theorem Context.WellFormed.enter {context : Context} (h : context.WellFormed) (name : String) :
    (context.enter name).WellFormed := by
  cases hf : context.document.findChild? context.container name with
  | some id =>
    rw [Context.enter_of_known hf]
    exact ⟨h.document, Document.lt_of_findChild? hf⟩
  | none =>
    rw [Context.enter_of_new hf]
    refine ⟨h.document.addNamespace h.container hf, ?_⟩
    exact Nat.lt_of_lt_of_eq (Nat.lt_succ_self _)
      (context.document.namespaceCount_addNamespace context.container name).symm

theorem Context.WellFormed.leave {context : Context} (h : context.WellFormed) :
    context.leave.WellFormed := by
  refine ⟨h.document, ?_⟩
  change (context.document.parent? context.container).getD context.container < _
  cases hp : context.document.parent? context.container with
  | none => exact h.container
  | some parent => exact Nat.lt_trans (h.document.parent_lt _ _ hp) h.container

theorem Context.WellFormed.apply {context : Context} (h : context.WellFormed) (event : Event) :
    (context.apply event).WellFormed := by
  cases event with
  | described text => exact ⟨h.document, h.container⟩
  | declared declaration => exact h.declare declaration
  | entered name => exact h.enter name
  | left => exact h.leave
  | required file => exact h.of_sameTree (context.document.sameTree_addRequire file) rfl
  | included constant =>
    exact h.of_sameTree (context.document.sameTree_addInclude context.container constant) rfl

@[simp] theorem Context.options_apply (context : Context) (event : Event) :
    (context.apply event).options = context.options := by
  cases event with
  | declared | entered => simp [Context.apply]
  | described | left | required | included => rfl

@[simp] theorem Context.applyAll_nil (context : Context) : context.applyAll [] = context :=
  rfl

@[simp] theorem Context.applyAll_cons (context : Context) (event : Event) (events : List Event) :
    context.applyAll (event :: events) = (context.apply event).applyAll events :=
  rfl

@[simp] theorem Context.applyAll_append (context : Context) (first second : List Event) :
    context.applyAll (first ++ second) = (context.applyAll first).applyAll second :=
  List.foldl_append

@[simp] theorem Context.options_applyAll (context : Context) (events : List Event) :
    (context.applyAll events).options = context.options := by
  induction events generalizing context with
  | nil => rfl
  | cons event events ih => simp [ih]

theorem Context.WellFormed.applyAll {context : Context} (h : context.WellFormed)
    (events : List Event) : (context.applyAll events).WellFormed := by
  induction events generalizing context with
  | nil => exact h
  | cons event events ih => exact ih (h.apply event)

theorem Context.WellFormed.parent?_apply {context : Context} (h : context.WellFormed)
    (event : Event) {id parent : NamespaceId} (hp : context.document.parent? id = some parent) :
    (context.apply event).document.parent? id = some parent := by
  cases event with
  | described text => exact hp
  | left => exact hp
  | required file => exact hp
  | included constant =>
    have hs := (context.document.sameTree_addInclude context.container constant).parent?
    exact (congrFun hs id).trans hp
  | declared declaration =>
    cases hf : context.document.findTask? context.container declaration.name with
    | some known =>
      rw [Context.apply, Context.declare_of_known hf]
      exact hp
    | none =>
      rw [Context.apply, Context.declare_of_new hf]
      exact (Document.tree_addTask hf id).1.trans hp
  | entered name =>
    cases hf : context.document.findChild? context.container name with
    | some child =>
      rw [Context.apply, Context.enter_of_known hf]
      exact hp
    | none =>
      have hid := Nat.ne_of_lt (Document.lt_of_parent? hp)
      rw [Context.apply, Context.enter_of_new hf]
      simp only [Document.parent?_addNamespace h.container, if_neg hid]
      exact hp

theorem Context.WellFormed.parent?_applyAll {context : Context} (h : context.WellFormed)
    (events : List Event) {id parent : NamespaceId}
    (hp : context.document.parent? id = some parent) :
    (context.applyAll events).document.parent? id = some parent := by
  induction events generalizing context with
  | nil => exact hp
  | cons event events ih => exact ih (h.apply event) (h.parent?_apply event hp)

theorem Context.WellFormed.parent?_enter {context : Context} (h : context.WellFormed)
    (name : String) :
    (context.enter name).document.parent? (context.enter name).container =
      some context.container := by
  cases hf : context.document.findChild? context.container name with
  | some id =>
    rw [Context.enter_of_known hf]
    exact h.document.parent?_of_mem (Document.findChild?_eq_some hf).1
  | none =>
    rw [Context.enter_of_new hf]
    simp only [Document.parent?_addNamespace h.container, if_true]

theorem Context.WellFormed.setDepth {context : Context} (h : context.WellFormed) (depth : Int) :
    { context with depth := depth }.WellFormed :=
  ⟨h.document, h.container⟩

theorem Context.WellFormed.scanScope {context : Context} (h : context.WellFormed)
    (stream : TokenStream) : (context.scanScope stream).2.1.WellFormed :=
  (h.applyAll _).setDepth _

theorem wellFormed_scanTokens (file : String) (tokens : List Token) (options : ScanOptions)
    (tally : Tally) : (scanTokens file tokens options tally).1.WellFormed :=
  ((Context.new_wellFormed file tally options).applyAll _).document

theorem Context.WellFormed.scanNamespace {context : Context} (h : context.WellFormed)
    (stream : TokenStream) : (context.scanNamespace stream).2.1.WellFormed := by
  unfold Context.scanNamespace
  split
  next => exact h
  next => exact h
  next name rest _ =>
    exact ((((h.enter name).setDepth _).scanScope rest).leave).setDepth _

theorem Context.WellFormed.scanTask {context : Context} (h : context.WellFormed)
    (kind : TaskKind) (keyword : Token) (stream : TokenStream) :
    (context.scanTask kind keyword stream).2.1.WellFormed := by
  unfold Context.scanTask
  split
  next => exact h
  next declaration rest _ => exact h.declare declaration

/-- The states of a scan: a fresh one, what any handler makes of one on any stream, and what it
has made of one after each event. -/
inductive Context.Reachable : Context → Prop
  | fresh (file : String) (tally : Tally) (options : ScanOptions) :
      Reachable (Context.new file tally options)
  | scope {context : Context} (stream : TokenStream) : Reachable context →
      Reachable (context.scanScope stream).2.1
  | space {context : Context} (stream : TokenStream) : Reachable context →
      Reachable (context.scanNamespace stream).2.1
  | task {context : Context} (kind : TaskKind) (keyword : Token) (stream : TokenStream) :
      Reachable context → Reachable (context.scanTask kind keyword stream).2.1
  | builder {context : Context} (token : Token) (stream : TokenStream) : Reachable context →
      Reachable (context.scanBuilder token stream).1
  | description {context : Context} (stream : TokenStream) : Reachable context →
      Reachable (context.scanDescription stream).1
  | requirement {context : Context} (relative : Bool) (stream : TokenStream) :
      Reachable context → Reachable (context.scanRequire relative stream).1
  | event {context : Context} (event : Event) : Reachable context →
      Reachable (context.apply event)

theorem Context.Reachable.wellFormed {context : Context} (h : context.Reachable) :
    context.WellFormed := by
  induction h with
  | fresh file tally options => exact Context.new_wellFormed file tally options
  | scope stream _ ih => exact ih.scanScope stream
  | space stream _ ih => exact ih.scanNamespace stream
  | task kind keyword stream _ ih => exact ih.scanTask kind keyword stream
  | builder token stream _ ih => exact ih.applyAll _
  | description stream _ ih => exact ih.applyAll _
  | requirement relative stream _ ih => exact ih.applyAll _
  | event event _ ih => exact ih.apply event

theorem Document.WellFormed.parent_eq_none_iff {document : Document} (h : document.WellFormed)
    {id : NamespaceId} {space : Namespace} (hs : document.namespace? id = some space) :
    space.parent = none ↔ id = Document.rootId := by
  rw [← h.parentless_iff id, Document.parent?_eq hs]
  exact ⟨fun hn => ⟨Document.lt_namespaceCount hs, hn⟩, fun hn => hn.2⟩

theorem Document.WellFormed.exists_parent {document : Document} (h : document.WellFormed)
    {id : NamespaceId} {space : Namespace} (hs : document.namespace? id = some space)
    (hr : id ≠ Document.rootId) :
    ∃ parent, space.parent = some parent ∧ parent < id ∧
      ∀ other, (document.childIds other).count id = if other = parent then 1 else 0 := by
  have hp := Document.parent?_eq hs
  cases hparent : space.parent with
  | none => exact absurd ((h.parent_eq_none_iff hs).mp hparent) hr
  | some parent =>
    rw [hparent] at hp
    refine ⟨parent, rfl, h.parent_lt id parent hp, ?_⟩
    intro other
    rw [h.count_childIds other id, hp]
    simp only [Option.some.injEq, eq_comm]

theorem Document.WellFormed.count_task {document : Document} (h : document.WellFormed)
    {id : TaskId} {task : Task} (ht : document.task? id = some task) (container : NamespaceId) :
    (document.taskIds container).count id = if container = task.container then 1 else 0 := by
  rw [h.count_taskIds container id, ht]
  simp only [Option.map_some, Option.some.injEq, eq_comm]

theorem Document.WellFormed.mem_taskIds {document : Document} (h : document.WellFormed)
    {id : TaskId} {task : Task} (ht : document.task? id = some task) :
    id ∈ document.taskIds task.container := by
  apply List.count_pos_iff.mp
  rw [h.count_task ht, if_pos rfl]
  exact Nat.one_pos

theorem Document.WellFormed.container_lt {document : Document} (h : document.WellFormed)
    {id : TaskId} {task : Task} (ht : document.task? id = some task) :
    task.container < document.namespaceCount := by
  have hm := h.mem_taskIds ht
  by_contra hle
  rw [Document.taskIds, Document.namespace?_of_le (Nat.not_lt.mp hle)] at hm
  simp at hm

/-- Whatever a scan has read, the namespaces of its outline are one tree, every task stands in one
list, and the index finds a task exactly by its namespace and name. -/
theorem reachable_outline_is_indexed_tree {context : Context} (h : context.Reachable) :
    (∀ id space, context.document.namespace? id = some space →
      (space.parent = none ↔ id = Document.rootId)) ∧
    (∀ id space, context.document.namespace? id = some space → id ≠ Document.rootId →
      ∃ parent, space.parent = some parent ∧ parent < id ∧
        ∀ other, (context.document.childIds other).count id = if other = parent then 1 else 0) ∧
    (∀ id, ((context.document.childrenOf id).map fun child => child.2.name).Nodup) ∧
    (∀ id task, context.document.task? id = some task → ∀ container,
      (context.document.taskIds container).count id =
        if container = task.container then 1 else 0) ∧
    (∀ container name id, context.document.findTask? container name = some id ↔
      ∃ task, context.document.task? id = some task ∧
        task.container = container ∧ task.name = name) ∧
    context.container < context.document.namespaceCount := by
  obtain ⟨hd, hc⟩ := h.wellFormed
  refine ⟨fun _ _ hs => hd.parent_eq_none_iff hs, fun _ _ hs hr => hd.exists_parent hs hr,
    hd.siblings, fun _ _ ht => hd.count_task ht, ?_, hc⟩
  intro container name id
  rw [hd.findTask?_iff]
  simp [Document.taskKey?]

theorem reachable_outline_is_indexed_tree_inside :
    ∃ context : Context, context.Reachable ∧ context.document.taskCount = 2 ∧
      context.container < context.document.namespaceCount := by
  have hr := Context.Reachable.scope
    { unread := lex "task :a => :b\nnamespace :c do\ntask :a\nend\ntask a: :d\n" }
    (.event (.entered "db") (.fresh "Rakefile" {} {}))
  exact ⟨_, hr, by decide +kernel, (reachable_outline_is_indexed_tree hr).2.2.2.2.2⟩

end RakeOutline
