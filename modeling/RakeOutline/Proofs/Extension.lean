import RakeOutline.Proofs.Scopes

namespace RakeOutline

structure Namespace.Extends (before after : Namespace) : Prop where
  name : after.name = before.name
  parent : after.parent = before.parent
  children : before.children <+: after.children
  tasks : before.tasks <+: after.tasks
  includes : before.includes <+: after.includes

/-- A task with more dependencies, and with arguments if it had none. -/
structure Task.Extends (before after : Task) : Prop where
  dependencies : before.dependencies <+: after.dependencies
  arguments : before.arguments ≠ [] → after.arguments = before.arguments
  others : after = { before with
    dependencies := after.dependencies, arguments := after.arguments }

/-- An outline with more in it. Namespaces and tasks keep their numbers. -/
structure Document.Extends (before after : Document) : Prop where
  file : after.file = before.file
  requires : before.requires <+: after.requires
  namespaces : ∀ id space, before.namespace? id = some space →
    ∃ later, after.namespace? id = some later ∧ space.Extends later
  tasks : ∀ id task, before.task? id = some task →
    ∃ later, after.task? id = some later ∧ task.Extends later
  taskIndex : before.taskIndex <:+ after.taskIndex

theorem Namespace.Extends.refl (space : Namespace) : space.Extends space :=
  ⟨rfl, rfl, List.prefix_rfl, List.prefix_rfl, List.prefix_rfl⟩

theorem Namespace.Extends.trans {a b c : Namespace} (h : a.Extends b) (k : b.Extends c) :
    a.Extends c where
  name := k.name.trans h.name
  parent := k.parent.trans h.parent
  children := h.children.trans k.children
  tasks := h.tasks.trans k.tasks
  includes := h.includes.trans k.includes

theorem Task.Extends.refl (task : Task) : task.Extends task :=
  ⟨List.prefix_rfl, fun _ => rfl, rfl⟩

theorem Task.Extends.trans {a b c : Task} (h : a.Extends b) (k : b.Extends c) : a.Extends c where
  dependencies := h.dependencies.trans k.dependencies
  arguments := by
    intro ha
    have hb := h.arguments ha
    exact (k.arguments (by rwa [hb])).trans hb
  others := by
    rw [k.others, h.others]

theorem Task.extends_merge (task : Task) (declaration : Declaration) :
    task.Extends (task.merge declaration) where
  dependencies := List.prefix_append _ _
  arguments := by
    intro hne
    simp [Task.merge, hne]
  others := rfl

theorem Document.Extends.refl (document : Document) : document.Extends document where
  file := rfl
  requires := List.prefix_rfl
  namespaces := fun _ space h => ⟨space, h, .refl space⟩
  tasks := fun _ task h => ⟨task, h, .refl task⟩
  taskIndex := List.suffix_rfl

theorem Document.Extends.trans {a b c : Document} (h : a.Extends b) (k : b.Extends c) :
    a.Extends c where
  file := k.file.trans h.file
  requires := h.requires.trans k.requires
  namespaces := by
    intro id space hs
    obtain ⟨middle, hm, he⟩ := h.namespaces id space hs
    obtain ⟨later, hl, hf⟩ := k.namespaces id middle hm
    exact ⟨later, hl, he.trans hf⟩
  tasks := by
    intro id task ht
    obtain ⟨middle, hm, he⟩ := h.tasks id task ht
    obtain ⟨later, hl, hf⟩ := k.tasks id middle hm
    exact ⟨later, hl, he.trans hf⟩
  taskIndex := h.taskIndex.trans k.taskIndex

theorem Document.extends_modifyNamespace (document : Document) (id : NamespaceId)
    {change : Namespace → Namespace} (grows : ∀ space : Namespace, space.Extends (change space)) :
    document.Extends (document.modifyNamespace id change) where
  file := rfl
  requires := List.prefix_rfl
  namespaces := by
    intro i space hs
    refine ⟨_, by rw [document.namespace?_modifyNamespace, hs, Option.map_some], ?_⟩
    split
    · exact grows space
    · exact .refl space
  tasks := fun _ task h => ⟨task, h, .refl task⟩
  taskIndex := List.suffix_rfl

theorem Document.extends_modifyTask (document : Document) (id : TaskId) {change : Task → Task}
    (grows : ∀ task : Task, task.Extends (change task)) :
    document.Extends (document.modifyTask id change) where
  file := rfl
  requires := List.prefix_rfl
  namespaces := fun _ space h => ⟨space, h, .refl space⟩
  tasks := by
    intro i task ht
    have hi : (document.modifyTask id change).task? i =
        (document.task? i).map fun task => if id = i then change task else task :=
      List.getElem?_modify change id document.tasks i
    refine ⟨_, by rw [hi, ht, Option.map_some], ?_⟩
    split
    · exact grows task
    · exact .refl task
  taskIndex := List.suffix_rfl

/-- New namespaces and tasks stand behind the old ones, new entries of the index before them. -/
theorem Document.extends_append (document : Document) (spaces : List Namespace)
    (tasks : List Task) (entries : List ((NamespaceId × String) × TaskId)) :
    document.Extends { document with
      namespaces := document.namespaces ++ spaces, tasks := document.tasks ++ tasks
      taskIndex := entries ++ document.taskIndex } where
  file := rfl
  requires := List.prefix_rfl
  namespaces := by
    intro id space hs
    exact ⟨space, (List.getElem?_append_left (Document.lt_namespaceCount hs)).trans hs, .refl space⟩
  tasks := by
    intro id task ht
    have hlt : id < document.tasks.length := (List.getElem?_eq_some_iff.mp ht).1
    exact ⟨task, (List.getElem?_append_left hlt).trans ht, .refl task⟩
  taskIndex := List.suffix_append _ _

theorem Document.extends_addNamespace (document : Document) (parent : NamespaceId)
    (name : String) : document.Extends (document.addNamespace parent name).2 := by
  let listed := document.modifyNamespace parent fun space =>
    { space with children := space.children ++ [document.namespaceCount] }
  have hlisted : document.Extends listed := document.extends_modifyNamespace parent fun _ =>
    ⟨rfl, rfl, List.prefix_append _ _, List.prefix_rfl, List.prefix_rfl⟩
  have hadded := listed.extends_append [⟨name, some parent, [], [], []⟩] [] []
  simpa [Document.addNamespace] using hlisted.trans hadded

theorem Document.extends_addTask {document : Document} {task : Task}
    (fresh : document.findTask? task.container task.name = none) :
    document.Extends (document.addTask task).2 := by
  let listed := document.modifyNamespace task.container fun space =>
    { space with tasks := space.tasks ++ [document.taskCount] }
  have hlisted : document.Extends listed :=
    document.extends_modifyNamespace task.container fun _ =>
      ⟨rfl, rfl, List.prefix_rfl, List.prefix_append _ _, List.prefix_rfl⟩
  have hadded := listed.extends_append [] [task]
    [((task.container, task.name), document.taskCount)]
  rw [Document.addTask_of_fresh fresh]
  simpa [listed, Document.modifyNamespace] using hlisted.trans hadded

theorem Context.extends_apply (context : Context) (event : Event) :
    context.document.Extends (context.apply event).document := by
  cases event with
  | declared declaration =>
    show context.document.Extends (context.declare declaration).document
    cases hf : context.document.findTask? context.container declaration.name with
    | some id =>
      rw [Context.declare_of_known hf]
      exact context.document.extends_modifyTask id fun task => task.extends_merge declaration
    | none =>
      rw [Context.declare_of_new hf]
      exact Document.extends_addTask hf
  | entered name =>
    show context.document.Extends (context.enter name).document
    cases hf : context.document.findChild? context.container name with
    | some id =>
      rw [Context.enter_of_known hf]
      exact .refl context.document
    | none =>
      rw [Context.enter_of_new hf]
      exact context.document.extends_addNamespace context.container name
  | required file =>
    exact { Document.Extends.refl context.document with requires := List.prefix_append _ _ }
  | included constant =>
    exact context.document.extends_modifyNamespace context.container fun space =>
      ⟨rfl, rfl, List.prefix_rfl, List.prefix_rfl, List.prefix_append _ _⟩
  | described | left => exact .refl context.document

theorem Context.extends_applyAll (context : Context) (events : List Event) :
    context.document.Extends (context.applyAll events).document := by
  induction events generalizing context with
  | nil => exact .refl context.document
  | cons event events ih => exact (context.extends_apply event).trans (ih (context.apply event))

theorem Document.Extends.parent?_eq {before after : Document} (h : before.Extends after)
    {id : NamespaceId} (hid : id < before.namespaceCount) :
    after.parent? id = before.parent? id := by
  obtain ⟨space, hs⟩ := Document.exists_namespace hid
  obtain ⟨later, hl, he⟩ := h.namespaces id space hs
  simp [Document.parent?, hs, hl, he.parent]

/-- The namespace exists, and is neither the given one nor below it. -/
def Document.Outside (document : Document) (top id : NamespaceId) : Prop :=
  id < document.namespaceCount ∧ ∀ height, ¬ document.Below top height id

theorem Document.WellFormed.le_of_below {document : Document} (h : document.WellFormed)
    {top id : NamespaceId} {height : Nat} (hb : document.Below top height id) : top ≤ id := by
  induction hb with
  | here => exact Nat.le_refl top
  | inside hp _ ih => exact Nat.le_trans ih (Nat.le_of_lt (h.parent_lt _ _ hp))

theorem Document.WellFormed.outside_of_lt {document : Document} (h : document.WellFormed)
    {top id : NamespaceId} (hlt : id < top) (hid : top < document.namespaceCount) :
    document.Outside top id :=
  ⟨Nat.lt_trans hlt hid, fun _ hb => Nat.not_le_of_lt hlt (h.le_of_below hb)⟩

theorem Document.Extends.below {before after : Document} (h : before.Extends after)
    (hw : before.WellFormed) {top id : NamespaceId} {height : Nat}
    (hb : after.Below top height id) (hid : id < before.namespaceCount) :
    before.Below top height id := by
  induction hb with
  | here => exact .here
  | @inside height id parent hp _ ih =>
    rw [h.parent?_eq hid] at hp
    exact .inside hp (ih (Nat.lt_trans (hw.parent_lt id parent hp) hid))

theorem Document.Outside.extends {before after : Document} {top id : NamespaceId}
    (ho : before.Outside top id) (h : before.Extends after) (hw : before.WellFormed) :
    after.Outside top id := by
  obtain ⟨hid, hnot⟩ := ho
  obtain ⟨space, hs⟩ := Document.exists_namespace hid
  obtain ⟨later, hl, _⟩ := h.namespaces id space hs
  exact ⟨Document.lt_namespaceCount hl, fun height hb => hnot height (h.below hw hb hid)⟩

theorem Document.WellFormed.container_of_mem {document : Document} (h : document.WellFormed)
    {container : NamespaceId} {id : TaskId} (hm : id ∈ document.taskIds container) :
    ∃ task, document.task? id = some task ∧ task.container = container := by
  have hpos := List.count_pos_iff.mpr hm
  rw [h.count_taskIds] at hpos
  split at hpos
  next hc => exact Option.map_eq_some_iff.mp hc
  next => omega

theorem Context.WellFormed.task?_apply {context : Context} (h : context.WellFormed)
    (event : Event) {id : TaskId} {task : Task} (ht : context.document.task? id = some task)
    (hne : task.container ≠ context.container) :
    (context.apply event).document.task? id = some task := by
  cases event with
  | declared declaration =>
    show (context.declare declaration).document.task? id = some task
    cases hf : context.document.findTask? context.container declaration.name with
    | some known =>
      obtain ⟨other, ho, hk⟩ := Option.map_eq_some_iff.mp ((h.document.findTask?_iff _ _ _).mp hf)
      have hother : known ≠ id := by
        rintro rfl
        obtain rfl := Option.some.inj (ho.symm.trans ht)
        exact hne (congrArg Prod.fst hk)
      rw [Context.declare_of_known hf]
      exact (List.getElem?_modify_ne _ _ hother).trans ht
    | none =>
      rw [Context.declare_of_new hf, Document.addTask_of_fresh hf]
      exact (List.getElem?_append_left (List.getElem?_eq_some_iff.mp ht).1).trans ht
  | entered name =>
    show (context.enter name).document.task? id = some task
    cases hf : context.document.findChild? context.container name with
    | some child =>
      rw [Context.enter_of_known hf]
      exact ht
    | none =>
      rw [Context.enter_of_new hf]
      exact ht
  | described | left | required | included => exact ht

/-- Nothing of a namespace or of the tasks in it is different. -/
def Document.Keeps (before after : Document) (id : NamespaceId) : Prop :=
  after.namespace? id = before.namespace? id ∧
    ∀ task ∈ before.taskIds id, after.task? task = before.task? task

theorem Document.Keeps.trans {a b c : Document} {id : NamespaceId} (h : a.Keeps b id)
    (k : b.Keeps c id) : a.Keeps c id := by
  refine ⟨k.1.trans h.1, ?_⟩
  intro task hm
  have hb : task ∈ b.taskIds id := by
    rw [Document.taskIds, h.1]
    exact hm
  exact (k.2 task hb).trans (h.2 task hm)

theorem Context.WellFormed.keeps_apply {context : Context} (h : context.WellFormed)
    (event : Event) {id : NamespaceId} (hid : id < context.document.namespaceCount)
    (hne : id ≠ context.container) : context.document.Keeps (context.apply event).document id := by
  refine ⟨h.namespace?_apply event hid hne, ?_⟩
  intro task hm
  obtain ⟨held, ht, hc⟩ := h.document.container_of_mem hm
  rw [ht]
  exact h.task?_apply event ht (by rwa [hc])

/-- As long as the events stay below a namespace, they keep what is outside it. -/
theorem Context.WellFormed.keeps_applyAll {context : Context} (h : context.WellFormed)
    {top id : NamespaceId} {height later : Nat} {events : List Event}
    (hb : context.document.Below top height context.container)
    (hc : climb height events = some later) (ho : context.document.Outside top id) :
    context.document.Keeps (context.applyAll events).document id := by
  induction events generalizing context height with
  | nil => exact ⟨rfl, fun _ _ => rfl⟩
  | cons event events ih =>
    obtain ⟨middle, hm, hrest⟩ := Option.bind_eq_some_iff.mp hc
    have hne : id ≠ context.container := by
      rintro rfl
      exact ho.2 height hb
    have hstep := h.keeps_apply event ho.1 hne
    have hnext := ho.extends (context.extends_apply event) h.document
    exact hstep.trans (ih (h.apply event) (h.below_apply hb hm) hrest hnext)

/-- The scan is back in its namespace, and has only added to the outline there and below. -/
structure Context.AddsBelow (before after : Context) : Prop where
  container : after.container = before.container
  document : before.document.Extends after.document
  outside : ∀ id, before.document.Outside before.container id →
    before.document.Keeps after.document id

theorem Context.AddsBelow.setDepth {before after : Context} (h : before.AddsBelow after)
    (depth : Int) : before.AddsBelow { after with depth := depth } :=
  ⟨h.container, h.document, h.outside⟩

/-- Events that come back to the namespace where they began add below it. -/
theorem Context.WellFormed.addsBelow {context : Context} (h : context.WellFormed)
    {events : List Event} (hc : climb 0 events = some 0) :
    context.AddsBelow (context.applyAll events) where
  container := (h.below_applyAll .here hc).eq_top
  document := context.extends_applyAll events
  outside := fun _ ho => h.keeps_applyAll .here hc ho

theorem Context.WellFormed.addsBelow_scanScope {context : Context} (h : context.WellFormed)
    (stream : TokenStream) : context.AddsBelow (context.scanScope stream).2.1 :=
  (h.addsBelow (stream.climb_readScope _ _)).setDepth _

theorem Context.WellFormed.addsBelow_scanNamespace {context : Context} (h : context.WellFormed)
    (stream : TokenStream) :
    context.AddsBelow (context.scanNamespace stream).2.1 ∧
      (context.scanNamespace stream).2.1.depth = context.depth := by
  let reader : Reader := { stream, depth := context.depth, floor := context.depth }
  obtain ⟨events, hc, happly, _⟩ :=
    context.openNamespace_eq_scanNamespace (rfl : reader.depth = context.depth) rfl
  rw [happly]
  exact ⟨h.addsBelow hc, context.depth_applyAll events⟩

/-- Scanning a scope or a namespace leads back to the namespace where it began, adds to the outline
there and below and nowhere else, and takes nothing from it. A namespace does not change the number
of open blocks, however it ends. -/
theorem scan_adds_below_current_namespace {context : Context} (h : context.Reachable)
    (stream : TokenStream) :
    context.AddsBelow (context.scanScope stream).2.1 ∧
      context.AddsBelow (context.scanNamespace stream).2.1 ∧
      (context.scanNamespace stream).2.1.depth = context.depth :=
  ⟨h.wellFormed.addsBelow_scanScope stream, h.wellFormed.addsBelow_scanNamespace stream⟩

theorem scan_adds_below_current_namespace_at_script_end :
    ∃ (context : Context) (stream : TokenStream), context.Reachable ∧ context.container = 2 ∧
      context.document.Outside context.container 1 ∧
      (context.scanNamespace stream).1 = .endOfInput ∧
      (context.scanNamespace stream).2.1.document.namespaceCount = 4 ∧
      context.AddsBelow (context.scanNamespace stream).2.1 ∧
      (context.scanNamespace stream).2.1.depth = context.depth := by
  have hr := Context.Reachable.event (.entered "b") (.scope
    { unread := lex "namespace :a do\ntask :x\nend\n" } (.fresh "Rakefile" {} {}))
  have ho := hr.wellFormed.document.outside_of_lt
    (by decide +kernel : 1 < _) hr.wellFormed.container
  exact ⟨_, { unread := lex " :c do\ntask :y\n__END__\n" }, hr, by decide +kernel, ho,
    by decide +kernel, by decide +kernel, (scan_adds_below_current_namespace hr _).2⟩

end RakeOutline
