import Mathlib.Data.List.Nodup
import RakeOutline.Scan.Context

namespace RakeOutline

def Document.parent? (document : Document) (id : NamespaceId) : Option NamespaceId :=
  (document.namespace? id).bind Namespace.parent

def Document.childIds (document : Document) (id : NamespaceId) : List NamespaceId :=
  (document.namespace? id).elim [] Namespace.children

def Document.taskIds (document : Document) (id : NamespaceId) : List TaskId :=
  (document.namespace? id).elim [] Namespace.tasks

def Document.namespaceName? (document : Document) (id : NamespaceId) : Option String :=
  (document.namespace? id).map Namespace.name

/-- The namespace that a task stands in, and its name. -/
def Document.taskKey? (document : Document) (id : TaskId) : Option (NamespaceId × String) :=
  (document.task? id).map fun task => (task.container, task.name)

/-- The tree and the index of an outline agree with its namespaces and tasks. -/
structure Document.WellFormed (document : Document) : Prop where
  /-- The root is the only namespace without a parent. -/
  parentless_iff : ∀ id, (id < document.namespaceCount ∧ document.parent? id = none) ↔
    id = Document.rootId
  /-- A parent is older than its children. -/
  parent_lt : ∀ id parent, document.parent? id = some parent → parent < id
  /-- A namespace stands once in the list of its parent and in no other list. -/
  count_childIds : ∀ parent id, (document.childIds parent).count id =
    if document.parent? id = some parent then 1 else 0
  /-- The children of one namespace have different names. -/
  siblings : ∀ id, ((document.childrenOf id).map fun child => child.2.name).Nodup
  /-- A task stands once in the list of its own namespace and in no other list. -/
  count_taskIds : ∀ container id, (document.taskIds container).count id =
    if (document.task? id).map Task.container = some container then 1 else 0
  /-- The index finds the task of a name in a namespace, and finds nothing else. -/
  findTask?_iff : ∀ container name id, document.findTask? container name = some id ↔
    document.taskKey? id = some (container, name)

theorem Document.lt_namespaceCount {document : Document} {id : NamespaceId} {space : Namespace}
    (h : document.namespace? id = some space) : id < document.namespaceCount :=
  (List.getElem?_eq_some_iff.mp h).1

theorem Document.exists_namespace {document : Document} {id : NamespaceId}
    (h : id < document.namespaceCount) : ∃ space, document.namespace? id = some space :=
  ⟨_, List.getElem?_eq_getElem h⟩

theorem Document.namespace?_of_le {document : Document} {id : NamespaceId}
    (h : document.namespaceCount ≤ id) : document.namespace? id = none :=
  List.getElem?_eq_none h

theorem Document.lt_of_parent? {document : Document} {id parent : NamespaceId}
    (h : document.parent? id = some parent) : id < document.namespaceCount := by
  obtain ⟨space, hs, _⟩ := Option.bind_eq_some_iff.mp h
  exact Document.lt_namespaceCount hs

theorem Document.parent?_eq {document : Document} {id : NamespaceId} {space : Namespace}
    (hs : document.namespace? id = some space) : document.parent? id = space.parent := by
  rw [Document.parent?, hs, Option.bind_some]

theorem Document.namespaceName?_eq {document : Document} {id : NamespaceId} {space : Namespace}
    (hs : document.namespace? id = some space) : document.namespaceName? id = some space.name := by
  rw [Document.namespaceName?, hs, Option.map_some]

theorem Document.childIds_eq {document : Document} {id : NamespaceId} {space : Namespace}
    (hs : document.namespace? id = some space) : document.childIds id = space.children := by
  rw [Document.childIds, hs, Option.elim_some]

theorem Document.taskIds_eq {document : Document} {id : NamespaceId} {space : Namespace}
    (hs : document.namespace? id = some space) : document.taskIds id = space.tasks := by
  rw [Document.taskIds, hs, Option.elim_some]

theorem Document.taskKey?_of_le {document : Document} {id : TaskId}
    (h : document.taskCount ≤ id) : document.taskKey? id = none := by
  have hn : document.task? id = none := List.getElem?_eq_none h
  simp [Document.taskKey?, hn]

theorem Document.container_of_taskKey? (document : Document) (id : TaskId) :
    (document.task? id).map Task.container = (document.taskKey? id).map Prod.fst := by
  simp [Document.taskKey?, Function.comp_def]

theorem Document.names_childrenOf (document : Document) (id : NamespaceId) :
    (document.childrenOf id).map (fun child => child.2.name) =
      (document.childIds id).filterMap document.namespaceName? := by
  rw [Document.childrenOf, List.map_filterMap]
  congr 1
  funext child
  simp [Document.namespaceName?, Function.comp_def]

theorem Document.findChild?_eq_none_iff {document : Document} {parent : NamespaceId}
    {name : String} : document.findChild? parent name = none ↔
      name ∉ (document.childIds parent).filterMap document.namespaceName? := by
  rw [← Document.names_childrenOf, Document.findChild?, Option.map_eq_none_iff, List.find?_eq_none]
  simp only [beq_iff_eq, List.mem_map, not_exists, not_and]

theorem Document.findChild?_eq_some {document : Document} {parent id : NamespaceId}
    {name : String} (h : document.findChild? parent name = some id) :
    id ∈ document.childIds parent ∧ document.namespaceName? id = some name := by
  obtain ⟨child, hf, rfl⟩ := Option.map_eq_some_iff.mp h
  obtain ⟨i, hi, hc⟩ := List.mem_filterMap.mp (List.mem_of_find?_eq_some hf)
  obtain ⟨space, hs, rfl⟩ := Option.map_eq_some_iff.mp hc
  have hn : space.name = name := by simpa using List.find?_some hf
  exact ⟨hi, by simp [Document.namespaceName?, hs, hn]⟩

theorem Document.lt_of_findChild? {document : Document} {parent id : NamespaceId} {name : String}
    (h : document.findChild? parent name = some id) : id < document.namespaceCount := by
  obtain ⟨space, hs, _⟩ := Option.map_eq_some_iff.mp (Document.findChild?_eq_some h).2
  exact Document.lt_namespaceCount hs

theorem Document.new_wellFormed (file : String) : (Document.new file).WellFormed where
  parentless_iff := by
    intro id
    cases id with
    | zero => simp [Document.new, Document.namespaceCount, Document.parent?, Document.namespace?,
        Document.rootId]
    | succ id => simp [Document.new, Document.namespaceCount, Document.rootId]
  parent_lt := by
    intro id parent h
    cases id <;> simp [Document.new, Document.parent?, Document.namespace?] at h
  count_childIds := by
    intro parent id
    cases parent <;> cases id <;>
      simp [Document.new, Document.parent?, Document.childIds, Document.namespace?]
  siblings := by
    intro id
    cases id <;> simp [Document.new, Document.childrenOf, Document.namespace?]
  count_taskIds := by
    intro container id
    cases container <;>
      simp [Document.new, Document.taskIds, Document.namespace?, Document.task?]
  findTask?_iff := by
    intro container name id
    simp [Document.new, Document.findTask?, Document.taskKey?, Document.task?]

/-- Nothing that the tree and the index speak of is different. -/
structure Document.SameTree (before after : Document) : Prop where
  namespaceCount : after.namespaceCount = before.namespaceCount
  parent? : after.parent? = before.parent?
  childIds : after.childIds = before.childIds
  taskIds : after.taskIds = before.taskIds
  namespaceName? : after.namespaceName? = before.namespaceName?
  taskKey? : after.taskKey? = before.taskKey?
  findTask? : after.findTask? = before.findTask?

theorem Document.SameTree.wellFormed {before after : Document} (same : before.SameTree after)
    (h : before.WellFormed) : after.WellFormed where
  parentless_iff := by
    intro id
    rw [same.namespaceCount, same.parent?]
    exact h.parentless_iff id
  parent_lt := by
    intro id parent hp
    rw [same.parent?] at hp
    exact h.parent_lt id parent hp
  count_childIds := by
    intro parent id
    rw [same.childIds, same.parent?]
    exact h.count_childIds parent id
  siblings := by
    intro id
    rw [Document.names_childrenOf, same.childIds, same.namespaceName?, ← Document.names_childrenOf]
    exact h.siblings id
  count_taskIds := by
    intro container id
    rw [same.taskIds, Document.container_of_taskKey?, same.taskKey?,
      ← Document.container_of_taskKey?]
    exact h.count_taskIds container id
  findTask?_iff := by
    intro container name id
    rw [same.findTask?, same.taskKey?]
    exact h.findTask?_iff container name id

theorem Document.namespace?_modifyNamespace (document : Document) (id i : NamespaceId)
    (change : Namespace → Namespace) :
    (document.modifyNamespace id change).namespace? i =
      (document.namespace? i).map fun space => if id = i then change space else space :=
  List.getElem?_modify change id document.namespaces i

theorem Document.sameTree_modifyNamespace (document : Document) (id : NamespaceId)
    {change : Namespace → Namespace}
    (keeps : ∀ space, (change space).name = space.name ∧ (change space).parent = space.parent ∧
      (change space).children = space.children ∧ (change space).tasks = space.tasks) :
    document.SameTree (document.modifyNamespace id change) := by
  refine ⟨?_, ?_, ?_, ?_, ?_, rfl, rfl⟩
  · exact List.length_modify change document.namespaces id
  all_goals
    funext i
    have hi := document.namespace?_modifyNamespace id i change
    cases hs : document.namespace? i with
    | none =>
      simp [Document.parent?, Document.childIds, Document.taskIds, Document.namespaceName?, hi, hs]
    | some space =>
      obtain ⟨hname, hparent, hchildren, htasks⟩ := keeps space
      rw [hs, Option.map_some] at hi
      simp only [Document.parent?, Document.childIds, Document.taskIds, Document.namespaceName?,
        hi, hs]
      split <;> simp [hname, hparent, hchildren, htasks]

theorem Document.sameTree_addInclude (document : Document) (id : NamespaceId)
    (constant : Include) : document.SameTree (document.addInclude id constant) :=
  document.sameTree_modifyNamespace id fun _ => ⟨rfl, rfl, rfl, rfl⟩

theorem Document.sameTree_addRequire (document : Document) (file : Require) :
    document.SameTree (document.addRequire file) :=
  ⟨rfl, rfl, rfl, rfl, rfl, rfl, rfl⟩

theorem Document.sameTree_modifyTask (document : Document) (id : TaskId) {change : Task → Task}
    (keeps : ∀ task, (change task).container = task.container ∧ (change task).name = task.name) :
    document.SameTree (document.modifyTask id change) := by
  refine ⟨rfl, rfl, rfl, rfl, rfl, ?_, rfl⟩
  funext i
  have hi : (document.modifyTask id change).task? i =
      (document.task? i).map fun task => if id = i then change task else task :=
    List.getElem?_modify change id document.tasks i
  cases ht : document.task? i with
  | none => simp [Document.taskKey?, hi, ht]
  | some task =>
    obtain ⟨hc, hn⟩ := keeps task
    rw [ht, Option.map_some] at hi
    simp only [Document.taskKey?, hi, ht]
    split <;> simp [hc, hn]

theorem Document.namespace?_addNamespace {document : Document} {parent : NamespaceId}
    (valid : parent < document.namespaceCount) (name : String) (i : NamespaceId) :
    (document.addNamespace parent name).2.namespace? i =
      if i = document.namespaceCount then some ⟨name, some parent, [], [], []⟩
      else if i = parent then (document.namespace? i).map fun space =>
        { space with children := space.children ++ [document.namespaceCount] }
      else document.namespace? i := by
  have hm := document.namespace?_modifyNamespace parent i fun space =>
    { space with children := space.children ++ [document.namespaceCount] }
  have hl : (document.modifyNamespace parent fun space =>
      { space with children := space.children ++ [document.namespaceCount] }).namespaces.length =
      document.namespaceCount := List.length_modify _ _ _
  simp only [Document.addNamespace, Document.namespace?, List.getElem?_append, hl]
  rcases Nat.lt_trichotomy i document.namespaceCount with hlt | rfl | hgt
  · rw [if_pos hlt, if_neg (Nat.ne_of_lt hlt), ← Document.namespace?, hm]
    by_cases he : i = parent
    · simp [he, Document.namespace?]
    · simp [he, Ne.symm he, Document.namespace?]
  · simp
  · have hne : i ≠ document.namespaceCount := Nat.ne_of_gt hgt
    have hp : i ≠ parent := Nat.ne_of_gt (Nat.lt_trans valid hgt)
    rw [if_neg (Nat.lt_asymm hgt), if_neg hne, if_neg hp, List.getElem?_eq_none (Nat.le_of_lt hgt)]
    exact List.getElem?_eq_none (Nat.sub_pos_of_lt hgt)

@[simp] theorem Document.namespaceCount_addNamespace (document : Document) (parent : NamespaceId)
    (name : String) :
    (document.addNamespace parent name).2.namespaceCount = document.namespaceCount + 1 := by
  simp [Document.addNamespace, Document.namespaceCount, Document.modifyNamespace]

theorem Document.parent?_addNamespace {document : Document} {parent : NamespaceId}
    (valid : parent < document.namespaceCount) (name : String) (i : NamespaceId) :
    (document.addNamespace parent name).2.parent? i =
      if i = document.namespaceCount then some parent else document.parent? i := by
  rw [Document.parent?, Document.namespace?_addNamespace valid]
  split
  · rfl
  · split
    · cases h : document.namespace? i <;> simp [Document.parent?, h]
    · rfl

theorem Document.childIds_addNamespace {document : Document} {parent : NamespaceId}
    (valid : parent < document.namespaceCount) (name : String) (i : NamespaceId) :
    (document.addNamespace parent name).2.childIds i =
      if i = parent then document.childIds i ++ [document.namespaceCount]
      else document.childIds i := by
  rw [Document.childIds, Document.namespace?_addNamespace valid]
  by_cases hp : i = parent
  · subst hp
    obtain ⟨space, hs⟩ := Document.exists_namespace valid
    simp [Nat.ne_of_lt valid, hs, Document.childIds]
  · rw [if_neg hp, if_neg hp]
    split
    · next hi => simp [Document.childIds, Document.namespace?_of_le (Nat.le_of_eq hi.symm)]
    · rfl

@[simp] theorem Document.taskIds_addNamespace {document : Document} {parent : NamespaceId}
    (valid : parent < document.namespaceCount) (name : String) (i : NamespaceId) :
    (document.addNamespace parent name).2.taskIds i = document.taskIds i := by
  rw [Document.taskIds, Document.namespace?_addNamespace valid]
  split
  · next hi => simp [Document.taskIds, Document.namespace?_of_le (Nat.le_of_eq hi.symm)]
  · split
    · cases h : document.namespace? i <;> simp [Document.taskIds, h]
    · rfl

theorem Document.namespaceName?_addNamespace {document : Document} {parent : NamespaceId}
    (valid : parent < document.namespaceCount) (name : String) (i : NamespaceId) :
    (document.addNamespace parent name).2.namespaceName? i =
      if i = document.namespaceCount then some name else document.namespaceName? i := by
  rw [Document.namespaceName?, Document.namespace?_addNamespace valid]
  split
  · rfl
  · split
    · cases h : document.namespace? i <;> simp [Document.namespaceName?, h]
    · rfl

theorem Document.WellFormed.parent?_of_mem {document : Document} (h : document.WellFormed)
    {parent id : NamespaceId} (hm : id ∈ document.childIds parent) :
    document.parent? id = some parent := by
  have hpos := List.count_pos_iff.mpr hm
  rw [h.count_childIds] at hpos
  split at hpos
  next hp => exact hp
  next => omega

theorem Document.WellFormed.mem_childIds_iff {document : Document} (h : document.WellFormed)
    {parent id : NamespaceId} :
    id ∈ document.childIds parent ↔ document.parent? id = some parent := by
  refine ⟨h.parent?_of_mem, fun hp => List.count_pos_iff.mp ?_⟩
  rw [h.count_childIds, if_pos hp]
  exact Nat.one_pos

/-- A child is found by its parent and its name, since no other child has the name. -/
theorem Document.WellFormed.findChild?_iff {document : Document} (h : document.WellFormed)
    {parent id : NamespaceId} {name : String} :
    document.findChild? parent name = some id ↔
      document.parent? id = some parent ∧ document.namespaceName? id = some name := by
  constructor
  · intro hf
    obtain ⟨hm, hn⟩ := Document.findChild?_eq_some hf
    exact ⟨h.parent?_of_mem hm, hn⟩
  · rintro ⟨hp, hn⟩
    have hm := h.mem_childIds_iff.mpr hp
    cases hf : document.findChild? parent name with
    | none =>
      have hnot := Document.findChild?_eq_none_iff.mp hf
      exact absurd (List.mem_filterMap.mpr ⟨id, hm, hn⟩) hnot
    | some other =>
      obtain ⟨hom, hon⟩ := Document.findChild?_eq_some hf
      obtain ⟨space, hs, hname⟩ := Option.map_eq_some_iff.mp hn
      obtain ⟨twin, ht, htwin⟩ := Option.map_eq_some_iff.mp hon
      have hchild : (id, space) ∈ document.childrenOf parent :=
        List.mem_filterMap.mpr ⟨id, hm, by rw [hs]; rfl⟩
      have hother : (other, twin) ∈ document.childrenOf parent :=
        List.mem_filterMap.mpr ⟨other, hom, by rw [ht]; rfl⟩
      have heq := List.inj_on_of_nodup_map (h.siblings parent) hother hchild
        (htwin.trans hname.symm)
      exact congrArg (some ·.1) heq

theorem Document.WellFormed.namespaceCount_notMem {document : Document} (h : document.WellFormed)
    (parent : NamespaceId) : document.namespaceCount ∉ document.childIds parent := by
  intro hm
  exact Nat.lt_irrefl _ (Document.lt_of_parent? (h.parent?_of_mem hm))

theorem Document.WellFormed.root_lt {document : Document} (h : document.WellFormed) :
    Document.rootId < document.namespaceCount :=
  ((h.parentless_iff Document.rootId).mpr rfl).1

/-- The names in a list of children after a namespace was added to the end of one list. -/
theorem Document.WellFormed.names_addNamespace {document : Document} {parent : NamespaceId}
    (h : document.WellFormed) (valid : parent < document.namespaceCount) (name : String)
    (i : NamespaceId) :
    (document.childIds i).filterMap (document.addNamespace parent name).2.namespaceName? =
      (document.childIds i).filterMap document.namespaceName? := by
  apply List.filterMap_congr
  intro child hm
  rw [Document.namespaceName?_addNamespace valid, if_neg]
  intro he
  exact h.namespaceCount_notMem i (he ▸ hm)

theorem Document.WellFormed.addNamespace {document : Document} {parent : NamespaceId}
    {name : String} (h : document.WellFormed) (valid : parent < document.namespaceCount)
    (fresh : document.findChild? parent name = none) :
    (document.addNamespace parent name).2.WellFormed where
  parentless_iff := by
    intro id
    rw [Document.namespaceCount_addNamespace, Document.parent?_addNamespace valid,
      ← h.parentless_iff id]
    split
    · next hi => simp [hi]
    · next hi =>
      have hl : id < document.namespaceCount + 1 ↔ id < document.namespaceCount :=
        ⟨fun hl => Nat.lt_of_le_of_ne (Nat.lt_succ_iff.mp hl) hi, Nat.lt_succ_of_lt⟩
      rw [hl]
  parent_lt := by
    intro id p hp
    rw [Document.parent?_addNamespace valid] at hp
    split at hp
    · next hi => rw [hi, ← Option.some.inj hp]; exact valid
    · exact h.parent_lt id p hp
  count_childIds := by
    intro p id
    rw [Document.childIds_addNamespace valid, Document.parent?_addNamespace valid]
    by_cases hi : id = document.namespaceCount
    · have hz := List.count_eq_zero.mpr (h.namespaceCount_notMem p)
      by_cases hp : p = parent
      · subst hp
        simp [hi, hz]
      · simp [hi, hp, Ne.symm hp, hz]
    · rw [if_neg hi, ← h.count_childIds p id]
      split
      · rw [List.count_append, List.count_singleton, beq_eq_false_iff_ne.mpr (Ne.symm hi)]
        rfl
      · rfl
  siblings := by
    intro id
    have hs := h.siblings id
    rw [Document.names_childrenOf] at hs ⊢
    rw [Document.childIds_addNamespace valid]
    split
    · next hp =>
      rw [List.filterMap_append, h.names_addNamespace valid, List.filterMap_cons,
        Document.namespaceName?_addNamespace valid, if_pos rfl, List.nodup_append]
      refine ⟨hs, by simp, ?_⟩
      intro a ha b hb
      obtain rfl : b = name := by simpa using hb
      intro he
      exact Document.findChild?_eq_none_iff.mp fresh (by rwa [← hp, ← he])
    · rwa [h.names_addNamespace valid]
  count_taskIds := by
    intro container id
    rw [Document.taskIds_addNamespace valid]
    exact h.count_taskIds container id
  findTask?_iff := h.findTask?_iff

theorem Document.addTask_of_fresh {document : Document} {task : Task}
    (fresh : document.findTask? task.container task.name = none) :
    document.addTask task = (document.taskCount, { document with
      namespaces := document.namespaces.modify task.container fun space =>
        { space with tasks := space.tasks ++ [document.taskCount] }
      tasks := document.tasks ++ [task]
      taskIndex := ((task.container, task.name), document.taskCount) :: document.taskIndex }) := by
  simp only [Document.addTask, fresh, Document.modifyNamespace]

theorem Document.namespace?_addTask {document : Document} {task : Task}
    (fresh : document.findTask? task.container task.name = none) (i : NamespaceId) :
    (document.addTask task).2.namespace? i = (document.namespace? i).map fun space =>
      if task.container = i then { space with tasks := space.tasks ++ [document.taskCount] }
      else space := by
  rw [Document.addTask_of_fresh fresh]
  exact List.getElem?_modify _ _ _ _

theorem Document.namespaceCount_addTask {document : Document} {task : Task}
    (fresh : document.findTask? task.container task.name = none) :
    (document.addTask task).2.namespaceCount = document.namespaceCount := by
  rw [Document.addTask_of_fresh fresh]
  exact List.length_modify _ _ _

theorem Document.tree_addTask {document : Document} {task : Task}
    (fresh : document.findTask? task.container task.name = none) (i : NamespaceId) :
    (document.addTask task).2.parent? i = document.parent? i ∧
      (document.addTask task).2.childIds i = document.childIds i ∧
      (document.addTask task).2.namespaceName? i = document.namespaceName? i := by
  simp only [Document.parent?, Document.childIds, Document.namespaceName?,
    Document.namespace?_addTask fresh]
  cases document.namespace? i with
  | none => exact ⟨rfl, rfl, rfl⟩
  | some space =>
    simp only [Option.map_some, Option.bind_some, Option.elim_some]
    split <;> exact ⟨rfl, rfl, rfl⟩

theorem Document.taskIds_addTask {document : Document} {task : Task}
    (fresh : document.findTask? task.container task.name = none)
    (valid : task.container < document.namespaceCount) (i : NamespaceId) :
    (document.addTask task).2.taskIds i =
      if i = task.container then document.taskIds i ++ [document.taskCount]
      else document.taskIds i := by
  simp only [Document.taskIds, Document.namespace?_addTask fresh]
  by_cases hi : i = task.container
  · obtain ⟨space, hs⟩ := Document.exists_namespace valid
    simp [hi, hs]
  · cases document.namespace? i <;> simp [hi, Ne.symm hi]

theorem Document.taskKey?_addTask {document : Document} {task : Task}
    (fresh : document.findTask? task.container task.name = none) (i : TaskId) :
    (document.addTask task).2.taskKey? i =
      if i = document.taskCount then some (task.container, task.name)
      else document.taskKey? i := by
  have ht : (document.addTask task).2.task? i = (document.tasks ++ [task])[i]? := by
    rw [Document.addTask_of_fresh fresh]
    rfl
  rw [Document.taskKey?, ht]
  rcases Nat.lt_trichotomy i document.taskCount with hlt | rfl | hgt
  · rw [if_neg (Nat.ne_of_lt hlt), List.getElem?_append_left hlt]
    rfl
  · simp [Document.taskCount]
  · rw [if_neg (Nat.ne_of_gt hgt), Document.taskKey?_of_le (Nat.le_of_lt hgt),
      List.getElem?_eq_none (by rw [List.length_append]; exact Nat.succ_le_of_lt hgt)]
    rfl

theorem Document.findTask?_addTask {document : Document} {task : Task}
    (fresh : document.findTask? task.container task.name = none) (container : NamespaceId)
    (name : String) :
    (document.addTask task).2.findTask? container name =
      if (container, name) = (task.container, task.name) then some document.taskCount
      else document.findTask? container name := by
  rw [Document.addTask_of_fresh fresh]
  simp only [Document.findTask?, List.lookup_cons]
  by_cases he : (container, name) = (task.container, task.name)
  · rw [if_pos he, beq_iff_eq.mpr he]
  · rw [if_neg he, beq_eq_false_iff_ne.mpr he]

theorem Document.WellFormed.addTask {document : Document} {task : Task}
    (h : document.WellFormed) (valid : task.container < document.namespaceCount)
    (fresh : document.findTask? task.container task.name = none) :
    (document.addTask task).2.WellFormed where
  parentless_iff := by
    intro id
    rw [Document.namespaceCount_addTask fresh, (Document.tree_addTask fresh id).1]
    exact h.parentless_iff id
  parent_lt := by
    intro id parent hp
    rw [(Document.tree_addTask fresh id).1] at hp
    exact h.parent_lt id parent hp
  count_childIds := by
    intro parent id
    rw [(Document.tree_addTask fresh parent).2.1, (Document.tree_addTask fresh id).1]
    exact h.count_childIds parent id
  siblings := by
    intro id
    have hn : (document.addTask task).2.namespaceName? = document.namespaceName? :=
      funext fun i => (Document.tree_addTask fresh i).2.2
    rw [Document.names_childrenOf, (Document.tree_addTask fresh id).2.1, hn,
      ← Document.names_childrenOf]
    exact h.siblings id
  count_taskIds := by
    intro container id
    rw [Document.container_of_taskKey?, Document.taskKey?_addTask fresh,
      Document.taskIds_addTask fresh valid]
    have hc := h.count_taskIds container id
    rw [Document.container_of_taskKey?] at hc
    by_cases hi : id = document.taskCount
    · rw [Document.taskKey?_of_le (Nat.le_of_eq hi.symm), if_neg (by simp), hi] at hc
      by_cases hcon : container = task.container
      · subst hcon
        simp [hi, hc]
      · simp [hi, hcon, Ne.symm hcon, hc]
    · rw [if_neg hi, ← hc]
      split
      · rw [List.count_append, List.count_singleton, beq_eq_false_iff_ne.mpr (Ne.symm hi)]
        rfl
      · rfl
  findTask?_iff := by
    intro container name id
    rw [Document.findTask?_addTask fresh, Document.taskKey?_addTask fresh]
    have ho := h.findTask?_iff container name id
    by_cases hi : id = document.taskCount
    · rw [Document.taskKey?_of_le (Nat.le_of_eq hi.symm)] at ho
      rw [if_pos hi]
      split
      · next he => simp [he, hi]
      · next he =>
        refine ⟨fun hf => absurd (ho.mp hf) (by simp), fun hk => ?_⟩
        exact absurd (Option.some.inj hk).symm he
    · rw [if_neg hi]
      split
      · next he =>
        obtain ⟨rfl, rfl⟩ := Prod.mk.inj he
        rw [← ho, fresh]
        simp [Ne.symm hi]
      · exact ho

end RakeOutline
