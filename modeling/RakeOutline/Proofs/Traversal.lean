import Mathlib.Algebra.GroupWithZero.Nat
import Mathlib.Data.List.Forall2
import Mathlib.Data.List.Perm.Basic
import RakeOutline.Proofs.Extension
import RakeOutline.Proofs.Paths
import RakeOutline.Report.Record
import RakeOutline.Report.Snapshot

namespace RakeOutline

theorem flatMap_eq_of_forall₂ {α β γ : Type} {f : α → List γ} {g : β → List γ} {as : List α}
    {bs : List β} (h : List.Forall₂ (fun a b => f a = g b) as bs) :
    as.flatMap f = bs.flatMap g := by
  induction h with
  | nil => rfl
  | cons hab _ ih => rw [List.flatMap_cons, List.flatMap_cons, hab, ih]

theorem forall₂_flatMap {α β γ : Type} {R : β → γ → Prop} {f : α → List β} {g : α → List γ}
    {as : List α} (h : ∀ a ∈ as, List.Forall₂ R (f a) (g a)) :
    List.Forall₂ R (as.flatMap f) (as.flatMap g) := by
  induction as with
  | nil => exact .nil
  | cons a as ih =>
    exact List.rel_append (h a List.mem_cons_self) (ih fun b hm => h b (List.mem_cons_of_mem a hm))

theorem forall₂_flatMap_of_singletons {α β : Type} {R : α → β → Prop} {f : α → List β} {as : List α}
    (h : ∀ a ∈ as, ∃ b, f a = [b] ∧ R a b) : List.Forall₂ R as (as.flatMap f) := by
  induction as with
  | nil => exact .nil
  | cons a as ih =>
    obtain ⟨b, hb, hr⟩ := h a List.mem_cons_self
    rw [List.flatMap_cons, hb]
    exact .cons hr (ih fun other hm => h other (List.mem_cons_of_mem a hm))

theorem forall₂_filterMap {α β : Type} {P : β → Prop} {f : α → Option β} {as : List α}
    (h : ∀ a ∈ as, ∃ b, f a = some b ∧ P b) :
    List.Forall₂ (fun a b => f a = some b ∧ P b) as (as.filterMap f) := by
  induction as with
  | nil => exact .nil
  | cons a as ih =>
    obtain ⟨b, hb, hp⟩ := h a List.mem_cons_self
    rw [List.filterMap_cons_some hb]
    exact .cons ⟨hb, hp⟩ (ih fun other hm => h other (List.mem_cons_of_mem a hm))

/-- Going down the lists of children from a namespace, whatever their numbers are, comes to an end
with the given value. -/
inductive Document.Folds {α : Type} (document : Document)
    (node : NamespaceId → Namespace → List α → α) : NamespaceId → α → Prop
  | space {id : NamespaceId} {space : Namespace} {values : List α} :
      document.namespace? id = some space →
      List.Forall₂ (Document.Folds document node) space.children values →
      Folds document node id (node id space values)

theorem Document.WellFormed.parent?_child {document : Document} (h : document.WellFormed)
    {id child : NamespaceId} {space : Namespace} (hs : document.namespace? id = some space)
    (hm : child ∈ space.children) : document.parent? child = some id :=
  h.parent?_of_mem (Document.childIds_eq hs ▸ hm)

/-- What holds of a namespace whenever it holds of its children holds of all namespaces: children
are younger than their parent. -/
theorem Document.WellFormed.tree_induction {document : Document} (h : document.WellFormed)
    (holds : NamespaceId → Prop)
    (step : ∀ id space, document.namespace? id = some space →
      (∀ child ∈ space.children, holds child) → holds id)
    {id : NamespaceId} (hid : id < document.namespaceCount) : holds id := by
  obtain ⟨space, hs⟩ := Document.exists_namespace hid
  refine step id space hs fun child hm => ?_
  have hparent := h.parent?_child hs hm
  have hlt := h.parent_lt child id hparent
  have hchild := Document.lt_of_parent? hparent
  exact h.tree_induction holds step hchild
termination_by document.namespaceCount - id
decreasing_by exact Nat.sub_lt_sub_left hid hlt

theorem Document.WellFormed.fold_eq {document : Document} (h : document.WellFormed) {α : Type}
    (node : NamespaceId → Namespace → List α → α) {id : NamespaceId} {space : Namespace}
    (hs : document.namespace? id = some space) :
    document.fold node id = [node id space (space.children.flatMap (document.fold node))] := by
  obtain ⟨hid, rfl⟩ := List.getElem?_eq_some_iff.mp hs
  have hchildren : (document.namespaces[id].children.flatMap fun child =>
      if id < child then document.fold node child else []) =
      document.namespaces[id].children.flatMap (document.fold node) := by
    refine List.flatMap_congr fun child hm => ?_
    exact if_pos (h.parent_lt child id (h.parent?_child hs hm))
  rw [Document.fold, dif_pos hid]
  simp only [hchildren]

/-- A fold gives one value for each namespace, and the value is as good as the values for the
children make it. -/
theorem Document.WellFormed.fold_induction {document : Document} (h : document.WellFormed)
    {α : Type} (node : NamespaceId → Namespace → List α → α) (holds : NamespaceId → α → Prop)
    (step : ∀ id space values, document.namespace? id = some space →
      List.Forall₂ holds space.children values → holds id (node id space values))
    {id : NamespaceId} (hid : id < document.namespaceCount) :
    ∃ value, document.fold node id = [value] ∧ holds id value := by
  refine h.tree_induction
    (fun id => ∃ value, document.fold node id = [value] ∧ holds id value) ?_ hid
  intro id space hs hchildren
  have hvalues := forall₂_flatMap_of_singletons hchildren
  exact ⟨_, h.fold_eq node hs, step id space _ hs hvalues⟩

theorem Document.WellFormed.folds {document : Document} (h : document.WellFormed) {α : Type}
    (node : NamespaceId → Namespace → List α → α) {id : NamespaceId}
    (hid : id < document.namespaceCount) :
    ∃ value, document.fold node id = [value] ∧ document.Folds node id value :=
  h.fold_induction node _ (fun _ _ _ hs hvalues => .space hs hvalues) hid

/-- The namespaces at and below a namespace, in the order in which all traversals meet them. -/
def Document.visited (document : Document) (id : NamespaceId) : List NamespaceId :=
  (document.fold (fun id _ inner => id :: inner.flatten) id).flatten

theorem Document.WellFormed.visited_eq {document : Document} (h : document.WellFormed)
    {id : NamespaceId} {space : Namespace} (hs : document.namespace? id = some space) :
    document.visited id = id :: space.children.flatMap document.visited := by
  rw [Document.visited, h.fold_eq _ hs, List.flatten_singleton, List.flatMap_def, List.flatMap_def,
    List.flatten_flatten, List.map_map]
  rfl

/-- Among the namespaces visited, each stands as often as it is a start and as its parent stands
among them. -/
def Document.Visits (document : Document) (starts visited : List NamespaceId) : Prop :=
  ∀ id, visited.count id = starts.count id + (document.parent? id).elim 0 (visited.count ·)

theorem Document.visits_nil (document : Document) : document.Visits [] [] := by
  intro id
  cases document.parent? id <;> rfl

theorem Document.Visits.append {document : Document}
    {starts others visited more : List NamespaceId} (hv : document.Visits starts visited)
    (hm : document.Visits others more) :
    document.Visits (starts ++ others) (visited ++ more) := by
  intro id
  have hvisited := hv id
  have hmore := hm id
  cases hp : document.parent? id with
  | none =>
    simp only [hp, Option.elim_none, List.count_append] at hvisited hmore ⊢
    omega
  | some parent =>
    simp only [hp, Option.elim_some, List.count_append] at hvisited hmore ⊢
    omega

/-- The children of a namespace are met because it is met. -/
theorem Document.WellFormed.visits_node {document : Document} (h : document.WellFormed)
    {id : NamespaceId} {below : List NamespaceId}
    (hb : document.Visits (document.childIds id) below) : document.Visits [id] (id :: below) := by
  intro other
  have hbelow := hb other
  rw [h.count_childIds] at hbelow
  cases hp : document.parent? other with
  | none =>
    simp only [hp, Option.elim_none, reduceCtorEq, if_false] at hbelow ⊢
    rw [List.count_cons, List.count_singleton]
    omega
  | some parent =>
    simp only [hp, Option.elim_some, Option.some.injEq] at hbelow ⊢
    rw [List.count_singleton, List.count_cons, List.count_cons, hbelow]
    by_cases he : parent = id
    · simp only [he, if_true, beq_self_eq_true]
      omega
    · simp only [he, Ne.symm he, if_false, beq_iff_eq]
      omega

theorem Document.visits_flatMap {document : Document} {visit : NamespaceId → List NamespaceId}
    {starts : List NamespaceId} (h : ∀ id ∈ starts, document.Visits [id] (visit id)) :
    document.Visits starts (starts.flatMap visit) := by
  induction starts with
  | nil => exact document.visits_nil
  | cons first rest ih =>
    have hfirst := h first List.mem_cons_self
    exact hfirst.append (ih fun id hm => h id (List.mem_cons_of_mem first hm))

theorem Document.WellFormed.visits_visited {document : Document} (h : document.WellFormed)
    {id : NamespaceId} (hid : id < document.namespaceCount) :
    document.Visits [id] (document.visited id) := by
  refine h.tree_induction (fun id => document.Visits [id] (document.visited id)) ?_ hid
  intro id space hs hchildren
  rw [← Document.childIds_eq hs] at hchildren
  rw [h.visited_eq hs, ← Document.childIds_eq hs]
  exact h.visits_node (Document.visits_flatMap hchildren)

/-- From the root every namespace is met once: its parent is, and the root has none. -/
theorem Document.WellFormed.count_visited_root {document : Document} (h : document.WellFormed)
    (id : NamespaceId) : (document.visited Document.rootId).count id =
      if id < document.namespaceCount then 1 else 0 := by
  induction id using Nat.strong_induction_on with
  | h id ih =>
    rw [h.visits_visited h.root_lt id]
    cases hp : document.parent? id with
    | none =>
      have hroot := h.parentless_iff id
      rw [hp] at hroot
      simp only [and_true] at hroot
      rw [List.count_singleton, Option.elim_none, Nat.add_zero]
      simp only [hroot, beq_iff_eq, eq_comm (a := id)]
    | some parent =>
      have hlt := h.parent_lt id parent hp
      have hid := Document.lt_of_parent? hp
      have hne : Document.rootId ≠ id := by
        intro he
        have hnone := ((h.parentless_iff id).mpr he.symm).2
        exact absurd (hp.symm.trans hnone) (by simp)
      rw [Option.elim_some, ih parent hlt, if_pos (Nat.lt_trans hlt hid), if_pos hid,
        List.count_singleton, beq_eq_false_iff_ne.mpr hne]
      rfl

theorem Document.WellFormed.perm_visited {document : Document} (h : document.WellFormed) :
    (document.visited Document.rootId).Perm (List.range document.namespaceCount) := by
  rw [List.perm_iff_count]
  intro id
  rw [h.count_visited_root, List.nodup_range.count]
  simp only [List.mem_range]

/-- What is gathered from the namespaces on the way down is gathered along the visited ones. -/
theorem Document.WellFormed.flatMap_visited {document : Document} (h : document.WellFormed)
    {β : Type} (own : NamespaceId → List β) {id : NamespaceId} {space : Namespace}
    (hs : document.namespace? id = some space) :
    (document.visited id).flatMap own =
      own id ++ space.children.flatMap fun child => (document.visited child).flatMap own := by
  rw [h.visited_eq hs, List.flatMap_cons, List.flatMap_assoc]

theorem Document.WellFormed.allTasks_eq {document : Document} (h : document.WellFormed) :
    document.allTasks = (document.visited Document.rootId).flatMap document.taskIds := by
  have hstep : ∀ id space values, document.namespace? id = some space →
      List.Forall₂ (fun id tasks => (document.visited id).flatMap document.taskIds = tasks)
        space.children values →
      (document.visited id).flatMap document.taskIds = space.tasks ++ values.flatten := by
    intro id space values hs hvalues
    rw [h.flatMap_visited _ hs, Document.taskIds_eq hs, flatMap_eq_of_forall₂ hvalues]
    exact congrArg (space.tasks ++ ·) List.flatMap_id
  obtain ⟨tasks, hfold, heq⟩ := h.fold_induction _ _ hstep h.root_lt
  rw [Document.allTasks, hfold, List.flatten_singleton, heq]

theorem Document.WellFormed.count_flatMap_taskIds {document : Document} (h : document.WellFormed)
    (id : TaskId) (spaces : List NamespaceId) :
    (spaces.flatMap document.taskIds).count id =
      ((document.task? id).map Task.container).elim 0 (spaces.count ·) := by
  induction spaces with
  | nil => cases document.task? id <;> rfl
  | cons first rest ih =>
    rw [List.flatMap_cons, List.count_append, ih, h.count_taskIds]
    cases document.task? id with
    | none => rfl
    | some task =>
      rw [Option.map_some, Option.elim_some, Option.elim_some, List.count_cons, Nat.add_comm]
      simp only [Option.some.injEq, beq_iff_eq, eq_comm (a := first)]

theorem Document.WellFormed.perm_allTasks {document : Document} (h : document.WellFormed) :
    document.allTasks.Perm (List.range document.taskCount) := by
  rw [List.perm_iff_count]
  intro id
  rw [h.allTasks_eq, h.count_flatMap_taskIds, List.nodup_range.count]
  simp only [List.mem_range]
  cases ht : document.task? id with
  | none =>
    have hle : document.taskCount ≤ id := List.getElem?_eq_none_iff.mp ht
    rw [if_neg (Nat.not_lt.mpr hle)]
    rfl
  | some task =>
    have hlt : id < document.taskCount := (List.getElem?_eq_some_iff.mp ht).1
    rw [if_pos hlt, Option.map_some, Option.elim_some, h.count_visited_root,
      if_pos (h.container_lt ht)]

theorem Document.WellFormed.forall₂_tasksIn {document : Document} (h : document.WellFormed)
    (container : NamespaceId) :
    List.Forall₂ (fun id task => document.task? id = some task ∧ task.container = container)
      (document.taskIds container) (document.tasksIn container) :=
  forall₂_filterMap fun _ => h.container_of_mem

/-- Whatever a traversal shows of the tasks in each namespace, it shows it in the order of the
list of all tasks. -/
theorem Document.WellFormed.forall₂_allTasks {document : Document} (h : document.WellFormed)
    {β : Type} (shown : NamespaceId → Task → β) :
    List.Forall₂ (fun id value => ∃ task, document.task? id = some task ∧
        value = shown task.container task) document.allTasks
      ((document.visited Document.rootId).flatMap fun id =>
        (document.tasksIn id).map (shown id)) := by
  rw [h.allTasks_eq]
  refine forall₂_flatMap fun container _ => List.forall₂_map_right_iff.mpr ?_
  refine (h.forall₂_tasksIn container).imp ?_
  rintro id task ⟨ht, rfl⟩
  exact ⟨task, ht, rfl⟩

mutual

/-- The tasks of a record and then those of the records inside it, each with the names of the
records on the way down to it. The names down to the record itself are given. -/
def NamespaceRecord.located (path : List String) :
    NamespaceRecord → List (List String × TaskRecord)
  | ⟨_, _, tasks, namespaces⟩ => tasks.map (path, ·) ++ locatedBelow path namespaces

def locatedBelow (path : List String) : List NamespaceRecord → List (List String × TaskRecord)
  | [] => []
  | first :: rest => first.located (path ++ [first.name]) ++ locatedBelow path rest

end

theorem locatedBelow_eq (path : List String) (records : List NamespaceRecord) :
    locatedBelow path records =
      records.flatMap fun record => record.located (path ++ [record.name]) := by
  induction records with
  | nil => rfl
  | cons first rest ih => rw [locatedBelow, ih, List.flatMap_cons]

def Document.locatedIn (document : Document) (id : NamespaceId) :
    List (List String × TaskRecord) :=
  (document.tasksIn id).map fun task => (document.namespacePath id, document.taskRecord task)

/-- The way down to a record is the path of its namespace, since the records bear the names that
stand in the path. -/
theorem Document.WellFormed.located_namespaceRecord {document : Document} (h : document.WellFormed)
    {id : NamespaceId} (hid : id < document.namespaceCount) :
    ∃ record, document.namespaceRecord id = [record] ∧
      document.namespaceName? id = some record.name ∧
      (document.visited id).flatMap document.locatedIn =
        record.located (document.namespacePath id) := by
  refine h.fold_induction _ (fun id (record : NamespaceRecord) =>
    document.namespaceName? id = some record.name ∧
      (document.visited id).flatMap document.locatedIn =
        record.located (document.namespacePath id)) ?_ hid
  intro id space values hs hvalues
  refine ⟨Document.namespaceName?_eq hs, ?_⟩
  rw [h.flatMap_visited _ hs, NamespaceRecord.located, locatedBelow_eq, Document.locatedIn,
    List.map_map]
  congr 1
  have hchildren := (List.forall₂_and_left _ _).mpr ⟨fun child => h.parent?_child hs, hvalues⟩
  refine flatMap_eq_of_forall₂ (hchildren.imp ?_)
  rintro child record ⟨hparent, hname, hlocated⟩
  rw [hlocated, h.namespacePath_child hparent hname]

theorem Document.WellFormed.located_record {document : Document} (h : document.WellFormed) :
    document.record.root.located [] =
      (document.visited Document.rootId).flatMap document.locatedIn := by
  obtain ⟨root, hroot, -, hlocated⟩ := h.located_namespaceRecord h.root_lt
  have hfound : document.findNamespace? [] = some Document.rootId := rfl
  rw [hlocated, (h.namespacePath_of_findNamespace? hfound).2, Document.record, hroot]
  rfl

mutual

def Snapshot.nodes : Snapshot → List Node
  | ⟨node, children⟩ => node :: nodesBelow children

def nodesBelow : List Snapshot → List Node
  | [] => []
  | first :: rest => first.nodes ++ nodesBelow rest

end

theorem nodesBelow_eq (snapshots : List Snapshot) :
    nodesBelow snapshots = snapshots.flatMap Snapshot.nodes := by
  induction snapshots with
  | nil => rfl
  | cons first rest ih => rw [nodesBelow, ih, List.flatMap_cons]

mutual

theorem Snapshot.length_nodes : (snapshot : Snapshot) →
    snapshot.nodes.length = snapshot.nodeCount
  | ⟨_, children⟩ => by
    rw [Snapshot.nodes, Snapshot.nodeCount, List.length_cons, length_nodesBelow children]
    omega

theorem length_nodesBelow : (snapshots : List Snapshot) →
    (nodesBelow snapshots).length = nodeCounts snapshots
  | [] => rfl
  | first :: rest => by
    rw [nodesBelow, nodeCounts, List.length_append, first.length_nodes, length_nodesBelow rest]

end

def NodeKind.isTask : NodeKind → Bool
  | .task _ => true
  | _ => false

def Namespace.nodes (space : Namespace) : List Node :=
  space.node :: space.includes.map Include.node

def Document.nodesIn (document : Document) (id : NamespaceId) : List Node :=
  (document.namespace? id).elim [] Namespace.nodes ++ (document.tasksIn id).map Task.node

theorem nodes_leaves {α : Type} (node : α → Node) (items : List α) :
    (items.map fun item => (node item).leaf).flatMap Snapshot.nodes = items.map node := by
  rw [List.flatMap_map, List.map_eq_flatMap]
  rfl

theorem Document.WellFormed.nodes_namespaceSnapshot {document : Document} (h : document.WellFormed)
    {id : NamespaceId} (hid : id < document.namespaceCount) :
    ∃ snapshot, document.namespaceSnapshot id = [snapshot] ∧
      (document.visited id).flatMap document.nodesIn = snapshot.nodes := by
  refine h.fold_induction _ (fun id (snapshot : Snapshot) =>
    (document.visited id).flatMap document.nodesIn = snapshot.nodes) ?_ hid
  intro id space values hs hvalues
  rw [h.flatMap_visited _ hs, flatMap_eq_of_forall₂ hvalues, Snapshot.nodes, nodesBelow_eq,
    List.flatMap_append, List.flatMap_append, nodes_leaves, nodes_leaves, Document.nodesIn, hs,
    Option.elim_some, Namespace.nodes, List.cons_append, List.cons_append]

theorem Document.WellFormed.nodes_snapshot {document : Document} (h : document.WellFormed) :
    document.snapshot.nodes = document.node :: document.requires.map Require.node ++
      (document.visited Document.rootId).flatMap document.nodesIn := by
  obtain ⟨root, hroot, hnodes⟩ := h.nodes_namespaceSnapshot h.root_lt
  rw [hnodes, Document.snapshot, hroot, Snapshot.nodes, nodesBelow_eq, List.flatMap_append,
    nodes_leaves, List.flatMap_singleton, List.cons_append]

/-- The task nodes of a tree are those of the tasks in the visited namespaces. -/
theorem Document.WellFormed.taskNodes_snapshot {document : Document} (h : document.WellFormed) :
    document.snapshot.nodes.filter (·.kind.isTask) =
      (document.visited Document.rootId).flatMap fun id => (document.tasksIn id).map Task.node := by
  have hspace : ∀ space : Namespace, space.nodes.filter (·.kind.isTask) = [] := by
    simp [Namespace.nodes, Namespace.node, Include.node, NodeKind.isTask]
  have htasks : ∀ tasks : List Task, (tasks.map Task.node).filter (·.kind.isTask) =
      tasks.map Task.node := by
    simp [Task.node, NodeKind.isTask]
  have hhead : (document.node :: document.requires.map Require.node).filter (·.kind.isTask) =
      [] := by
    simp [Document.node, Require.node, NodeKind.isTask]
  have hin : ∀ id, (document.nodesIn id).filter (·.kind.isTask) =
      (document.tasksIn id).map Task.node := by
    intro id
    rw [Document.nodesIn, List.filter_append, htasks]
    cases document.namespace? id with
    | none => rfl
    | some space => rw [Option.elim_some, hspace, List.nil_append]
  rw [h.nodes_snapshot, List.filter_append, hhead, List.nil_append, List.filter_flatMap]
  simp only [hin]

theorem Document.flatMap_range {β : Type} (document : Document) (own : Namespace → List β) :
    ((List.range document.namespaceCount).flatMap fun id =>
      (document.namespace? id).elim [] own) = document.namespaces.flatMap own := by
  have hspaces : (List.range document.namespaceCount).map document.namespace? =
      document.namespaces.map some := by
    apply List.ext_getElem
    · simp [Document.namespaceCount]
    · intro id hrange hid
      simp [Document.namespace?]
  rw [← List.flatMap_map document.namespace? (·.elim [] own), hspaces, List.flatMap_map]
  rfl

theorem Document.length_nodes (document : Document) :
    (document.namespaces.flatMap Namespace.nodes).length =
      document.namespaceCount + (document.namespaces.map (·.includes.length)).sum := by
  rw [Document.namespaceCount]
  induction document.namespaces with
  | nil => rfl
  | cons first rest ih =>
    rw [List.flatMap_cons, List.length_append, ih, Namespace.nodes, List.length_cons,
      List.length_map, List.length_cons, List.map_cons, List.sum_cons]
    omega

theorem Document.WellFormed.nodeCount_snapshot {document : Document} (h : document.WellFormed) :
    document.snapshot.nodeCount = 1 + document.requires.length + document.namespaceCount +
      document.taskCount + (document.namespaces.map (·.includes.length)).sum := by
  let visited := document.visited Document.rootId
  have hspaces : (visited.flatMap fun id => (document.namespace? id).elim [] Namespace.nodes).length
      = document.namespaceCount + (document.namespaces.map (·.includes.length)).sum := by
    rw [(h.perm_visited.flatMap_right _).length_eq, document.flatMap_range, document.length_nodes]
  have htasks : (visited.flatMap fun id => (document.tasksIn id).map Task.node).length =
      document.taskCount := by
    rw [← (h.forall₂_allTasks fun _ => Task.node).length_eq, h.perm_allTasks.length_eq,
      List.length_range]
  have hnodes : (visited.flatMap document.nodesIn).length =
      (visited.flatMap fun id => (document.namespace? id).elim [] Namespace.nodes).length +
        (visited.flatMap fun id => (document.tasksIn id).map Task.node).length := by
    rw [← List.length_append]
    exact (List.flatMap_append_perm visited _ _).length_eq.symm
  rw [← Snapshot.length_nodes, h.nodes_snapshot, List.length_append, hnodes, hspaces, htasks,
    List.length_cons, List.length_map]
  omega

/-- Of the outline of any tokens: every recursion over its namespaces comes to an end; the list of
all tasks has every task once; the records hold the tasks in the order of this list, each with the
qualified name that the names on the way down to it give; the nodes of tasks stand in the tree in
this order too; and the tree has one node for the document, each require, each namespace, each
task and each include. -/
theorem traversals_agree (file : String) (tokens : List Token) (options : ScanOptions)
    (tally : Tally) :
    let document := (scanTokens file tokens options tally).1
    (∀ (α : Type) (node : NamespaceId → Namespace → List α → α), ∃ value,
      document.fold node Document.rootId = [value] ∧
        document.Folds node Document.rootId value) ∧
    document.allTasks.Perm (List.range document.taskCount) ∧
    List.Forall₂ (fun id (located : List String × TaskRecord) => ∃ task,
        document.task? id = some task ∧ located.2 = document.taskRecord task ∧
        located.2.qualifiedName = ":".intercalate (located.1 ++ [task.rakeName]))
      document.allTasks (document.record.root.located []) ∧
    List.Forall₂ (fun id node => ∃ task, document.task? id = some task ∧ node = task.node)
      document.allTasks (document.snapshot.nodes.filter (·.kind.isTask)) ∧
    document.snapshot.nodeCount = 1 + document.requires.length + document.namespaceCount +
      document.taskCount + (document.namespaces.map (·.includes.length)).sum := by
  intro document
  have h : document.WellFormed := wellFormed_scanTokens file tokens options tally
  refine ⟨fun _ node => h.folds node h.root_lt, h.perm_allTasks, ?_, ?_, h.nodeCount_snapshot⟩
  · rw [h.located_record]
    refine (h.forall₂_allTasks fun id task =>
      (document.namespacePath id, document.taskRecord task)).imp ?_
    rintro id located ⟨task, ht, rfl⟩
    exact ⟨task, ht, rfl, rfl⟩
  · rw [h.taskNodes_snapshot]
    exact h.forall₂_allTasks fun _ => Task.node

end RakeOutline
