import Mathlib.Data.List.Induction
import Mathlib.Data.Nat.Init
import RakeOutline.Proofs.Quoting
import RakeOutline.Proofs.Reachable

namespace RakeOutline

/-- The way up from a namespace comes to a namespace without a parent, over namespaces with the
given names. -/
inductive Document.Climbs (document : Document) : NamespaceId → List String → Prop
  | top {id : NamespaceId} {space : Namespace} : document.namespace? id = some space →
      space.parent = none → Climbs document id []
  | inside {id parent : NamespaceId} {space : Namespace} {path : List String} :
      document.namespace? id = some space → space.parent = some parent →
      Climbs document parent path → Climbs document id (path ++ [space.name])

theorem Document.namespacePath_of_top {document : Document} {id : NamespaceId}
    {space : Namespace} (hs : document.namespace? id = some space) (hp : space.parent = none) :
    document.namespacePath id = [] := by
  rw [Document.namespacePath, hs]
  simp only [hp]

theorem Document.WellFormed.namespacePath_inside {document : Document} (h : document.WellFormed)
    {id parent : NamespaceId} {space : Namespace} (hs : document.namespace? id = some space)
    (hp : space.parent = some parent) :
    document.namespacePath id = document.namespacePath parent ++ [space.name] := by
  have hlt := h.parent_lt id parent ((Document.parent?_eq hs).trans hp)
  rw [Document.namespacePath, hs]
  simp only [hp, if_pos hlt]

theorem Document.WellFormed.namespacePath_child {document : Document} (h : document.WellFormed)
    {id parent : NamespaceId} {name : String} (hp : document.parent? id = some parent)
    (hn : document.namespaceName? id = some name) :
    document.namespacePath id = document.namespacePath parent ++ [name] := by
  obtain ⟨space, hs, rfl⟩ := Option.map_eq_some_iff.mp hn
  exact h.namespacePath_inside hs ((Document.parent?_eq hs).symm.trans hp)

theorem Document.WellFormed.climbs {document : Document} (h : document.WellFormed)
    {id : NamespaceId} (hid : id < document.namespaceCount) :
    document.Climbs id (document.namespacePath id) := by
  induction id using Nat.strong_induction_on with
  | h id ih =>
    obtain ⟨space, hs⟩ := Document.exists_namespace hid
    cases hp : space.parent with
    | none =>
      rw [Document.namespacePath_of_top hs hp]
      exact .top hs hp
    | some parent =>
      have hlt := h.parent_lt id parent ((Document.parent?_eq hs).trans hp)
      rw [h.namespacePath_inside hs hp]
      exact .inside hs hp (ih parent hlt (Nat.lt_trans hlt hid))

theorem Document.findNamespace?_concat (document : Document) (path : List String)
    (name : String) : document.findNamespace? (path ++ [name]) =
      (document.findNamespace? path).bind (document.findChild? · name) := by
  rw [Document.findNamespace?, List.foldlM_append]
  simp only [List.foldlM_cons, List.foldlM_nil, bind_pure]
  rfl

/-- The path of a namespace leads to it. -/
theorem Document.WellFormed.findNamespace?_namespacePath {document : Document}
    (h : document.WellFormed) {id : NamespaceId} (hid : id < document.namespaceCount) :
    document.findNamespace? (document.namespacePath id) = some id := by
  induction id using Nat.strong_induction_on with
  | h id ih =>
    obtain ⟨space, hs⟩ := Document.exists_namespace hid
    cases hp : space.parent with
    | none =>
      rw [Document.namespacePath_of_top hs hp, (h.parent_eq_none_iff hs).mp hp]
      rfl
    | some parent =>
      have hparent := (Document.parent?_eq hs).trans hp
      have hlt := h.parent_lt id parent hparent
      rw [h.namespacePath_inside hs hp, Document.findNamespace?_concat,
        ih parent hlt (Nat.lt_trans hlt hid), Option.bind_some]
      exact h.findChild?_iff.mpr ⟨hparent, Document.namespaceName?_eq hs⟩

/-- A namespace that is found by a path has no other path. -/
theorem Document.WellFormed.namespacePath_of_findNamespace? {document : Document}
    (h : document.WellFormed) {path : List String} {id : NamespaceId}
    (hf : document.findNamespace? path = some id) :
    id < document.namespaceCount ∧ document.namespacePath id = path := by
  induction path using List.reverseRecOn generalizing id with
  | nil =>
    obtain rfl : Document.rootId = id := Option.some.inj hf
    obtain ⟨space, hs⟩ := Document.exists_namespace h.root_lt
    have hp := (h.parent_eq_none_iff hs).mpr rfl
    exact ⟨h.root_lt, Document.namespacePath_of_top hs hp⟩
  | append_singleton path name ih =>
    rw [Document.findNamespace?_concat] at hf
    obtain ⟨parent, hparent, hchild⟩ := Option.bind_eq_some_iff.mp hf
    obtain ⟨hp, hn⟩ := h.findChild?_iff.mp hchild
    refine ⟨Document.lt_of_parent? hp, ?_⟩
    rw [h.namespacePath_child hp hn, (ih hparent).2]

/-- In the outline of any tokens, the way up from a namespace comes to an end, the names on it lead
down to that namespace, and no other names do. -/
theorem namespace_paths_invert_lookups (file : String) (tokens : List Token)
    (options : ScanOptions) (tally : Tally) :
    let document := (scanTokens file tokens options tally).1
    (∀ id, id < document.namespaceCount →
      document.Climbs id (document.namespacePath id) ∧
        document.findNamespace? (document.namespacePath id) = some id) ∧
    ∀ path id, document.findNamespace? path = some id →
      id < document.namespaceCount ∧ document.namespacePath id = path := by
  have h := wellFormed_scanTokens file tokens options tally
  exact ⟨fun _ hid => ⟨h.climbs hid, h.findNamespace?_namespacePath hid⟩,
    fun _ _ => h.namespacePath_of_findNamespace?⟩

/-- Two namespaces are called `b`; the one inside `a` is made when `a` is opened again. -/
theorem namespace_paths_invert_lookups_of_reopened :
    let tokens := lex "namespace :a do\nend\nnamespace :b do\nend\nnamespace :a do\nnamespace :b do"
    let document := (scanTokens "Rakefile" tokens {} {}).1
    3 < document.namespaceCount ∧ document.namespacePath 3 = ["a", "b"] ∧
      document.findNamespace? ["a", "b"] = some 3 ∧ document.findNamespace? ["b"] = some 2 ∧
      document.namespacePath 2 = ["b"] := by
  intro tokens document
  have h := namespace_paths_invert_lookups "Rakefile" tokens {} {}
  obtain ⟨hinner, houter⟩ : document.findNamespace? ["a", "b"] = some 3 ∧
      document.findNamespace? ["b"] = some 2 := by decide +kernel
  obtain ⟨hlt, hpath⟩ := h.2 ["a", "b"] 3 hinner
  have hback := (h.1 3 hlt).2
  rw [hpath] at hback
  exact ⟨hlt, hpath, hback, houter, (h.2 ["b"] 2 houter).2⟩

/-- A colon and then a text that holds neither a colon nor a quote character. -/
def isBareSymbol (name : String) : Bool :=
  name.toList.head? == some ':' && name.toList.tail.all fun c => !([':', '"', '\''].contains c)

theorem isBareSymbol_iff (name : String) : isBareSymbol name = true ↔
    name.toList.head? = some ':' ∧ ∀ c ∈ name.toList.tail, c ∉ [':', '"', '\''] := by
  simp [isBareSymbol]

theorem Task.rakeName_of_bare {task : Task} (h : isBareSymbol task.name = true) :
    task.name.toList = ':' :: task.rakeName.toList ∧ ':' ∉ task.rakeName.toList := by
  obtain ⟨hhead, htail⟩ := (isBareSymbol_iff task.name).mp h
  have hname : task.rakeName.toList = task.name.toList.tail := by
    rw [Task.rakeName, String.toList_ofList, dropColon, if_pos hhead]
    refine unquote_of_head fun c hc hm => htail c (List.mem_of_mem_head? hc) ?_
    exact List.mem_cons_of_mem _ hm
  rw [hname]
  refine ⟨(List.cons_head?_tail hhead).symm, ?_⟩
  intro hm
  exact htail ':' hm List.mem_cons_self

/-- Texts without colons can be told from their join. -/
theorem intercalate_colon_inj {first second : List String}
    (hfirst : ∀ part ∈ first, ':' ∉ part.toList) (hsecond : ∀ part ∈ second, ':' ∉ part.toList)
    (hf : first ≠ []) (hs : second ≠ [])
    (heq : ":".intercalate first = ":".intercalate second) : first = second := by
  have hsplit : ∀ parts : List String, (∀ part ∈ parts, ':' ∉ part.toList) → parts ≠ [] →
      List.splitOn ':' (":".intercalate parts).toList = parts.map String.toList := by
    intro parts hparts hne
    rw [String.toList_intercalate]
    exact List.splitOn_intercalate ':' (by simpa using hparts) (by simpa using hne)
  have hmaps : first.map String.toList = second.map String.toList := by
    rw [← hsplit first hfirst hf, heq, hsplit second hsecond hs]
  exact (List.map_inj_right fun _ _ => String.toList_inj.mp).mp hmaps

theorem Document.exists_of_mem_namespacePath {document : Document} {id : NamespaceId}
    {name : String} (hm : name ∈ document.namespacePath id) :
    ∃ space ∈ document.namespaces, space.name = name := by
  fun_induction Document.namespacePath document id with
  | case1 | case2 => simp at hm
  | case3 id space hs parent hp hlt ih =>
    rcases List.mem_append.mp hm with hm | hm
    · exact ih hm
    · exact ⟨space, List.mem_of_getElem? hs, (List.mem_singleton.mp hm).symm⟩
  | case4 id space hs parent hp hlt =>
    exact ⟨space, List.mem_of_getElem? hs, (List.mem_singleton.mp hm).symm⟩

theorem Document.WellFormed.task_unique {document : Document} (h : document.WellFormed)
    {first second : TaskId} {task other : Task} (hf : document.task? first = some task)
    (hs : document.task? second = some other) (hc : task.container = other.container)
    (hn : task.name = other.name) : first = second := by
  have hfirst : document.findTask? task.container task.name = some first := by
    rw [h.findTask?_iff, Document.taskKey?, hf]
    rfl
  have hsecond : document.findTask? other.container other.name = some second := by
    rw [h.findTask?_iff, Document.taskKey?, hs]
    rfl
  rw [hc, hn, hsecond] at hfirst
  exact (Option.some.inj hfirst).symm

theorem Document.qualifiedName_inj {document : Document} {task other : Task}
    (spaces : ∀ space ∈ document.namespaces, ':' ∉ space.name.toList)
    (ht : ':' ∉ task.rakeName.toList) (ho : ':' ∉ other.rakeName.toList)
    (heq : document.qualifiedName task = document.qualifiedName other) :
    document.namespacePath task.container = document.namespacePath other.container ∧
      task.rakeName = other.rakeName := by
  have hparts : ∀ task : Task, ':' ∉ task.rakeName.toList →
      ∀ part ∈ document.namespacePath task.container ++ [task.rakeName], ':' ∉ part.toList := by
    intro task hname part hm
    rcases List.mem_append.mp hm with hm | hm
    · obtain ⟨space, hs, rfl⟩ := Document.exists_of_mem_namespacePath hm
      exact spaces space hs
    · rwa [List.mem_singleton.mp hm]
  have happend := intercalate_colon_inj (hparts task ht) (hparts other ho) (by simp) (by simp) heq
  obtain ⟨hpath, hname⟩ := List.append_inj' happend rfl
  exact ⟨hpath, List.singleton_inj.mp hname⟩

/-- Where all tasks are named by bare symbols and no namespace has a colon in its name, no two
tasks of the outline of any tokens have the same qualified name. -/
theorem qualified_names_identify_tasks (file : String) (tokens : List Token)
    (options : ScanOptions) (tally : Tally)
    (bare : ∀ task ∈ (scanTokens file tokens options tally).1.tasks, isBareSymbol task.name = true)
    (spaces : ∀ space ∈ (scanTokens file tokens options tally).1.namespaces,
      ':' ∉ space.name.toList) :
    let document := (scanTokens file tokens options tally).1
    ∀ first second task other, document.task? first = some task →
      document.task? second = some other →
      document.qualifiedName task = document.qualifiedName other → first = second := by
  intro document first second task other hf hs heq
  have h : document.WellFormed := wellFormed_scanTokens file tokens options tally
  obtain ⟨htask, htfree⟩ := Task.rakeName_of_bare (bare task (List.mem_of_getElem? hf))
  obtain ⟨hother, hofree⟩ := Task.rakeName_of_bare (bare other (List.mem_of_getElem? hs))
  obtain ⟨hpath, hname⟩ := Document.qualifiedName_inj spaces htfree hofree heq
  have hcontainer : task.container = other.container := by
    have hback := h.findNamespace?_namespacePath (h.container_lt hf)
    rw [hpath, h.findNamespace?_namespacePath (h.container_lt hs)] at hback
    exact (Option.some.inj hback).symm
  have hsymbol : task.name = other.name := by
    rw [← String.toList_inj, htask, hother, hname]
  exact h.task_unique hf hs hcontainer hsymbol

/-- The tasks differ only in the number of namespaces without a name that they stand in. -/
theorem qualified_names_identify_tasks_of_empty_names :
    let tokens := lex "task :a\nnamespace '' do\ntask a: :b\nnamespace '' do\ntask :a\nend\nend"
    let document := (scanTokens "Rakefile" tokens {} {}).1
    (∀ task ∈ document.tasks, isBareSymbol task.name = true) ∧
      (∀ space ∈ document.namespaces, ':' ∉ space.name.toList) ∧
      document.tasks.map Task.name = [":a", ":a", ":a"] ∧
      ∀ task other, document.task? 1 = some task → document.task? 2 = some other →
        document.qualifiedName task ≠ document.qualifiedName other := by
  intro tokens document
  obtain ⟨bare, spaces, names⟩ : (∀ task ∈ document.tasks, isBareSymbol task.name = true) ∧
      (∀ space ∈ document.namespaces, ':' ∉ space.name.toList) ∧
      document.tasks.map Task.name = [":a", ":a", ":a"] := by decide +kernel
  refine ⟨bare, spaces, names, ?_⟩
  intro task other ht ho heq
  have hsame := qualified_names_identify_tasks "Rakefile" tokens {} {} bare spaces 1 2 task other
    ht ho heq
  exact absurd hsame (by decide)

end RakeOutline
