import RakeOutline.Proofs.Slices

namespace RakeOutline

/-- A declaration in its place. -/
structure LogEntry where
  container : NamespaceId
  comment : String
  declaration : Declaration
  deriving DecidableEq, Repr

def LogEntry.key (entry : LogEntry) : NamespaceId × String :=
  (entry.container, entry.declaration.name)

def Task.key (task : Task) : NamespaceId × String :=
  (task.container, task.name)

/-- What an event declares, as the scan stands before it. -/
def Context.entries (context : Context) (event : Event) : List LogEntry :=
  event.declaration?.toList.map fun declaration =>
    ⟨context.container, context.description.text, declaration⟩

def Context.log (context : Context) : List Event → List LogEntry
  | [] => []
  | event :: events => context.entries event ++ (context.apply event).log events

def scanLog (file : String) (tokens : List Token) (options : ScanOptions) (tally : Tally) :
    List LogEntry :=
  let stream : TokenStream := { unread := tokens }
  (Context.new file tally options).log (stream.readScope options.ignoredConstants 0).events

theorem Context.declarations_log (context : Context) (events : List Event) :
    (context.log events).map LogEntry.declaration = declarationsOf events := by
  induction events generalizing context with
  | nil => rfl
  | cons event events ih =>
    have hone : (context.entries event).map LogEntry.declaration = event.declaration?.toList := by
      simp [Context.entries, Function.comp_def]
    rw [Context.log, List.map_append, hone, ih, declarationsOf, declarationsOf]
    cases hd : event.declaration? <;> simp [hd]

def firstNonempty (lists : List (List String)) : List String :=
  (lists.find? (!·.isEmpty)).getD []

/-- The task gathers the entries, of which `first` comes before the others. -/
structure Task.Gathers (task : Task) (captureTokens : Bool) (first : LogEntry)
    (later : List LogEntry) : Prop where
  dependencies : task.dependencies =
    (first :: later).flatMap fun entry => entry.declaration.dependencies
  arguments : task.arguments =
    firstNonempty ((first :: later).map fun entry => entry.declaration.arguments)
  kind : task.kind = first.declaration.kind
  line : task.line = first.declaration.line
  text : task.text = first.declaration.text
  comment : task.comment = first.comment
  signature : task.signature = if captureTokens then first.declaration.signature else []
  body : task.body = if captureTokens then first.declaration.body else []

/-- There is one task for each key of the log, in order of first occurrence, and it gathers the
entries of its key. -/
structure Gathered (captureTokens : Bool) (log : List LogEntry) (tasks : List Task) : Prop where
  keys : tasks.map Task.key = (log.map LogEntry.key).eraseDups
  each : ∀ (id : TaskId) (task : Task), tasks[id]? = some task → ∃ first later,
    log.filter (·.key = task.key) = first :: later ∧ task.Gathers captureTokens first later

theorem firstNonempty_concat (lists : List (List String)) (last : List String) :
    firstNonempty (lists ++ [last]) =
      if (firstNonempty lists).isEmpty then last else firstNonempty lists := by
  unfold firstNonempty
  rw [List.find?_append]
  cases hf : lists.find? (!·.isEmpty) with
  | none => cases last <;> simp
  | some found =>
    have hfound : found.isEmpty = false := by simpa using List.find?_some hf
    simp [hfound]

theorem Task.Gathers.merge {task : Task} {captureTokens : Bool} {first : LogEntry}
    {later : List LogEntry} (h : task.Gathers captureTokens first later) (entry : LogEntry) :
    (task.merge entry.declaration).Gathers captureTokens first (later ++ [entry]) where
  dependencies := by
    rw [← List.cons_append, List.flatMap_append, ← h.dependencies]
    simp [Task.merge]
  arguments := by
    rw [← List.cons_append, List.map_append, List.map_singleton, firstNonempty_concat,
      ← h.arguments]
    rfl
  kind := h.kind
  line := h.line
  text := h.text
  comment := h.comment
  signature := h.signature
  body := h.body

theorem Task.gathers_ofDeclaration (captureTokens : Bool) (entry : LogEntry) :
    (Task.ofDeclaration entry.container entry.comment captureTokens entry.declaration).Gathers
      captureTokens entry [] where
  dependencies := by simp [Task.ofDeclaration]
  arguments := by
    have hone := firstNonempty_concat [] entry.declaration.arguments
    simpa [firstNonempty, Task.ofDeclaration] using hone.symm
  kind := rfl
  line := rfl
  text := rfl
  comment := rfl
  signature := rfl
  body := rfl

theorem eraseDups_concat (keys : List (NamespaceId × String)) (key : NamespaceId × String) :
    (keys ++ [key]).eraseDups =
      if key ∈ keys then keys.eraseDups else keys.eraseDups ++ [key] := by
  rw [List.eraseDups_append]
  by_cases hm : key ∈ keys <;> simp [List.removeAll, hm, List.eraseDups_cons]

theorem Gathered.mem_keys_iff {captureTokens : Bool} {log : List LogEntry} {tasks : List Task}
    (h : Gathered captureTokens log tasks) (key : NamespaceId × String) :
    key ∈ log.map LogEntry.key ↔ key ∈ tasks.map Task.key := by
  rw [h.keys, List.mem_eraseDups]

theorem filter_key_concat_of_ne {entry : LogEntry} {key : NamespaceId × String}
    (h : entry.key ≠ key) (log : List LogEntry) :
    (log ++ [entry]).filter (·.key = key) = log.filter (·.key = key) := by
  simp [List.filter_append, h]

theorem filter_key_concat_self (log : List LogEntry) (entry : LogEntry) :
    (log ++ [entry]).filter (·.key = entry.key) = log.filter (·.key = entry.key) ++ [entry] := by
  simp [List.filter_append]

theorem Gathered.merge {captureTokens : Bool} {log : List LogEntry} {tasks : List Task}
    {entry : LogEntry} {id : TaskId} (h : Gathered captureTokens log tasks)
    (hid : ∀ (i : TaskId) (task : Task), tasks[i]? = some task →
      (task.key = entry.key ↔ i = id))
    (hk : entry.key ∈ tasks.map Task.key) :
    Gathered captureTokens (log ++ [entry]) (tasks.modify id (·.merge entry.declaration)) where
  keys := by
    have keeps : ∀ task : Task, (task.merge entry.declaration).key = task.key := fun _ => rfl
    rw [map_modify_of_keeps keeps, List.map_append, List.map_singleton, eraseDups_concat,
      if_pos ((h.mem_keys_iff entry.key).mpr hk)]
    exact h.keys
  each := by
    intro i task ht
    rw [List.getElem?_modify] at ht
    obtain ⟨old, hold, rfl⟩ := Option.map_eq_some_iff.mp ht
    obtain ⟨first, later, hl, hg⟩ := h.each i old hold
    by_cases hi : id = i
    · have hkey : old.key = entry.key := (hid i old hold).mpr hi.symm
      refine ⟨first, later ++ [entry], ?_, by simpa only [if_pos hi] using hg.merge entry⟩
      simp only [if_pos hi]
      show (log ++ [entry]).filter (·.key = old.key) = _
      rw [hkey] at hl ⊢
      rw [filter_key_concat_self, hl, List.cons_append]
    · have hkey : entry.key ≠ old.key := fun he => hi ((hid i old hold).mp he.symm).symm
      refine ⟨first, later, ?_, by simpa only [if_neg hi] using hg⟩
      simp only [if_neg hi]
      rw [filter_key_concat_of_ne hkey, hl]

theorem Gathered.add {captureTokens : Bool} {log : List LogEntry} {tasks : List Task}
    {entry : LogEntry} (h : Gathered captureTokens log tasks)
    (fresh : entry.key ∉ tasks.map Task.key) :
    Gathered captureTokens (log ++ [entry]) (tasks ++
      [.ofDeclaration entry.container entry.comment captureTokens entry.declaration]) where
  keys := by
    rw [List.map_append, List.map_append, List.map_singleton, List.map_singleton,
      eraseDups_concat, if_neg (fun hm => fresh ((h.mem_keys_iff entry.key).mp hm)), h.keys]
    rfl
  each := by
    intro i task ht
    have hnone : log.filter (·.key = entry.key) = [] := by
      rw [List.filter_eq_nil_iff]
      intro other hm he
      exact fresh ((h.mem_keys_iff entry.key).mp (List.mem_map.mpr ⟨other, hm, by simpa using he⟩))
    rw [List.getElem?_append] at ht
    split at ht
    · obtain ⟨first, later, hl, hg⟩ := h.each i task ht
      have hkey : entry.key ≠ task.key := fun he =>
        fresh (List.mem_map.mpr ⟨task, List.mem_of_getElem? ht, he.symm⟩)
      exact ⟨first, later, by rw [filter_key_concat_of_ne hkey, hl], hg⟩
    · obtain rfl := List.mem_singleton.mp (List.mem_of_getElem? ht)
      refine ⟨entry, [], ?_, Task.gathers_ofDeclaration captureTokens entry⟩
      have hself := filter_key_concat_self log entry
      rw [hnone] at hself
      exact hself

theorem Document.WellFormed.findTask?_eq_some_iff {document : Document} (h : document.WellFormed)
    {id : TaskId} {task : Task} (ht : document.tasks[id]? = some task) (container : NamespaceId)
    (name : String) :
    document.findTask? container name = some id ↔ task.key = (container, name) := by
  have hkey : document.taskKey? id = some task.key := by
    simp [Document.taskKey?, Document.task?, ht, Task.key]
  rw [h.findTask?_iff, hkey, Option.some.injEq]

theorem Document.WellFormed.mem_keys_iff {document : Document} (h : document.WellFormed)
    (container : NamespaceId) (name : String) :
    (container, name) ∈ document.tasks.map Task.key ↔
      ∃ id, document.findTask? container name = some id := by
  constructor
  · intro hm
    obtain ⟨task, hmem, hk⟩ := List.mem_map.mp hm
    obtain ⟨id, ht⟩ := List.mem_iff_getElem?.mp hmem
    exact ⟨id, (h.findTask?_eq_some_iff ht container name).mpr hk⟩
  · rintro ⟨id, hf⟩
    obtain ⟨task, ht, hk⟩ := Option.map_eq_some_iff.mp ((h.findTask?_iff container name id).mp hf)
    exact List.mem_map.mpr ⟨task, List.mem_of_getElem? ht, hk⟩

/-- An event extends the log by what it declares, and the tasks gather the longer log. -/
theorem Context.WellFormed.gathered_apply {context : Context} (h : context.WellFormed)
    {log : List LogEntry}
    (hg : Gathered context.options.captureTokens log context.document.tasks) (event : Event) :
    Gathered context.options.captureTokens (log ++ context.entries event)
      (context.apply event).document.tasks := by
  cases event with
  | declared declaration =>
    let entry : LogEntry := ⟨context.container, context.description.text, declaration⟩
    show Gathered _ (log ++ [entry]) (context.declare declaration).document.tasks
    have hkeys := h.document.mem_keys_iff context.container declaration.name
    cases hf : context.document.findTask? context.container declaration.name with
    | some id =>
      rw [Context.declare_of_known hf]
      apply hg.merge
      · intro i task ht
        have hi := h.document.findTask?_eq_some_iff ht context.container declaration.name
        rw [hf, Option.some.injEq] at hi
        exact ⟨fun hk => (hi.mpr hk).symm, fun he => hi.mp he.symm⟩
      · exact hkeys.mpr ⟨id, hf⟩
    | none =>
      have fresh : entry.key ∉ context.document.tasks.map Task.key := by
        intro hm
        obtain ⟨id, hid⟩ := hkeys.mp hm
        exact absurd (hf.symm.trans hid) (by simp)
      have hadd := @Document.addTask_of_fresh context.document (.ofDeclaration context.container
        context.description.text context.options.captureTokens declaration) hf
      rw [Context.declare_of_new hf, hadd]
      exact hg.add fresh
  | entered name => simpa [Context.apply, Context.entries, Event.declaration?] using hg
  | described | left | required | included =>
    show Gathered _ (log ++ []) context.document.tasks
    rw [List.append_nil]
    exact hg

theorem Context.WellFormed.gathered_applyAll {context : Context} (h : context.WellFormed)
    {log : List LogEntry}
    (hg : Gathered context.options.captureTokens log context.document.tasks)
    (events : List Event) :
    Gathered context.options.captureTokens (log ++ context.log events)
      (context.applyAll events).document.tasks := by
  induction events generalizing context log with
  | nil =>
    rw [Context.log, List.append_nil]
    exact hg
  | cons event events ih =>
    have hstep := h.gathered_apply hg event
    rw [← Context.options_apply context event] at hstep ⊢
    rw [Context.log, ← List.append_assoc]
    exact ih (h.apply event) hstep

/-- The tasks of a scan are those of its log, one for each namespace and name in order of first
occurrence; each has all the dependencies that its declarations give, the first arguments that are
given, and for the rest what its first declaration says. Token runs are kept on request only. -/
theorem scanned_tasks_gather_declarations (file : String) (tokens : List Token)
    (options : ScanOptions) (tally : Tally) :
    (scanTokens file tokens options tally).1.tasks.map Task.key =
      ((scanLog file tokens options tally).map LogEntry.key).eraseDups ∧
    ∀ task ∈ (scanTokens file tokens options tally).1.tasks, ∃ first later,
      (scanLog file tokens options tally).filter (·.key = task.key) = first :: later ∧
        task.Gathers options.captureTokens first later := by
  have hnew : Gathered options.captureTokens [] (Context.new file tally options).document.tasks :=
    ⟨rfl, by simp [Context.new, Document.new]⟩
  have hall := (Context.new_wellFormed file tally options).gathered_applyAll hnew
    (TokenStream.readScope options.ignoredConstants 0 { unread := tokens }).events
  refine ⟨hall.keys, ?_⟩
  intro task hm
  obtain ⟨id, ht⟩ := List.mem_iff_getElem?.mp hm
  exact hall.each id task ht

/-- Without captures a task does not have the signature and the body of its declaration. -/
theorem runs_of_declaration_not_kept :
    let options : ScanOptions := { captureTokens := false }
    let tasks := (scanTokens "Rakefile" (lex "task :a\n") options {}).1.tasks
    let log := scanLog "Rakefile" (lex "task :a\n") options {}
    tasks.map Task.key = [(Document.rootId, ":a")] ∧
      log.map LogEntry.key = [(Document.rootId, ":a")] ∧
      tasks.map Task.signature ≠ log.map (·.declaration.signature) ∧
      tasks.map Task.body ≠ log.map (·.declaration.body) := by
  decide +kernel

end RakeOutline
