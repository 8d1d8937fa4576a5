import Mathlib.Algebra.GroupWithZero.Nat
import RakeOutline.Process.Basic
import RakeOutline.Proofs.Lockstep
import RakeOutline.Proofs.Merging

namespace RakeOutline

/-- The tally is the one that the scan began with and the outline so far. -/
def Context.Tallied (start : Tally) (context : Context) : Prop :=
  context.tally = ⟨start.files + 1, start.namespaces + context.document.namespaceCount,
    start.tasks + context.document.taskCount⟩

theorem Context.tallied_new (file : String) (tally : Tally) (options : ScanOptions) :
    (Context.new file tally options).Tallied tally := rfl

theorem Context.Tallied.declare {start : Tally} {context : Context} (h : context.Tallied start)
    (declaration : Declaration) : (context.declare declaration).Tallied start := by
  cases hf : context.document.findTask? context.container declaration.name with
  | some id =>
    have hcount : (context.document.modifyTask id (·.merge declaration)).taskCount =
        context.document.taskCount := List.length_modify _ _ _
    rw [Context.declare_of_known hf, Context.Tallied, hcount]
    exact h
  | none =>
    let task : Task := .ofDeclaration context.container context.description.text
      context.options.captureTokens declaration
    have hspaces := @Document.namespaceCount_addTask context.document task hf
    have htasks : (context.document.addTask task).2.taskCount =
        context.document.taskCount + 1 := by
      rw [Document.addTask_of_fresh hf]
      exact List.length_append
    rw [Context.declare_of_new hf, Context.Tallied, hspaces, htasks, h]
    rfl

theorem Context.Tallied.enter {start : Tally} {context : Context} (h : context.Tallied start)
    (name : String) : (context.enter name).Tallied start := by
  cases hf : context.document.findChild? context.container name with
  | some id =>
    rw [Context.enter_of_known hf]
    exact h
  | none =>
    rw [Context.enter_of_new hf, Context.Tallied, Document.namespaceCount_addNamespace, h]
    rfl

theorem Context.Tallied.apply {start : Tally} {context : Context} (h : context.Tallied start)
    (event : Event) : (context.apply event).Tallied start := by
  cases event with
  | declared declaration => exact h.declare declaration
  | entered name => exact h.enter name
  | included constant =>
    have hsame := context.document.sameTree_addInclude context.container constant
    show context.tally = _
    rw [Context.apply, hsame.namespaceCount]
    exact h
  | described | left | required => exact h

theorem Context.Tallied.applyAll {start : Tally} {context : Context} (h : context.Tallied start)
    (events : List Event) : (context.applyAll events).Tallied start := by
  induction events generalizing context with
  | nil => exact h
  | cons event events ih => exact ih (h.apply event)

theorem tally_scanTokens (file : String) (tokens : List Token) (options : ScanOptions)
    (tally : Tally) :
    (scanTokens file tokens options tally).2 =
      ⟨tally.files + 1,
        tally.namespaces + (scanTokens file tokens options tally).1.namespaceCount,
        tally.tasks + (scanTokens file tokens options tally).1.taskCount⟩ :=
  (Context.tallied_new file tally options).applyAll _

def Context.recount (context : Context) (tally : Tally) : Context :=
  { context with tally }

theorem Context.exists_recount_apply (context : Context) (tally : Tally) (event : Event) :
    ∃ later, (context.recount tally).apply event = (context.apply event).recount later := by
  let other := context.recount tally
  cases event with
  | declared declaration =>
    cases hf : context.document.findTask? context.container declaration.name with
    | some id =>
      have hother := @Context.declare_of_known other declaration id hf
      refine ⟨tally, hother.trans ?_⟩
      rw [Context.apply, Context.declare_of_known hf]
      rfl
    | none =>
      have hother := @Context.declare_of_new other declaration hf
      refine ⟨tally.addTask, hother.trans ?_⟩
      rw [Context.apply, Context.declare_of_new hf]
      rfl
  | entered name =>
    cases hf : context.document.findChild? context.container name with
    | some id =>
      have hother := @Context.enter_of_known other name id hf
      refine ⟨tally, hother.trans ?_⟩
      rw [Context.apply, Context.enter_of_known hf]
      rfl
    | none =>
      have hother := @Context.enter_of_new other name hf
      refine ⟨tally.addNamespace, hother.trans ?_⟩
      rw [Context.apply, Context.enter_of_new hf]
      rfl
  | described | left | required | included => exact ⟨tally, rfl⟩

theorem Context.exists_recount_applyAll (context : Context) (tally : Tally)
    (events : List Event) :
    ∃ later, (context.recount tally).applyAll events =
      (context.applyAll events).recount later := by
  induction events generalizing context tally with
  | nil => exact ⟨tally, rfl⟩
  | cons event events ih =>
    obtain ⟨between, hstep⟩ := context.exists_recount_apply tally event
    obtain ⟨later, hrest⟩ := ih (context.apply event) between
    refine ⟨later, ?_⟩
    show ((context.recount tally).apply event).applyAll events = _
    rw [hstep, hrest]
    rfl

/-- No outline depends on the tally. -/
theorem document_scanTokens (file : String) (tokens : List Token) (options : ScanOptions)
    (tally other : Tally) :
    (scanTokens file tokens options other).1 = (scanTokens file tokens options tally).1 := by
  obtain ⟨later, h⟩ := (Context.new file tally options).exists_recount_applyAll
    (Context.new file other options).tally
    (({ unread := tokens } : TokenStream).readScope options.ignoredConstants 0).events
  have hdocument := congrArg Context.document h
  exact hdocument

def Context.entrance (context : Context) (event : Event) : List (NamespaceId × String) :=
  match event with
  | .entered name => [(context.container, name)]
  | _ => []

/-- The namespaces that the events enter, in order; one that is opened again comes again. -/
def Context.entrances (context : Context) : List Event → List (NamespaceId × String)
  | [] => []
  | event :: events => context.entrance event ++ (context.apply event).entrances events

def scanEntrances (file : String) (tokens : List Token) (options : ScanOptions) (tally : Tally) :
    List (NamespaceId × String) :=
  let stream : TokenStream := { unread := tokens }
  (Context.new file tally options).entrances
    (stream.readScope options.ignoredConstants 0).events

def Namespace.key (space : Namespace) : Option NamespaceId × String :=
  (space.parent, space.name)

/-- After the root there is one namespace for each entrance, in order of first occurrence. -/
def Document.Entered (document : Document) (entrances : List (NamespaceId × String)) : Prop :=
  document.namespaces.map Namespace.key =
    (none, rootName) :: entrances.eraseDups.map fun entrance => (some entrance.1, entrance.2)

theorem Document.Entered.mem_keys_iff {document : Document}
    {entrances : List (NamespaceId × String)} (h : document.Entered entrances)
    (parent : NamespaceId) (name : String) :
    (some parent, name) ∈ document.namespaces.map Namespace.key ↔ (parent, name) ∈ entrances := by
  rw [h]
  simp

theorem Document.Entered.namespaceCount {document : Document}
    {entrances : List (NamespaceId × String)} (h : document.Entered entrances) :
    document.namespaceCount = entrances.eraseDups.length + 1 := by
  have hl := congrArg List.length h
  rw [List.length_map, List.length_cons, List.length_map] at hl
  exact hl

/-- The namespaces inside one are found by their names. -/
theorem Document.WellFormed.mem_namespaceKeys_iff {document : Document} (h : document.WellFormed)
    (parent : NamespaceId) (name : String) :
    (some parent, name) ∈ document.namespaces.map Namespace.key ↔
      ∃ id, document.findChild? parent name = some id := by
  constructor
  · intro hm
    obtain ⟨space, hspace, hk⟩ := List.mem_map.mp hm
    obtain ⟨hp, hn⟩ := Prod.mk.inj hk
    obtain ⟨id, hs⟩ := List.mem_iff_getElem?.mp hspace
    have hparent := (Document.parent?_eq hs).trans hp
    have hname := (Document.namespaceName?_eq hs).trans (congrArg some hn)
    exact ⟨id, h.findChild?_iff.mpr ⟨hparent, hname⟩⟩
  · rintro ⟨id, hf⟩
    obtain ⟨hp, hn⟩ := h.findChild?_iff.mp hf
    obtain ⟨space, hs, hn⟩ := Option.map_eq_some_iff.mp hn
    rw [Document.parent?_eq hs] at hp
    exact List.mem_map.mpr ⟨space, List.mem_of_getElem? hs, by rw [Namespace.key, hp, hn]⟩

theorem Document.namespaceKeys_modifyNamespace (document : Document) (id : NamespaceId)
    (change : Namespace → Namespace) (keeps : ∀ space, (change space).key = space.key) :
    (document.modifyNamespace id change).namespaces.map Namespace.key =
      document.namespaces.map Namespace.key :=
  map_modify_of_keeps keeps document.namespaces id

theorem Context.namespaceKeys_declare (context : Context) (declaration : Declaration) :
    (context.declare declaration).document.namespaces.map Namespace.key =
      context.document.namespaces.map Namespace.key := by
  cases hf : context.document.findTask? context.container declaration.name with
  | some id =>
    rw [Context.declare_of_known hf]
    rfl
  | none =>
    rw [Context.declare_of_new hf, Document.addTask_of_fresh hf]
    exact context.document.namespaceKeys_modifyNamespace context.container _ fun _ => rfl

/-- A namespace is made when its parent and name come for the first time. -/
theorem Context.WellFormed.entered_enter {context : Context} (h : context.WellFormed)
    {entrances : List (NamespaceId × String)} (he : context.document.Entered entrances)
    (name : String) :
    (context.enter name).document.Entered (entrances ++ [(context.container, name)]) := by
  have hknown := (he.mem_keys_iff context.container name).symm.trans
    (h.document.mem_namespaceKeys_iff context.container name)
  rw [Document.Entered, eraseDups_concat]
  cases hf : context.document.findChild? context.container name with
  | some id =>
    rw [if_pos (hknown.mpr ⟨id, hf⟩), Context.enter_of_known hf]
    exact he
  | none =>
    have hfresh : (context.container, name) ∉ entrances := by
      intro hm
      obtain ⟨id, hid⟩ := hknown.mp hm
      exact absurd (hf.symm.trans hid) (by simp)
    have hkeys := context.document.namespaceKeys_modifyNamespace context.container
      (fun space =>
        { space with children := space.children ++ [context.document.namespaceCount] })
      fun _ => rfl
    rw [if_neg hfresh, Context.enter_of_new hf, List.map_append, ← List.cons_append, ← he,
      ← hkeys]
    exact List.map_append

theorem Context.WellFormed.entered_apply {context : Context} (h : context.WellFormed)
    {entrances : List (NamespaceId × String)} (he : context.document.Entered entrances)
    (event : Event) :
    (context.apply event).document.Entered (entrances ++ context.entrance event) := by
  cases event with
  | entered name => exact h.entered_enter he name
  | declared declaration =>
    show Document.Entered _ (entrances ++ [])
    rw [List.append_nil]
    exact (context.namespaceKeys_declare declaration).trans he
  | included constant =>
    show Document.Entered _ (entrances ++ [])
    rw [List.append_nil]
    have hkeys := context.document.namespaceKeys_modifyNamespace context.container
      (fun space => { space with includes := space.includes ++ [constant] }) fun _ => rfl
    exact hkeys.trans he
  | described | left | required =>
    show Document.Entered _ (entrances ++ [])
    rw [List.append_nil]
    exact he

theorem Context.WellFormed.entered_applyAll {context : Context} (h : context.WellFormed)
    {entrances : List (NamespaceId × String)} (he : context.document.Entered entrances)
    (events : List Event) :
    (context.applyAll events).document.Entered (entrances ++ context.entrances events) := by
  induction events generalizing context entrances with
  | nil =>
    rw [Context.entrances, List.append_nil]
    exact he
  | cons event events ih =>
    rw [Context.entrances, ← List.append_assoc]
    exact ih (h.apply event) (h.entered_apply he event)

theorem namespaceCount_scanTokens (file : String) (tokens : List Token) (options : ScanOptions)
    (tally : Tally) :
    (scanTokens file tokens options tally).1.namespaceCount =
      (scanEntrances file tokens options tally).eraseDups.length + 1 := by
  have hroot : (Context.new file tally options).document.Entered [] := rfl
  exact ((Context.new_wellFormed file tally options).entered_applyAll hroot _).namespaceCount

theorem taskCount_scanTokens (file : String) (tokens : List Token) (options : ScanOptions)
    (tally : Tally) :
    (scanTokens file tokens options tally).1.taskCount =
      ((scanLog file tokens options tally).map LogEntry.key).eraseDups.length := by
  have hnone : Gathered options.captureTokens []
      (Context.new file tally options).document.tasks :=
    ⟨rfl, by simp [Context.new, Document.new]⟩
  have hkeys := ((Context.new_wellFormed file tally options).gathered_applyAll hnone
    (({ unread := tokens } : TokenStream).readScope options.ignoredConstants 0).events).keys
  have hl := congrArg List.length hkeys
  rwa [List.length_map] at hl

structure TreeRequest where
  settings : Settings
  format : OutputFormat
  file : String
  source : String

def TreeRequest.process (request : TreeRequest) (tally : Tally) :
    Except ProcessingError String × Tally :=
  processSource request.settings ⟨.tree, request.format⟩ request.file request.source tally

def TreeRequest.document (request : TreeRequest) : Document :=
  (scanSource request.file request.source request.settings.scan {}).1

/-- The tally after one request and then the next, with or without success. -/
def Tally.processAll (tally : Tally) (requests : List TreeRequest) : Tally :=
  requests.foldl (fun tally request => (request.process tally).2) tally

theorem TreeRequest.tally_process (request : TreeRequest) (tally : Tally) :
    (request.process tally).2 =
      ⟨tally.files + 1, tally.namespaces + request.document.namespaceCount,
        tally.tasks + request.document.taskCount⟩ := by
  have hdocument := document_scanTokens request.file (lex request.source) request.settings.scan
    tally {}
  rw [TreeRequest.document, scanSource, hdocument]
  exact tally_scanTokens request.file (lex request.source) request.settings.scan tally

theorem Tally.processAll_eq (tally : Tally) (requests : List TreeRequest) :
    tally.processAll requests =
      ⟨tally.files + requests.length,
        tally.namespaces + (requests.map (·.document.namespaceCount)).sum,
        tally.tasks + (requests.map (·.document.taskCount)).sum⟩ := by
  induction requests generalizing tally with
  | nil => rfl
  | cons request requests ih =>
    show (request.process tally).2.processAll requests = _
    rw [ih, request.tally_process, List.map_cons, List.map_cons, List.sum_cons, List.sum_cons,
      List.length_cons]
    simp only [Tally.mk.injEq]
    omega

/-- A scan adds one file to the tally, and the namespaces and tasks of its outline, whatever the
tally was; the outline has the root, one namespace for each parent and name that are entered and
one task for each namespace and name that are declared. When trees are shown of several sources in
any order, the counts of their outlines add up. -/
theorem tally_agrees_with_outlines (tally : Tally) :
    (∀ (file : String) (tokens : List Token) (options : ScanOptions),
      let document := (scanTokens file tokens options tally).1
      (scanTokens file tokens options tally).2 =
        ⟨tally.files + 1, tally.namespaces + document.namespaceCount,
          tally.tasks + document.taskCount⟩ ∧
      (∀ other, (scanTokens file tokens options other).1 = document) ∧
      document.namespaceCount = (scanEntrances file tokens options tally).eraseDups.length + 1 ∧
      document.taskCount =
        ((scanLog file tokens options tally).map LogEntry.key).eraseDups.length) ∧
    ∀ requests reordered : List TreeRequest, requests.Perm reordered →
      tally.processAll reordered =
        ⟨tally.files + requests.length,
          tally.namespaces + (requests.map (·.document.namespaceCount)).sum,
          tally.tasks + (requests.map (·.document.taskCount)).sum⟩ := by
  constructor
  · intro file tokens options
    exact ⟨tally_scanTokens file tokens options tally,
      document_scanTokens file tokens options tally,
      namespaceCount_scanTokens file tokens options tally,
      taskCount_scanTokens file tokens options tally⟩
  · intro requests reordered hperm
    rw [Tally.processAll_eq, hperm.length_eq, (hperm.map _).sum_nat, (hperm.map _).sum_nat]

/-- The first source opens a namespace twice and declares a task twice in it. -/
theorem tally_agrees_with_outlines_of_reopened :
    let settings : Settings := ⟨{}, ⟨"tree-json", 20⟩⟩
    let reopened : TreeRequest := ⟨settings, .json, "a.rake",
      "namespace :a do\ntask :x\nend\nnamespace :a do\ntask :x\nend"⟩
    let unshown : TreeRequest := ⟨settings, .simple, "b.rake", "task :x"⟩
    [reopened, unshown].Perm [unshown, reopened] ∧
      (scanEntrances "a.rake" (lex reopened.source) {} {}).length = 2 ∧
      (scanLog "a.rake" (lex reopened.source) {} {}).length = 2 ∧
      (Tally.mk 1 2 3).processAll [unshown, reopened] = ⟨3, 5, 5⟩ := by
  refine ⟨.swap .., by decide +kernel, by decide +kernel, ?_⟩
  rw [(tally_agrees_with_outlines ⟨1, 2, 3⟩).2 _ _ (.swap ..)]
  decide +kernel

end RakeOutline
