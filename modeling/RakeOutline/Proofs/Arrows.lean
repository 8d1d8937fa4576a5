import RakeOutline.Proofs.Lockstep

namespace RakeOutline

/-- Any arrow of the first run may be cut in two in the second. -/
def Variation.arrows : Variation where
  cuts := True
  tail := []
  other := []

variable {variation : Variation} {ignored : List String}

theorem Reader.spares_of_no_tails (h : ∀ tokens, variation.Ahead tokens) (reader : Reader) :
    variation.Spares ignored reader := by
  induction reader using Reader.run_induction ignored with
  | done reader flow later hs => exact .done hs (h _) (.inr (h _))
  | more reader events later hs ih => exact .more hs (h _) ih

/-- The same task, with tokens that may differ. -/
inductive Variation.Retains (variation : Variation) : Task → Task → Prop
  | mk {task : Task} {signature body : List Token} :
      variation.within.Relates task.signature signature →
      variation.within.Relates task.body body →
      Retains variation task { task with signature, body }

theorem Variation.Redeclares.ofDeclaration {declaration declaration' : Declaration}
    (h : variation.Redeclares declaration declaration') (container : NamespaceId)
    (comment : String) (captureTokens : Bool) :
    variation.Retains (.ofDeclaration container comment captureTokens declaration)
      (.ofDeclaration container comment captureTokens declaration') := by
  cases h with
  | mk hsignature hbody =>
    cases captureTokens with
    | true => exact .mk hsignature hbody
    | false => exact .mk .rest .rest

theorem Variation.Redeclares.merge {declaration declaration' : Declaration} {task task' : Task}
    (h : variation.Redeclares declaration declaration') (ht : variation.Retains task task') :
    variation.Retains (task.merge declaration) (task'.merge declaration') := by
  cases h with
  | mk =>
    cases ht with
    | mk hsignature hbody => exact .mk hsignature hbody

theorem forall₂_modify {α β : Type} {R : α → β → Prop} {f : α → α} {g : β → β}
    (hfg : ∀ x y, R x y → R (f x) (g y)) {xs : List α} {ys : List β} (h : List.Forall₂ R xs ys)
    (i : Nat) : List.Forall₂ R (xs.modify i f) (ys.modify i g) := by
  induction h generalizing i with
  | nil => simp
  | cons hxy hrest ih =>
    cases i with
    | zero => exact .cons (hfg _ _ hxy) hrest
    | succ i => exact .cons hxy (ih i)

def Context.setTasks (tasks : List Task) (context : Context) : Context :=
  { context with document := { context.document with tasks } }

/-- The second context is the first, but for the tokens of its tasks. -/
inductive Variation.Mirrors (variation : Variation) : Context → Context → Prop
  | mk {context : Context} {tasks : List Task} :
      List.Forall₂ variation.Retains context.document.tasks tasks →
      Mirrors variation context (context.setTasks tasks)

theorem Context.apply_setTasks {event : Event} (h : event.declaration? = none)
    (tasks : List Task) (context : Context) :
    (context.setTasks tasks).apply event = (context.apply event).setTasks tasks ∧
      (context.apply event).document.tasks = context.document.tasks := by
  cases event with
  | declared => simp [Event.declaration?] at h
  | entered name =>
    cases hf : context.document.findChild? context.container name with
    | some id =>
      have hf' : (context.setTasks tasks).document.findChild?
          (context.setTasks tasks).container name = some id := hf
      simp only [Context.apply, Context.enter_of_known hf, Context.enter_of_known hf']
      exact ⟨rfl, trivial⟩
    | none =>
      have hf' : (context.setTasks tasks).document.findChild?
          (context.setTasks tasks).container name = none := hf
      simp only [Context.apply, Context.enter_of_new hf, Context.enter_of_new hf']
      exact ⟨rfl, rfl⟩
  | described | left | required | included => exact ⟨rfl, rfl⟩

/-- A new task is added at the same place, whatever tokens the tasks before it have. -/
theorem Context.declare_setTasks {context : Context} {declaration declaration' : Declaration}
    {tasks : List Task}
    (fresh : context.document.findTask? context.container declaration.name = none)
    (hname : declaration'.name = declaration.name)
    (hlength : tasks.length = context.document.tasks.length) :
    (context.setTasks tasks).declare declaration' = (context.declare declaration).setTasks
      (tasks ++ [.ofDeclaration context.container context.description.text
        context.options.captureTokens declaration']) := by
  have fresh' : (context.setTasks tasks).document.findTask? (context.setTasks tasks).container
      declaration'.name = none := by rw [hname]; exact fresh
  have hadd := @Document.addTask_of_fresh context.document (.ofDeclaration context.container
    context.description.text context.options.captureTokens declaration) fresh
  have hadd' := @Document.addTask_of_fresh (context.setTasks tasks).document (.ofDeclaration
    (context.setTasks tasks).container (context.setTasks tasks).description.text
    (context.setTasks tasks).options.captureTokens declaration') fresh'
  have htask : (Task.ofDeclaration context.container context.description.text
      context.options.captureTokens declaration').name = declaration.name := hname
  have hcount : (context.setTasks tasks).document.taskCount = context.document.taskCount := hlength
  rw [Context.declare_of_new fresh, Context.declare_of_new fresh', hadd, hadd', hcount]
  simp only [Context.setTasks, htask]
  rfl

theorem Variation.Mirrors.declare {context context' : Context}
    {declaration declaration' : Declaration} (h : variation.Mirrors context context')
    (hd : variation.Redeclares declaration declaration') :
    variation.Mirrors (context.declare declaration) (context'.declare declaration') := by
  have hname : declaration'.name = declaration.name := by cases hd; rfl
  cases h with
  | @mk tasks htasks =>
  cases hf : context.document.findTask? context.container declaration.name with
  | some id =>
    have hf' : (context.setTasks tasks).document.findTask? (context.setTasks tasks).container
        declaration'.name = some id := by rw [hname]; exact hf
    rw [Context.declare_of_known hf, Context.declare_of_known hf']
    exact .mk (forall₂_modify (fun _ _ ht => hd.merge ht) htasks id)
  | none =>
    rw [Context.declare_setTasks hf hname htasks.length_eq.symm]
    refine .mk ?_
    rw [Context.declare_of_new hf, @Document.addTask_of_fresh context.document
      (.ofDeclaration context.container context.description.text context.options.captureTokens
        declaration) hf]
    exact List.rel_append htasks (.cons (hd.ofDeclaration _ _ _) .nil)

theorem Variation.Mirrors.apply {context context' : Context} {event event' : Event}
    (h : variation.Mirrors context context') (he : variation.Repeats event event') :
    variation.Mirrors (context.apply event) (context'.apply event') := by
  cases he with
  | same hevent =>
    cases h with
    | @mk tasks htasks =>
      obtain ⟨heq, hsame⟩ := Context.apply_setTasks hevent tasks context
      rw [heq]
      exact .mk (hsame ▸ htasks)
  | declared hd => exact h.declare hd

theorem Variation.Mirrors.applyAll {context context' : Context} {events events' : List Event}
    (h : variation.Mirrors context context')
    (he : List.Forall₂ variation.Repeats events events') :
    variation.Mirrors (context.applyAll events) (context'.applyAll events') := by
  induction he generalizing context context' with
  | nil => exact h
  | cons hevent _ ih => exact ih (h.apply hevent)

/-- The two tasks differ at most in their tokens, and there only where an arrow is cut. -/
structure Task.SameButArrows (task task' : Task) : Prop where
  name : task'.name = task.name
  kind : task'.kind = task.kind
  container : task'.container = task.container
  dependencies : task'.dependencies = task.dependencies
  arguments : task'.arguments = task.arguments
  comment : task'.comment = task.comment
  text : task'.text = task.text
  line : task'.line = task.line
  signature : Variation.arrows.Relates task.signature task'.signature
  body : Variation.arrows.Relates task.body task'.body
  signatureSource : sourceOf task'.signature = sourceOf task.signature
  bodySource : sourceOf task'.body = sourceOf task.body
  hasBlock : task'.hasBlock = task.hasBlock

structure Document.SameButArrows (document document' : Document) : Prop where
  file : document'.file = document.file
  requires : document'.requires = document.requires
  namespaces : document'.namespaces = document.namespaces
  taskIndex : document'.taskIndex = document.taskIndex
  tasks : List.Forall₂ Task.SameButArrows document.tasks document'.tasks

theorem Variation.Relates.any_eq {first second : List Token} {p : Token → Bool}
    (h : variation.within.Relates first second)
    (hp : ∀ token : Token, token.kind.InArrow → p token = false) :
    second.any p = first.any p := by
  induction h with
  | rest => rfl
  | keep token _ ih => rw [List.any_cons, List.any_cons, ih]
  | cut _ harrow _ ih =>
    obtain ⟨hwhole, hleft, hright⟩ := harrow.inArrow
    simp only [List.any_cons, hp _ hwhole, hp _ hleft, hp _ hright, ih, Bool.false_or]

theorem Variation.Retains.sameButArrows {task task' : Task}
    (h : Variation.arrows.Retains task task') : task.SameButArrows task' := by
  cases h with
  | mk hsignature hbody =>
    refine ⟨rfl, rfl, rfl, rfl, rfl, rfl, rfl, rfl, hsignature, hbody, hsignature.sourceOf_eq,
      hbody.sourceOf_eq, hbody.any_eq ?_⟩
    rintro token (hk | hk | hk) <;> rw [hk] <;> rfl

/-- Cutting arrows in two changes neither the tally nor the outline, wherever the arrows stand. -/
theorem scan_ignores_cuts_of_arrows (file : String) {tokens tokens' : List Token}
    (options : ScanOptions) (tally : Tally) (h : Variation.arrows.Relates tokens tokens') :
    (scanTokens file tokens' options tally).2 = (scanTokens file tokens options tally).2 ∧
      (scanTokens file tokens options tally).1.SameButArrows
        (scanTokens file tokens' options tally).1 := by
  have hspares := @Reader.spares_of_no_tails Variation.arrows options.ignoredConstants
    (fun _ => .inl ⟨rfl, rfl⟩) { stream := { unread := tokens }, depth := 0, floor := 0 }
  have hnew : Variation.arrows.Mirrors (Context.new file tally options)
    (Context.new file tally options) := .mk .nil
  have hmirrors := hnew.applyAll (hspares.readScope h)
  rw [scanTokens_eq, scanTokens_eq]
  generalize (Context.new file tally options).applyAll
    (({ unread := tokens } : TokenStream).readScope options.ignoredConstants 0).events =
      context at hmirrors ⊢
  generalize (Context.new file tally options).applyAll
    (({ unread := tokens' } : TokenStream).readScope options.ignoredConstants 0).events =
      context' at hmirrors ⊢
  cases hmirrors with
  | mk htasks =>
    exact ⟨rfl, rfl, rfl, rfl, rfl, htasks.imp fun _ _ ht => ht.sameButArrows⟩

def Token.halves (token : Token) : List Token :=
  if token.kind = .assoc then
    [{ token with kind := .assign, text := "=" },
      { token with kind := .gt, column := token.column + 1, text := ">" }]
  else [token]

theorem Variation.relates_halves {tokens : List Token}
    (h : ∀ token ∈ tokens, token.kind = .assoc → token.text = "=>") :
    Variation.arrows.Relates tokens (tokens.flatMap Token.halves) := by
  induction tokens with
  | nil => exact .rest
  | cons token tokens ih =>
    have hrest := ih fun other hm => h other (List.mem_cons_of_mem token hm)
    rw [List.flatMap_cons, Token.halves]
    split
    next hk => exact .cut trivial ⟨hk, rfl, rfl, h token List.mem_cons_self hk⟩ hrest
    next => exact .keep token hrest

/-- Arrows after a name, in the place of a name and after an `=`. -/
theorem scan_ignores_cuts_of_arrows_everywhere :
    let tokens := lex "task :a, [:x] => [:b] do\nend\ntask => :c\ndef => x\nend\nfile 'd' = => :e\n"
    tokens.flatMap Token.halves ≠ tokens ∧
    Variation.arrows.Relates tokens (tokens.flatMap Token.halves) ∧
    (scanTokens "Rakefile" tokens {} {}).1.SameButArrows
      (scanTokens "Rakefile" (tokens.flatMap Token.halves) {} {}).1 := by
  have hrel := @Variation.relates_halves
    (lex "task :a, [:x] => [:b] do\nend\ntask => :c\ndef => x\nend\nfile 'd' = => :e\n")
    (by decide +kernel)
  exact ⟨by decide +kernel, hrel,
    (scan_ignores_cuts_of_arrows "Rakefile" {} {} hrel).2⟩

end RakeOutline
