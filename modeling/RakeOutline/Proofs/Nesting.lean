import Mathlib.Data.Nat.PSub
import RakeOutline.Proofs.Reachable
import RakeOutline.Proofs.Run
import RakeOutline.Proofs.Skips

namespace RakeOutline

/-- How far inside the scan is after an event. Nothing if the event leaves the namespace where the
count began. -/
def Event.climb (height : Nat) : Event → Option Nat
  | .entered _ => some (height + 1)
  | .left => height.ppred
  | _ => some height

def climb (height : Nat) (events : List Event) : Option Nat :=
  events.foldlM Event.climb height

@[simp] theorem climb_nil (height : Nat) : climb height [] = some height :=
  rfl

@[simp] theorem climb_cons (height : Nat) (event : Event) (events : List Event) :
    climb height (event :: events) = (event.climb height).bind (climb · events) :=
  rfl

theorem climb_append (height : Nat) (first second : List Event) :
    climb height (first ++ second) = (climb height first).bind (climb · second) :=
  List.foldlM_append

theorem climb_append_of_eq {height middle : Nat} {first : List Event} (second : List Event)
    (h : climb height first = some middle) :
    climb height (first ++ second) = climb middle second := by
  rw [climb_append, h, Option.bind_some]

theorem climb_map {α : Type} {f : α → Event}
    (h : ∀ x height, (f x).climb height = some height) (xs : List α) (height : Nat) :
    climb height (xs.map f) = some height := by
  induction xs with
  | nil => rfl
  | cons x xs ih => simp [h, ih]

/-- Events that climb from one height climb as far from a greater one. -/
theorem climb_add {height later : Nat} {events : List Event}
    (h : climb height events = some later) (n : Nat) :
    climb (height + n) events = some (later + n) := by
  induction events generalizing height with
  | nil =>
    obtain rfl : height = later := Option.some.inj h
    rfl
  | cons event events ih =>
    obtain ⟨middle, hm, hrest⟩ := Option.bind_eq_some_iff.mp h
    have hstep : event.climb (height + n) = some (middle + n) := by
      cases event with
      | entered name =>
        obtain rfl : height + 1 = middle := Option.some.inj hm
        exact congrArg some (Nat.add_right_comm height n 1)
      | left =>
        obtain rfl : middle + 1 = height := Nat.ppred_eq_some.mp hm
        exact Nat.ppred_eq_some.mpr (Nat.add_right_comm middle n 1)
      | described | declared | required | included =>
        obtain rfl : height = middle := Option.some.inj hm
        rfl
    simp [hstep, ih hrest]

theorem map_getLast?_cons (view : Level → Int) (level : Level) (outer : List Level)
    (other : Int) :
    ((level :: outer).getLast?.map view).getD other =
      (outer.getLast?.map view).getD (view level) := by
  rw [List.getLast?_cons]
  exact (Option.getD_map ..).symm

theorem Reader.outer_obey {directive : Directive} {token : Token} {reader later : Reader}
    {events : List Event} (h : reader.obey directive token = .more events later) :
    (later.floor = reader.floor ∧ later.outer = reader.outer ∧
        ∀ height, climb height events = some height) ∨
      ∃ name level, events = [.entered name] ∧ level.floor = reader.floor ∧
        later.outer = level :: reader.outer := by
  cases directive with
  | openNamespace =>
    simp only [Reader.obey, Reader.openNamespace] at h
    split at h
    · simp at h
    · obtain ⟨rfl, rfl⟩ := Step.more.inj h
      exact .inl ⟨rfl, rfl, fun _ => rfl⟩
    · obtain ⟨rfl, rfl⟩ := Step.more.inj h
      exact .inr ⟨_, ⟨reader.depth, reader.floor⟩, rfl, rfl, rfl⟩
  | describe | declare | require =>
    simp only [Reader.obey, Reader.follow, Step.more.injEq] at h
    obtain ⟨rfl, rfl⟩ := h
    exact .inl ⟨rfl, rfl, climb_map (fun _ _ => rfl) _⟩

theorem Reader.outer_step {ignored : List String} {reader later : Reader} {events : List Event}
    (h : reader.step ignored = .more events later) :
    (later.floor = reader.floor ∧ later.outer = reader.outer ∧
        ∀ height, climb height events = some height) ∨
      (∃ name level, events = [.entered name] ∧ level.floor = reader.floor ∧
        later.outer = level :: reader.outer) ∨
      ∃ level, events = [.left] ∧ later.floor = level.floor ∧
        reader.outer = level :: later.outer := by
  unfold Reader.step at h
  split at h
  next => simp at h
  next token stream hn =>
    cases hr : token.kind.role with
    | word =>
      simp only [Reader.dispatch, hr] at h
      split at h
      · obtain ⟨rfl, rfl⟩ := Step.more.inj h
        exact .inl ⟨rfl, rfl, fun _ => rfl⟩
      · split at h
        · obtain ⟨rfl, rfl⟩ := Step.more.inj h
          exact .inl ⟨rfl, rfl, fun _ => rfl⟩
        · rcases Reader.outer_obey h with hstays | henters
          · exact .inl hstays
          · exact .inr (.inl henters)
    | constant =>
      simp only [Reader.dispatch, hr, Reader.follow, Step.more.injEq] at h
      obtain ⟨rfl, rfl⟩ := h
      exact .inl ⟨rfl, rfl, climb_map (fun _ _ => rfl) _⟩
    | closer =>
      simp only [Reader.dispatch, hr, Reader.closeBlock] at h
      split at h
      · split at h
        · simp at h
        · next level outer ho =>
          obtain ⟨rfl, rfl⟩ := Step.more.inj h
          exact .inr (.inr ⟨level, rfl, rfl, ho⟩)
      · obtain ⟨rfl, rfl⟩ := Step.more.inj h
        exact .inl ⟨rfl, rfl, fun _ => rfl⟩
    | comment =>
      simp only [Reader.dispatch, hr] at h
      split at h
      · simp at h
      · obtain ⟨rfl, rfl⟩ := Step.more.inj h
        exact .inl ⟨rfl, rfl, fun _ => rfl⟩
    | scriptEnd => simp [Reader.dispatch, hr] at h
    | definition | method | opener | plain =>
      simp only [Reader.dispatch, hr] at h
      obtain ⟨rfl, rfl⟩ := Step.more.inj h
      exact .inl ⟨rfl, rfl, fun _ => rfl⟩

/-- As long as the namespaces outside a place stay open, the events climb as far above it as the
reader does. -/
theorem Reader.climb_step {ignored : List String} {reader later : Reader} {events : List Event}
    (place : Nat) (h : reader.step ignored = .more events later)
    (hr : place ≤ reader.outer.length) (hl : place ≤ later.outer.length) :
    climb (reader.outer.length - place) events = some (later.outer.length - place) := by
  rcases Reader.outer_step h with ⟨_, ho, hc⟩ | ⟨_, _, rfl, _, ho⟩ | ⟨_, rfl, _, ho⟩
  · rw [ho, hc]
  · have hheight : later.outer.length - place = reader.outer.length - place + 1 := by
      rw [ho, List.length_cons]
      omega
    rw [hheight]
    rfl
  · have hheight : reader.outer.length - place = later.outer.length - place + 1 := by
      rw [ho, List.length_cons]
      omega
    rw [hheight]
    rfl

theorem Reader.Reaches.climb {ignored : List String} {first second : Reader}
    {events : List Event} (h : Reader.Reaches ignored first events second) :
    climb first.outer.length events = some second.outer.length := by
  induction h with
  | refl reader => rfl
  | step hs _ ih =>
    have hstep := Reader.climb_step 0 hs (Nat.zero_le _) (Nat.zero_le _)
    rw [Nat.sub_zero, Nat.sub_zero] at hstep
    rw [climb_append_of_eq _ hstep]
    exact ih

/-- The end of the script, or a comment that ends the documented part. -/
def Token.endsScan (token : Token) : Bool :=
  token.kind = .endOfScript || (token.kind = .comment && isEndOfDocument token.text)

/-- How a run ends: no token is left, a scope with none around it is closed, or the token that was
read last ends the scan. -/
inductive Reader.Halts (reader : Reader) (later : Reader) : Prop
  | exhausted : later.stream.tokens = [] → Halts reader later
  | closed : 0 < reader.floor → reader.outer = [] → Halts reader later
  | aborted (token : Token) : reader.stream.next = (some token, later.stream) →
      token.endsScan = true → Halts reader later

/-- The last step neither enters a namespace nor leaves one. -/
theorem Reader.halts_of_done {ignored : List String} {reader later : Reader} {flow : Flow}
    (h : reader.step ignored = .done flow later) :
    later.outer = reader.outer ∧ reader.Halts later := by
  unfold Reader.step at h
  split at h
  next stream hn =>
    obtain ⟨_, rfl⟩ := Step.done.inj h
    obtain ⟨rfl, hnone⟩ := TokenStream.next_eq_none hn
    exact ⟨rfl, .exhausted hnone⟩
  next token stream hn =>
    obtain ⟨hcomment, _, _, _, hscript⟩ := token.kind.eq_of_role
    cases hr : token.kind.role with
    | word =>
      simp only [Reader.dispatch, hr] at h
      split at h
      · simp at h
      · split at h
        · simp at h
        · next directive _ =>
          cases directive with
          | openNamespace =>
            have hmissing := stream.skips_readNamespaceHead.2
            simp only [Reader.obey, Reader.openNamespace] at h
            split at h
            next hhead =>
              rw [hhead] at hmissing
              obtain ⟨_, rfl⟩ := Step.done.inj h
              exact ⟨rfl, .exhausted (hmissing rfl)⟩
            next => simp at h
            next => simp at h
          | describe | declare | require => simp [Reader.obey, Reader.follow] at h
    | closer =>
      simp only [Reader.dispatch, hr, Reader.closeBlock] at h
      split at h
      next hfloor =>
        split at h
        next houter =>
          obtain ⟨_, rfl⟩ := Step.done.inj h
          exact ⟨rfl, .closed hfloor.1 houter⟩
        next => simp at h
      next => simp at h
    | comment =>
      simp only [Reader.dispatch, hr] at h
      split at h
      next hdocument =>
        obtain ⟨_, rfl⟩ := Step.done.inj h
        exact ⟨rfl, .aborted token hn (by simp [Token.endsScan, hcomment hr, hdocument])⟩
      next => simp at h
    | scriptEnd =>
      simp only [Reader.dispatch, hr] at h
      obtain ⟨_, rfl⟩ := Step.done.inj h
      exact ⟨rfl, .aborted token hn (by simp [Token.endsScan, hscript hr])⟩
    | constant | definition | method | opener | plain =>
      simp [Reader.dispatch, hr, Reader.follow] at h

@[simp] theorem climb_lefts (n : Nat) : climb n (List.replicate n .left) = some 0 := by
  induction n with
  | zero => rfl
  | succ n ih => exact ih

/-- A run comes back to the namespace where it began, however it ends. -/
theorem Reader.climb_run (ignored : List String) (reader : Reader) :
    climb reader.outer.length (reader.run ignored).events = some 0 := by
  induction reader using Reader.run_induction ignored with
  | done reader flow later h =>
    simp [← (Reader.halts_of_done h).1, Reader.finish]
  | more reader events later h ih =>
    have hstep := Reader.climb_step 0 h (Nat.zero_le _) (Nat.zero_le _)
    rw [Nat.sub_zero, Nat.sub_zero] at hstep
    exact (climb_append_of_eq _ hstep).trans ih

theorem TokenStream.climb_readScope (ignored : List String) (depth : Int) (stream : TokenStream) :
    climb 0 (stream.readScope ignored depth).events = some 0 :=
  Reader.climb_run ignored { stream, depth, floor := depth }

/-- The namespace lies the given number of levels below another one. -/
inductive Document.Below (document : Document) (top : NamespaceId) : Nat → NamespaceId → Prop
  | here : Below document top 0 top
  | inside {height : Nat} {id parent : NamespaceId} : document.parent? id = some parent →
      Below document top height parent → Below document top (height + 1) id

theorem Document.Below.mono {before after : Document} {top id : NamespaceId} {height : Nat}
    (keeps : ∀ child parent, before.parent? child = some parent → after.parent? child = some parent)
    (h : before.Below top height id) : after.Below top height id := by
  induction h with
  | here => exact .here
  | inside hp _ ih => exact .inside (keeps _ _ hp) ih

theorem Document.Below.eq_top {document : Document} {top id : NamespaceId}
    (h : document.Below top 0 id) : id = top := by
  cases h
  rfl

theorem Document.WellFormed.not_below_root {document : Document} (h : document.WellFormed)
    {top : NamespaceId} {height : Nat} (ht : top ≠ Document.rootId) :
    ¬ document.Below top height Document.rootId := by
  intro hb
  cases hb with
  | here => exact ht rfl
  | inside hp _ =>
    have hnone := ((h.parentless_iff Document.rootId).mpr rfl).2
    simp [hnone] at hp

/-- An event that does not leave the namespace on top stays below it. -/
theorem Context.WellFormed.below_apply {context : Context} (h : context.WellFormed)
    {top : NamespaceId} {height later : Nat} {event : Event}
    (hb : context.document.Below top height context.container)
    (hc : event.climb height = some later) :
    (context.apply event).document.Below top later (context.apply event).container := by
  have keeps : ∀ child parent, context.document.parent? child = some parent →
      (context.apply event).document.parent? child = some parent :=
    fun _ _ hp => h.parent?_apply event hp
  have hkept := hb.mono keeps
  cases event with
  | entered name =>
    obtain rfl : height + 1 = later := Option.some.inj hc
    exact .inside (h.parent?_enter name) hkept
  | left =>
    cases hb with
    | here => simp [Event.climb] at hc
    | @inside height _ parent hp hrest =>
      obtain rfl : height = later := Option.some.inj hc
      have hleave : context.leave.container = parent := by
        show (context.document.parent? context.container).getD context.container = parent
        rw [hp]
        rfl
      show context.document.Below top height context.leave.container
      rwa [hleave]
  | declared declaration =>
    obtain rfl : height = later := Option.some.inj hc
    simpa [Context.apply] using hkept
  | described | required | included =>
    obtain rfl : height = later := Option.some.inj hc
    exact hkept

theorem Context.WellFormed.below_applyAll {context : Context} (h : context.WellFormed)
    {top : NamespaceId} {height later : Nat} {events : List Event}
    (hb : context.document.Below top height context.container)
    (hc : climb height events = some later) :
    (context.applyAll events).document.Below top later (context.applyAll events).container := by
  induction events generalizing context height with
  | nil =>
    obtain rfl : height = later := Option.some.inj hc
    exact hb
  | cons event events ih =>
    obtain ⟨middle, hm, hrest⟩ := Option.bind_eq_some_iff.mp hc
    exact ih (h.apply event) (h.below_apply hb hm) hrest

theorem Context.WellFormed.namespace?_apply {context : Context} (h : context.WellFormed)
    (event : Event) {id : NamespaceId} (hid : id < context.document.namespaceCount)
    (hne : id ≠ context.container) :
    (context.apply event).document.namespace? id = context.document.namespace? id := by
  cases event with
  | declared declaration =>
    show (context.declare declaration).document.namespace? id = _
    cases hf : context.document.findTask? context.container declaration.name with
    | some known =>
      rw [Context.declare_of_known hf]
      rfl
    | none =>
      rw [Context.declare_of_new hf]
      refine (Document.namespace?_addTask hf id).trans ?_
      have hother : ¬ context.container = id := fun he => hne he.symm
      simp [Task.ofDeclaration, hother]
  | entered name =>
    show (context.enter name).document.namespace? id = _
    cases hf : context.document.findChild? context.container name with
    | some child => rw [Context.enter_of_known hf]
    | none =>
      rw [Context.enter_of_new hf]
      refine (Document.namespace?_addNamespace h.container name id).trans ?_
      rw [if_neg (Nat.ne_of_lt hid), if_neg hne]
  | included constant =>
    refine (context.document.namespace?_modifyNamespace context.container id _).trans ?_
    have hother : ¬ context.container = id := fun he => hne he.symm
    simp [hother]
  | described | left | required => rfl

theorem Context.WellFormed.namespaceName?_apply {context : Context} (h : context.WellFormed)
    (event : Event) {id : NamespaceId} {name : String}
    (hn : context.document.namespaceName? id = some name) :
    (context.apply event).document.namespaceName? id = some name := by
  have hid : id < context.document.namespaceCount := by
    obtain ⟨space, hs, _⟩ := Option.map_eq_some_iff.mp hn
    exact Document.lt_namespaceCount hs
  cases event with
  | declared declaration =>
    show (context.declare declaration).document.namespaceName? id = some name
    cases hf : context.document.findTask? context.container declaration.name with
    | some known =>
      rw [Context.declare_of_known hf]
      exact hn
    | none =>
      rw [Context.declare_of_new hf]
      exact (Document.tree_addTask hf id).2.2.trans hn
  | entered other =>
    show (context.enter other).document.namespaceName? id = some name
    cases hf : context.document.findChild? context.container other with
    | some child =>
      rw [Context.enter_of_known hf]
      exact hn
    | none =>
      rw [Context.enter_of_new hf]
      simp only [Document.namespaceName?_addNamespace h.container, if_neg (Nat.ne_of_lt hid)]
      exact hn
  | included constant =>
    have hs := (context.document.sameTree_addInclude context.container constant).namespaceName?
    exact (congrFun hs id).trans hn
  | described | left | required => exact hn

theorem Context.WellFormed.namespaceName?_applyAll {context : Context} (h : context.WellFormed)
    (events : List Event) {id : NamespaceId} {name : String}
    (hn : context.document.namespaceName? id = some name) :
    (context.applyAll events).document.namespaceName? id = some name := by
  induction events generalizing context with
  | nil => exact hn
  | cons event events ih => exact ih (h.apply event) (h.namespaceName?_apply event hn)

theorem Context.WellFormed.root_applyAll {context : Context} (h : context.WellFormed)
    {top : NamespaceId} {height later : Nat} {events : List Event} (ht : top ≠ Document.rootId)
    (hb : context.document.Below top height context.container)
    (hc : climb height events = some later) :
    (context.applyAll events).document.namespace? Document.rootId =
      context.document.namespace? Document.rootId := by
  induction events generalizing context height with
  | nil => rfl
  | cons event events ih =>
    obtain ⟨middle, hm, hrest⟩ := Option.bind_eq_some_iff.mp hc
    have hne : Document.rootId ≠ context.container := by
      intro he
      rw [← he] at hb
      exact h.document.not_below_root ht hb
    exact (ih (h.apply event) (h.below_apply hb hm) hrest).trans
      (h.namespace?_apply event h.document.root_lt hne)

/-- Events that come back to the namespace where they began do not touch the root, and leaving the
namespace after them leads back there. -/
theorem Context.WellFormed.enclosed {context : Context} (h : context.WellFormed)
    (hroot : context.container = Document.rootId) (name : String) {events : List Event}
    (hc : climb 0 events = some 0) :
    ((context.enter name).applyAll events).leave.container = Document.rootId ∧
      ((context.enter name).applyAll events).document.namespace? Document.rootId =
        (context.enter name).document.namespace? Document.rootId := by
  have hentered := h.enter name
  have hparent := h.parent?_enter name
  have hnone := ((hentered.document.parentless_iff Document.rootId).mpr rfl).2
  have hinside : (context.enter name).container ≠ Document.rootId := by
    intro he
    simp [he, hnone] at hparent
  refine ⟨?_, hentered.root_applyAll hinside .here hc⟩
  have hback : ((context.enter name).applyAll events).container =
      (context.enter name).container := (hentered.below_applyAll .here hc).eq_top
  have hkept := hentered.parent?_applyAll events hparent
  show (Document.parent? _ _).getD _ = Document.rootId
  rw [hback, hkept]
  exact hroot

/-- The first task that is declared in a namespace is its only one. -/
theorem Context.WellFormed.tasksIn_declare {context : Context} (h : context.WellFormed)
    (declaration : Declaration) (hnone : context.document.taskIds context.container = []) :
    ((context.declare declaration).document.tasksIn context.container).map Task.name =
        [declaration.name] ∧
      (context.declare declaration).document.childIds = context.document.childIds ∧
      (context.declare declaration).document.namespaceName? = context.document.namespaceName? := by
  have hfresh : context.document.findTask? context.container declaration.name = none := by
    cases hf : context.document.findTask? context.container declaration.name with
    | none => rfl
    | some id =>
      have hkey := (h.document.findTask?_iff _ _ _).mp hf
      have hcount := h.document.count_taskIds context.container id
      rw [Document.container_of_taskKey?, hkey, hnone] at hcount
      simp at hcount
  let task := Task.ofDeclaration context.container context.description.text
    context.options.captureTokens declaration
  have hids := @Document.taskIds_addTask context.document task hfresh h.container context.container
  have htree := @Document.tree_addTask context.document task hfresh
  have hlast : (context.document.addTask task).2.task? context.document.taskCount = some task := by
    rw [Document.addTask_of_fresh hfresh]
    exact List.getElem?_concat_length
  rw [Context.declare_of_new hfresh]
  refine ⟨?_, funext fun id => (htree id).2.1, funext fun id => (htree id).2.2⟩
  have hhere : context.container = task.container := rfl
  rw [if_pos hhere, hnone, List.nil_append] at hids
  show (((context.document.addTask task).2.taskIds context.container).filterMap
    (context.document.addTask task).2.task?).map Task.name = [declaration.name]
  rw [hids, List.filterMap_cons, hlast]
  rfl

end RakeOutline
