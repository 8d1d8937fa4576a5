import RakeOutline.Proofs.Nesting

namespace RakeOutline

variable {ignored : List String} {back : Reader}

/-- The reader in a namespace that another reader has entered. -/
def Reader.inside (reader back : Reader) : Reader :=
  { reader with outer := reader.outer ++ ⟨back.depth, back.floor⟩ :: back.outer }

/-- A step inside a namespace, where the end of the scope leads back to the reader outside. -/
def Step.inside (step : Step) (back : Reader) : Step :=
  match step with
  | .more events later => .more events (later.inside back)
  | .done .proceed later =>
    .more ((later.finish .proceed).events ++ [.left]) { back with stream := later.stream }
  | .done flow later => .done flow (later.inside back)

/-- A reader goes on where a scope inside it has ended, or ends as that scope did. -/
def Reader.resume (ignored : List String) (back : Reader) (flow : Flow) (stream : TokenStream) :
    Reading :=
  match flow with
  | .proceed => { back with stream := stream }.run ignored
  | flow => { back with stream := stream }.finish flow

theorem Reader.closeBlock_inside {reader : Reader} (h : reader.afterCall = back.afterCall) :
    (reader.inside back).closeBlock = reader.closeBlock.inside back := by
  by_cases hends : 0 < reader.floor ∧ reader.depth - 1 ≤ reader.floor
  · simp only [Reader.closeBlock, Reader.inside, hends, and_self, if_true]
    cases ho : reader.outer with
    | nil => simp [Step.inside, Reader.finish, h]
    | cons level outer => simp [Step.inside, Reader.inside]
  · simp only [Reader.closeBlock, Reader.inside, Step.inside, hends, if_false]

theorem Reader.openNamespace_inside (reader : Reader) :
    (reader.inside back).openNamespace = reader.openNamespace.inside back := by
  simp only [Reader.openNamespace, Reader.inside]
  split <;> rfl

theorem Reader.obey_inside (directive : Directive) (token : Token) (reader : Reader) :
    (reader.inside back).obey directive token = (reader.obey directive token).inside back := by
  cases directive with
  | openNamespace => exact Reader.openNamespace_inside reader
  | describe | declare | require => rfl

theorem Reader.dispatch_inside {called : Bool} {token : Token} (hback : back.afterCall = false)
    (reader : Reader) (hcall : reader.afterCall = token.kind.isCall) :
    (reader.inside back).dispatch ignored called token =
      (reader.dispatch ignored called token).inside back := by
  cases hr : token.kind.role with
  | closer =>
    -- the scope inside keeps its own flag, and going back takes that of the reader outside
    have hend : token.kind = .endBlock := token.kind.eq_of_role.2.2.1 hr
    simp only [Reader.dispatch, hr]
    exact Reader.closeBlock_inside (by rw [hcall, hend, hback]; rfl)
  | word =>
    simp only [Reader.dispatch, hr]
    split
    · rfl
    · split
      · rfl
      · exact Reader.obey_inside _ token reader
  | comment =>
    simp only [Reader.dispatch, hr]
    split <;> rfl
  | constant | definition | method | opener | scriptEnd | plain =>
    simp only [Reader.dispatch, hr, Reader.follow, Reader.inside, Step.inside]

theorem Reader.step_inside (hback : back.afterCall = false) (reader : Reader) :
    (reader.inside back).step ignored = (reader.step ignored).inside back := by
  have hstream : (reader.inside back).stream = reader.stream := rfl
  simp only [Reader.step, hstream]
  split
  next => rfl
  next token stream _ =>
    exact Reader.dispatch_inside hback
      { reader with stream := stream, afterCall := token.kind.isCall } rfl

theorem Reader.finish_inside (flow : Flow) (reader : Reader) :
    (reader.inside back).finish flow =
      Reading.after ((reader.finish flow).events ++ [.left])
        ({ back with stream := reader.stream }.finish flow) := by
  have hlast : (reader.outer ++ ⟨back.depth, back.floor⟩ :: back.outer).getLast? =
      (⟨back.depth, back.floor⟩ :: back.outer).getLast? := by simp [List.getLast?_cons]
  simp only [Reader.finish, Reader.inside, Reading.after, hlast, map_getLast?_cons]
  simp

/-- A reader in a namespace reads the scope of the namespace and leaves it. -/
theorem Reader.run_inside (hback : back.afterCall = false) (reader : Reader) :
    (reader.inside back).run ignored =
      (back.resume ignored (reader.run ignored).flow (reader.run ignored).stream).after
        ((reader.run ignored).events ++ [.left]) := by
  induction reader using Reader.run_induction ignored with
  | done reader flow later h =>
    have hs := @Reader.step_inside ignored back hback reader
    rw [h] at hs
    cases flow with
    | proceed => exact Reader.run_of_more hs
    | endOfDocument | endOfInput =>
      rw [Reader.run_of_done hs]
      exact Reader.finish_inside _ later
  | more reader events later h ih =>
    have hs := @Reader.step_inside ignored back hback reader
    rw [h] at hs
    rw [Reader.run_of_more hs, ih, ← Reading.after_append, ← List.append_assoc]
    rfl

theorem Reader.reading_openNamespace {reader : Reader} {name : String} {rest : TokenStream}
    {scope : Reading} (hhead : reader.stream.readNamespaceHead = (.named name, rest))
    (hscope : rest.readScope ignored (reader.depth + 1) = scope)
    (hcall : reader.afterCall = false) :
    reader.openNamespace.reading ignored =
      (reader.resume ignored scope.flow scope.stream).after
        (.entered name :: (scope.events ++ [.left])) := by
  let inner : Reader := { stream := rest, depth := reader.depth + 1, floor := reader.depth + 1 }
  have hstep : reader.openNamespace = .more [.entered name] (inner.inside reader) := by
    simp [Reader.openNamespace, hhead, Reader.inside, inner, hcall]
  rw [hstep, ← hscope, Step.reading, Reader.run_inside hcall, ← Reading.after_append]
  rfl

theorem Context.apply_setDepth (context : Context) (depth : Int) (event : Event) :
    { context with depth := depth }.apply event =
      { context.apply event with depth := depth } := by
  cases event with
  | declared declaration =>
    show { context with depth := depth }.declare declaration =
      { context.declare declaration with depth := depth }
    cases hf : context.document.findTask? context.container declaration.name with
    | some id =>
      rw [@Context.declare_of_known context _ _ hf]
      exact Context.declare_of_known hf
    | none =>
      rw [@Context.declare_of_new context _ hf]
      exact Context.declare_of_new hf
  | entered name =>
    show { context with depth := depth }.enter name = { context.enter name with depth := depth }
    cases hf : context.document.findChild? context.container name with
    | some id =>
      rw [@Context.enter_of_known context _ _ hf]
      exact Context.enter_of_known hf
    | none =>
      rw [@Context.enter_of_new context _ hf]
      exact Context.enter_of_new hf
  | described | left | required | included => rfl

theorem Context.applyAll_setDepth (context : Context) (depth : Int) (events : List Event) :
    { context with depth := depth }.applyAll events =
      { context.applyAll events with depth := depth } := by
  induction events generalizing context with
  | nil => rfl
  | cons event events ih =>
    show ({ context with depth := depth }.apply event).applyAll events = _
    rw [Context.apply_setDepth, ih]
    rfl

@[simp] theorem Context.depth_applyAll (context : Context) (events : List Event) :
    (context.applyAll events).depth = context.depth := by
  have hkept := congrArg Context.depth (context.applyAll_setDepth context.depth events)
  exact hkept

/-- What a reader does from the word `namespace` on, to the `end` of the namespace, is what the
handler does: its events come back to where they began and give the handler's context, and the
reader goes on, or ends, as the handler did and at the same place in the stream. -/
theorem Context.openNamespace_eq_scanNamespace (context : Context) {reader : Reader}
    (hdepth : reader.depth = context.depth) (hcall : reader.afterCall = false) :
    ∃ events, climb 0 events = some 0 ∧
      (context.scanNamespace reader.stream).2.1 = context.applyAll events ∧
      reader.openNamespace.reading context.options.ignoredConstants =
        (reader.resume context.options.ignoredConstants (context.scanNamespace reader.stream).1
          (context.scanNamespace reader.stream).2.2).after events := by
  cases hhead : reader.stream.readNamespaceHead with
  | mk head rest =>
    cases head with
    | missing | unnamed =>
      simp only [Context.scanNamespace, Reader.openNamespace, hhead]
      exact ⟨[], rfl, rfl, rfl⟩
    | named name =>
      let scope := rest.readScope context.options.ignoredConstants (context.depth + 1)
      have hscope : rest.readScope (context.enter name).options.ignoredConstants
          (context.depth + 1) = scope := by
        simp [scope]
      have hinner : climb 1 scope.events = some 1 := climb_add (rest.climb_readScope _ _) 1
      refine ⟨.entered name :: (scope.events ++ [.left]), ?_, ?_, ?_⟩
      · exact climb_append_of_eq [.left] hinner
      · refine Eq.trans ?_ (context.applyAll_setDepth context.depth _).symm
        simp only [Context.scanNamespace, hhead, Context.scanScope, Context.applyAll_setDepth,
          hscope, Context.applyAll_cons, Context.applyAll_append]
        rfl
      · rw [Reader.reading_openNamespace hhead (by rw [hdepth] : _ = scope) hcall]
        simp only [Context.scanNamespace, hhead, Context.scanScope, hscope]

/-- A scope that begins with a namespace is the namespace and the scope after it. -/
theorem Context.scanScope_of_namespace (context : Context) {stream after : TokenStream}
    {token : Token} (hn : stream.next = (some token, after)) (hkind : token.kind = .identifier)
    (htext : token.text = "namespace") :
    context.scanScope stream =
      match context.scanNamespace after with
      | (.proceed, inner, rest) => inner.scanScope rest
      | aborted => aborted := by
  let ignored := context.options.ignoredConstants
  let reader : Reader := { stream := after, depth := context.depth, floor := context.depth }
  have hstep : { stream, depth := context.depth, floor := context.depth : Reader }.step ignored =
      reader.openNamespace := by
    simp [Reader.step, hn, Reader.dispatch, hkind, htext, TokenKind.role, TokenKind.isCall,
      Directive.ofIdentifier?, Reader.obey, reader]
  obtain ⟨events, _, happly, hread⟩ :=
    context.openNamespace_eq_scanNamespace (rfl : reader.depth = context.depth) rfl
  rw [Context.scanScope, TokenStream.readScope, Reader.run_eq, hstep, hread]
  generalize context.scanNamespace reader.stream = scanned at happly
  obtain ⟨flow, inner, rest⟩ := scanned
  obtain rfl : inner = context.applyAll events := happly
  cases flow with
  | proceed =>
    simp only [Reader.resume, Reading.after, Context.scanScope, Context.applyAll_append,
      Context.depth_applyAll, Context.options_applyAll]
    rfl
  | endOfDocument | endOfInput =>
    simp only [Reader.resume, Reading.after, Context.applyAll_append]
    exact congrArg (_, ·, rest) (context.applyAll_setDepth context.depth events).symm

end RakeOutline
