import RakeOutline.Proofs.Merging
import RakeOutline.Proofs.Nesting
import RakeOutline.Proofs.Rendering

namespace RakeOutline

mutual

/-- How many namespaces a statement leaves open that begins with the given number of open blocks.
-/
def Statement.unclosed (depth : Int) : Statement → Nat
  | .enclose _ _ statements => unclosedIn (depth + 2) statements + if depth < 0 then 1 else 0
  | .guard _ _ statements => unclosedIn (depth + 1) statements
  | _ => 0

/-- Each namespace that stays open is one more open block for the statements after it. -/
def unclosedIn (depth : Int) : List Statement → Nat
  | [] => 0
  | statement :: statements =>
    statement.unclosed depth + unclosedIn (depth + statement.unclosed depth) statements

end

mutual

theorem Statement.unclosed_of_nonneg (statement : Statement) {depth : Int} (h : 0 ≤ depth) :
    statement.unclosed depth = 0 :=
  match statement with
  | .enclose _ _ statements => by
    have hinner := unclosedIn_of_nonneg statements (show 0 ≤ depth + 2 by omega)
    rw [Statement.unclosed, hinner, if_neg (by omega)]
  | .guard _ _ statements => unclosedIn_of_nonneg statements (show 0 ≤ depth + 1 by omega)
  | .describe .. | .declare .. | .require .. | .build .. => rfl

theorem unclosedIn_of_nonneg (statements : List Statement) {depth : Int} (h : 0 ≤ depth) :
    unclosedIn depth statements = 0 :=
  match statements with
  | [] => rfl
  | statement :: statements => by
    have hfirst := statement.unclosed_of_nonneg h
    have hrest := unclosedIn_of_nonneg statements h
    rw [unclosedIn, hfirst, Int.natCast_zero, Int.add_zero, hrest]

end

/-- The run is read from the frame and leaves namespaces open, in none of which an `end` counts. If
it leaves none, it gives the events that are expected and comes back to the frame. -/
def Strands (ignored : List String) (frame : Frame) (run : List Token) (expected : List Event)
    (unclosed : Nat) : Prop :=
  ∃ events after, Passes ignored frame run events after ∧ after.floor ≤ 0 ∧
    after.depth = frame.depth + unclosed ∧
    after.outer.length = frame.outer.length + unclosed ∧
    (unclosed = 0 → events = expected ∧ after = frame)

variable {ignored : List String}

theorem Passes.strands {frame : Frame} {run : List Token} {events : List Event}
    (h : Passes ignored frame run events frame) (hfloor : frame.floor ≤ 0) :
    Strands ignored frame run events 0 :=
  ⟨events, frame, h, hfloor, by simp, rfl, fun _ => ⟨rfl, rfl⟩⟩

theorem Strands.append {frame : Frame} {first second : List Token} {early late : List Event}
    {unclosed more : Nat} (h : Strands ignored frame first early unclosed)
    (k : ∀ between : Frame, between.floor ≤ 0 → between.depth = frame.depth + unclosed →
      Strands ignored between second late more) :
    Strands ignored frame (first ++ second) (early ++ late) (unclosed + more) := by
  obtain ⟨events, between, hp, hfloor, hdepth, houter, hsame⟩ := h
  obtain ⟨others, after, hq, hfloor', hdepth', houter', hsame'⟩ := k between hfloor hdepth
  refine ⟨events ++ others, after, hp.trans hq, hfloor', by omega, by omega, ?_⟩
  intro hzero
  obtain ⟨rfl, rfl⟩ := hsame (by omega)
  obtain ⟨rfl, rfl⟩ := hsame' (by omega)
  exact ⟨rfl, rfl⟩

theorem Passes.drops {token : Token} (frame : Frame) (hkind : token.kind = .endBlock)
    (hfloor : frame.floor ≤ 0) :
    Passes ignored frame [token] [] { frame with depth := frame.depth - 1 } := by
  have hcloses : Passes ignored _ [token] [] { frame with depth := frame.depth - 1 } :=
    Passes.closes { frame with depth := frame.depth - 1 } hkind (.inl hfloor)
  rwa [show frame.depth - 1 + 1 = frame.depth by omega] at hcloses

theorem Layout.passes_closer (layout : Layout) (i : Nat) (frame : Frame)
    (hfloor : frame.floor ≤ 0) :
    Passes ignored frame (layout.spell i [Word.closer, Word.newline]) []
      { frame with depth := frame.depth - 1 } :=
  (Passes.drops frame rfl hfloor).trans (layout.passes_newline (i + 1) _)

theorem Strands.guard {frame : Frame} {run : List Token} {expected : List Event} {unclosed : Nat}
    (layout : Layout) (condition : Condition)
    (h : Strands ignored frame.branch run expected unclosed) :
    Strands ignored frame
      (layout.spell 0 [(.ifBlock, "if"), Word.space, Word.identifier condition.word,
          Word.newline] ++
        run ++ layout.spell 4 [Word.closer, Word.newline]) expected unclosed := by
  obtain ⟨events, after, hp, hfloor, hdepth, houter, hsame⟩ := h
  have hbranch : frame.branch.depth = frame.depth + 1 := rfl
  have hall := ((Passes.branches layout condition frame).trans hp).trans
    (layout.passes_closer 4 after hfloor)
  rw [List.nil_append, List.append_nil] at hall
  refine ⟨events, _, hall, hfloor, ?_, houter, ?_⟩
  · show after.depth - 1 = frame.depth + unclosed
    omega
  · intro hzero
    obtain ⟨rfl, rfl⟩ := hsame hzero
    refine ⟨rfl, ?_⟩
    show { frame with depth := frame.depth + 1 - 1 } = frame
    rw [Int.add_sub_cancel]

/-- A namespace whose floor is never reached is entered and not left. -/
theorem Strands.enclose {frame : Frame} {run : List Token} {inner : List Event} {unclosed : Nat}
    (layout : Layout) (name : String) (expected : List Event)
    (h : Strands ignored frame.space run inner unclosed) :
    Strands ignored frame
      (layout.spell 0 [Word.identifier "namespace", Word.space, Word.symbol name, Word.space,
          Word.opener, Word.newline] ++
        run ++ layout.spell 6 [Word.closer, Word.newline]) expected (unclosed + 1) := by
  obtain ⟨events, after, hp, hfloor, hafter, houter, _⟩ := h
  have hspace : frame.space.depth = frame.depth + 2 := rfl
  have hlength : frame.space.outer.length = frame.outer.length + 1 := rfl
  have hall := ((Passes.heads layout name frame).trans hp).trans
    (layout.passes_closer 6 after hfloor)
  refine ⟨_, _, hall, hfloor, ?_, ?_, by omega⟩
  · show after.depth - 1 = frame.depth + (unclosed + 1 : Nat)
    omega
  · show after.outer.length = frame.outer.length + (unclosed + 1)
    omega

-- Above zero the statement is read as it is elsewhere. Below zero the induction is on the syntax,
-- and the frame is found again with the blocks that were left open.
mutual

theorem Statement.strands (statement : Statement) {frame : Frame} (h : frame.floor ≤ 0) :
    Strands ({} : ScanOptions).ignoredConstants frame statement.render statement.events
      (statement.unclosed frame.depth) :=
  match statement with
  | .describe layout _ =>
    ((Passes.describes frame rfl rfl (layout.skipped_space 1 true) rfl).trans
      (layout.passes_newline 3 frame)).strands h
  | .declare layout task => (task.passes layout frame).strands h
  | .require layout _ =>
    ((Passes.requires frame rfl rfl (layout.skipped_space 1 false) rfl).trans
      (layout.passes_newline 3 frame)).strands h
  | .build layout builder method block =>
    (Passes.build layout method block frame builder.recorded).strands h
  | .guard layout condition statements =>
    Strands.guard layout condition (strands_renderAll statements h)
  | .enclose layout name statements => by
    by_cases hdepth : 0 ≤ frame.depth
    · have hpasses := (Statement.enclose layout name statements).passes
        (show frame.Inside from ⟨hdepth, .inl h⟩)
      rw [Statement.unclosed_of_nonneg _ hdepth]
      exact hpasses.strands h
    · have hfloor : frame.space.floor ≤ 0 := by
        show frame.depth + 1 ≤ 0
        omega
      rw [Statement.unclosed, if_pos (by omega)]
      exact Strands.enclose layout name _ (strands_renderAll statements hfloor)

theorem strands_renderAll (statements : List Statement) {frame : Frame} (h : frame.floor ≤ 0) :
    Strands ({} : ScanOptions).ignoredConstants frame (renderAll statements)
      (eventsOf statements) (unclosedIn frame.depth statements) :=
  match statements with
  | [] => (Passes.refl frame).strands h
  | statement :: statements => (statement.strands h).append fun between hfloor hdepth => by
    rw [← hdepth]
    exact strands_renderAll statements hfloor

end

theorem Passes.strays {strays : List Token}
    (h : ∀ token ∈ strays, token.kind = .endBlock ∨ token.kind = .newline) (depth : Int) :
    Passes ignored ⟨depth, 0, []⟩ strays [] ⟨depth - closers strays, 0, []⟩ := by
  induction strays generalizing depth with
  | nil =>
    simpa using Passes.refl (⟨depth, 0, []⟩ : Frame)
  | cons token strays ih =>
    have htail := ih fun other hm => h other (List.mem_cons_of_mem token hm)
    rcases h token List.mem_cons_self with hkind | hkind
    · have hdrops : Passes ignored ⟨depth, 0, []⟩ [token] [] ⟨depth - 1, 0, []⟩ :=
        Passes.drops ⟨depth, 0, []⟩ hkind (Int.le_refl 0)
      have hdepth : depth - (closers (token :: strays) : Int) = depth - 1 - closers strays := by
        simp [hkind, TokenKind.closesBlock]
        omega
      rw [hdepth]
      exact hdrops.trans (htail (depth - 1))
    · have hnone : closers (token :: strays) = closers strays := by
        simp [hkind, TokenKind.closesBlock]
      have hline : Passes ignored ⟨depth, 0, []⟩ [token] [] ⟨depth, 0, []⟩ :=
        Passes.plain _ (by rw [hkind]; rfl) (by rw [hkind]; rfl)
      rw [hnone]
      exact hline.trans (htail depth)

@[simp] theorem renderAll_append (first second : List Statement) :
    renderAll (first ++ second) = renderAll first ++ renderAll second := by
  induction first with
  | nil => rfl
  | cons statement statements ih =>
    rw [List.cons_append, renderAll, renderAll, ih, List.append_assoc]

@[simp] theorem Context.log_append (context : Context) (first second : List Event) :
    context.log (first ++ second) = context.log first ++ (context.applyAll first).log second := by
  induction first generalizing context with
  | nil => rfl
  | cons event events ih => simp [Context.log, ih]

@[simp] theorem Context.log_leaves (context : Context) (n : Nat) :
    context.log (List.replicate n .left) = [] := by
  induction n generalizing context with
  | zero => rfl
  | succ n ih => exact ih context.leave

theorem Passes.scanLog {run : List Token} {events : List Event} {after : Frame}
    (h : Passes ({} : ScanOptions).ignoredConstants ⟨0, 0, []⟩ run events after) (file : String)
    (tally : Tally) : scanLog file run {} tally = (Context.new file tally {}).log events := by
  obtain ⟨later, hend, hreach⟩ := h.reaches
  have hlog : RakeOutline.scanLog file run {} tally = (Context.new file tally {}).log
      ((Reader.start run).run ({} : ScanOptions).ignoredConstants).events := rfl
  simp [hlog, hreach.events_run hend]

theorem Passes.document_scanTokens {run : List Token} {events : List Event} {after : Frame}
    (h : Passes ({} : ScanOptions).ignoredConstants ⟨0, 0, []⟩ run events after) (file : String)
    (tally : Tally) :
    (scanTokens file run {} tally).1 = ((Context.new file tally {}).applyAll events).document := by
  obtain ⟨later, hend, hreach⟩ := h.reaches
  exact hreach.document_scanTokens hend file tally

theorem Passes.climb {before after : Frame} {run : List Token} {events : List Event}
    (h : Passes ignored before run events after) :
    climb before.outer.length events = some after.outer.length := by
  obtain ⟨later, _, hreach⟩ := h { unread := run } [] (List.append_nil run).symm
  exact hreach.climb

/-- A namespace that begins below zero has a floor that is never reached, so its own `end` does not
close it. Statements that begin no namespace there are read as ever. -/
theorem strays_leave_namespaces_unclosed (file : String) (tally : Tally) (strays : List Token)
    (rakefile : List Statement)
    (h : ∀ token ∈ strays, token.kind = .endBlock ∨ token.kind = .newline) :
    (unclosedIn (-closers strays) rakefile = 0 →
      (scanTokens file (strays ++ renderAll rakefile) {} tally).1 =
        (scanTokens file (renderAll rakefile) {} tally).1) ∧
    ∀ layout task,
      let tokens := strays ++ renderAll (rakefile ++ [.declare layout task])
      ∃ entry, (scanLog file tokens {} tally).getLast? = some entry ∧
        entry.declaration = task.declaration layout ∧
        (scanTokens file tokens {} tally).1.Below Document.rootId
          (unclosedIn (-closers strays) rakefile) entry.container := by
  let root := Context.new file tally {}
  have hroot : root.WellFormed := Context.new_wellFormed file tally {}
  have hstrays : Passes ({} : ScanOptions).ignoredConstants ⟨0, 0, []⟩ strays []
      ⟨-closers strays, 0, []⟩ := by
    have hdepth : (0 : Int) - closers strays = -closers strays := Int.zero_sub _
    rw [← hdepth]
    exact Passes.strays h 0
  have hfloor : (⟨-closers strays, 0, []⟩ : Frame).floor ≤ 0 := Int.le_refl 0
  obtain ⟨events, after, hp, _, _, houter, hsame⟩ := strands_renderAll rakefile hfloor
  have hall := hstrays.trans hp
  rw [List.nil_append] at hall
  refine ⟨?_, ?_⟩
  · intro hzero
    obtain ⟨rfl, rfl⟩ := hsame hzero
    have hplain := passes_renderAll rakefile
      (show (⟨0, 0, []⟩ : Frame).Inside from ⟨Int.le_refl 0, .inl (Int.le_refl 0)⟩)
    rw [hall.document_scanTokens, hplain.document_scanTokens]
  · intro layout task tokens
    have htokens : tokens = strays ++ renderAll rakefile ++ task.render layout := by
      simp [tokens, renderAll, Statement.render]
    have hlast := hall.trans (task.passes layout after)
    simp only [htokens, hlast.scanLog, hlast.document_scanTokens, Context.log_append,
      Context.applyAll_append]
    refine ⟨_, List.getLast?_concat, rfl, ?_⟩
    have hopen : after.outer.length = unclosedIn (-closers strays) rakefile :=
      houter.trans (Nat.zero_add _)
    have hbelow := hroot.below_applyAll .here (hopen ▸ hall.climb)
    have hnow := hroot.applyAll events
    refine Document.Below.mono (fun _ _ hparent => ?_) hbelow
    exact hnow.parent?_apply (.declared (task.declaration layout)) hparent

/-- A stray `end` does no harm to a namespace inside a condition, and keeps open a namespace that
stands by itself. -/
theorem strays_leave_namespaces_unclosed_of_end :
    let strays : List Token := [⟨.endBlock, 1, 0, "end"⟩, ⟨.newline, 1, 3, "\n"⟩]
    let space : Statement :=
      .enclose (fun _ => (3, 0)) "db" [.declare (fun _ => (4, 0)) ⟨.task, "seed", none, none⟩]
    let inside : List Statement := [.guard (fun _ => (2, 0)) ⟨"ready", by decide⟩ [space]]
    (∀ token ∈ strays, token.kind = .endBlock ∨ token.kind = .newline) ∧
    unclosedIn (-closers strays) inside = 0 ∧
    (scanTokens "Rakefile" (strays ++ renderAll inside) {} {}).1 =
      (scanTokens "Rakefile" (renderAll inside) {} {}).1 ∧
    unclosedIn (-closers strays) [space] = 1 := by
  intro strays space inside
  have hstrays : ∀ token ∈ strays, token.kind = .endBlock ∨ token.kind = .newline := by decide
  have hnone : unclosedIn (-closers strays) inside = 0 := by decide +kernel
  obtain ⟨hsame, _⟩ := strays_leave_namespaces_unclosed "Rakefile" {} strays inside hstrays
  exact ⟨hstrays, hnone, hsame hnone, by decide +kernel⟩

theorem namespace_not_closed_after_stray :
    let strays : List Token := [⟨.endBlock, 1, 0, "end"⟩, ⟨.newline, 1, 3, "\n"⟩]
    let rakefile : List Statement :=
      [.enclose (fun _ => (2, 0)) "n" [], .declare (fun _ => (4, 0)) ⟨.task, "a", none, none⟩]
    ((scanTokens "Rakefile" (renderAll rakefile) {} {}).1.tasksIn Document.rootId).map
      Task.name = [":a"] ∧
    (scanTokens "Rakefile" (strays ++ renderAll rakefile) {} {}).1.tasksIn
      Document.rootId = [] := by
  decide +kernel

end RakeOutline
