import RakeOutline.Scan.Event

namespace RakeOutline

def Reading.after (events : List Event) (reading : Reading) : Reading :=
  { reading with events := events ++ reading.events }

theorem Reading.after_append (first second : List Event) (reading : Reading) :
    reading.after (first ++ second) = (reading.after second).after first := by
  simp [Reading.after]

theorem Reader.run_of_done {ignored : List String} {reader later : Reader} {flow : Flow}
    (h : reader.step ignored = .done flow later) : reader.run ignored = later.finish flow := by
  rw [Reader.run]
  split
  next flow' later' h' =>
    obtain ⟨rfl, rfl⟩ := Step.done.inj (h.symm.trans h')
    rfl
  next h' => exact absurd (h.symm.trans h') (by simp)

theorem Reader.run_of_more {ignored : List String} {reader later : Reader} {events : List Event}
    (h : reader.step ignored = .more events later) :
    reader.run ignored = (later.run ignored).after events := by
  rw [Reader.run]
  split
  next h' => exact absurd (h.symm.trans h') (by simp)
  next events' later' h' =>
    obtain ⟨rfl, rfl⟩ := Step.more.inj (h.symm.trans h')
    rfl

def Step.reading (ignored : List String) : Step → Reading
  | .more events later => (later.run ignored).after events
  | .done flow later => later.finish flow

theorem Reader.run_eq (ignored : List String) (reader : Reader) :
    reader.run ignored = (reader.step ignored).reading ignored := by
  cases h : reader.step ignored with
  | done flow later => exact Reader.run_of_done h
  | more events later => exact Reader.run_of_more h

/-- What holds when the last step is taken, and is carried back over each step before it, holds of
every run. -/
theorem Reader.run_induction {motive : Reader → Reading → Prop} (ignored : List String)
    (done : ∀ reader flow later, reader.step ignored = .done flow later →
      motive reader (later.finish flow))
    (more : ∀ reader events later, reader.step ignored = .more events later →
      motive later (later.run ignored) → motive reader ((later.run ignored).after events))
    (reader : Reader) : motive reader (reader.run ignored) := by
  cases h : reader.step ignored with
  | done flow later =>
    rw [Reader.run_of_done h]
    exact done reader flow later h
  | more events later =>
    rw [Reader.run_of_more h]
    exact more reader events later h (Reader.run_induction ignored done more later)
termination_by reader.stream.tokens.length
decreasing_by exact Reader.length_step h

theorem Reader.reads_step (ignored : List String) (reader : Reader) :
    reader.stream.Reads (reader.step ignored).stream := by
  unfold Reader.step
  split
  next stream hn => exact (TokenStream.next_eq_none hn).1 ▸ .refl reader.stream
  next token stream hn =>
    have hd := Reader.reads_dispatch ignored reader.afterCall token
      { reader with stream := stream, afterCall := token.kind.isCall }
    exact (TokenStream.takes_next hn).toReads.trans hd

theorem Reader.reads_run (ignored : List String) (reader : Reader) :
    reader.stream.Reads (reader.run ignored).stream := by
  induction reader using Reader.run_induction ignored with
  | done reader flow later h =>
    have hs := reader.reads_step ignored
    rw [h] at hs
    exact hs
  | more reader events later h ih =>
    have hs := reader.reads_step ignored
    rw [h] at hs
    exact hs.trans ih

/-- The steps that lead from one reader to another, and the events on the way. -/
inductive Reader.Reaches (ignored : List String) : Reader → List Event → Reader → Prop
  | refl (reader : Reader) : Reaches ignored reader [] reader
  | step {first second third : Reader} {events later : List Event} :
      first.step ignored = .more events second → Reaches ignored second later third →
      Reaches ignored first (events ++ later) third

theorem Reader.Reaches.trans {ignored : List String} {first second third : Reader}
    {events later : List Event} (h : Reader.Reaches ignored first events second)
    (k : Reader.Reaches ignored second later third) :
    Reader.Reaches ignored first (events ++ later) third := by
  induction h with
  | refl reader => exact k
  | step hs _ ih =>
    rw [List.append_assoc]
    exact .step hs (ih k)

theorem Reader.Reaches.run {ignored : List String} {first second : Reader} {events : List Event}
    (h : Reader.Reaches ignored first events second) :
    first.run ignored = (second.run ignored).after events := by
  induction h with
  | refl reader => rfl
  | step hs _ ih => rw [Reader.run_of_more hs, ih, Reading.after_append]

end RakeOutline
