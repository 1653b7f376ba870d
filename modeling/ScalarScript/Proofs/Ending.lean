import Mathlib.Data.List.Infix
import ScalarScript.Proofs.Congruence

/-!
# How limits cut a run short

Two limits bound a run: how deeply calls may nest, and how many blocks one call may go
through.  Neither has an influence on a run that stays within it.  `Truncates` compares a
run under tighter limits with the same run under wider ones: either nothing is different, or
the tighter run was cut short, and then everything it has seen is seen by the wider run as
well.

The bound on blocks is one of the description only.  A call ends when for every bound that is
large enough it comes to the same result, and this result is not that it is out of steps.
-/

namespace ScalarScript
namespace Machine

/-! ## Runs cut short -/

/-- The events when a run is over, the latest first. -/
def history {α : Type} : EStateM.Result Stop (List Event) α → List Event
  | .ok _ events => events
  | .error _ events => events

/-- The first run is the second one, perhaps cut short for one of the given reasons. -/
structure Truncates {α : Type} (cut : Stop → Prop) (short long : Exec α) : Prop where
  /-- Both are the same, or the first has stopped with the events seen so far. -/
  agrees : ∀ events, short events = long events ∨
    ∃ stop early, short events = .error stop early ∧ cut stop ∧ early <:+ history (long events)
  /-- The second run forgets no event. -/
  keeps : ∀ events, events <:+ history (long events)

namespace Truncates

variable {α β : Type} {cut : Stop → Prop}

theorem pure (value : α) : Truncates cut (Pure.pure value) (Pure.pure value) where
  agrees := fun _ => .inl rfl
  keeps := fun events => List.suffix_refl events

theorem stop (stop : Stop) : Truncates cut (throw stop : Exec α) (throw stop) where
  agrees := fun _ => .inl rfl
  keeps := fun events => List.suffix_refl events

theorem record (event : Event) : Truncates cut (Machine.record event) (Machine.record event) where
  agrees := fun _ => .inl rfl
  keeps := fun events => List.suffix_cons event events

/-- A run that stops at once is a run cut short. -/
theorem ofStop
    {stop : Stop}
    (isCut : cut stop)
    {short long : Exec α}
    (truncates : Truncates cut short long) :
    Truncates cut (throw stop) long where
  agrees := fun events => .inr ⟨stop, events, rfl, isCut, truncates.keeps events⟩
  keeps := truncates.keeps

theorem bind
    {short long : Exec α}
    {shortNext longNext : α → Exec β}
    (first : Truncates cut short long)
    (next : ∀ value, Truncates cut (shortNext value) (longNext value)) :
    Truncates cut (short >>= shortNext) (long >>= longNext) := by
  -- what comes after the wider run only adds to its history
  have extended : ∀ events, history (long events) <:+ history ((long >>= longNext) events) := by
    intro events
    change _ <:+ history (EStateM.bind long longNext events)
    unfold EStateM.bind
    cases long events with
    | error stop later => exact List.suffix_refl _
    | ok value later => exact (next value).keeps later
  refine ⟨?_, fun events => (first.keeps events).trans (extended events)⟩
  intro events
  rcases first.agrees events with same | ⟨stop, early, stopped, isCut, seen⟩
  · change EStateM.bind short shortNext events = EStateM.bind long longNext events ∨
      ∃ stop early, EStateM.bind short shortNext events = .error stop early ∧ cut stop ∧
        early <:+ history (EStateM.bind long longNext events)
    unfold EStateM.bind
    rw [same]
    cases long events with
    | error stop later => exact .inl rfl
    | ok value later => exact (next value).agrees later
  · refine .inr ⟨stop, early, ?_, isCut, seen.trans (extended events)⟩
    change EStateM.bind short shortNext events = _
    unfold EStateM.bind
    rw [stopped]

theorem congruence (cut : Stop → Prop) : Congruence fun _ => Truncates cut where
  pure := fun _ => pure
  fail := fun _ fault => stop (.fault fault)
  record := record
  bind := fun _ _ _ _ _ _ => bind

end Truncates

/-! ## Bodies and calls -/

theorem runBlocks_truncates
    {cut : Stop → Prop}
    {short long : String → List Float → Exec Float}
    (calls : ∀ name args, Truncates cut (short name args) (long name args))
    (body : Code.Body)
    {steps wideSteps : Nat}
    (fewer : steps ≤ wideSteps)
    (stepsCut : steps = wideSteps ∨ cut .outOfSteps)
    (index : Nat)
    (frame : Frame) :
    Truncates cut (runBlocks short body steps index frame)
      (runBlocks long body wideSteps index frame) := by
  have related : RelatedCalls (fun _ => Truncates cut) short long body.ops :=
    fun _ _ callee _ _ values => calls callee values
  induction wideSteps generalizing steps index frame with
  | zero =>
      obtain rfl := Nat.le_zero.1 fewer
      exact .stop _
  | succ wideSteps inductionHypothesis =>
      cases steps with
      | zero =>
          have isCut : cut .outOfSteps := stepsCut.resolve_left (Nat.succ_ne_zero _).symm
          have whole := (Truncates.congruence cut).runBlocks_succ related
            (inductionHypothesis (Nat.le_refl _) (.inl rfl)) index frame
          exact .ofStop isCut whole
      | succ steps =>
          exact (Truncates.congruence cut).runBlocks_succ related
            (inductionHypothesis (Nat.le_of_succ_le_succ fewer)
              (stepsCut.imp_left Nat.succ.inj)) index frame

/-- Some limits are no wider than others, and where they are really tighter they are among
the reasons for cutting a run short. -/
structure Tighter
    (cut : Stop → Prop)
    (limit steps room wideLimit wideSteps wideRoom : Nat) : Prop where
  fewer : steps ≤ wideSteps
  stepsCut : steps = wideSteps ∨ cut .outOfSteps
  less : room ≤ wideRoom
  roomCut : limit = wideLimit ∧ room = wideRoom ∨
    ∀ reached, cut (.fault (.stackOverflow limit reached))

namespace Tighter

variable {cut : Stop → Prop} {limit steps room wideLimit wideSteps wideRoom : Nat}

theorem refl (cut : Stop → Prop) (limit steps room : Nat) :
    Tighter cut limit steps room limit steps room where
  fewer := Nat.le_refl _
  stepsCut := .inl rfl
  less := Nat.le_refl _
  roomCut := .inl ⟨rfl, rfl⟩

/-- The limits for the calls inside a body. -/
theorem inner
    (tighter : Tighter cut limit steps (room + 1) wideLimit wideSteps (wideRoom + 1)) :
    Tighter cut limit steps room wideLimit wideSteps wideRoom where
  fewer := tighter.fewer
  stepsCut := tighter.stepsCut
  less := Nat.le_of_succ_le_succ tighter.less
  roomCut := tighter.roomCut.imp_left fun same => ⟨same.1, Nat.succ.inj same.2⟩

/-- A call without room is cut short where there is room. -/
theorem overflows
    (tighter : Tighter cut limit steps 0 wideLimit wideSteps (wideRoom + 1))
    (reached : String) :
    cut (.fault (.stackOverflow limit reached)) :=
  tighter.roomCut.resolve_left (fun same => Nat.succ_ne_zero _ same.2.symm) reached

end Tighter

/-- A call under tighter limits is the call under wider ones, perhaps cut short. -/
theorem invoke_truncates
    {cut : Stop → Prop}
    (table : Code.Module)
    {limit steps room wideLimit wideSteps wideRoom : Nat}
    (tighter : Tighter cut limit steps room wideLimit wideSteps wideRoom)
    (name : String)
    (args : List Float) :
    Truncates cut (invoke table limit steps room name args)
      (invoke table wideLimit wideSteps wideRoom name args) := by
  induction wideRoom using Nat.strongRecOn generalizing limit steps room name args with
  | ind wideRoom inductionHypothesis =>
      unfold invoke
      cases table.find? name with
      | none => exact .stop _
      | some function =>
          dsimp only
          split
          · exact .stop _
          · cases function.body with
            | none => exact (Truncates.congruence cut).runHost name args
            | some body =>
                dsimp only
                cases wideRoom with
                | zero =>
                    obtain rfl := Nat.le_zero.1 tighter.less
                    rcases tighter.roomCut with ⟨rfl, _⟩ | isCut
                    · exact .stop _
                    · exact .ofStop (isCut name) (Truncates.stop _)
                | succ wideRoom =>
                    have bodies : ∀ {limit steps room : Nat},
                        Tighter cut limit steps room wideLimit wideSteps wideRoom → ∀ entry frame,
                          Truncates cut
                            (runBlocks (invoke table limit steps room) body steps entry frame)
                            (runBlocks (invoke table wideLimit wideSteps wideRoom) body wideSteps
                              entry frame) := by
                      intro limit steps room within entry frame
                      exact runBlocks_truncates
                        (inductionHypothesis wideRoom (Nat.lt_succ_self _) within) body
                        within.fewer within.stepsCut entry frame
                    cases body.entry? with
                    | none =>
                        cases room with
                        | zero => exact .ofStop (tighter.overflows name) (Truncates.stop _)
                        | succ room => exact .stop _
                    | some entry =>
                        cases room with
                        | zero =>
                            exact .ofStop (tighter.overflows name)
                              (bodies (.refl cut wideLimit wideSteps wideRoom) entry _)
                        | succ room => exact bodies tighter.inner entry _

/-! ## Whole calls -/

/-- Two runs of which the first is the second, perhaps cut short. -/
def Run.CutShort (cut : Stop → Prop) (short long : Run) : Prop :=
  short = long ∨ (∃ stop, short.result = .error stop ∧ cut stop) ∧ short.events <+: long.events

theorem callWithin_cutShort
    {cut : Stop → Prop}
    (table : Code.Module)
    {limit steps wideLimit wideSteps : Nat}
    (tighter : Tighter cut limit steps limit wideLimit wideSteps wideLimit)
    (name : String)
    (args : List Float) :
    (callWithin steps table limit name args).CutShort cut
      (callWithin wideSteps table wideLimit name args) := by
  have ended := (invoke_truncates table tighter name args).agrees []
  unfold callWithin
  rcases ended with same | ⟨stop, early, stopped, isCut, seen⟩
  · rw [same]
    exact .inl rfl
  · rw [stopped]
    refine .inr ⟨⟨stop, rfl, isCut⟩, ?_⟩
    revert seen
    cases invoke table wideLimit wideSteps wideLimit name args [] with
    | ok value events => exact List.reverse_prefix.2
    | error other events => exact List.reverse_prefix.2

/-- The text of a run whose events come first is printed first. -/
theorem Run.printed_of_prefix
    {short long : Run}
    (seen : short.events <+: long.events) :
    ∃ rest, long.printed = short.printed ++ rest := by
  obtain ⟨later, same⟩ := seen
  refine ⟨(⟨long.result, later⟩ : Run).printed, ?_⟩
  simp only [Run.printed, ← same, List.filterMap_append, String.join_append]

/-- The call ends in the given run: for every bound on the blocks of a call that is large
enough this is the run, and it is not out of steps. -/
structure Ends
    (table : Code.Module)
    (limit : Nat)
    (name : String)
    (args : List Float)
    (run : Run) : Prop where
  finished : run.result ≠ .error .outOfSteps
  eventually : ∃ bound, ∀ steps, bound ≤ steps → callWithin steps table limit name args = run

section

variable {table : Code.Module} {limit : Nat} {name : String} {args : List Float}

/-- A call that is not out of steps is not changed by more of them. -/
theorem ends_callWithin
    {steps : Nat}
    (finished : (callWithin steps table limit name args).result ≠ .error .outOfSteps) :
    Ends table limit name args (callWithin steps table limit name args) := by
  refine ⟨finished, steps, ?_⟩
  intro more fewer
  have tighter : Tighter (· = .outOfSteps) limit steps limit limit more limit :=
    ⟨fewer, .inr rfl, Nat.le_refl _, .inl ⟨rfl, rfl⟩⟩
  rcases callWithin_cutShort table tighter name args with same | ⟨⟨stop, stopped, rfl⟩, _⟩
  · exact same.symm
  · exact absurd stopped finished

/-- A call ends in one way. -/
theorem Ends.unique
    {run other : Run}
    (ends : Ends table limit name args run)
    (otherEnds : Ends table limit name args other) :
    run = other := by
  obtain ⟨bound, same⟩ := ends.eventually
  obtain ⟨otherBound, otherSame⟩ := otherEnds.eventually
  rw [← same (max bound otherBound) (Nat.le_max_left ..),
    ← otherSame (max bound otherBound) (Nat.le_max_right ..)]

/-- The call ends in the given run and in no other. -/
theorem Ends.iff_eq
    {run : Run}
    (ends : Ends table limit name args run)
    (other : Run) :
    Ends table limit name args other ↔ other = run :=
  ⟨fun otherEnds => otherEnds.unique ends, fun same => same ▸ ends⟩

end

/-- What a smaller limit on nested calls does to one run, for any number of steps. -/
theorem callWithin_limit
    (table : Code.Module)
    {limit larger : Nat}
    (tighter : limit ≤ larger)
    (steps : Nat)
    (name : String)
    (args : List Float) :
    (callWithin steps table limit name args).CutShort
      (fun stop => ∃ reached, stop = .fault (.stackOverflow limit reached))
      (callWithin steps table larger name args) :=
  callWithin_cutShort table
    ⟨Nat.le_refl _, .inl rfl, tighter, .inr fun reached => ⟨reached, rfl⟩⟩ name args

/-- The limit on nested calls only cuts runs short.  When a call ends under a limit, it ends
under every smaller one as well, either in the very same run or in an overflow before which it
printed the beginning of the same text.  A call that ends otherwise than in an overflow ends in
the same run under every larger limit. -/
theorem call_under_limit
    (table : Code.Module)
    {limit larger : Nat}
    (tighter : limit ≤ larger)
    (name : String)
    (args : List Float) :
    (∀ run, Ends table larger name args run →
      ∃ truncated, (∀ other, Ends table limit name args other ↔ other = truncated) ∧
        (truncated = run ∨
          (∃ reached, truncated.result = .error (.fault (.stackOverflow limit reached))) ∧
            ∃ rest, run.printed = truncated.printed ++ rest)) ∧
      ∀ run, Ends table limit name args run →
        (∀ reached, run.result ≠ .error (.fault (.stackOverflow limit reached))) →
          Ends table larger name args run := by
  constructor
  · intro run ends
    obtain ⟨bound, eventually⟩ := ends.eventually
    have reached := callWithin_limit table tighter bound name args
    rw [eventually bound (Nat.le_refl _)] at reached
    rcases reached with same | ⟨⟨stop, stopped, reached, rfl⟩, seen⟩
    · have finished : (callWithin bound table limit name args).result ≠ .error .outOfSteps := by
        rw [same]
        exact ends.finished
      exact ⟨_, (ends_callWithin finished).iff_eq, .inl same⟩
    · have finished : (callWithin bound table limit name args).result ≠ .error .outOfSteps := by
        rw [stopped]
        nofun
      exact ⟨_, (ends_callWithin finished).iff_eq,
        .inr ⟨⟨reached, stopped⟩, Run.printed_of_prefix seen⟩⟩
  · intro run ends noOverflow
    obtain ⟨bound, eventually⟩ := ends.eventually
    refine ⟨ends.finished, bound, ?_⟩
    intro steps enough
    have reached := callWithin_limit table tighter steps name args
    rw [eventually steps enough] at reached
    rcases reached with same | ⟨⟨stop, stopped, reached, rfl⟩, _⟩
    · exact same.symm
    · exact absurd stopped (noOverflow reached)

/-- Two functions that print, the first of which goes on to call the second. -/
def nested : Code.Module :=
  ⟨"nested",
    [⟨"printd", ["x"], none⟩,
      ⟨"inner", ["x"], some
        ⟨[⟨"entry", [.call 0 "printd" [.arg 0], .ret (some (.arg 0))]⟩], [⟨"r", .double⟩]⟩⟩,
      ⟨"outer", ["x"], some
        ⟨[⟨"entry", [.call 0 "printd" [.arg 0], .call 1 "inner" [.const 2],
            .ret (some (.reg 1))]⟩], [⟨"r", .double⟩, ⟨"s", .double⟩]⟩⟩]⟩

theorem call_under_limit_nested :
    ∃ run truncated, Ends nested 2 "outer" [1] run ∧ run.printed = "1\n2\n" ∧
      Ends nested 1 "outer" [1] truncated ∧
      truncated.result = .error (.fault (.stackOverflow 1 "inner")) ∧
      ∃ rest, run.printed = truncated.printed ++ rest := by
  have ends : Ends nested 2 "outer" [1] (callWithin 1 nested 2 "outer" [1]) := by
    refine ends_callWithin fun unfinished => ?_
    have passes : (callWithin 1 nested 2 "outer" [1]).result.toBool = true := by decide +kernel
    rw [unfinished] at passes
    cases passes
  have printed : (callWithin 1 nested 2 "outer" [1]).printed = "1\n2\n" := by decide +kernel
  have overflows : (callWithin 1 nested 1 "outer" [1]).result =
      .error (.fault (.stackOverflow 1 "inner")) := by decide +kernel
  have truncatedEnds : Ends nested 1 "outer" [1] (callWithin 1 nested 1 "outer" [1]) :=
    ends_callWithin (by rw [overflows]; nofun)
  obtain ⟨truncated, only, came⟩ :=
    (call_under_limit nested (show 1 ≤ 2 by decide) "outer" [1]).1 _ ends
  obtain rfl := (only _).1 truncatedEnds
  refine ⟨_, _, ends, printed, truncatedEnds, overflows, ?_⟩
  rcases came with same | ⟨_, earlier⟩
  · exact ⟨"", by rw [same, String.append_empty]⟩
  · exact earlier

end Machine
end ScalarScript
