import Vivarium.Proofs.Sim.Engine

/-! The counter of steps. It counts one for a step that is completed and none for a step that fails,
whatever the turns of the agents come to, and nothing else writes it. So steps are never left out and
never made twice, and the loop that runs up to the configured end comes to its end. -/
namespace Vivarium

/-- The number of a step, if its begin is told. -/
def Notice.started? : Notice → Option Step
  | .started step => some step
  | _ => none

namespace Step

/-- The step `count` steps later, for a counter that begins again at zero. -/
def later (s : Step) (count : Nat) : Step := ⟨s.val + .ofNat count⟩

theorem later_zero (s : Step) : s.later 0 = s := by
  simp [later]

theorem later_succ (s : Step) (count : Nat) : s.later (count + 1) = s.next.later count := by
  simp only [later, next_val, UInt64.ofNat_add, Step.mk.injEq]
  rw [UInt64.add_comm (.ofNat count), ← UInt64.add_assoc]
  rfl

/-- As far as the counter reaches. -/
theorem later_index {s : Step} {count : Nat} (fits : s.index + count < UInt64.size) :
    (s.later count).index = s.index + count := by
  have small : (UInt64.ofNat count).toNat = count := UInt64.toNat_ofNat_of_lt' (by omega)
  rw [index, later, UInt64.toNat_add, small]
  exact Nat.mod_eq_of_lt fits

theorem lt_iff {s t : Step} : s.val < t.val ↔ s.index < t.index := UInt64.lt_iff_toNat_lt

/-- Subtraction stops at zero, as it does for natural numbers. -/
theorem since_toNat (s earlier : Step) : (s.since earlier).toNat = s.index - earlier.index := by
  rw [since]
  split
  · rename_i le
    exact UInt64.toNat_sub_of_le _ _ le
  · rename_i more
    have less : s.index < earlier.index := lt_iff.mp (UInt64.not_le.mp more)
    rw [Nat.sub_eq_zero_of_le less.le]
    rfl

end Step

namespace Sim
variable {σ μ η : Type} {s s' s'' t : Sim σ μ η} {now : Step} {e : SimError}
  {summary : StepSummary} {summaries : List StepSummary}

/-- The numbers of the steps that were begun, completed or not. -/
def started (s : Sim σ μ η) : List Step := s.journal.toList.filterMap Notice.started?

/-- From one state to another without a step in between. -/
structure Unclocked (s s' : Sim σ μ η) : Prop where
  step : s'.step = s.step
  config : s'.config = s.config
  started : s'.started = s.started

namespace Unclocked

theorem refl (s : Sim σ μ η) : s.Unclocked s := ⟨rfl, rfl, rfl⟩

theorem trans (first : s.Unclocked s') (second : s'.Unclocked s'') : s.Unclocked s'' where
  step := second.step.trans first.step
  config := second.config.trans first.config
  started := second.started.trans first.started

theorem note (s : Sim σ μ η) {n : Notice} (other : n.started? = none) : s.Unclocked (s.note n) :=
  ⟨rfl, rfl, by simp [Sim.started, Sim.note, other]⟩

/-! What a step consists of besides its begin and its end. -/

theorem deliver (s : Sim σ μ η) : s.Unclocked s.deliver.2 := by
  let kept (x : Nat × Sim σ μ η) : Prop := s.Unclocked x.2
  have copy : ∀ (m : Message μ) (x : Nat × Sim σ μ η) (id : AgentId),
      kept x → kept (deliverTo m x id) := by
    intro m x id before
    rw [deliverTo]
    split
    · exact before.trans ⟨rfl, rfl, rfl⟩
    · exact before
  have handed : ∀ (m : Message μ) (x : Nat × Sim σ μ η),
      kept x → kept (m.recipients.foldl (deliverTo m) x) := fun m x before =>
    List.foldlRecOn (motive := kept) _ _ before fun x before id _ => copy m x id before
  exact List.foldlRecOn (motive := kept) _ _ ⟨rfl, rfl, rfl⟩ fun x before m _ => handed m x before

theorem retire (now : Step) (s : Sim σ μ η) (a : Agent σ μ) : s.Unclocked (retire now s a) := by
  have noted : s.Unclocked (s.note (.removed now a.id a.population)) := note s rfl
  simp only [Sim.retire]
  split
  · exact noted.trans ⟨rfl, rfl, rfl⟩
  · exact noted

theorem removeQueued (s : Sim σ μ η) (now : Step) : s.Unclocked (s.removeQueued now).2 := by
  rw [removeQueued_eq]
  split
  · exact ⟨rfl, rfl, rfl⟩
  · have retired : ∀ gone : List (Agent σ μ), s.Unclocked (gone.foldl (Sim.retire now)
        { s with queues := { s.queues with removals := [] } }) := fun gone =>
      List.foldlRecOn (motive := s.Unclocked) _ _ ⟨rfl, rfl, rfl⟩ fun x before a _ =>
        before.trans (retire now x a)
    exact (retired _).trans ⟨rfl, rfl, rfl⟩

theorem activate (s : Sim σ μ η) (a : Addition σ μ η) (now : Step) :
    s.Unclocked (s.activate a now).2 := by
  simp only [Sim.activate, allocateId]
  split
  · exact refl s
  · split
    · rename_i allocated
      split at allocated
      · cases allocated
        exact ⟨rfl, rfl, rfl⟩
      · cases allocated
    · rename_i allocated
      split at allocated
      · cases allocated
      · cases allocated
        split
        · exact ⟨rfl, rfl, rfl⟩
        · refine trans ?_ (note _ rfl)
          exact ⟨rfl, rfl, rfl⟩

theorem activateAll (now : Step) (additions : List (Addition σ μ η)) (s : Sim σ μ η) :
    s.Unclocked (activateAll now additions s).2 := by
  induction additions generalizing s with
  | nil => exact refl s
  | cons a rest ih =>
    have first := activate s a now
    rcases born : s.activate a now with ⟨e | id, s'⟩
    · rw [born] at first
      simp only [Sim.activateAll, born]
      exact first
    · rw [born] at first
      simp only [Sim.activateAll, born]
      exact first.trans (ih s')

theorem modify (s : Sim σ μ η) (now : Step) (executed : Nat) :
    s.Unclocked (s.modify now executed).2 := by
  have removed := (deliver s).trans (removeQueued s.deliver.2 now)
  have moved : s.Unclocked (s.cleared now) := removed.trans ⟨rfl, rfl, rfl⟩
  have emptied : s.Unclocked { s.cleared now with
      queues := { (s.cleared now).queues with additions := [] } } := moved.trans ⟨rfl, rfl, rfl⟩
  exact emptied.trans (activateAll now (s.cleared now).queues.additions _)

/-- What agents report is no begin of a step. -/
theorem accept (s : Sim σ μ η) (now : Step) (c : Commands σ μ η) : s.Unclocked (s.accept now c) := by
  refine ⟨rfl, rfl, ?_⟩
  simp only [Sim.started, Sim.accept]
  refine List.foldlRecOn (motive := fun j : Journal =>
    j.toList.filterMap Notice.started? = s.journal.toList.filterMap Notice.started?) _ _ rfl ?_
  intro j before e _
  simp [Notice.started?, before]

/-! Calls that make no steps. -/

theorem rests (s : Sim σ μ η) {c : Call σ μ η} (rests : c.Rests) : s.Unclocked (s.after c) := by
  cases c with
  | spawn a =>
    simp only [Sim.after, Sim.spawn]
    split
    · exact refl s
    · split
      · exact refl s
      · split
        · exact refl s
        · exact activate s a s.step
  | edit id f =>
    rw [Sim.after]
    rcases edited : s.edit? id f with - | s'
    · exact refl s
    · obtain ⟨slot, a, -, rfl⟩ := edit?_eq_some edited
      exact ⟨rfl, rfl, rfl⟩
  | nextStep => exact rests.elim
  | runSteps n => exact rests.elim
  | run => exact rests.elim
  | _ => exact ⟨rfl, rfl, rfl⟩

theorem restsAll (s : Sim σ μ η) {calls : List (Call σ μ η)} (rests : ∀ c ∈ calls, c.Rests) :
    s.Unclocked (s.afterAll calls) :=
  List.foldlRecOn (motive := s.Unclocked) _ _ (refl s) fun x before c among =>
    before.trans (Unclocked.rests x (rests c among))

end Unclocked

/-! One step. -/

theorem modify_step {executed : Nat} (modified : s.modify now executed = (.ok summary, s')) :
    summary.step = now := by
  rw [modify_eq] at modified
  rcases born : (s.cleared now).activateQueued now with ⟨e | n, last⟩
  · rw [born] at modified
    cases modified
  · rw [born] at modified
    cases modified
    rfl

/-- What a step does to the counter, however it ends. -/
structure Counts (s : Sim σ μ η) (out : Except SimError StepSummary × Sim σ μ η) : Prop where
  config : out.2.config = s.config
  started : out.2.started = s.started ++ [s.step]
  completed : ∀ summary, out.1 = .ok summary → summary.step = s.step ∧ out.2.step = s.step.next
  failed : ∀ e, out.1 = .error e → out.2.step = s.step

namespace Counts

theorem stopped {e : SimError} (config : s'.config = s.config)
    (started : s'.started = s.started ++ [s.step]) (step : s'.step = s.step) :
    s.Counts (.error e, s') where
  config := config
  started := started
  completed _ ok := by cases ok
  failed _ _ := step

theorem made (config : s'.config = s.config) (started : s'.started = s.started ++ [s.step])
    (named : summary.step = s.step) (step : s'.step = s.step.next) :
    s.Counts (.ok summary, s') where
  config := config
  started := started
  completed _ ok := by
    cases ok
    exact ⟨named, step⟩
  failed _ error := by cases error

end Counts

theorem acting_started (s : Sim σ μ η) (agents : List (Agent σ μ)) (shared : Commons) :
    (s.acting agents shared).started = s.started ++ [s.step] := by
  simp [started, acting, note, Notice.started?]

/-- Whatever the turns come to, whoever made them and whatever they wrote. -/
theorem finish_counts (s : Sim σ μ η) (turns : Outcome σ μ η) :
    s.Counts (s.finish modify turns) := by
  obtain ⟨result, agents, shared⟩ := turns
  have begun := s.acting_started agents shared
  have stops : ∀ e, s.Counts (.error e, (s.acting agents shared).settle) := fun e =>
    .stopped rfl begun rfl
  cases result with
  | error cause => exact stops _
  | ok commands =>
    simp only [finish]
    split
    · exact stops _
    · have kept := (Unclocked.accept (s.acting agents shared) s.step commands).trans
        (.modify _ s.step s.agents.size)
      rcases modified : ((s.acting agents shared).accept s.step commands).modify s.step
        s.agents.size with ⟨e | summary, s'⟩
      · rw [modified] at kept
        exact .stopped kept.config (kept.started.trans begun) kept.step
      · rw [modified] at kept
        refine .made kept.config ?_ (modify_step modified) (congrArg Step.next rfl)
        exact ((Unclocked.note _ rfl).started.trans kept.started).trans begun

theorem nextStep_counts (s : Sim σ μ η) : s.Counts s.nextStep := s.finish_counts _

/-! Steps in a row. -/

/-- Steps that are completed one after the other, with their summaries. -/
inductive Completes : Sim σ μ η → List StepSummary → Sim σ μ η → Prop where
  | none {s : Sim σ μ η} : Completes s [] s
  | next {s t s' : Sim σ μ η} {summary : StepSummary} {summaries : List StepSummary} :
      s.nextStep = (.ok summary, t) → Completes t summaries s' →
      Completes s (summary :: summaries) s'

/-- How `n` steps end: all are completed, or some are and the one after them fails. -/
inductive Ends (s : Sim σ μ η) (n : Nat) (summaries : List StepSummary) :
    Except SimError Unit × Sim σ μ η → Prop where
  | completed {s' : Sim σ μ η} : s.Completes summaries s' → summaries.length = n →
      Ends s n summaries (.ok (), s')
  | failed {t s' : Sim σ μ η} {e : SimError} : s.Completes summaries t → summaries.length < n →
      t.nextStep = (.error e, s') → Ends s n summaries (.error e, s')

theorem Ends.succ {n : Nat} {out : Except SimError Unit × Sim σ μ η}
    (first : s.nextStep = (.ok summary, t)) (rest : t.Ends n summaries out) :
    s.Ends (n + 1) (summary :: summaries) out := by
  cases rest with
  | completed completes all => exact .completed (.next first completes) (congrArg (· + 1) all)
  | failed completes some fails =>
    exact .failed (.next first completes) (Nat.succ_lt_succ some) fails

theorem runSteps_ends (s : Sim σ μ η) (n : Nat) : ∃ summaries, s.Ends n summaries (s.runSteps n) := by
  induction n generalizing s with
  | zero => exact ⟨[], .completed .none rfl⟩
  | succ n ih =>
    rcases first : s.nextStep with ⟨e | summary, t⟩
    · rw [runSteps, first]
      exact ⟨[], .failed .none n.succ_pos first⟩
    · obtain ⟨summaries, rest⟩ := ih t
      rw [runSteps, first]
      exact ⟨summary :: summaries, rest.succ first⟩

theorem runSteps_add (s : Sim σ μ η) (m n : Nat) :
    s.runSteps (m + n) = match s.runSteps m with
      | (.error e, t) => (.error e, t)
      | (.ok (), t) => t.runSteps n := by
  induction m generalizing s with
  | zero => rw [Nat.zero_add, runSteps]
  | succ m ih =>
    rw [Nat.succ_add, runSteps, runSteps]
    rcases s.nextStep with ⟨e | summary, t⟩
    · rfl
    · exact ih t

theorem Completes.counter (completes : s.Completes summaries s') :
    s'.config = s.config ∧ s'.step = s.step.later summaries.length ∧
      summaries.map (·.step) = (List.range summaries.length).map s.step.later ∧
      s'.started = s.started ++ summaries.map (·.step) := by
  induction completes with
  | none => exact ⟨rfl, (Step.later_zero _).symm, rfl, (List.append_nil _).symm⟩
  | @next s t s' summary summaries first rest ih =>
    obtain ⟨config, step, numbers, started⟩ := ih
    have counts := first ▸ s.nextStep_counts
    obtain ⟨now, next⟩ := counts.completed summary rfl
    have next : t.step = s.step.next := next
    have shift : t.step.later = fun k => s.step.later (k + 1) := by
      funext k
      rw [next, Step.later_succ]
    refine ⟨config.trans counts.config, ?_, ?_, ?_⟩
    · rw [step, shift, List.length_cons]
    · rw [List.map_cons, numbers, shift, now, List.length_cons, List.range_succ_eq_map,
        List.map_cons, List.map_map, Step.later_zero]
      rfl
    · rw [started, counts.started, List.map_cons, now, List.append_assoc]
      rfl

/-- A run of at most `n` steps: how it ends, and what the counter says of it. -/
structure Ran (s : Sim σ μ η) (n : Nat) (summaries : List StepSummary)
    (out : Except SimError Unit × Sim σ μ η) : Prop where
  ends : s.Ends n summaries out
  config : out.2.config = s.config
  step : out.2.step = s.step.later summaries.length
  numbers : summaries.map (·.step) = (List.range summaries.length).map s.step.later
  /-- The counter stays at the number of a step that fails, and no step is begun after it. -/
  started : out.2.started = s.started ++ summaries.map (·.step) ++ match out.1 with
    | .ok _ => []
    | .error _ => [out.2.step]

theorem Ends.ran {n : Nat} {out : Except SimError Unit × Sim σ μ η} (ends : s.Ends n summaries out) :
    s.Ran n summaries out := by
  cases ends with
  | completed completes all =>
    obtain ⟨config, step, numbers, started⟩ := completes.counter
    exact ⟨.completed completes all, config, step, numbers, started.trans (List.append_nil _).symm⟩
  | @failed t s' e completes some fails =>
    obtain ⟨config, step, numbers, started⟩ := completes.counter
    have counts := fails ▸ t.nextStep_counts
    have stays : s'.step = t.step := counts.failed e rfl
    refine ⟨.failed completes some fails, counts.config.trans config, stays.trans step, numbers, ?_⟩
    rw [counts.started, started]
    simp only [stays]

theorem Ends.length_le {n : Nat} {out : Except SimError Unit × Sim σ μ η}
    (ends : s.Ends n summaries out) : summaries.length ≤ n := by
  cases ends with
  | completed completes all => exact all.le
  | failed completes some fails => exact some.le

/-- As long as the counter can hold them, the numbers are consecutive. -/
theorem Ran.consecutive {n : Nat} {out : Except SimError Unit × Sim σ μ η}
    (ran : s.Ran n summaries out) (fits : s.step.index + summaries.length < UInt64.size) :
    out.2.step.index = s.step.index + summaries.length ∧
      summaries.map (·.step.index) = List.range' s.step.index summaries.length := by
  constructor
  · rw [ran.step, Step.later_index fits]
  · have indices := congrArg (List.map Step.index) ran.numbers
    rw [List.map_map, List.map_map] at indices
    refine indices.trans ?_
    rw [List.range'_eq_map_range]
    apply List.map_congr_left
    intro k among
    have less := List.mem_range.mp among
    exact Step.later_index (by omega)

/-! The run to the configured end. -/

/-- The loop that makes a step as long as the counter is below `stop`: how it can end. -/
inductive Loops (stop : Step) : Sim σ μ η → Except SimError Unit × Sim σ μ η → Prop where
  | rests {s : Sim σ μ η} : ¬s.step.val < stop.val → Loops stop s (.ok (), s)
  | failed {s s' : Sim σ μ η} {e : SimError} : s.step.val < stop.val →
      s.nextStep = (.error e, s') → Loops stop s (.error e, s')
  | next {s t : Sim σ μ η} {summary : StepSummary} {out : Except SimError Unit × Sim σ μ η} :
      s.step.val < stop.val → s.nextStep = (.ok summary, t) → Loops stop t out → Loops stop s out

/-- A step that is completed brings the counter one nearer to the end. -/
theorem left_succ {stop : Step} (below : s.step.val < stop.val)
    (completed : s.nextStep = (.ok summary, t)) :
    stop.index - s.step.index = (stop.index - t.step.index) + 1 := by
  have counts := completed ▸ s.nextStep_counts
  have next : t.step = s.step.next := (counts.completed summary rfl).2
  have less := Step.lt_iff.mp below
  have bound : stop.index < UInt64.size := stop.val.toNat_lt_size
  have one : t.step.index = s.step.index + 1 := by
    rw [next, ← Step.later_zero s.step.next, ← Step.later_succ, Step.later_index (by omega)]
  omega

theorem Loops.eq_runSteps {stop : Step} {out : Except SimError Unit × Sim σ μ η}
    (loops : Loops stop s out) : out = s.runSteps (stop.index - s.step.index) := by
  induction loops with
  | rests past =>
    rw [Step.lt_iff, Nat.not_lt] at past
    rw [Nat.sub_eq_zero_of_le past]
    rfl
  | failed below fails =>
    obtain ⟨k, left⟩ := Nat.exists_eq_add_one.mpr (Nat.sub_pos_of_lt (Step.lt_iff.mp below))
    rw [left, runSteps, fails]
  | next below first _ ih => rw [left_succ below first, runSteps, first, ih]

/-- The loop comes to its end, for there are fewer and fewer steps left. -/
theorem loops_exist (stop : Step) (s : Sim σ μ η) :
    Loops stop s (s.runSteps (stop.index - s.step.index)) := by
  induction left : stop.index - s.step.index generalizing s with
  | zero =>
    refine .rests fun below => ?_
    have less := Step.lt_iff.mp below
    omega
  | succ n ih =>
    have below : s.step.val < stop.val := Step.lt_iff.mpr (by omega)
    rcases first : s.nextStep with ⟨e | summary, t⟩
    · rw [runSteps, first]
      exact .failed below first
    · rw [runSteps, first]
      refine .next below first (ih t ?_)
      have fewer := left_succ below first
      omega

theorem run_eq (s : Sim σ μ η) :
    s.run = s.runSteps (s.config.endStep.index - s.step.index) := by
  rw [run, Step.since_toNat]

/-- Up to the configured end the counter does not run over. -/
theorem run_ran (s : Sim σ μ η) : ∃ summaries,
    s.Ran (s.config.endStep.index - s.step.index) summaries s.run ∧
      s.run.2.step.index = s.step.index + summaries.length ∧
      summaries.map (·.step.index) = List.range' s.step.index summaries.length := by
  obtain ⟨summaries, ends⟩ := s.runSteps_ends (s.config.endStep.index - s.step.index)
  rw [← run_eq] at ends
  have few := ends.length_le
  have bound : s.config.endStep.index < UInt64.size := UInt64.toNat_lt_size _
  have here : s.step.index < UInt64.size := UInt64.toNat_lt_size _
  exact ⟨summaries, ends.ran, ends.ran.consecutive (by omega)⟩

/-- At its end or behind it a run does nothing. -/
theorem run_over (past : s.config.endStep.index ≤ s.step.index) : s.run = (.ok (), s) := by
  rw [run_eq, Nat.sub_eq_zero_of_le past]
  rfl

/-- Steps are counted. A step that is completed counts one and bears the number that the counter showed,
and a step that fails counts none, whatever the turns of the agents come to. Some steps in a row stop at the
first that fails, and those of two calls are those of one. The loop up to the configured end is `run` and
nothing else comes of it: without a failure it makes the steps that are left, and again it makes none; and
if it is taken up after a failure, whatever was asked for in between, the numbers go on where they
stopped. -/
theorem counting_exact (s : Sim σ μ η) :
    (∀ turns, s.Counts (s.finish modify turns)) ∧ s.Counts s.nextStep ∧
    (∀ n, ∃ summaries, s.Ran n summaries (s.runSteps n) ∧
      (s.step.index + summaries.length < UInt64.size →
        (s.runSteps n).2.step.index = s.step.index + summaries.length)) ∧
    (∀ m n, (∀ t, s.runSteps m = (.ok (), t) → s.runSteps (m + n) = t.runSteps n) ∧
      ∀ e t, s.runSteps m = (.error e, t) → s.runSteps (m + n) = (.error e, t)) ∧
    (∀ out, Loops s.config.endStep s out ↔ out = s.run) ∧
    (∃ summaries, s.Ran (s.config.endStep.index - s.step.index) summaries s.run ∧
      s.run.2.step.index = s.step.index + summaries.length ∧
      summaries.map (·.step.index) = List.range' s.step.index summaries.length) ∧
    (s.config.endStep.index ≤ s.step.index → s.run = (.ok (), s)) ∧
    (∀ t, s.run = (.ok (), t) →
      t.step.index = max s.step.index s.config.endStep.index ∧ t.run = (.ok (), t)) ∧
    ∀ calls : List (Call σ μ η), (∀ c ∈ calls, c.Rests) →
      let u := s.run.2.afterAll calls
      u.step = s.run.2.step ∧ ∃ first second,
        s.Ran (s.config.endStep.index - s.step.index) first s.run ∧
        u.Ran (s.config.endStep.index - u.step.index) second u.run ∧
        (first ++ second).map (·.step.index) =
          List.range' s.step.index (first ++ second).length := by
  refine ⟨s.finish_counts, s.nextStep_counts, ?_, ?_, ?_, s.run_ran, run_over, ?_, ?_⟩
  · intro n
    obtain ⟨summaries, ends⟩ := s.runSteps_ends n
    exact ⟨summaries, ends.ran, fun fits => (ends.ran.consecutive fits).1⟩
  · intro m n
    rw [runSteps_add]
    constructor
    · intro t completed
      rw [completed]
    · intro e t failed
      rw [failed]
  · intro out
    rw [run_eq]
    constructor
    · exact Loops.eq_runSteps
    · rintro rfl
      exact loops_exist _ s
  · intro t completed
    obtain ⟨summaries, ran, index, -⟩ := s.run_ran
    rw [completed] at ran index
    have all : summaries.length = s.config.endStep.index - s.step.index := by
      cases ran.ends with
      | completed _ all => exact all
    have config : t.config = s.config := ran.config
    have index : t.step.index = s.step.index + summaries.length := index
    refine ⟨by omega, run_over ?_⟩
    rw [config]
    omega
  · intro calls rests u
    have still : s.run.2.Unclocked u := .restsAll s.run.2 rests
    obtain ⟨first, ran, index, numbers⟩ := s.run_ran
    obtain ⟨second, ran', -, numbers'⟩ := u.run_ran
    rw [still.config, ran.config] at ran'
    refine ⟨still.step, first, second, ran, ran', ?_⟩
    rw [List.map_append, numbers, numbers', still.step, index, List.range'_append_1,
      List.length_append]

/-- A run of two steps that a birth in an unknown population breaks off before the first, and that is taken
up when the birth is discarded. -/
theorem counting_exact_ghost :
    let setup : Setup Unit Unit Unit :=
      { Setup.walkers with config := { Config.sized 1 1 with totalSteps := 2 } }
    ∃ s : Sim Unit Unit Unit, setup.build = .ok s ∧
      let waiting := s.enqueueAddition (.plain "ghost" (.placed 0.5 0.5))
      let u := waiting.run.2.afterAll [.discardQueued]
      waiting.run.1.isOk = false ∧ u.run.1 = .ok () ∧
        u.step = waiting.run.2.step ∧ u.run.2.step.index = 2 ∧ u.run.2.run = (.ok (), u.run.2) ∧
        ∃ first second, waiting.Ran 2 first waiting.run ∧ u.Ran 2 second u.run ∧
          (first ++ second).map (·.step.index) = List.range' 0 (first ++ second).length := by
  intro setup
  obtain ⟨s, built, failed, made, start, still, stop⟩ : ∃ s : Sim Unit Unit Unit,
      setup.build = .ok s ∧
      let waiting := s.enqueueAddition (.plain "ghost" (.placed 0.5 0.5))
      waiting.run.1.isOk = false ∧ (waiting.run.2.afterAll [.discardQueued]).run.1.isOk = true ∧
        waiting.step = .zero ∧ waiting.run.2.step.index = 0 ∧ waiting.config.endStep = ⟨2⟩ := by
    refine ⟨_, rfl, ?_, ?_, rfl, ?_, rfl⟩ <;> decide +kernel
  set waiting := s.enqueueAddition (.plain "ghost" (.placed 0.5 0.5))
  set u := waiting.run.2.afterAll [.discardQueued]
  have made : u.run.1 = .ok () := by
    cases ran : u.run.1 with
    | ok => rfl
    | error e => rw [ran] at made; cases made
  refine ⟨s, built, failed, made, ?_⟩
  obtain ⟨-, -, -, -, -, -, -, -, resumed⟩ := counting_exact waiting
  obtain ⟨-, -, -, -, -, -, -, whole, -⟩ := counting_exact u
  obtain ⟨same, first, second, ran, ran', numbers⟩ := resumed [.discardQueued] (by simp [Call.Rests])
  have frame : waiting.run.2.Unclocked u := .restsAll _ (by simp [Call.Rests])
  have stop' : u.config.endStep = ⟨2⟩ := by rw [frame.config, ran.config, stop]
  have next : u.step.index = 0 := by rw [same, still]
  obtain ⟨past, again⟩ := whole u.run.2 (Prod.ext made rfl)
  rw [next, stop'] at past
  rw [start] at numbers
  rw [start, stop] at ran
  rw [next, stop] at ran'
  exact ⟨same, past, again, first, second, ran, ran', numbers⟩

end Sim
end Vivarium
