import Vivarium.Proofs.Behavior.Workers

/-! What agents report in their turns. They act behind the requests of their chunk; as long as acts leave
alone what was reported before them, the reports of a step are those of its agents in their order. One
after the other, each acts on what those before it have left. -/
namespace Vivarium.Behavior
variable {σ μ η : Type}

/-- The reports of each agent that acts in its turn, behind what was reported before, and what the turns
leave. -/
inductive Told (b : Behavior σ μ η) (c : Context) :
    List (Agent σ μ) → Commons → List (List AgentEvent) → Commons → Prop where
  | done (shared) : Told b c [] shared [] shared
  | next {a a' agents buffer commands events reports shared shared' shared''} :
      b.perform c a buffer shared = (.ok commands, a', shared') →
      commands.events = buffer.events ++ events → Told b c agents shared' reports shared'' →
      Told b c (a :: agents) shared (events :: reports) shared''

/-- Some answers let an agent act without failing and report `events` behind what was reported
before. -/
def Reports (b : Behavior σ μ η) (c : Context) (a : Agent σ μ) (events : List AgentEvent) : Prop :=
  ∃ buffer surveyed x, (b.turn c a buffer).Yields c.space (fun _ => True) surveyed x ∧
    x.1 = .ok () ∧ x.2.commands.events = buffer.events ++ events

/-- Whatever the answers, acts leave alone what was reported before them. -/
def Appends (b : Behavior σ μ η) (c : Context) : Prop :=
  ∀ a buffer surveyed x, (b.turn c a buffer).Yields c.space (fun _ => True) surveyed x →
    buffer.events <+: x.2.commands.events

/-- A worker whose buffer holds the reports of the turns so far. -/
inductive Reporting (b : Behavior σ μ η) (c : Context) (chunk : List (Agent σ μ)) :
    Worker σ μ η → Commons → Prop where
  | ready {acted buffer waiting shared before reports} : before ++ waiting = chunk →
      List.Forall₂ (b.Reports c) before reports → buffer.events = reports.flatten →
      Reporting b c chunk (.ready acted buffer waiting) shared
  | acting {acted a turn waiting shared before reports buffer} : before ++ a :: waiting = chunk →
      List.Forall₂ (b.Reports c) before reports → buffer.events = reports.flatten →
      (b.turn c a buffer).Remains c.space shared.index turn →
      Reporting b c chunk (.acting acted a turn waiting) shared
  | stopped {acted cause waiting shared} :
      Reporting b c chunk (.stopped acted cause waiting) shared

variable {b : Behavior σ μ η} {c : Context} {agents agents' : List (Agent σ μ)}
  {shared shared' : Commons} {commands : Commands σ μ η} {chunk : List (Agent σ μ)}
  {w w' : Worker σ μ η} {chunks : List (List (Agent σ μ))} {ws : List (Worker σ μ η)}

/-! One after the other. -/

theorem Told.append {more : List (Agent σ μ)} {reports reports' : List (List AgentEvent)}
    {shared'' : Commons} (first : b.Told c agents shared reports shared')
    (second : b.Told c more shared' reports' shared'') :
    b.Told c (agents ++ more) shared (reports ++ reports') shared'' := by
  induction first with
  | done shared => exact second
  | next turn said _ ih => exact .next turn said (ih second)

theorem Appends.performAll (appends : b.Appends c) {buffer : Commands σ μ η}
    (views : c.space.Views shared.index)
    (ran : b.performAll c agents buffer shared = (.ok commands, agents', shared')) :
    c.space.Views shared'.index ∧ ∃ reports, b.Told c agents shared reports shared' ∧
      commands.events = buffer.events ++ reports.flatten := by
  induction agents generalizing buffer shared agents' with
  | nil =>
    cases ran
    exact ⟨views, [], .done _, (List.append_nil _).symm⟩
  | cons a rest ih =>
    have left := (b.turn c a buffer).run_views views
    obtain ⟨taken, found⟩ := views
    obtain ⟨surveyed, yields, -⟩ := (b.turn c a buffer).run_yields (fun _ => True) found trivial
    obtain ⟨events, said⟩ := appends a buffer _ _ yields
    simp only [Behavior.performAll, Behavior.perform] at ran
    rcases turn : (b.turn c a buffer).run c.space shared with ⟨⟨cause | ⟨⟨⟩⟩, draft⟩, middle⟩
    · rw [turn] at ran
      cases ran
    · rw [turn] at ran left said
      rcases others : b.performAll c rest draft.commands middle with ⟨result, rest', last⟩
      simp only [Except.map, others] at ran
      cases ran
      obtain ⟨views', reports, told, all⟩ := ih left others
      have acts : b.perform c a buffer shared = (.ok draft.commands, a.withBody draft.body, middle) := by
        rw [Behavior.perform, turn]
        rfl
      refine ⟨views', events :: reports, .next acts said.symm told, ?_⟩
      rw [all, ← said, List.flatten_cons, List.append_assoc]

theorem Appends.performChunks (appends : b.Appends c) (views : c.space.Views shared.index)
    (ran : b.performChunks c chunks shared = (.ok commands, agents', shared')) :
    ∃ reports, b.Told c chunks.flatten shared reports shared' ∧ commands.events = reports.flatten := by
  induction chunks generalizing shared commands agents' with
  | nil =>
    cases ran
    exact ⟨[], .done _, rfl⟩
  | cons chunk rest ih =>
    simp only [Behavior.performChunks] at ran
    rcases first : b.performAll c chunk .empty shared with ⟨cause | asked, chunk', middle⟩
    · rw [first] at ran
      cases ran
    · rcases others : b.performChunks c rest middle with ⟨cause | more, rest', last⟩
      · simp only [first, others] at ran
        cases ran
      · simp only [first, others, Except.map] at ran
        cases ran
        obtain ⟨views', reports, told, all⟩ := appends.performAll views first
        obtain ⟨reports', told', all'⟩ := ih views' others
        refine ⟨reports ++ reports', told.append told', ?_⟩
        have together : (asked ++ more).events = asked.events ++ more.events := rfl
        rw [together, all, all', List.flatten_append]
        rfl

/-! On workers. -/

theorem Reporting.retakes (reporting : Reporting b c chunk w shared)
    (retakes : c.space.Retakes shared.index shared'.index) : Reporting b c chunk w shared' := by
  cases reporting with
  | ready whole reported buffered => exact .ready whole reported buffered
  | acting whole reported buffered rest =>
    exact .acting whole reported buffered (rest.retakes retakes)
  | stopped => exact .stopped

theorem Reporting.step (appends : b.Appends c) (step : Worker.Steps b c w shared w' shared')
    (views : c.space.Views shared.index) (reporting : Reporting b c chunk w shared) :
    Reporting b c chunk w' shared' := by
  cases step with
  | start =>
    cases reporting with
    | ready whole reported buffered =>
      exact .acting whole reported buffered (Turn.remains_whole views _)
  | access =>
    cases reporting with
    | acting whole reported buffered rest => exact .acting whole reported buffered rest.advance
  | @finish acted a draft waiting _ =>
    cases reporting with
    | @acting _ _ _ _ _ before reports buffer whole reported buffered rest =>
      obtain ⟨surveyed, yields⟩ := rest.ends
      obtain ⟨said, events⟩ := appends _ _ _ _ yields
      have whole' : (before ++ [a]) ++ waiting = chunk := by
        rw [List.append_assoc]
        exact whole
      have reported' : List.Forall₂ (b.Reports c) (before ++ [a]) (reports ++ [said]) :=
        List.rel_append reported (.cons ⟨buffer, surveyed, _, yields, rfl, events.symm⟩ .nil)
      refine .ready whole' reported' ?_
      rw [← events, buffered, List.flatten_append, List.flatten_singleton]
  | fail => exact .stopped

/-- The reports of workers that are done. -/
theorem reports_of_done (reporting : List.Forall₂ (Reporting b c · · shared) chunks ws)
    (done : ∀ w ∈ ws, w.Done) : ∃ reports, List.Forall₂ (b.Reports c) chunks.flatten reports ∧
      Commands.events (ws.foldr (·.buffer ++ ·) .empty) = reports.flatten := by
  induction reporting with
  | nil => exact ⟨[], .nil, rfl⟩
  | cons head rest ih =>
    rw [List.forall_mem_cons] at done
    obtain ⟨⟨acted, buffer, rfl⟩, others⟩ := done
    obtain ⟨more, reported', buffered'⟩ := ih others
    cases head with
    | @ready _ _ _ _ before reports whole reported buffered =>
      rw [List.append_nil] at whole
      subst whole
      refine ⟨reports ++ more, ?_, ?_⟩
      · rw [List.flatten_cons]
        exact List.rel_append reported reported'
      · rw [List.flatten_append, ← buffered, ← buffered']
        rfl

/-- Whoever acts when, the reports are those of the agents in their order. -/
theorem Appends.ends (appends : b.Appends c) (views : c.space.Views shared.index)
    (ends : b.Ends c chunks shared (.ok commands) agents shared') :
    ∃ reports, List.Forall₂ (b.Reports c) chunks.flatten reports ∧
      commands.events = reports.flatten := by
  cases ends with
  | done runs done =>
    have fresh : List.Forall₂ (Reporting b c · · shared) chunks (chunks.map .new) := by
      rw [List.forall₂_map_right_iff, List.forall₂_same]
      exact fun chunk _ => .ready (List.nil_append chunk) .nil rfl
    have last := runs.retaking (P := Reporting b c)
      (fun step views reporting => reporting.step appends step views)
      (fun reporting retakes => reporting.retakes retakes) views fresh
    exact reports_of_done last.1 done

end Vivarium.Behavior
