import Vivarium.Proofs.Behavior.Workers
import Vivarium.Proofs.Sim.Modification

/-! The three ways in which a step ends: an agent fails, a birth is refused, or everything is carried
out. Nothing else can happen, because a modification that was validated does not fail. -/
namespace Vivarium.Sim
variable {σ μ η : Type} {s s' s'' : Sim σ μ η} {e : SimError} {commands : Commands σ μ η}
  {agents : List (Agent σ μ)} {shared : Commons} {turns : Outcome σ μ η} {summary : StepSummary}

/-! Validating. -/

theorem validateQueued_eq_ok :
    s.validateQueued commands = .ok () ↔
      (∀ a ∈ s.queues.additions ++ commands.additions, s.Admits a) ∧
        (s.queues.additions ++ commands.additions).length ≤ s.nextId.remaining := by
  rw [← validateAll_eq_ok, ← ensureIds_eq_ok]
  simp only [validateQueued]
  rcases s.validateAll (s.queues.additions ++ commands.additions) with e | ⟨⟨⟩⟩ <;> simp

theorem validateQueued_eq_error :
    s.validateQueued commands = .error e ↔
      (∃ before a rest, s.queues.additions ++ commands.additions = before ++ a :: rest ∧
        (∀ b ∈ before, s.Admits b) ∧ ¬s.Admits a ∧ e = s.refusal a) ∨
      (∀ a ∈ s.queues.additions ++ commands.additions, s.Admits a) ∧
        s.nextId.remaining < (s.queues.additions ++ commands.additions).length ∧
        e = .idsExhausted := by
  rw [← validateAll_eq_error, ← validateAll_eq_ok, ← ensureIds_eq_error]
  simp only [validateQueued]
  rcases s.validateAll (s.queues.additions ++ commands.additions) with e | ⟨⟨⟩⟩ <;> simp

theorem validateAll_congr (keeps : s.Keeps s') (additions : List (Addition σ μ η)) :
    s'.validateAll additions = s.validateAll additions := by
  induction additions with
  | nil => rfl
  | cons a rest ih =>
    simp only [validateAll, validateAddition, keeps.known, keeps.terrain, ih]

/-! Acting. -/

/-- What all turns keep to, whoever lets the agents act: agents write their bodies only, and take the
picture of positions anew at most. -/
structure Allows (s : Sim σ μ η) (turns : Outcome σ μ η) : Prop where
  rewritten : List.Forall₂ Agent.Rewritten s.agents.toList turns.2.1
  views : s.space.Views turns.2.2.index

/-- The simulation after a step that was broken off. -/
def brokenOff (s : Sim σ μ η) (agents : List (Agent σ μ)) (index : SpatialIndex Float) : Sim σ μ η :=
  { s with
    agents := agents.toArray
    space := s.space.pictured index
    board := .empty
    journal := s.journal.push (.started s.step)
    phase := .idle }

theorem commons_views (s : Sim σ μ η) : s.space.Views s.commons.index := ⟨false, rfl⟩

/-- How the turns of a step can come out: workers act on the chunks, in whatever order. -/
def Turned (s : Sim σ μ η) (turns : Outcome σ μ η) : Prop :=
  s.behavior.Ends s.context (chunks s.config.chunkSize.toNat s.agents.toList) s.commons turns.1
    turns.2.1 turns.2.2

theorem Turned.allows (turned : s.Turned turns) :
    s.Allows turns := by
  have rewritten := Behavior.Ends.rewritten turned
  rw [chunks_flatten] at rewritten
  exact ⟨rewritten, Behavior.Ends.views turned s.commons_views⟩

theorem execute_turned (s : Sim σ μ η) : s.Turned s.execute :=
  s.behavior.performChunks_ends s.context _ s.commons

theorem acting_keeps (s : Sim σ μ η) (agents : List (Agent σ μ)) (shared : Commons) :
    s.Keeps (s.acting agents shared) := ⟨rfl, rfl, rfl, fun _ => rfl⟩

theorem validateQueued_acting (s : Sim σ μ η) (agents : List (Agent σ μ)) (shared : Commons)
    (commands : Commands σ μ η) :
    (s.acting agents shared).validateQueued commands = s.validateQueued commands := by
  simp only [validateQueued, validateAll_congr (acting_keeps s agents shared)]
  rfl

/-! Ending. -/

theorem finish_of_refused
    (modify : Sim σ μ η → Step → Nat → Except SimError StepSummary × Sim σ μ η)
    (refused : s.validateQueued commands = .error e) :
    s.finish modify (.ok commands, agents, shared) = (.error e, s.brokenOff agents shared.index) := by
  simp only [finish, validateQueued_acting, refused]
  rfl

theorem concluded_eq_ok {now : Step} {result : Except SimError StepSummary × Sim σ μ η}
    (completed : concluded now result = (.ok summary, s')) :
    ∃ s'', result = (.ok summary, s'') ∧
      s' = { s''.settle with step := now.next }.note (.ended summary) := by
  obtain ⟨e | summary', s''⟩ := result
  · cases completed
  · cases completed
    exact ⟨s'', rfl, rfl⟩

theorem finish_of_accepted
    {modify : Sim σ μ η → Step → Nat → Except SimError StepSummary × Sim σ μ η}
    (valid : s.validateQueued commands = .ok ()) :
    s.finish modify (.ok commands, agents, shared) = concluded s.step
      (modify ((s.acting agents shared).accept s.step commands) s.step s.agents.size) := by
  simp only [finish, validateQueued_acting, valid]

/-- From one state between two calls to the next. -/
structure Proceeds (s s' : Sim σ μ η) : Prop where
  keeps : s.Keeps s'
  births : ∀ i ∈ s'.identities, i ∈ s.identities ∨ i.birthStep = s.step
  clock : s'.step = s.step ∧ s'.summaries = s.summaries ∨
    s'.step = s.step.next ∧ ∃ summary, s'.summaries = s.summaries ++ [summary]

/-- What holds between two calls. -/
structure Sound (s : Sim σ μ η) : Prop where
  consistent : s.Consistent
  idle : s.phase = .idle
  board : s.board = .empty

theorem accept_identities (rewritten : List.Forall₂ Agent.Rewritten s.agents.toList agents)
    {now : Step} : ((s.acting agents shared).accept now commands).identities = s.identities := by
  have cleared : ((s.acting agents shared).accept now commands).identities =
      agents.map Agent.identity := by
    simp only [identities, Sim.accept, acting, note, Array.toList_map, List.map_map]
    rfl
  rw [cleared, Agent.identities_eq rewritten]
  rfl

/-- What agents report is no summary. -/
theorem reported_ended (now : Step) (events : List AgentEvent) (journal : Journal) :
    (events.foldl (fun j e => j.push (.reported now e)) journal).toList.filterMap Notice.ended? =
      journal.toList.filterMap Notice.ended? := by
  induction events generalizing journal with
  | nil => rfl
  | cons e rest ih =>
    rw [List.foldl_cons, ih]
    simp [Notice.ended?]

/-- The world is handed over to the modification with all requests queued. -/
theorem Consistent.accept (consistent : s.Consistent)
    (rewritten : List.Forall₂ Agent.Rewritten s.agents.toList agents) (shared : Commons) (now : Step)
    (commands : Commands σ μ η) : s.Modified now ((s.acting agents shared).accept now commands) := by
  have same : ((s.acting agents shared).accept now commands).identities = s.identities :=
    accept_identities rewritten
  constructor
  case keeps => exact ⟨rfl, rfl, rfl, fun _ => rfl⟩
  case summaries =>
    simp only [summaries, Sim.accept, reported_ended, acting, note]
    simp [Notice.ended?]
  case births => exact fun i among => .inl (same ▸ among)
  case consistent =>
    exact consistent.of_same same rfl rfl rfl (consistent.space.of_same rfl rfl rfl) consistent.pool
      fun _ => rfl

/-- All that a step carries out: what waited before it, then what its agents asked for. -/
def requests (s : Sim σ μ η) (commands : Commands σ μ η) : Queues σ μ η :=
  (s.queues.absorb commands).1

/-- What a completed step makes of the requests `q` and the agents `acted` as their acts left them. -/
structure Completed (q : Queues σ μ η) (acted newborns : List (Agent σ μ)) (summary : StepSummary)
    (s s' : Sim σ μ η) : Prop where
  proceeds : s.Proceeds s'
  sound : s'.Sound
  step : s'.step = s.step.next
  summary : ∃ moved, summary = ⟨s.step, s.agents.size,
    (q.deliveries.flatMap (·.recipients)).countP (· ∈ s.ids), s.ids.countP q.removals.contains,
    moved, q.additions.length, s'.agents.size⟩
  agents : s'.agents.toList = (acted.filter fun a => !q.removals.contains a.id).map
    (fun a => { a with inbox := Message.copiesFor a.id q.deliveries }) ++ newborns
  ids : newborns.map (·.id.index) = List.range' s.nextId.index q.additions.length
  born : List.Forall₂ (fun a newborn => s.Born s.step a newborn ∧
    s'.space.projection? newborn.id = some a.projection) q.additions newborns
  carried : ∀ a ∈ acted, q.removals.contains a.id = false →
    ∀ p, s.space.projection? a.id = some p →
      s'.space.projection? a.id = some (p.carried s.space.terrain a.motion)
  queues : s'.queues = .empty
  nextId : s'.nextId.index = s.nextId.index + q.additions.length

namespace Completed
variable {q : Queues σ μ η} {acted newborns : List (Agent σ μ)} {id : AgentId}

theorem ids_eq (done : Completed q acted newborns summary s s')
    (order : acted.map (·.id) = s.ids) :
    s'.ids = s.ids.filter (fun id => !q.removals.contains id) ++ newborns.map (·.id) := by
  rw [Sim.ids, done.agents, ← order, List.map_append, List.map_map, List.filter_map]
  rfl

theorem newborns_new (done : Completed q acted newborns summary s s') (consistent : s.Consistent) :
    ∀ newborn ∈ newborns, newborn.id ∉ s.ids := by
  intro newborn among used
  have later := (newborns_fresh done.born done.ids newborn among).2
  exact Nat.not_lt_of_le later (consistent.below _ used)

/-- Of the agents before the step those survive whose removal nobody asked for. -/
theorem survives_iff (done : Completed q acted newborns summary s s') (consistent : s.Consistent)
    (order : acted.map (·.id) = s.ids) (active : id ∈ s.ids) :
    id ∈ s'.ids ↔ q.removals.contains id = false := by
  rw [done.ids_eq order, List.mem_append, List.mem_filter]
  constructor
  · rintro (⟨-, stays⟩ | born)
    · simpa using stays
    · obtain ⟨newborn, among, rfl⟩ := List.mem_map.mp born
      exact absurd active (done.newborns_new consistent newborn among)
  · intro stays
    exact .inl ⟨active, by rw [stays]; rfl⟩

end Completed

/-- What is carried out after the turns of the agents does not fail, whoever let them act. -/
theorem Sound.concluded_of_valid (sound : s.Sound)
    (rewritten : List.Forall₂ Agent.Rewritten s.agents.toList agents) (shared : Commons)
    (valid : s.validateQueued commands = .ok ()) :
    ∃ summary s', concluded s.step
        (((s.acting agents shared).accept s.step commands).modify s.step s.agents.size) =
          (.ok summary, s') ∧
      ∃ newborns, Completed (s.requests commands) agents newborns summary s s' := by
  have accepted := sound.consistent.accept rewritten shared s.step commands
  obtain ⟨admitted, left⟩ := validateQueued_eq_ok.mp valid
  obtain ⟨summary, s₁, modified, newborns, changes⟩ := accepted.consistent.modify_succeeds
    (fun a among => accepted.keeps.admits_iff.mpr (admitted a among)) left s.step s.agents.size
  have whole := accepted.trans changes.modified
  have same : ((s.acting agents shared).accept s.step commands).ids = s.ids := by
    rw [ids_eq_map, ids_eq_map, accept_identities rewritten]
  refine ⟨summary, _, congrArg (concluded s.step) modified, newborns, ?_⟩
  constructor
  case proceeds =>
    refine ⟨⟨whole.keeps.config, whole.keeps.behavior, whole.keeps.terrain, whole.keeps.patterns⟩,
      whole.births, .inr ⟨rfl, summary, ?_⟩⟩
    rw [← whole.summaries]
    simp [summaries, note, settle, Notice.ended?]
  case sound =>
    exact ⟨whole.consistent.of_same rfl rfl rfl rfl whole.consistent.space whole.consistent.pool
      fun _ => rfl, rfl, rfl⟩
  case step => rfl
  case summary =>
    rw [← same]
    exact changes.summary
  case agents =>
    have cleared : ((s.acting agents shared).accept s.step commands).agents.toList =
        agents.map Agent.clearInbox := Array.toList_map
    have left := changes.agents
    rw [cleared, List.filter_map, List.map_map] at left
    exact left
  case ids => exact changes.ids
  case born => exact changes.born.imp fun _ _ born => ⟨accepted.keeps.born born.1, born.2⟩
  case carried =>
    intro a among
    refine changes.carried a.clearInbox ?_
    exact Array.mem_map.mpr ⟨a, List.mem_toArray.mpr among, rfl⟩
  case queues => exact changes.queues
  case nextId => exact changes.nextId

/-- A step that is broken off changes bodies, the picture and the journal. -/
theorem Sound.brokenOff (sound : s.Sound)
    (rewritten : List.Forall₂ Agent.Rewritten s.agents.toList agents)
    (index : SpatialIndex Float) :
    s.Proceeds (s.brokenOff agents index) ∧ (s.brokenOff agents index).Sound := by
  have same : (s.brokenOff agents index).identities = s.identities := Agent.identities_eq rewritten
  refine ⟨⟨⟨rfl, rfl, rfl, fun _ => rfl⟩, fun i among => .inl (same ▸ among), .inl ⟨rfl, ?_⟩⟩,
    ?_, rfl, rfl⟩
  · simp [summaries, Sim.brokenOff, Notice.ended?]
  · exact sound.consistent.of_same same rfl rfl rfl (sound.consistent.space.of_same rfl rfl rfl)
      sound.consistent.pool fun _ => rfl

/-- How a step of a sound simulation ends, whoever let the agents act. -/
theorem Sound.finish_cases (sound : s.Sound) (allowed : s.Allows turns) :
    (∃ cause, turns.1 = .error cause ∧ s.finish modify turns =
        (.error (.behavior cause), s.brokenOff turns.2.1 turns.2.2.index)) ∨
      ∃ commands, turns.1 = .ok commands ∧
        ((∃ e, s.validateQueued commands = .error e ∧
            s.finish modify turns = (.error e, s.brokenOff turns.2.1 turns.2.2.index)) ∨
          s.validateQueued commands = .ok () ∧
            ∃ summary s', s.finish modify turns = (.ok summary, s') ∧
              ∃ newborns, Completed (s.requests commands) turns.2.1 newborns summary s s') := by
  obtain ⟨cause | commands, agents, shared⟩ := turns
  · exact .inl ⟨cause, rfl, rfl⟩
  · refine .inr ⟨commands, rfl, ?_⟩
    rcases valid : s.validateQueued commands with e | ⟨⟨⟩⟩
    · exact .inl ⟨e, rfl, finish_of_refused modify valid⟩
    · refine .inr ⟨rfl, ?_⟩
      rw [finish_of_accepted valid]
      exact sound.concluded_of_valid allowed.rewritten shared valid

theorem Sound.finish_completed (sound : s.Sound) (allowed : s.Allows turns)
    (completed : s.finish modify turns = (.ok summary, s')) :
    ∃ commands newborns, turns.1 = .ok commands ∧ s.validateQueued commands = .ok () ∧
      Completed (s.requests commands) turns.2.1 newborns summary s s' := by
  rcases sound.finish_cases allowed with ⟨cause, -, ends⟩ |
    ⟨commands, acted, ⟨e, -, ends⟩ | ⟨valid, summary, s', ends, newborns, done⟩⟩
  · rw [completed] at ends
    cases ends
  · rw [completed] at ends
    cases ends
  · rw [completed] at ends
    cases ends
    exact ⟨commands, newborns, acted, valid, done⟩

/-- A step can only fail before anything is carried out. -/
theorem Sound.finish_eq_error (sound : s.Sound) (allowed : s.Allows turns)
    (failed : s.finish modify turns = (.error e, s')) :
    s' = s.brokenOff turns.2.1 turns.2.2.index := by
  rcases sound.finish_cases allowed with ⟨cause, -, ends⟩ |
    ⟨commands, -, ⟨e, -, ends⟩ | ⟨-, summary, s', ends, -⟩⟩
  · exact congrArg Prod.snd (failed.symm.trans ends)
  · exact congrArg Prod.snd (failed.symm.trans ends)
  · cases failed.symm.trans ends

theorem Sound.finish (sound : s.Sound) (allowed : s.Allows turns) :
    s.Proceeds (s.finish modify turns).2 ∧ (s.finish modify turns).2.Sound := by
  rcases sound.finish_cases allowed with ⟨cause, -, ends⟩ |
    ⟨commands, -, ⟨e, -, ends⟩ | ⟨-, summary, s', ends, newborns, done⟩⟩
  · rw [ends]
    exact sound.brokenOff allowed.rewritten _
  · rw [ends]
    exact sound.brokenOff allowed.rewritten _
  · rw [ends]
    exact ⟨done.proceeds, done.sound⟩

theorem Sound.nextStep (sound : s.Sound) : s.Proceeds s.nextStep.2 ∧ s.nextStep.2.Sound :=
  sound.finish s.execute_turned.allows

end Vivarium.Sim
