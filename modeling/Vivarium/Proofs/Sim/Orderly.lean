import Vivarium.Proofs.Behavior.Heedless
import Vivarium.Proofs.Sim.Engine
import Vivarium.Proofs.Sim.Independence

/-! Engines that cannot be told apart. With discreet behaviours a step comes out the same, whether the
program lets the agents act in chunks, one chunk after the other or all at the same time, or whether
they act in their order on one buffer and move one after the other, as there were no chunks. As long as
agents act in their order, heedless behaviours are enough. -/
namespace Vivarium.Sim
variable {σ μ η : Type}

/-! A plain engine, which knows no chunks. -/

/-- Makes every agent's motion, one after the other. -/
def moveEach (s : Sim σ μ η) : Nat × Sim σ μ η :=
  let (moved, space) := s.space.moveEach fun id => (s.agent? id).map (·.motion)
  (moved, { s with space })

/-- Carries out what is queued, without chunks. -/
def modifyPlainly (s : Sim σ μ η) (now : Step) (executed : Nat) :
    Except SimError StepSummary × Sim σ μ η :=
  let (delivered, s) := s.deliver
  let (removed, s) := s.removeQueued now
  let (moved, s) := s.moveEach
  let (born, s) := s.activateQueued now
  (born.map fun born => ⟨now, executed, delivered, removed, moved, born, s.agents.size⟩, s)

/-- All agents act one after the other, in the order of their activation, on one buffer. -/
def Engine.plain : Engine σ μ η where
  Turns s turns := turns = s.behavior.performAll s.context s.agents.toList .empty s.commons
  modify := modifyPlainly
  total _ := ⟨_, rfl⟩

theorem modifyPlainly_eq : (modifyPlainly : Sim σ μ η → _) = modify := by
  funext s now executed
  simp only [modifyPlainly, modify, moveEach, moveAgents, Space.moveAll_eq]

/-! Other chunks. -/

variable {s s' : Sim σ μ η} {commands : Commands σ μ η} {agents : List (Agent σ μ)}
  {agents' : List (Agent σ μ)} {chunkSize : UInt64} {b : Behavior σ μ η} {board : Board}
  {shared shared' : Commons}
  {surveyed : Bool}

/-- The simulation with other chunks. -/
def rechunked (s : Sim σ μ η) (chunkSize : UInt64) : Sim σ μ η :=
  { s with config := { s.config with chunkSize } }

theorem Sound.rechunked (sound : s.Sound) (chunkSize : UInt64) : (s.rechunked chunkSize).Sound :=
  ⟨sound.consistent.of_same rfl rfl rfl rfl sound.consistent.space sound.consistent.pool
    fun _ => rfl, sound.idle, sound.board⟩

/-- Between two calls the board is empty and the behaviour the same, so only the chunks differ. -/
theorem Sound.refitted_eq (sound : s'.Sound) (kept : s'.behavior = s.behavior)
    (chunkSize : UInt64) : s'.refitted s.behavior chunkSize .empty = s'.rechunked chunkSize := by
  rw [← kept, ← sound.board]
  rfl

theorem validateAll_refitted (s : Sim σ μ η) (additions : List (Addition σ μ η)) :
    (s.refitted b chunkSize board).validateAll additions = s.validateAll additions := by
  induction additions with
  | nil => rfl
  | cons a rest ih =>
    simp only [validateAll, ih]
    rfl

theorem validateQueued_refitted (s : Sim σ μ η) (commands : Commands σ μ η) :
    (s.refitted b chunkSize board).validateQueued commands = s.validateQueued commands := by
  simp only [validateQueued, validateAll_refitted]
  rfl

/-- Neither the chunks nor what is left on the board shows after a step. -/
theorem Sound.finish_refitted (sound : s.Sound)
    (rewritten : List.Forall₂ Agent.Rewritten s.agents.toList agents) (chunkSize : UInt64)
    (pictured : shared'.index = shared.index) :
    (s.rechunked chunkSize).finish modify (.ok commands, agents, shared') =
      (s.finish modify (.ok commands, agents, shared)).map id
        (·.refitted s.behavior chunkSize .empty) := by
  have acted : (s.rechunked chunkSize).acting agents shared' =
      (s.acting agents shared).refitted s.behavior chunkSize shared'.board := by
    obtain ⟨board, index⟩ := shared'
    obtain rfl : index = shared.index := pictured
    rfl
  simp only [Sim.finish, acted, validateQueued_refitted]
  rcases (s.acting agents shared).validateQueued commands with e | ⟨⟨⟩⟩
  · rfl
  · have accepted := sound.consistent.accept rewritten shared s.step commands
    have modified := accepted.consistent.modify_refitted (b := s.behavior) rfl chunkSize
      shared'.board s.step s.agents.size
    have same : ((s.acting agents shared).refitted s.behavior chunkSize shared'.board).accept s.step
        commands = ((s.acting agents shared).accept s.step commands).refitted s.behavior chunkSize
          shared'.board := rfl
    dsimp only
    rw [show (s.rechunked chunkSize).step = s.step from rfl,
      show (s.rechunked chunkSize).agents = s.agents from rfl, same, modified]
    rcases ((s.acting agents shared).accept s.step commands).modify s.step s.agents.size with
      ⟨e | summary, s'⟩
    · rfl
    · rfl

/-- The program's agents have done what all do. -/
theorem Turned.allDo {result : Except BehaviorError (Commands σ μ η)}
    (turned : s.Turned (result, agents', shared)) (discreet : s.behavior.Discreet)
    (all : s.behavior.AllDo s.context s.agents.toList commands agents surveyed) :
    result = .ok commands ∧ agents' = agents ∧ shared.index = s.space.picture surveyed := by
  rw [← chunks_flatten s.config.chunkSize.toNat s.agents.toList] at all
  exact discreet.ends_allDo all rfl turned

/-- However the agents came to have acted, the rest of the step is the program's. -/
theorem Sound.finish_eq (sound : s.Sound) (discreet : s.behavior.Discreet)
    (all : s.behavior.AllDo s.context s.agents.toList commands agents surveyed)
    (pictured : shared.index = s.space.picture surveyed) :
    s.finish modify (.ok commands, agents, shared) = s.nextStep := by
  have turned := s.execute_turned
  rcases ran : s.execute with ⟨result, agents', last⟩
  rw [ran] at turned
  obtain ⟨rfl, rfl, found⟩ := Turned.allDo turned discreet all
  have fits : ∀ {shared : Commons}, shared.index = s.space.picture surveyed →
      s.finish modify (.ok commands, agents', shared) =
        (s.finish modify (.ok commands, agents', last)).map id
          (·.refitted s.behavior s.config.chunkSize .empty) := fun pictured =>
    sound.finish_refitted turned.allows.rewritten s.config.chunkSize (pictured.trans found.symm)
  rw [Sim.nextStep, ran, fits pictured]
  exact (fits found).symm

theorem Sound.nextStep_rechunked (sound : s.Sound) (discreet : s.behavior.Discreet)
    (all : s.behavior.AllDo s.context s.agents.toList commands agents surveyed)
    (chunkSize : UInt64) :
    (s.rechunked chunkSize).nextStep = s.nextStep.map id (·.rechunked chunkSize) := by
  let shared : Commons := ⟨.empty, s.space.picture surveyed⟩
  have pictured : shared.index = s.space.picture surveyed := rfl
  have again : (s.rechunked chunkSize).behavior.AllDo (s.rechunked chunkSize).context
      (s.rechunked chunkSize).agents.toList commands agents surveyed := all.rechunked chunkSize
  obtain ⟨proceeds, sound'⟩ := sound.nextStep
  have refitted : (s.rechunked chunkSize).finish modify (.ok commands, agents, shared) = _ :=
    sound.finish_refitted all.rewritten chunkSize (Eq.refl shared.index)
  have again' : (s.rechunked chunkSize).finish modify (.ok commands, agents, shared) = _ :=
    (sound.rechunked chunkSize).finish_eq discreet again pictured
  rw [← again', refitted, sound.finish_eq discreet all pictured]
  exact Prod.ext rfl (sound'.refitted_eq proceeds.keeps.behavior chunkSize)

theorem execute_heedless (heedless : s.behavior.Heedless) :
    s.execute = s.behavior.performAll s.context s.agents.toList .empty s.commons := by
  rw [execute, heedless.performChunks_eq, chunks_flatten]

/-- With heedless behaviours the program with one worker makes the same steps on all chunks. -/
theorem Sound.nextStep_heedless (sound : s.Sound) (heedless : s.behavior.Heedless)
    (chunkSize : UInt64) :
    (s.rechunked chunkSize).nextStep = s.nextStep.map id (·.rechunked chunkSize) := by
  have same : (s.rechunked chunkSize).execute = s.execute := by
    have heedless' : (s.rechunked chunkSize).behavior.Heedless := heedless
    rw [execute_heedless heedless, execute_heedless heedless']
    exact heedless.performAll_rechunked (c := s.context) chunkSize s.agents.toList .empty s.commons
  obtain ⟨proceeds, sound'⟩ := sound.nextStep
  have rewritten := s.execute_turned.allows.rewritten
  rw [Sim.nextStep, same]
  rw [Sim.nextStep] at proceeds sound' ⊢
  rcases ran : s.execute with ⟨cause | commands, agents, shared⟩
  · rfl
  · rw [ran] at rewritten proceeds sound'
    rw [sound.finish_refitted rewritten chunkSize rfl]
    exact Prod.ext rfl (sound'.refitted_eq proceeds.keeps.behavior chunkSize)

namespace Engine

/-- An act made the steps fail. -/
def Broken {α : Type} (result : Except SimError α) : Prop :=
  ∃ cause, result = .error (.behavior cause)

/-- With discreet behaviours the engine makes the step that the program makes with one worker, unless
an act fails. -/
structure Orderly (E : Engine σ μ η) : Prop where
  acted {s commands agents surveyed out} : s.Sound → s.behavior.Discreet →
    s.behavior.AllDo s.context s.agents.toList commands agents surveyed → E.Makes s out →
    out = s.nextStep
  failed {s out} : s.Sound → s.behavior.Discreet → s.behavior.Fails s.context s.agents.toList →
    E.Makes s out → Broken out.1

theorem orderly_of_program {E : Engine σ μ η} (among : E ∈ program) : E.Orderly where
  acted := by
    intro s commands agents surveyed out sound discreet all made
    obtain ⟨⟨result, agents', shared⟩, turns, -, rfl⟩ := makes_of_program among made
    obtain ⟨rfl, rfl, pictured⟩ := (turned_of_program among turns).allDo discreet all
    exact sound.finish_eq discreet all pictured
  failed := by
    intro s out _ discreet fails made
    obtain ⟨⟨result, agents', shared⟩, turns, -, rfl⟩ := makes_of_program among made
    rw [← chunks_flatten s.config.chunkSize.toNat s.agents.toList] at fails
    obtain ⟨cause, rfl⟩ := discreet.ends_fails fails rfl (turned_of_program among turns)
    exact ⟨cause, rfl⟩

/-- Without chunks, all agents are one chunk. -/
theorem plain_ends {turns : Outcome σ μ η} (turned : plain.Turns s turns) :
    s.behavior.Ends s.context [s.agents.toList] s.commons turns.1 turns.2.1 turns.2.2 := by
  obtain rfl := turned
  rw [← Behavior.performChunks_singleton]
  exact s.behavior.performChunks_ends s.context _ s.commons

theorem plain_orderly : (plain : Engine σ μ η).Orderly where
  acted := by
    rintro s commands agents surveyed _ sound discreet all ⟨⟨result, agents', shared⟩, turned, rfl⟩
    have modified : (plain : Engine σ μ η).modify = Sim.modify := modifyPlainly_eq
    rw [← List.flatten_singleton (l := s.agents.toList)] at all
    obtain ⟨rfl, rfl, pictured⟩ := discreet.ends_allDo all rfl (plain_ends turned)
    rw [List.flatten_singleton] at all
    rw [modified]
    exact sound.finish_eq discreet all pictured
  failed := by
    rintro s _ sound discreet fails ⟨⟨result, agents', shared⟩, turned, rfl⟩
    rw [← List.flatten_singleton (l := s.agents.toList)] at fails
    obtain ⟨cause, rfl⟩ := discreet.ends_fails fails rfl (plain_ends turned)
    exact ⟨cause, rfl⟩

/-- The engines that let the agents act in their order. -/
def inOrder : List (Engine σ μ η) := [plain, own]

theorem makes_of_inOrder {E : Engine σ μ η} (among : E ∈ inOrder)
    (heedless : s.behavior.Heedless) {out : Except SimError StepSummary × Sim σ μ η}
    (made : E.Makes s out) : out = s.nextStep := by
  simp only [inOrder, List.mem_cons, List.not_mem_nil, or_false] at among
  rcases among with rfl | rfl
  · obtain ⟨_, rfl, rfl⟩ := made
    have modified : (plain : Engine σ μ η).modify = Sim.modify := modifyPlainly_eq
    rw [Sim.nextStep, execute_heedless heedless, modified]
  · exact own_makes.mp made

end Engine
end Vivarium.Sim
