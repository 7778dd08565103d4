import Vivarium.Proofs.Behavior.Workers
import Vivarium.Proofs.Sim.Run

/-! Engines. What makes the steps of a simulation can be exchanged: the agents of a step may act one
after the other, or on workers who share out the chunks of agents and act at the same time, among other
ways also one after the other. What the program makes is made by one of its engines, and between two
calls it is sound whichever that was. -/
namespace Vivarium.Sim
variable {σ μ η : Type}

/-- Calls that make no steps. -/
def Call.Rests : Call σ μ η → Prop
  | .nextStep => False
  | .runSteps _ => False
  | .run => False
  | _ => True

/-- A way to make steps: how it lets the agents act, for which there is always a way, and how it
carries out what is queued. -/
structure Engine (σ μ η : Type) where
  Turns : Sim σ μ η → Outcome σ μ η → Prop
  modify : Sim σ μ η → Step → Nat → Except SimError StepSummary × Sim σ μ η
  total : ∀ s, ∃ turns, Turns s turns

namespace Engine

/-- What a step of the engine can come to: an answer, and the simulation after it. -/
def Makes (E : Engine σ μ η) (s : Sim σ μ η) (out : Except SimError StepSummary × Sim σ μ η) :
    Prop :=
  ∃ turns, E.Turns s turns ∧ out = s.finish E.modify turns

/-- The program with one worker. -/
def own : Engine σ μ η where
  Turns s turns := turns = s.execute
  modify := Sim.modify
  total _ := ⟨_, rfl⟩

/-- Workers act on the chunks at the same time. -/
def workers : Engine σ μ η where
  Turns := Turned
  modify := Sim.modify
  total s := by
    obtain ⟨result, agents, shared, ends⟩ := s.behavior.ends_exists s.context
      (chunks s.config.chunkSize.toNat s.agents.toList) s.commons
    exact ⟨(result, agents, shared), ends⟩

/-- The engines of the program. -/
def program : List (Engine σ μ η) := [own, workers]

/-- A number of steps, or fewer if one fails. -/
inductive Steps (E : Engine σ μ η) :
    Sim σ μ η → Nat → Except SimError Unit × Sim σ μ η → Prop where
  | none {s} : Steps E s 0 (.ok (), s)
  | failed {s s' e n} : E.Makes s (.error e, s') → Steps E s (n + 1) (.error e, s')
  | next {s s' summary n out} : E.Makes s (.ok summary, s') → Steps E s' n out →
      Steps E s (n + 1) out

/-- How a call can be answered, with the simulation after it. -/
inductive Answers (E : Engine σ μ η) (s : Sim σ μ η) :
    Call σ μ η → Reply σ μ η × Sim σ μ η → Prop where
  | rests {c} : c.Rests → Answers E s c (s.reply c, s.after c)
  | nextStep {result s'} : E.Makes s (result, s') → Answers E s .nextStep (.stepped result, s')
  | runSteps {n result s'} : E.Steps s n (result, s') → Answers E s (.runSteps n) (.ran result, s')
  | run {result s'} : E.Steps s (s.config.endStep.since s.step).toNat (result, s') →
      Answers E s .run (.ran result, s')

/-- The answers to calls in a row, each with the simulation after it. -/
inductive Course (E : Engine σ μ η) :
    Sim σ μ η → List (Call σ μ η) → List (Reply σ μ η × Sim σ μ η) → Prop where
  | nil {s} : Course E s [] []
  | cons {s s' c r calls rest} : E.Answers s c (r, s') → Course E s' calls rest →
      Course E s (c :: calls) ((r, s') :: rest)

/-- What calls make of a simulation that was set up when the engine makes the steps. -/
inductive Reaches (E : Engine σ μ η) : Sim σ μ η → Prop where
  | built {setup : Setup σ μ η} {s : Sim σ μ η} : setup.build = .ok s → Reaches E s
  | after {s s' : Sim σ μ η} {c r} : Reaches E s → E.Answers s c (r, s') → Reaches E s'

end Engine

/-- The simulation after a course that began with `s`. -/
def final (s : Sim σ μ η) (course : List (Reply σ μ η × Sim σ μ η)) : Sim σ μ η :=
  (course.getLast?.map (·.2)).getD s

theorem final_cons (s s' : Sim σ μ η) (r : Reply σ μ η) (rest : List (Reply σ μ η × Sim σ μ η)) :
    s.final ((r, s') :: rest) = s'.final rest := by
  rw [final, final, List.getLast?_cons]
  cases rest.getLast? with
  | none => rfl
  | some last => rfl

namespace Engine
variable {E E' : Engine σ μ η} {s s' : Sim σ μ η} {r : Reply σ μ η} {c : Call σ μ η}
  {calls : List (Call σ μ η)} {course : List (Reply σ μ η × Sim σ μ η)}
  {out : Except SimError StepSummary × Sim σ μ η}

/-- What the first of several steps decides. -/
theorem Steps.succ {n : Nat} {out : Except SimError Unit × Sim σ μ η}
    (steps : E.Steps s (n + 1) out) : ∃ result s', E.Makes s (result, s') ∧
      (∀ e, result = .error e → out = (.error e, s')) ∧
      ∀ summary, result = .ok summary → E.Steps s' n out := by
  cases steps with
  | failed made =>
    refine ⟨_, _, made, ?_, by rintro summary ⟨⟩⟩
    rintro e ⟨⟩
    rfl
  | next made more => exact ⟨_, _, made, by rintro e ⟨⟩, fun _ _ => more⟩

/-! There is always a way to go on. -/

theorem makes_exists (E : Engine σ μ η) (s : Sim σ μ η) : ∃ out, E.Makes s out := by
  obtain ⟨turns, turned⟩ := E.total s
  exact ⟨_, turns, turned, rfl⟩

theorem steps_exist (E : Engine σ μ η) (s : Sim σ μ η) (n : Nat) :
    ∃ result s', E.Steps s n (result, s') := by
  induction n generalizing s with
  | zero => exact ⟨_, _, .none⟩
  | succ n ih =>
    obtain ⟨⟨e | summary, s'⟩, made⟩ := E.makes_exists s
    · exact ⟨_, _, .failed made⟩
    · obtain ⟨result, s'', more⟩ := ih s'
      exact ⟨result, s'', .next made more⟩

theorem answer_exists (E : Engine σ μ η) (s : Sim σ μ η) (c : Call σ μ η) :
    ∃ r s', E.Answers s c (r, s') := by
  have rests : c.Rests → ∃ r s', E.Answers s c (r, s') := fun rests => ⟨_, _, .rests rests⟩
  cases c with
  | nextStep =>
    obtain ⟨⟨result, s'⟩, made⟩ := E.makes_exists s
    exact ⟨_, _, .nextStep made⟩
  | runSteps n =>
    obtain ⟨result, s', made⟩ := E.steps_exist s n
    exact ⟨_, _, .runSteps made⟩
  | run =>
    obtain ⟨result, s', made⟩ := E.steps_exist s _
    exact ⟨_, _, .run made⟩
  | _ => exact rests trivial

theorem course_exists (E : Engine σ μ η) (s : Sim σ μ η) (calls : List (Call σ μ η)) :
    ∃ course, E.Course s calls course := by
  induction calls generalizing s with
  | nil => exact ⟨_, .nil⟩
  | cons c calls ih =>
    obtain ⟨r, s', made⟩ := E.answer_exists s c
    obtain ⟨rest, others⟩ := ih s'
    exact ⟨_, .cons made others⟩

/-! With one worker the program does what its functions say. -/

theorem own_makes : own.Makes s out ↔ out = s.nextStep := by
  constructor
  · rintro ⟨_, rfl, rfl⟩
    rfl
  · rintro rfl
    exact ⟨_, rfl, rfl⟩

theorem own_steps {n : Nat} {out : Except SimError Unit × Sim σ μ η}
    (steps : (own : Engine σ μ η).Steps s n out) : out = s.runSteps n := by
  induction steps with
  | none => rfl
  | failed made => simp only [Sim.runSteps, ← own_makes.mp made]
  | next made more ih => simp only [Sim.runSteps, ← own_makes.mp made, ih]

theorem own_answers (answers : (own : Engine σ μ η).Answers s c (r, s')) :
    r = s.reply c ∧ s' = s.after c := by
  cases answers with
  | rests => exact ⟨rfl, rfl⟩
  | nextStep made => simp only [Sim.reply, Sim.after, ← own_makes.mp made, and_self]
  | runSteps made => simp only [Sim.reply, Sim.after, ← own_steps made, and_self]
  | run made => simp only [Sim.reply, Sim.after, Sim.run, ← own_steps made, and_self]

/-- The program's own course: its answers, and last the simulation after all calls. -/
theorem own_course (runs : (own : Engine σ μ η).Course s calls course) :
    course.map (·.1) = s.replies calls ∧ s.final course = s.afterAll calls := by
  induction runs with
  | nil => exact ⟨rfl, rfl⟩
  | @cons s s' c r calls rest first others ih =>
    obtain ⟨rfl, rfl⟩ := own_answers first
    obtain ⟨replies, last⟩ := ih
    rw [List.map_cons, replies, Sim.replies, final_cons, last]
    exact ⟨rfl, rfl⟩

/-! What one engine can do, another one can. -/

theorem Steps.mono (also : ∀ {s out}, E.Makes s out → E'.Makes s out) {n : Nat}
    {out : Except SimError Unit × Sim σ μ η} (steps : E.Steps s n out) : E'.Steps s n out := by
  induction steps with
  | none => exact .none
  | failed made => exact .failed (also made)
  | next made _ ih => exact .next (also made) ih

theorem Answers.mono (also : ∀ {s out}, E.Makes s out → E'.Makes s out)
    {out : Reply σ μ η × Sim σ μ η} (answers : E.Answers s c out) : E'.Answers s c out := by
  cases answers with
  | rests rests => exact .rests rests
  | nextStep made => exact .nextStep (also made)
  | runSteps steps => exact .runSteps (steps.mono also)
  | run steps => exact .run (steps.mono also)

theorem Reaches.mono (also : ∀ {s out}, E.Makes s out → E'.Makes s out) (reached : E.Reaches s) :
    E'.Reaches s := by
  induction reached with
  | built built => exact .built built
  | after _ answers ih => exact ih.after (answers.mono also)

/-! Along all that an engine reaches. -/

/-- What holds of every new simulation and what every call that rests and every step preserves. -/
theorem Reaches.invariant {P : Sim σ μ η → Prop}
    (initially : ∀ {setup : Setup σ μ η} {s}, setup.build = .ok s → P s)
    (rests : ∀ {s c}, E.Reaches s → c.Rests → P s → P (s.after c))
    (steps : ∀ {s result s'}, E.Reaches s → E.Makes s (result, s') → P s → P s')
    (reached : E.Reaches s) : P s := by
  have several : ∀ {s n out}, E.Reaches s → P s → E.Steps s n out → P out.2 := by
    intro s n out reached holds made
    induction made with
    | none => exact holds
    | failed made => exact steps reached made holds
    | next made _ ih => exact ih (reached.after (.nextStep made)) (steps reached made holds)
  induction reached with
  | built built => exact initially built
  | after before answers holds =>
    cases answers with
    | rests quiet => exact rests before quiet holds
    | nextStep made => exact steps before made holds
    | runSteps made => exact several before holds made
    | run made => exact several before holds made

theorem Course.final_eq (runs : E.Course s calls course) {P : Sim σ μ η → Prop} (holds : P s)
    (answers : ∀ {s c r s'}, c ∈ calls → E.Answers s c (r, s') → P s → P s') :
    P (s.final course) := by
  induction runs with
  | nil => exact holds
  | @cons s s' c r calls rest first others ih =>
    rw [final_cons]
    exact ih (answers List.mem_cons_self first holds) fun among => answers (.tail c among)

/-! The program. -/

theorem own_mem_program : (own : Engine σ μ η) ∈ program := .head _

theorem workers_mem_program : (workers : Engine σ μ η) ∈ program := .tail _ (.head _)

section
variable (among : E ∈ program)
include among

theorem modify_of_program : E.modify = Sim.modify := by
  simp only [program, List.mem_cons, List.not_mem_nil, or_false] at among
  rcases among with rfl | rfl <;> rfl

theorem turned_of_program {turns : Outcome σ μ η} (turned : E.Turns s turns) : s.Turned turns := by
  simp only [program, List.mem_cons, List.not_mem_nil, or_false] at among
  rcases among with rfl | rfl
  · obtain rfl : turns = s.execute := turned
    exact s.execute_turned
  · exact turned

/-- A step of the program: the turns of the agents, and what is made of them. -/
theorem makes_of_program (made : E.Makes s out) :
    ∃ turns, E.Turns s turns ∧ s.Allows turns ∧ out = s.finish Sim.modify turns := by
  obtain ⟨turns, turned, ends⟩ := made
  rw [modify_of_program among] at ends
  exact ⟨turns, turned, (turned_of_program among turned).allows, ends⟩

theorem makes_workers (made : E.Makes s out) : workers.Makes s out := by
  obtain ⟨turns, turned, ends⟩ := made
  rw [modify_of_program among] at ends
  exact ⟨turns, turned_of_program among turned, ends⟩

theorem proceeds_of_program (sound : s.Sound) (made : E.Makes s out) :
    s.Proceeds out.2 ∧ out.2.Sound := by
  obtain ⟨turns, -, allows, rfl⟩ := makes_of_program among made
  exact sound.finish allows

/-- How a step of the program can end well. -/
theorem completed_of_program (sound : s.Sound) {summary : StepSummary}
    (made : E.Makes s (.ok summary, s')) :
    ∃ commands acted shared newborns, E.Turns s (.ok commands, acted, shared) ∧
      List.Forall₂ Agent.Rewritten s.agents.toList acted ∧
      Completed (s.requests commands) acted newborns summary s s' := by
  obtain ⟨turns, turned, allows, ends⟩ := makes_of_program among made
  obtain ⟨commands, newborns, acted, -, done⟩ := sound.finish_completed allows ends.symm
  obtain ⟨result, agents, shared⟩ := turns
  obtain rfl : result = .ok commands := acted
  exact ⟨commands, agents, shared, newborns, turned, allows.rewritten, done⟩

/-- A step of the program can only fail before anything is carried out. -/
theorem failed_of_program (sound : s.Sound) {e : SimError} (made : E.Makes s (.error e, s')) :
    ∃ agents index, List.Forall₂ Agent.Rewritten s.agents.toList agents ∧ s.space.Views index ∧
      s' = s.brokenOff agents index := by
  obtain ⟨turns, -, allows, ends⟩ := makes_of_program among made
  exact ⟨_, _, allows.rewritten, allows.views, sound.finish_eq_error allows ends.symm⟩

end

section
variable {P : Sim σ μ η → Prop}
  (preserves : ∀ {s s' : Sim σ μ η}, s.Sound → s.Proceeds s' → P s → P s')
include preserves

theorem Steps.proceeds (among : E ∈ program) {n : Nat} {out : Except SimError Unit × Sim σ μ η}
    (steps : E.Steps s n out) (sound : s.Sound) (holds : P s) : out.2.Sound ∧ P out.2 := by
  induction steps with
  | none => exact ⟨sound, holds⟩
  | failed made =>
    obtain ⟨proceeds, sound'⟩ := proceeds_of_program among sound made
    exact ⟨sound', preserves sound proceeds holds⟩
  | next made _ ih =>
    obtain ⟨proceeds, sound'⟩ := proceeds_of_program among sound made
    exact ih sound' (preserves sound proceeds holds)

theorem Answers.proceeds (among : E ∈ program) {out : Reply σ μ η × Sim σ μ η}
    (answers : E.Answers s c out) (sound : s.Sound) (holds : P s) : out.2.Sound ∧ P out.2 := by
  cases answers with
  | rests rests => exact sound.after preserves holds _
  | nextStep made =>
    obtain ⟨proceeds, sound'⟩ := proceeds_of_program among sound made
    exact ⟨sound', preserves sound proceeds holds⟩
  | runSteps steps => exact steps.proceeds preserves among sound holds
  | run steps => exact steps.proceeds preserves among sound holds

/-- What holds of every new simulation and of every proceeding holds of all that the program
reaches. -/
theorem Reaches.proceeds (among : E ∈ program)
    (initially : ∀ {setup : Setup σ μ η} {s}, setup.build = .ok s → P s) (reached : E.Reaches s) :
    s.Sound ∧ P s := by
  induction reached with
  | built built => exact ⟨build_sound built, initially built⟩
  | after _ answers ih => exact answers.proceeds preserves among ih.1 ih.2

end

theorem Reaches.sound (among : E ∈ program) (reached : E.Reaches s) : s.Sound :=
  (reached.proceeds (P := fun _ => True) (fun _ _ _ => trivial) among fun _ => trivial).1

/-- What any engine of the program reaches workers reach. -/
theorem Reaches.workers (among : E ∈ program) (reached : E.Reaches s) : workers.Reaches s :=
  reached.mono (makes_workers among)

end Engine

theorem Reachable.own {s : Sim σ μ η} (reached : s.Reachable) : Engine.own.Reaches s := by
  induction reached with
  | built built => exact .built built
  | @after s c _ ih =>
    obtain ⟨r, s', answers⟩ := Engine.own.answer_exists s c
    obtain ⟨-, rfl⟩ := Engine.own_answers answers
    exact ih.after answers

end Vivarium.Sim
