import Mathlib.Order.GameAdd
import Vivarium.Proofs.Behavior.Acts

/-! The turns of a step on several workers. A worker lets the agents of its chunk act one after the
other and collects their requests; the workers share the board and the picture of positions, and their
accesses to these come in any order. Whatever the order, the turns come to an end, and one worker that
takes the chunks in order makes one of these orders. -/
namespace Vivarium
variable {σ μ η : Type}

/-- A worker on a chunk of agents. -/
inductive Worker (σ μ η : Type) where
  /-- Between two turns. -/
  | ready (acted : List (Agent σ μ)) (buffer : Commands σ μ η) (waiting : List (Agent σ μ))
  /-- In a turn, with what remains of it. -/
  | acting (acted : List (Agent σ μ)) (a : Agent σ μ)
      (turn : Turn (Except BehaviorError Unit × Draft σ μ η)) (waiting : List (Agent σ μ))
  /-- After a turn that failed. -/
  | stopped (acted : List (Agent σ μ)) (cause : BehaviorError) (waiting : List (Agent σ μ))

namespace Worker

def new (chunk : List (Agent σ μ)) : Worker σ μ η := .ready [] .empty chunk

def agents : Worker σ μ η → List (Agent σ μ)
  | ready acted _ waiting => acted ++ waiting
  | acting acted a _ waiting => acted ++ a :: waiting
  | stopped acted _ waiting => acted ++ waiting

/-- The requests of the turns so far. -/
def buffer : Worker σ μ η → Commands σ μ η
  | ready _ buffer _ => buffer
  | acting _ _ _ _ => .empty
  | stopped _ _ _ => .empty

/-- Every agent of the chunk has acted. -/
def Done (w : Worker σ μ η) : Prop := ∃ acted buffer, w = ready acted buffer []

def Stopped (w : Worker σ μ η) : Prop := ∃ acted cause waiting, w = stopped acted cause waiting

/-- What a worker does next, and what this does to what all share. -/
inductive Steps (b : Behavior σ μ η) (c : Context) :
    Worker σ μ η → Commons → Worker σ μ η → Commons → Prop where
  | start {acted buffer a waiting shared} :
      Steps b c (ready acted buffer (a :: waiting)) shared
        (acting acted a (b.turn c a buffer) waiting) shared
  | access {acted a turn waiting shared} : (∀ x, turn ≠ .done x) →
      Steps b c (acting acted a turn waiting) shared
        (acting acted a (turn.advance c.space shared).1 waiting) (turn.advance c.space shared).2
  | finish {acted a draft waiting shared} :
      Steps b c (acting acted a (.done (.ok (), draft)) waiting) shared
        (ready (acted ++ [a.withBody draft.body]) draft.commands waiting) shared
  | fail {acted a cause draft waiting shared} :
      Steps b c (acting acted a (.done (.error cause, draft)) waiting) shared
        (stopped (acted ++ [a.withBody draft.body]) cause waiting) shared

variable {b : Behavior σ μ η} {c : Context} {w w' : Worker σ μ η}

/-- A worker that is neither done nor stopped can go on. -/
theorem rests_or_steps (b : Behavior σ μ η) (c : Context) (w : Worker σ μ η) (shared : Commons) :
    w.Done ∨ w.Stopped ∨ ∃ w' shared', Steps b c w shared w' shared' := by
  cases w with
  | ready acted buffer waiting =>
    cases waiting with
    | nil => exact .inl ⟨acted, buffer, rfl⟩
    | cons a waiting => exact .inr (.inr ⟨_, _, .start⟩)
  | acting acted a turn waiting =>
    refine .inr (.inr ?_)
    cases turn with
    | done x =>
      obtain ⟨cause | ⟨⟨⟩⟩, draft⟩ := x
      · exact ⟨_, _, .fail⟩
      · exact ⟨_, _, .finish⟩
    | access a next => exact ⟨_, _, .access (by rintro x ⟨⟩)⟩
  | stopped acted cause waiting => exact .inr (.inl ⟨acted, cause, waiting, rfl⟩)

/-- From one state of a worker to an earlier one, with whatever all share. -/
def Later (b : Behavior σ μ η) (c : Context) (w' w : Worker σ μ η) : Prop :=
  ∃ shared shared', Steps b c w shared w' shared'

theorem stopped_acc {acted : List (Agent σ μ)} {cause : BehaviorError}
    {waiting : List (Agent σ μ)} : Acc (Later b c) (stopped acted cause waiting) := by
  constructor
  rintro w' ⟨shared, shared', ⟨⟩⟩

/-- A turn ends after finitely many accesses, whatever their answers. -/
theorem acting_acc {waiting : List (Agent σ μ)}
    (rest : ∀ acted buffer, Acc (Later b c) (ready acted buffer waiting)) (acted : List (Agent σ μ))
    (a : Agent σ μ) (turn : Turn (Except BehaviorError Unit × Draft σ μ η)) :
    Acc (Later b c) (acting acted a turn waiting) := by
  induction turn with
  | done x =>
    constructor
    rintro w' ⟨shared, shared', step⟩
    cases step with
    | access more => exact absurd rfl (more x)
    | finish => exact rest _ _
    | fail => exact stopped_acc
  | access a next ih =>
    constructor
    rintro w' ⟨shared, shared', ⟨⟩⟩
    exact ih _

theorem ready_acc (waiting : List (Agent σ μ)) (acted : List (Agent σ μ))
    (buffer : Commands σ μ η) : Acc (Later b c) (ready acted buffer waiting) := by
  induction waiting generalizing acted buffer with
  | nil =>
    constructor
    rintro w' ⟨shared, shared', ⟨⟩⟩
  | cons a waiting ih =>
    constructor
    rintro w' ⟨shared, shared', ⟨⟩⟩
    exact acting_acc ih acted a _

theorem later_acc (w : Worker σ μ η) : Acc (Later b c) w := by
  cases w with
  | ready acted buffer waiting => exact ready_acc waiting acted buffer
  | acting acted a turn waiting => exact acting_acc (ready_acc waiting) acted a turn
  | stopped acted cause waiting => exact stopped_acc

end Worker

namespace Behavior

/-- One worker of a row goes on. -/
inductive Steps (b : Behavior σ μ η) (c : Context) :
    List (Worker σ μ η) → Commons → List (Worker σ μ η) → Commons → Prop where
  | here {w w' rest shared shared'} : Worker.Steps b c w shared w' shared' →
      Steps b c (w :: rest) shared (w' :: rest) shared'
  | behind {w rest rest' shared shared'} : Steps b c rest shared rest' shared' →
      Steps b c (w :: rest) shared (w :: rest') shared'

/-- Any number of steps, by whichever worker. -/
inductive Runs (b : Behavior σ μ η) (c : Context) :
    List (Worker σ μ η) → Commons → List (Worker σ μ η) → Commons → Prop where
  | refl {ws shared} : Runs b c ws shared ws shared
  | step {ws ws' ws'' shared shared' shared''} : Steps b c ws shared ws' shared' →
      Runs b c ws' shared' ws'' shared'' → Runs b c ws shared ws'' shared''

/-- How the turns of some chunks can end: with the requests of all agents in the order of the
chunks, or with the failure of one of them. -/
inductive Ends (b : Behavior σ μ η) (c : Context) (chunks : List (List (Agent σ μ)))
    (shared : Commons) : Except BehaviorError (Commands σ μ η) → List (Agent σ μ) → Commons → Prop where
  | done {ws shared'} : Runs b c (chunks.map .new) shared ws shared' → (∀ w ∈ ws, w.Done) →
      Ends b c chunks shared (.ok (ws.foldr (·.buffer ++ ·) .empty)) (ws.flatMap (·.agents)) shared'
  | failed {ws shared' acted cause waiting} : Runs b c (chunks.map .new) shared ws shared' →
      .stopped acted cause waiting ∈ ws → (∀ w ∈ ws, ∀ acted a turn waiting,
        w ≠ .acting acted a turn waiting) →
      Ends b c chunks shared (.error cause) (ws.flatMap (·.agents)) shared'

variable {b : Behavior σ μ η} {c : Context} {ws : List (Worker σ μ η)} {shared : Commons}

theorem rests_or_steps (b : Behavior σ μ η) (c : Context) (ws : List (Worker σ μ η))
    (shared : Commons) :
    (∀ w ∈ ws, w.Done ∨ w.Stopped) ∨ ∃ ws' shared', Steps b c ws shared ws' shared' := by
  induction ws with
  | nil => exact .inl (List.forall_mem_nil _)
  | cons w rest ih =>
    rcases w.rests_or_steps b c shared with done | stopped | ⟨w', shared', step⟩
    · rcases ih with rests | ⟨rest', shared', step⟩
      · exact .inl (List.forall_mem_cons.mpr ⟨.inl done, rests⟩)
      · exact .inr ⟨_, _, .behind step⟩
    · rcases ih with rests | ⟨rest', shared', step⟩
      · exact .inl (List.forall_mem_cons.mpr ⟨.inr stopped, rests⟩)
      · exact .inr ⟨_, _, .behind step⟩
    · exact .inr ⟨_, _, .here step⟩

/-- In whatever order the workers go on, they come to rest. -/
theorem steps_acc (b : Behavior σ μ η) (c : Context) (ws : List (Worker σ μ η)) :
    Acc (fun ws' ws => ∃ shared shared', Steps b c ws shared ws' shared') ws := by
  induction ws with
  | nil =>
    constructor
    rintro ws' ⟨shared, shared', ⟨⟩⟩
  | cons w rest ih =>
    -- a step of the row is one of the first worker or one of the others
    have pairs : ∀ p : Worker σ μ η × List (Worker σ μ η),
        Acc (Prod.GameAdd (Worker.Later b c) fun ws' ws => ∃ shared shared',
          Steps b c ws shared ws' shared') p →
        Acc (fun ws' ws => ∃ shared shared', Steps b c ws shared ws' shared') (p.1 :: p.2) := by
      intro p acc
      induction acc with
      | intro p _ ih =>
        constructor
        rintro ws' ⟨shared, shared', step⟩
        cases step with
        | here first => exact ih _ (.fst ⟨shared, shared', first⟩)
        | behind others => exact ih _ (.snd ⟨shared, shared', others⟩)
    exact pairs (w, rest) ((Worker.later_acc w).prod_gameAdd ih)

/-- Every run can be brought to an end. -/
theorem runs_to_rest (b : Behavior σ μ η) (c : Context) (ws : List (Worker σ μ η))
    (shared : Commons) : ∃ ws' shared', Runs b c ws shared ws' shared' ∧ ∀ w ∈ ws', w.Done ∨ w.Stopped := by
  induction steps_acc b c ws generalizing shared with
  | intro ws _ ih =>
    rcases rests_or_steps b c ws shared with rests | ⟨ws', shared', step⟩
    · exact ⟨ws, shared, .refl, rests⟩
    · obtain ⟨ws'', shared'', runs, rests⟩ := ih ws' ⟨shared, shared', step⟩ shared'
      exact ⟨ws'', shared'', .step step runs, rests⟩

/-- The turns of any chunks can end. -/
theorem ends_exists (b : Behavior σ μ η) (c : Context) (chunks : List (List (Agent σ μ)))
    (shared : Commons) : ∃ result agents shared', Ends b c chunks shared result agents shared' := by
  obtain ⟨ws, shared', runs, rests⟩ := runs_to_rest b c (chunks.map .new) shared
  by_cases halted : ∃ w ∈ ws, w.Stopped
  · obtain ⟨w, among, acted, cause, waiting, rfl⟩ := halted
    refine ⟨_, _, _, .failed runs among ?_⟩
    rintro w there acted' a turn waiting' rfl
    rcases rests _ there with ⟨_, _, ⟨⟩⟩ | ⟨_, _, _, ⟨⟩⟩
  · refine ⟨_, _, _, .done runs fun w among => ?_⟩
    exact (rests w among).resolve_right fun stopped => halted ⟨w, among, stopped⟩

/-! One worker that takes the chunks in order. -/

theorem Runs.trans {ws' ws'' : List (Worker σ μ η)} {shared' shared'' : Commons}
    (first : Runs b c ws shared ws' shared') (second : Runs b c ws' shared' ws'' shared'') :
    Runs b c ws shared ws'' shared'' := by
  induction first with
  | refl => exact second
  | step one _ ih => exact .step one (ih second)

theorem Runs.behind {ws' : List (Worker σ μ η)} {shared' : Commons}
    (runs : Runs b c ws shared ws' shared') (w : Worker σ μ η) :
    Runs b c (w :: ws) shared (w :: ws') shared' := by
  induction runs with
  | refl => exact .refl
  | step one _ ih => exact .step (.behind one) ih

/-- A turn that nobody interrupts. -/
theorem runs_turn (ws : List (Worker σ μ η)) (t : Turn (Except BehaviorError Unit × Draft σ μ η))
    (acted : List (Agent σ μ)) (a : Agent σ μ) (waiting : List (Agent σ μ)) (shared : Commons) :
    Runs b c (.acting acted a t waiting :: ws) shared
      (.acting acted a (.done (t.run c.space shared).1) waiting :: ws) (t.run c.space shared).2 := by
  induction t generalizing shared with
  | done x => exact .refl
  | access a next ih => exact .step (.here (.access (by rintro x ⟨⟩))) (ih _ _)

/-- A worker that goes on alone with its chunk. -/
theorem runs_performAll (ws : List (Worker σ μ η)) (waiting acted : List (Agent σ μ))
    (buffer : Commands σ μ η) (shared : Commons) :
    ∃ w, Runs b c (.ready acted buffer waiting :: ws) shared (w :: ws)
        (b.performAll c waiting buffer shared).2.2 ∧
      w.agents = acted ++ (b.performAll c waiting buffer shared).2.1 ∧
      match (b.performAll c waiting buffer shared).1 with
      | .ok commands => w.Done ∧ w.buffer = commands
      | .error cause => ∃ acted waiting, w = .stopped acted cause waiting := by
  induction waiting generalizing acted buffer shared with
  | nil => exact ⟨.ready acted buffer [], .refl, rfl, ⟨acted, buffer, rfl⟩, rfl⟩
  | cons a rest ih =>
    have start : Runs b c (.ready acted buffer (a :: rest) :: ws) shared
        (.acting acted a (.done ((b.turn c a buffer).run c.space shared).1) rest :: ws)
          ((b.turn c a buffer).run c.space shared).2 :=
      .step (.here .start) (runs_turn ws _ acted a rest shared)
    simp only [performAll, perform]
    rcases ran : (b.turn c a buffer).run c.space shared with ⟨⟨cause | ⟨⟨⟩⟩, draft⟩, middle⟩
    · rw [ran] at start
      exact ⟨_, start.trans (.step (.here .fail) .refl), List.append_assoc _ _ _, _, _, rfl⟩
    · rw [ran] at start
      obtain ⟨w, others, agents, ends⟩ := ih (acted ++ [a.withBody draft.body]) draft.commands middle
      refine ⟨w, start.trans (.step (.here .finish) others), ?_, ends⟩
      rw [agents, List.append_assoc]
      rfl

theorem runs_performChunks (chunks : List (List (Agent σ μ))) (shared : Commons) :
    ∃ ws : List (Worker σ μ η),
      Runs b c (chunks.map .new) shared ws (b.performChunks c chunks shared).2.2 ∧
      ws.flatMap (·.agents) = (b.performChunks c chunks shared).2.1 ∧
      match (b.performChunks c chunks shared).1 with
      | .ok commands => (∀ w ∈ ws, w.Done) ∧ ws.foldr (·.buffer ++ ·) .empty = commands
      | .error cause => (∃ acted waiting, .stopped acted cause waiting ∈ ws) ∧
          ∀ w ∈ ws, ∀ acted a turn waiting, w ≠ .acting acted a turn waiting := by
  induction chunks generalizing shared with
  | nil => exact ⟨[], .refl, rfl, List.forall_mem_nil _, rfl⟩
  | cons chunk rest ih =>
    obtain ⟨w, first, agents, ends⟩ :=
      runs_performAll (b := b) (c := c) (rest.map .new) chunk [] .empty shared
    simp only [performChunks]
    rcases turns : b.performAll c chunk .empty shared with ⟨cause | commands, chunk', middle⟩
    · rw [turns] at first agents ends
      obtain ⟨acted, waiting, rfl⟩ := ends
      have idle : (rest.map (.new : _ → Worker σ μ η)).flatMap (·.agents) = rest.flatten := by
        rw [List.flatMap_map, List.flatMap_def]
        exact congrArg List.flatten (List.map_id rest)
      refine ⟨_, first, ?_, ⟨acted, waiting, .head _⟩, List.forall_mem_cons.mpr ⟨by simp, ?_⟩⟩
      · rw [List.flatMap_cons, agents, idle, List.nil_append]
      · rw [List.forall_mem_map]
        rintro chunk - acted a turn waiting ⟨⟩
    · rw [turns] at first agents ends
      obtain ⟨done, buffer⟩ := ends
      obtain ⟨ws, others, agents', ends'⟩ := ih middle
      rcases later : b.performChunks c rest middle with ⟨cause | more, rest', last⟩
      · rw [later] at others agents' ends'
        obtain ⟨⟨acted, waiting, stopped⟩, rests⟩ := ends'
        simp only [later, Except.map]
        refine ⟨_, first.trans (others.behind w), ?_, ⟨acted, waiting, .tail _ stopped⟩,
          List.forall_mem_cons.mpr ⟨?_, rests⟩⟩
        · rw [List.flatMap_cons, agents, agents', List.nil_append]
        · obtain ⟨acted, buffer, rfl⟩ := done
          rintro acted a turn waiting ⟨⟩
      · rw [later] at others agents' ends'
        obtain ⟨done', buffers⟩ := ends'
        simp only [later, Except.map]
        refine ⟨_, first.trans (others.behind w), ?_, List.forall_mem_cons.mpr ⟨done, done'⟩, ?_⟩
        · rw [List.flatMap_cons, agents, agents', List.nil_append]
        · rw [List.foldr_cons, buffer, buffers]

/-- Chunks in order are one of the orders in which workers can act. -/
theorem performChunks_ends (b : Behavior σ μ η) (c : Context) (chunks : List (List (Agent σ μ)))
    (shared : Commons) :
    b.Ends c chunks shared (b.performChunks c chunks shared).1
      (b.performChunks c chunks shared).2.1 (b.performChunks c chunks shared).2.2 := by
  obtain ⟨ws, runs, agents, ends⟩ := runs_performChunks (b := b) (c := c) chunks shared
  rcases out : b.performChunks c chunks shared with ⟨cause | commands, agents', shared'⟩
  · rw [out] at runs agents ends
    obtain ⟨⟨acted, waiting, stopped⟩, rests⟩ := ends
    exact agents ▸ .failed runs stopped rests
  · rw [out] at runs agents ends
    obtain ⟨done, buffers⟩ := ends
    exact agents ▸ buffers ▸ .done runs done

theorem performChunks_singleton (b : Behavior σ μ η) (c : Context) (agents : List (Agent σ μ))
    (shared : Commons) : b.performChunks c [agents] shared = b.performAll c agents .empty shared := by
  simp only [performChunks]
  rcases b.performAll c agents .empty shared with ⟨cause | commands, agents', shared'⟩
  · simp
  · simp [Except.map]

/-- What a step of one worker preserves for it, and what the others do meanwhile to what all share does
not disturb, a run preserves for each. `G` is what steps do to what is shared. -/
theorem Runs.undisturbed {α : Type} {P : α → Worker σ μ η → Commons → Prop}
    {G : Commons → Commons → Prop} (refl : ∀ shared, G shared shared)
    (trans : ∀ {x y z}, G x y → G y z → G x z)
    (preserves : ∀ {x w shared w' shared'}, Worker.Steps b c w shared w' shared' → P x w shared →
      P x w' shared' ∧ G shared shared')
    (stable : ∀ {x w shared shared'}, P x w shared → G shared shared' → P x w shared')
    {xs : List α} {ws' : List (Worker σ μ η)} {shared' : Commons}
    (runs : Runs b c ws shared ws' shared') (holds : List.Forall₂ (P · · shared) xs ws) :
    List.Forall₂ (P · · shared') xs ws' ∧ G shared shared' := by
  have step : ∀ {ws ws' : List (Worker σ μ η)} {shared shared' : Commons} {xs : List α},
      Steps b c ws shared ws' shared' → List.Forall₂ (P · · shared) xs ws →
      List.Forall₂ (P · · shared') xs ws' ∧ G shared shared' := by
    intro ws ws' shared shared' xs step holds
    induction step generalizing xs with
    | here first =>
      cases holds with
      | cons head rest =>
        obtain ⟨own, changed⟩ := preserves first head
        exact ⟨.cons own (rest.imp fun _ _ other => stable other changed), changed⟩
    | behind others ih =>
      cases holds with
      | cons head rest =>
        obtain ⟨own, changed⟩ := ih rest
        exact ⟨.cons (stable head changed) own, changed⟩
  induction runs with
  | refl => exact ⟨holds, refl _⟩
  | step first others ih =>
    obtain ⟨after, changed⟩ := step first holds
    obtain ⟨last, more⟩ := ih after
    exact ⟨last, trans changed more⟩

/-- What a step of one worker preserves, whatever is shared, a run of all preserves, for each worker
on its own. -/
theorem Runs.invariant {α : Type} {P : α → Worker σ μ η → Prop}
    (preserves : ∀ {x w shared w' shared'}, Worker.Steps b c w shared w' shared' → P x w → P x w')
    {xs : List α} {ws' : List (Worker σ μ η)} {shared' : Commons}
    (runs : Runs b c ws shared ws' shared') (holds : List.Forall₂ P xs ws) :
    List.Forall₂ P xs ws' :=
  (runs.undisturbed (P := fun x w _ => P x w) (G := fun _ _ => True) (fun _ => trivial)
    (fun _ _ => trivial) (fun step before => ⟨preserves step before, trivial⟩)
    (fun before _ => before) holds).1

end Behavior

/-! Of the agents a worker writes nothing but their bodies. -/

/-- Two relations between lists, one after the other. -/
theorem forall₂_trans {α β γ : Type} {R : α → β → Prop} {S : β → γ → Prop} {T : α → γ → Prop}
    (compose : ∀ x y z, R x y → S y z → T x z) {xs : List α} {ys : List β} {zs : List γ}
    (first : List.Forall₂ R xs ys) (second : List.Forall₂ S ys zs) : List.Forall₂ T xs zs := by
  induction first generalizing zs with
  | nil =>
    cases second
    exact .nil
  | cons head _ ih =>
    cases second with
    | cons head' rest => exact .cons (compose _ _ _ head head') (ih rest)

theorem Agent.Rewritten.trans {a a' a'' : Agent σ μ} (first : a.Rewritten a')
    (second : a'.Rewritten a'') : a.Rewritten a'' := by
  obtain ⟨body, rfl⟩ := first
  obtain ⟨body', rfl⟩ := second
  exact ⟨body', rfl⟩

theorem Worker.Steps.rewritten {b : Behavior σ μ η} {c : Context} {w w' : Worker σ μ η}
    {shared shared' : Commons} (step : Steps b c w shared w' shared') :
    List.Forall₂ Agent.Rewritten w.agents w'.agents := by
  have same : ∀ agents : List (Agent σ μ), List.Forall₂ Agent.Rewritten agents agents :=
    fun agents => List.forall₂_same.mpr fun a _ => .refl a
  have last : ∀ (acted waiting : List (Agent σ μ)) (a : Agent σ μ) (body : Body σ),
      List.Forall₂ Agent.Rewritten (acted ++ a :: waiting)
        (acted ++ [a.withBody body] ++ waiting) := by
    intro acted waiting a body
    rw [List.append_assoc]
    exact List.rel_append (same acted) (.cons ⟨body, rfl⟩ (same waiting))
  cases step with
  | start => exact same _
  | access => exact same _
  | finish => exact last _ _ _ _
  | fail => exact last _ _ _ _

theorem Behavior.Ends.rewritten {b : Behavior σ μ η} {c : Context}
    {chunks : List (List (Agent σ μ))} {shared shared' : Commons}
    {result : Except BehaviorError (Commands σ μ η)} {agents : List (Agent σ μ)}
    (ends : b.Ends c chunks shared result agents shared') :
    List.Forall₂ Agent.Rewritten chunks.flatten agents := by
  have along : ∀ {ws : List (Worker σ μ η)} {shared' : Commons},
      b.Runs c (chunks.map .new) shared ws shared' →
      List.Forall₂ Agent.Rewritten chunks.flatten (ws.flatMap (·.agents)) := by
    intro ws shared' runs
    have fresh : List.Forall₂ (fun chunk (w : Worker σ μ η) =>
        List.Forall₂ Agent.Rewritten chunk w.agents) chunks (chunks.map .new) := by
      rw [List.forall₂_map_right_iff, List.forall₂_same]
      exact fun _ _ => List.forall₂_same.mpr fun a _ => .refl a
    have rows := runs.invariant (P := fun chunk w => List.Forall₂ Agent.Rewritten chunk w.agents)
      (fun step before => forall₂_trans (fun _ _ _ => .trans) before step.rewritten) fresh
    rw [List.flatMap_def]
    exact List.rel_flatten (List.forall₂_map_right_iff.mpr rows)
  cases ends with
  | done runs _ => exact along runs
  | failed runs _ _ => exact along runs

/-! Of what they share they change the board, and take the picture anew at most. -/

variable {b : Behavior σ μ η} {c : Context} {shared shared' : Commons}

theorem Worker.Steps.retakes {w w' : Worker σ μ η} (step : Steps b c w shared w' shared')
    (views : c.space.Views shared.index) : c.space.Retakes shared.index shared'.index := by
  cases step with
  | access => exact Turn.advance_retakes _ views
  | _ => exact .inl rfl

theorem Worker.Steps.views {w w' : Worker σ μ η} (step : Steps b c w shared w' shared')
    (views : c.space.Views shared.index) : c.space.Views shared'.index :=
  (step.retakes views).views views

/-- What a step of one worker preserves for it, and a new picture does not disturb, a run preserves for
each. -/
theorem Behavior.Runs.retaking {α : Type} {P : α → Worker σ μ η → Commons → Prop}
    (preserves : ∀ {x w shared w' shared'}, Worker.Steps b c w shared w' shared' →
      c.space.Views shared.index → P x w shared → P x w' shared')
    (stable : ∀ {x w shared shared'}, P x w shared → c.space.Retakes shared.index shared'.index →
      P x w shared')
    {ws ws' : List (Worker σ μ η)} {xs : List α} (runs : b.Runs c ws shared ws' shared')
    (views : c.space.Views shared.index) (holds : List.Forall₂ (P · · shared) xs ws) :
    List.Forall₂ (P · · shared') xs ws' ∧ c.space.Retakes shared.index shared'.index := by
  obtain ⟨last, retakes⟩ := runs.undisturbed
    (P := fun x w shared => c.space.Views shared.index ∧ P x w shared)
    (G := fun x y => c.space.Retakes x.index y.index) (fun _ => .inl rfl) .trans
    (fun step before =>
      ⟨⟨step.views before.1, preserves step before.1 before.2⟩, step.retakes before.1⟩)
    (fun before retakes => ⟨retakes.views before.1, stable before.2 retakes⟩)
    (holds.imp fun _ _ own => ⟨views, own⟩)
  exact ⟨last.imp fun _ _ own => own.2, retakes⟩

theorem Behavior.Ends.views {chunks : List (List (Agent σ μ))}
    {result : Except BehaviorError (Commands σ μ η)} {agents : List (Agent σ μ)}
    (ends : b.Ends c chunks shared result agents shared') (views : c.space.Views shared.index) :
    c.space.Views shared'.index := by
  have along : ∀ {ws ws' : List (Worker σ μ η)} {shared' : Commons},
      b.Runs c ws shared ws' shared' → c.space.Views shared'.index := by
    intro ws ws' shared' runs
    have last := runs.retaking (P := fun _ _ _ => True) (fun _ _ _ => trivial) (fun _ _ => trivial)
      views (List.forall₂_same.mpr fun _ _ => trivial)
    exact last.2.views views
  cases ends with
  | done runs _ => exact along runs
  | failed runs _ _ => exact along runs

end Vivarium
