import Vivarium.Proofs.Behavior.Ensures
import Vivarium.Proofs.Behavior.Workers

/-! Deeds: what agents do in their turns when nobody takes from the board what others have put
there. Then a claim, once won, stands, whoever acts in between, and at the end of the turns it is
there to be read. -/
namespace Vivarium
variable {σ μ η : Type}

/-- What an agent has done in its turn. -/
structure Deed (σ μ η : Type) where
  agent : Agent σ μ
  body : Body σ
  won : List (String × Value)
  asked : Commands σ μ η

namespace Deed

def after (d : Deed σ μ η) : Agent σ μ := d.agent.withBody d.body

/-- The requests of some turns, one after the other. -/
def requests (deeds : List (Deed σ μ η)) : Commands σ μ η :=
  deeds.foldr (·.asked ++ ·) .empty

theorem requests_append (deeds more : List (Deed σ μ η)) :
    requests (deeds ++ more) = requests deeds ++ requests more := by
  induction deeds with
  | nil => rfl
  | cons d rest ih =>
    show d.asked ++ requests (rest ++ more) = d.asked ++ requests rest ++ requests more
    rw [ih, Commands.append_assoc]

theorem requests_flatMap (deeds : List (Deed σ μ η)) :
    requests deeds = ⟨deeds.flatMap (·.asked.additions), deeds.flatMap (·.asked.removals),
      deeds.flatMap (·.asked.deliveries), deeds.flatMap (·.asked.events)⟩ := by
  induction deeds with
  | nil => rfl
  | cons d rest ih =>
    show d.asked ++ requests rest = _
    rw [ih]
    rfl

end Deed

namespace Behavior
variable {b : Behavior σ μ η} {c : Context} {ws : List (Worker σ μ η)} {shared shared' : Commons}
  {chunk : List (Agent σ μ)} {P : Deed σ μ η → Prop}

/-- Whatever the answers, every act overwrites nothing on the board, does not fail, and adds its requests
behind those that were made before; and all that it does is as `P` says. -/
def Abides (b : Behavior σ μ η) (c : Context) (P : Deed σ μ η → Prop) : Prop :=
  ∀ a buffer, (b.act c a).Ensures c.space ⟨a.toBody, buffer⟩ fun won _ d =>
    ∃ asked, d.commands = buffer ++ asked ∧ P ⟨a, d.body, won, asked⟩

/-- The turn of one agent. -/
theorem Abides.perform (abides : b.Abides c P) (a : Agent σ μ) (buffer : Commands σ μ η)
    (views : c.space.Views shared.index) :
    ∃ (d : Deed σ μ η) (shared' : Commons), d.agent = a ∧ P d ∧
      b.perform c a buffer shared = (.ok (buffer ++ d.asked), d.after, shared') := by
  obtain ⟨won, ⟨_, succeeds, asked, requests, holds⟩, -, -⟩ :=
    Turn.Ensures.run (abides a buffer) views
  rcases ran : (b.turn c a buffer).run c.space shared with ⟨⟨result, draft⟩, last⟩
  rw [← Behavior.turn.eq_1, ran] at succeeds requests holds
  obtain rfl : result = .ok () := succeeds
  have whole : draft.commands = buffer ++ asked := requests
  refine ⟨⟨a, draft.body, won, asked⟩, last, rfl, holds, ?_⟩
  simp only [Behavior.perform, ran, whole]
  rfl

/-! All workers together. -/

/-- A worker whose turns so far are such deeds, with their claims on the board. -/
inductive Tracks (s : Space Float) (P : Deed σ μ η → Prop) (chunk : List (Agent σ μ)) :
    Worker σ μ η → Board → Prop where
  | ready {deeds waiting board} : deeds.map (·.agent) ++ waiting = chunk →
      (∀ d ∈ deeds, P d ∧ board.Holds d.won) →
      Tracks s P chunk (.ready (deeds.map (·.after)) (Deed.requests deeds) waiting) board
  | acting {deeds a turn waiting won board} : deeds.map (·.agent) ++ a :: waiting = chunk →
      (∀ d ∈ deeds, P d ∧ board.Holds d.won) → board.Holds won →
      (turn.Ensures s fun more x => ∃ u, x.1 = .ok u ∧ ∃ asked,
        x.2.commands = Deed.requests deeds ++ asked ∧ P ⟨a, x.2.body, won ++ more, asked⟩) →
      Tracks s P chunk (.acting (deeds.map (·.after)) a turn waiting) board

theorem Tracks.extends {s : Space Float} {w : Worker σ μ η} {board board' : Board}
    (tracks : Tracks s P chunk w board) (extended : board.Extends board') :
    Tracks s P chunk w board' := by
  cases tracks with
  | ready whole done =>
    exact .ready whole fun d among => (done d among).imp_right (·.extends extended)
  | acting whole done won rest =>
    exact .acting whole (fun d among => (done d among).imp_right (·.extends extended))
      (won.extends extended) rest

theorem Abides.tracks (abides : b.Abides c P) {w w' : Worker σ μ η}
    (step : Worker.Steps b c w shared w' shared') (views : c.space.Views shared.index)
    (tracks : Tracks c.space P chunk w shared.board) :
    Tracks c.space P chunk w' shared'.board ∧ shared.board.Extends shared'.board := by
  cases step with
  | @start acted buffer a waiting =>
    cases tracks with
    | ready whole done =>
      exact ⟨.acting whole done (List.forall_mem_nil _) (abides a _), .refl _⟩
  | @access acted a turn waiting _ more =>
    cases tracks with
    | acting whole done won rest =>
      obtain ⟨new, rest, extended, stands⟩ := rest.advance views
      refine ⟨.acting whole (fun d among => (done d among).imp_right (·.extends extended))
        (Board.holds_append.mpr ⟨won.extends extended, stands⟩) ?_, extended⟩
      simpa only [List.append_assoc] using rest
  | @finish acted a draft waiting =>
    cases tracks with
    | @acting deeds _ _ _ won _ whole done stands rest =>
      obtain ⟨_, -, asked, commands, holds⟩ := rest
      rw [List.append_nil] at holds
      let d : Deed σ μ η := ⟨a, draft.body, won, asked⟩
      have requests : draft.commands = Deed.requests (deeds ++ [d]) := by
        rw [Deed.requests_append]
        show _ = Deed.requests deeds ++ (asked ++ .empty)
        rw [Commands.append_empty]
        exact commands
      have acted : deeds.map (·.after) ++ [a.withBody draft.body] =
          (deeds ++ [d]).map (·.after) := by
        rw [List.map_append]
        rfl
      rw [requests, acted]
      refine ⟨.ready ?_ ?_, .refl _⟩
      · rw [List.map_append, List.append_assoc]
        exact whole
      · exact List.forall_mem_append.mpr ⟨done, List.forall_mem_singleton.mpr ⟨holds, stands⟩⟩
  | fail =>
    cases tracks with
    | acting whole done won rest =>
      obtain ⟨_, ⟨⟩, -⟩ := rest

/-- Workers that are done have together done what their agents have done. -/
theorem deeds_of_done {space : Space Float} {board : Board} {chunks : List (List (Agent σ μ))}
    (all : List.Forall₂ (Tracks space P · · board) chunks ws) (done : ∀ w ∈ ws, w.Done) :
    ∃ deeds : List (Deed σ μ η), deeds.map (·.agent) = chunks.flatten ∧
      deeds.map (·.after) = ws.flatMap (·.agents) ∧
      Deed.requests deeds = ws.foldr (·.buffer ++ ·) .empty ∧
      ∀ d ∈ deeds, P d ∧ board.Holds d.won := by
  induction all with
  | nil => exact ⟨[], rfl, rfl, rfl, List.forall_mem_nil _⟩
  | cons tracks rest ih =>
    rw [List.forall_mem_cons] at done
    obtain ⟨⟨acted, buffer, rfl⟩, others⟩ := done
    obtain ⟨more, agents, after, requests, held⟩ := ih others
    cases tracks with
    | @ready deeds _ _ whole own =>
      rw [List.append_nil] at whole
      refine ⟨deeds ++ more, ?_, ?_, ?_, List.forall_mem_append.mpr ⟨own, held⟩⟩
      · rw [List.map_append, whole, agents, List.flatten_cons]
      · rw [List.map_append, after, List.flatMap_cons, Worker.agents, List.append_nil]
      · rw [Deed.requests_append, requests, List.foldr_cons, Worker.buffer]

theorem not_stopped {space : Space Float} {board : Board} {chunks : List (List (Agent σ μ))}
    (all : List.Forall₂ (Tracks space P · · board) chunks ws) {acted waiting : List (Agent σ μ)}
    {cause : BehaviorError} : .stopped acted cause waiting ∉ ws := by
  intro stopped
  induction all with
  | nil => cases stopped
  | cons tracks _ ih =>
    rcases List.mem_cons.mp stopped with rfl | later
    · cases tracks
    · exact ih later

/-- Whoever acts when: the turns end well, every agent has done something that `P` says, and what it
has won is on the board. -/
theorem Abides.ends (abides : b.Abides c P) {chunks : List (List (Agent σ μ))}
    {result : Except BehaviorError (Commands σ μ η)} {agents : List (Agent σ μ)}
    (views : c.space.Views shared.index) (ends : b.Ends c chunks shared result agents shared') :
    ∃ deeds : List (Deed σ μ η), deeds.map (·.agent) = chunks.flatten ∧
      deeds.map (·.after) = agents ∧ result = .ok (Deed.requests deeds) ∧
      ∀ d ∈ deeds, P d ∧ shared'.board.Holds d.won := by
  let Q (chunk : List (Agent σ μ)) (w : Worker σ μ η) (shared : Commons) : Prop :=
    c.space.Views shared.index ∧ Tracks c.space P chunk w shared.board
  let G (x y : Commons) : Prop :=
    (c.space.Views x.index → c.space.Views y.index) ∧ x.board.Extends y.board
  have tracked : ∀ {ws : List (Worker σ μ η)} {shared' : Commons},
      b.Runs c (chunks.map .new) shared ws shared' →
      List.Forall₂ (Tracks c.space P · · shared'.board) chunks ws := by
    intro ws shared' runs
    have fresh : List.Forall₂ (Q · · shared) chunks (chunks.map .new) := by
      rw [List.forall₂_map_right_iff, List.forall₂_same]
      exact fun chunk _ => ⟨views, @Tracks.ready _ _ _ c.space P chunk [] chunk shared.board rfl
        (List.forall_mem_nil _)⟩
    have last := runs.undisturbed (P := Q) (G := G) (fun _ => ⟨id, .refl _⟩)
      (fun first second => ⟨second.1 ∘ first.1, first.2.trans second.2⟩) ?_ ?_ fresh
    · exact last.1.imp fun _ _ holds => holds.2
    · rintro chunk w shared w' shared' step ⟨views, tracks⟩
      obtain ⟨after, extended⟩ := abides.tracks step views tracks
      exact ⟨⟨step.views views, after⟩, step.views, extended⟩
    · rintro chunk w shared shared' ⟨views, tracks⟩ ⟨found, extended⟩
      exact ⟨found views, tracks.extends extended⟩
  cases ends with
  | done runs done =>
    obtain ⟨deeds, agents, after, requests, held⟩ := deeds_of_done (tracked runs) done
    exact ⟨deeds, agents, after, congrArg _ requests.symm, held⟩
  | failed runs stopped _ => exact absurd stopped (not_stopped (tracked runs))

end Behavior
end Vivarium
