import Mathlib.Data.List.Forall2
import Vivarium.Proofs.Behavior.Accesses

/-! What acts may write, of agents and of requests. -/
namespace Vivarium
variable {σ μ η : Type}

/-- One agent, but for what a behaviour may write. -/
def Agent.Rewritten (a a' : Agent σ μ) : Prop := ∃ body, a' = a.withBody body

theorem Agent.Rewritten.refl (a : Agent σ μ) : a.Rewritten a := ⟨a.toBody, rfl⟩

namespace Commands
variable (c d e : Commands σ μ η)

@[simp] theorem empty_append : (empty ++ c : Commands σ μ η) = c := rfl

@[simp] theorem append_empty : c ++ (empty : Commands σ μ η) = c := by
  obtain ⟨additions, removals, deliveries, events⟩ := c
  show append _ _ = _
  simp [append, empty]

theorem append_eq : c ++ d = ⟨c.additions ++ d.additions, c.removals ++ d.removals,
    c.deliveries ++ d.deliveries, c.events ++ d.events⟩ := rfl

theorem spawn_eq (a : Addition σ μ η) : c.spawn a = c ++ ⟨[a], [], [], []⟩ := by
  simp [spawn, append_eq]

theorem send_eq (m : Message μ) : c.send m = c ++ ⟨[], [], [m], []⟩ := by
  simp [send, append_eq]

theorem remove_report_eq (id : AgentId) (e : AgentEvent) :
    (c.remove id).report e = c ++ ⟨[], [id], [], [e]⟩ := by
  simp [remove, report, append_eq]

theorem append_assoc : c ++ d ++ e = c ++ (d ++ e) := by
  show append (append c d) e = append c (append d e)
  simp [append]

end Commands

namespace Behavior
variable {b : Behavior σ μ η} {c : Context} {a : Agent σ μ}

/-! Agents that never act change nothing. -/

theorem perform_of_idle (idle : ∀ c a, b.act c a = pure ()) (buffer : Commands σ μ η)
    (shared : Commons) : b.perform c a buffer shared = (.ok buffer, a, shared) := by
  rw [perform, turn, idle]
  rfl

theorem performAll_of_idle (idle : ∀ c a, b.act c a = pure ()) (agents : List (Agent σ μ))
    (buffer : Commands σ μ η) (shared : Commons) :
    b.performAll c agents buffer shared = (.ok buffer, agents, shared) := by
  induction agents with
  | nil => rfl
  | cons a rest ih => simp only [performAll, perform_of_idle idle, ih]

theorem performChunks_of_idle (idle : ∀ c a, b.act c a = pure ()) (chunks : List (List (Agent σ μ)))
    (shared : Commons) :
    b.performChunks c chunks shared = (.ok .empty, chunks.flatten, shared) := by
  induction chunks with
  | nil => rfl
  | cons chunk rest ih =>
    simp only [performChunks, performAll_of_idle idle, ih]
    rfl

theorem idle_of_passive (passive : b = .passive) (c : Context) (a : Agent σ μ) :
    b.act c a = pure () := by
  rw [passive]
  rfl

end Behavior
end Vivarium
