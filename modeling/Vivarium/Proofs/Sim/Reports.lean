import Vivarium.Proofs.Sim.History

/-! What the journal reports: in a completed step what its agents have reported, and between two
steps nothing. -/
namespace Vivarium

/-- What a notice reports. -/
def Notice.report? : Notice → Option AgentEvent
  | .reported _ e => some e
  | _ => none

namespace Journal

/-- What was reported, in this order. -/
def reports (log : List Notice) : List AgentEvent := log.filterMap Notice.report?

end Journal

open Journal

theorem reports_append (log more : List Notice) :
    reports (log ++ more) = reports log ++ reports more := List.filterMap_append

namespace Sim
variable {σ μ η : Type} {s s' : Sim σ μ η} {commands : Commands σ μ η}
  {acted newborns : List (Agent σ μ)} {summary : StepSummary}

/-- What was reported between two states of a simulation. -/
def told (s s' : Sim σ μ η) : List AgentEvent :=
  (reports s'.journal.toList).drop (reports s.journal.toList).length

/-- A completed step reports what its agents report. -/
theorem Recorded.written (recorded : Recorded commands acted newborns summary s s') :
    ∃ more, s'.journal.toList = s.journal.toList ++ more ∧ reports more = commands.events := by
  have said : reports (commands.events.map (.reported s.step)) = commands.events := by
    rw [reports, Notice.taken (g := id) commands.events fun _ => rfl, List.map_id]
  have gone : reports ((removed (s.requests commands) acted).map (parting s.step)) = [] :=
    Notice.skipped _ fun _ => rfl
  have born : reports (newborns.map (arrival s.step)) = [] := Notice.skipped _ fun _ => rfl
  have opening : reports [.started s.step] = [] := rfl
  have closing : reports [.ended summary] = [] := rfl
  have written := recorded.journal
  simp only [List.append_assoc] at written
  refine ⟨_, written, ?_⟩
  simp only [reports_append, opening, said, gone, born, closing, List.nil_append, List.append_nil]

theorem told_eq {more : List Notice} (written : s'.journal.toList = s.journal.toList ++ more) :
    told s s' = reports more := by
  rw [told, written, reports_append, List.drop_left]

/-- Calls that make no steps report nothing. -/
theorem Sound.after_written (sound : s.Sound) {c : Call σ μ η} (rests : c.Rests) :
    ∃ more, (s.after c).journal.toList = s.journal.toList ++ more ∧ reports more = [] := by
  by_cases spawns : ∃ a, c = .spawn a
  · obtain ⟨a, rfl⟩ := spawns
    simp only [Sim.after]
    rcases sound.spawn_cases a with ⟨-, ends⟩ | ⟨-, -, ends⟩ | ⟨s', activated, ends⟩
    · exact ⟨[], by rw [ends, List.append_nil], rfl⟩
    · exact ⟨[], by rw [ends, List.append_nil], rfl⟩
    · obtain ⟨_, newborn, -, -, -, -, -, journal⟩ := sound.consistent.activate_housed activated
      exact ⟨_, by rw [ends, journal], rfl⟩
  · refine ⟨[], ?_, rfl⟩
    rw [after_journal rests fun a same => spawns ⟨a, same⟩, List.append_nil]

end Sim

end Vivarium
