import Std.Data.String.ToNat
import Vivarium.Foraging.Census
import Vivarium.Proofs.Foraging.Turns
import Vivarium.Proofs.Sim.Reports

/-! Who is eaten. Each kill is reported by the hunter that has claimed its prey, and because a claim
stands on the board until the end of the step, no two hunters eat the same forager. -/
namespace Vivarium

theorem AgentId.text_injective {a b : AgentId} (same : a.text = b.text) : a = b := by
  have digits : toString a.index = toString b.index := by simpa [text] using same
  exact ext_index (Nat.repr_inj.mp digits)

open Journal

namespace Foraging

/-- The reports of kills. -/
def hunts (events : List AgentEvent) : List AgentEvent := events.filter (·.source = "hunt")

theorem hunts_append (events more : List AgentEvent) :
    hunts (events ++ more) = hunts events ++ hunts more := List.filter_append _ _

/-- A census counts the reports of kills. -/
theorem Census.kills_eq (j : Journal) :
    (Census.ofJournal j).kills = (hunts (reports j.toList)).length := by
  have counted : ∀ (log : List Notice) (c : Census),
      (log.foldl Census.record c).kills = c.kills + (hunts (reports log)).length := by
    intro log
    induction log with
    | nil => exact fun c => rfl
    | cons x rest ih =>
      intro c
      rw [List.foldl_cons, ih, ← List.singleton_append, reports_append, hunts_append,
        List.length_append]
      cases x with
      | reported step e =>
        by_cases hunt : e.source = "hunt"
        · simp [Census.record, hunts, reports, Notice.report?, hunt, Nat.add_assoc]
        · simp [Census.record, hunts, reports, Notice.report?, hunt]
      | _ => simp [Census.record, hunts, reports, Notice.report?]
  rw [Census.ofJournal, ← Array.foldl_toList, counted, Nat.zero_add]

namespace Ecology
variable {p : Ecology} {c : Context} {d : Deed Critter Alarm Float} {id : AgentId}
  {deeds : List (Deed Critter Alarm Float)} {board : Board}

theorem caught_injective {a b : AgentId} (same : caught a = caught b) : a = b := by
  refine AgentId.text_injective ?_
  simpa [caught] using same

/-! What one critter has done. -/

/-- Whom a critter has eaten. -/
def prey (d : Deed Critter Alarm Float) : List AgentId :=
  if d.won.isEmpty then [] else d.asked.removals

theorem prey_removed (eaten : id ∈ prey d) : id ∈ d.asked.removals := by
  rw [prey] at eaten
  split at eaten
  · cases eaten
  · exact eaten

theorem Lives.hunts_eq (lives : p.Lives c d) :
    hunts d.asked.events = (prey d).map fun id => ⟨d.agent.id, "hunt", caught id⟩ := by
  cases lives <;> simp [hunts, prey, starvation, Commands.empty]

theorem Lives.won_eq (lives : p.Lives c d) :
    d.won = (prey d).map fun id => (caughtKey id, .agent d.agent.id) := by
  cases lives <;> simp [prey]

theorem Lives.nodup (lives : p.Lives c d) : (prey d).Nodup := by
  cases lives <;> simp [prey]

theorem Lives.events_own (lives : p.Lives c d) : ∀ e ∈ d.asked.events, e.agent = d.agent.id := by
  cases lives <;> simp [starvation, Commands.empty]

theorem Lives.seen (lives : p.Lives c d) : ∀ id ∈ prey d,
    ∃ e ∈ (c.space.visibleNeighbours d.agent.id p.sight).1, e.id = id ∧ e.population = forager := by
  cases lives with
  | eats _ _ _ seen population _ => simpa [prey] using ⟨_, seen, rfl, population⟩
  | _ => simp [prey]

theorem Lives.mem_removals (lives : p.Lives c d) (there : c.projection? d.agent.id ≠ none) :
    id ∈ d.asked.removals ↔ (p.Starves d.agent ∧ id = d.agent.id) ∨ id ∈ prey d := by
  cases lives with
  | astray nowhere => exact absurd nowhere there
  | starves _ starves => simp [prey, starves]
  | grazes _ fed => simp [prey, fed]
  | seeks _ fed => simp [prey, fed]
  | eats _ fed => simp [prey, fed]

theorem Lives.additions (lives : p.Lives c d) : d.asked.additions = [] ∨
    ∃ a, d.asked.additions = [a] ∧ ¬p.Starves d.agent ∧ a.population = d.agent.population ∧
      c.projection? d.agent.id = some a.projection := by
  have child : ∀ {a : CritterAgent} {here : Projection Float} {energy : Float},
      c.projection? a.id = some here → ¬p.Starves a → p.children a here energy = [] ∨
      ∃ x, p.children a here energy = [x] ∧ ¬p.Starves a ∧ x.population = a.population ∧
        c.projection? a.id = some x.projection := by
    intro a here energy there fed
    rw [children]
    split
    · exact .inr ⟨_, rfl, fed, rfl, there⟩
    · exact .inl rfl
  cases lives with
  | astray => exact .inl rfl
  | starves => exact .inl rfl
  | grazes there fed => exact child there fed
  | seeks there fed => exact child there fed
  | eats there fed => exact child there fed

/-- What a step brings a critter, with what it reports. -/
inductive Fares (p : Ecology) (a a' : CritterAgent) : List AgentEvent → Prop where
  | starves : p.Starves a → a'.state = ⟨a.state.kind, p.spent a⟩ → Fares p a a' [starvation a]
  | grazes : ¬p.Starves a → a.state.kind = .forager →
      a'.state = ⟨.forager, p.kept (p.spent a + p.graze)⟩ → Fares p a a' []
  | seeks : ¬p.Starves a → a.state.kind = .hunter →
      a'.state = ⟨.hunter, p.kept (p.spent a)⟩ → Fares p a a' []
  | eats (id : AgentId) : ¬p.Starves a → a.state.kind = .hunter →
      a'.state = ⟨.hunter, p.kept (p.spent a + p.meal)⟩ →
      Fares p a a' [⟨a.id, "hunt", caught id⟩]

theorem Lives.fares (lives : p.Lives c d) (there : c.projection? d.agent.id ≠ none) :
    p.Fares d.agent d.after d.asked.events := by
  cases lives with
  | astray nowhere => exact absurd nowhere there
  | starves _ starves => exact .starves starves rfl
  | grazes _ fed kind state => exact .grazes fed kind state
  | seeks _ fed kind state => exact .seeks fed kind state
  | eats _ fed kind _ _ state => exact .eats _ fed kind state

/-! What all have done together. -/

/-- Different critters claim different prey, because on the board stands one of them. -/
theorem prey_nodup (distinct : (deeds.map (·.agent.id)).Nodup)
    (lives : ∀ d ∈ deeds, p.Lives c d ∧ board.Holds d.won) : (deeds.flatMap prey).Nodup := by
  rw [List.nodup_flatMap]
  refine ⟨fun d among => (lives d among).1.nodup, ?_⟩
  refine (List.pairwise_map.mp distinct).imp_of_mem fun {d d'} among among' different => ?_
  intro id mine theirs
  have claimed : ∀ d ∈ deeds, id ∈ prey d →
      board.get? (caughtKey id) = some (.agent d.agent.id) := by
    intro d among eaten
    refine (lives d among).2 (caughtKey id, .agent d.agent.id) ?_
    rw [(lives d among).1.won_eq]
    exact List.mem_map_of_mem eaten
  have same := (claimed d among mine).symm.trans (claimed d' among' theirs)
  simp only [Option.some.injEq, Value.agent.injEq] at same
  exact different same

theorem hunts_requests (lives : ∀ d ∈ deeds, p.Lives c d) :
    (hunts (Deed.requests deeds).events).map (·.message) = (deeds.flatMap prey).map caught := by
  induction deeds with
  | nil => rfl
  | cons d rest ih =>
    rw [List.forall_mem_cons] at lives
    show (hunts (d.asked.events ++ (Deed.requests rest).events)).map _ = _
    rw [hunts_append, List.map_append, ih lives.2, lives.1.hunts_eq, List.flatMap_cons,
      List.map_append, List.map_map]
    rfl

theorem caught_iff (lives : ∀ d ∈ deeds, p.Lives c d) :
    (∃ e ∈ hunts (Deed.requests deeds).events, e.message = caught id) ↔
      id ∈ deeds.flatMap prey := by
  rw [← List.mem_map, hunts_requests lives, List.mem_map]
  constructor
  · rintro ⟨id', eaten, same⟩
    rwa [← caught_injective same]
  · exact fun eaten => ⟨id, eaten, rfl⟩

theorem removals_iff (lives : ∀ d ∈ deeds, p.Lives c d)
    (there : ∀ d ∈ deeds, c.projection? d.agent.id ≠ none) :
    id ∈ (Deed.requests deeds).removals ↔
      (∃ d ∈ deeds, p.Starves d.agent ∧ id = d.agent.id) ∨ id ∈ deeds.flatMap prey := by
  simp only [Deed.requests_flatMap, List.mem_flatMap, ← exists_or, ← and_or_left]
  exact exists_congr fun d => and_congr_right fun among =>
    (lives d among).mem_removals (there d among)

/-- Each critter reports for itself. -/
theorem own_reports (distinct : (deeds.map (·.agent.id)).Nodup)
    (lives : ∀ d ∈ deeds, p.Lives c d) (among : d ∈ deeds) :
    (Deed.requests deeds).events.filter (·.agent = d.agent.id) = d.asked.events := by
  induction deeds with
  | nil => cases among
  | cons d' rest ih =>
    rw [List.forall_mem_cons] at lives
    rw [List.map_cons, List.nodup_cons] at distinct
    show ((d'.asked.events ++ (Deed.requests rest).events).filter _) = _
    rw [List.filter_append]
    rcases List.mem_cons.mp among with rfl | later
    · have others : (Deed.requests rest).events.filter (·.agent = d.agent.id) = [] := by
        rw [Deed.requests_flatMap, List.filter_eq_nil_iff]
        intro e said
        obtain ⟨d', among', own⟩ := List.mem_flatMap.mp said
        rw [decide_eq_true_iff, (lives.2 d' among').events_own e own]
        exact fun same => distinct.1 (List.mem_map.mpr ⟨d', among', same⟩)
      rw [others, List.append_nil, List.filter_eq_self]
      exact fun e said => decide_eq_true (lives.1.events_own e said)
    · have first : d'.asked.events.filter (·.agent = d.agent.id) = [] := by
        rw [List.filter_eq_nil_iff]
        intro e said
        rw [decide_eq_true_iff, lives.1.events_own e said]
        exact fun same => distinct.1 (List.mem_map.mpr ⟨d, later, same.symm⟩)
      rw [first, List.nil_append, ih distinct.2 lives.2 later]

/-- Whoever has a child has not starved, and the child is born in its population where it is. -/
theorem parents_exist (lives : ∀ d ∈ deeds, p.Lives c d) :
    ∃ parents : List (Deed Critter Alarm Float), parents.Sublist deeds ∧
      (∀ d ∈ parents, ¬p.Starves d.agent) ∧
      List.Forall₂ (fun d a => a.population = d.agent.population ∧
        c.projection? d.agent.id = some a.projection) parents (Deed.requests deeds).additions := by
  induction deeds with
  | nil => exact ⟨[], .slnil, List.forall_mem_nil _, .nil⟩
  | cons d rest ih =>
    rw [List.forall_mem_cons] at lives
    obtain ⟨parents, sublist, fed, children⟩ := ih lives.2
    have whole : (Deed.requests (d :: rest)).additions =
        d.asked.additions ++ (Deed.requests rest).additions := rfl
    rcases lives.1.additions with none | ⟨a, one, fed', population, there⟩
    · rw [whole, none]
      exact ⟨parents, sublist.cons d, fed, children⟩
    · rw [whole, one]
      exact ⟨d :: parents, sublist.cons_cons d, List.forall_mem_cons.mpr ⟨fed', fed⟩,
        .cons ⟨population, there⟩ children⟩

end Ecology
end Foraging
end Vivarium
