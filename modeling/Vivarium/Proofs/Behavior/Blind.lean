import Vivarium.Proofs.Behavior.Workers

/-! Behaviours that do not look at how often the storage of an agent was handed out. Rows of agents
that differ in this only come to the same, whoever acts when: in every order in which the first can
act, the second can, and then they ask for the same, fail alike, and leave the same board and the same
picture of positions. -/
namespace Vivarium
variable {σ μ η : Type}

namespace Agent

/-- One agent, but for how often its storage was handed out. -/
def Alike (a a' : Agent σ μ) : Prop := ∃ n, a' = { a with incarnation := n }

/-- A callback that does not look at the count of incarnations. -/
def Blind {β : Type} (f : Agent σ μ → β) : Prop := ∀ a n, f { a with incarnation := n } = f a

variable {a a' : Agent σ μ} {agents agents' : List (Agent σ μ)}

theorem Alike.symm (alike : a.Alike a') : a'.Alike a := by
  obtain ⟨n, rfl⟩ := alike
  exact ⟨a.incarnation, rfl⟩

theorem Alike.eq_of_blind {β : Type} {f : Agent σ μ → β} (alike : a.Alike a') (blind : Blind f) :
    f a' = f a := by
  obtain ⟨n, rfl⟩ := alike
  exact blind a n

/-- What does not look at incarnations is the same for both rows of agents. -/
theorem map_eq_of_blind {β : Type} {f : Agent σ μ → β}
    (alike : List.Forall₂ Alike agents agents') (blind : Blind f) :
    agents'.map f = agents.map f := by
  induction alike with
  | nil => rfl
  | cons first rest ih => rw [List.map_cons, List.map_cons, ih, first.eq_of_blind blind]

theorem Alike.rewrite (alike : a.Alike a') (body : Body σ) :
    (a.withBody body).Alike (a'.withBody body) := by
  obtain ⟨n, rfl⟩ := alike
  exact ⟨n, rfl⟩

theorem Alike.withBody (alike : a.Alike a') {f : Agent σ μ → Body σ} (blind : Blind f) :
    (a.withBody (f a)).Alike (a'.withBody (f a')) := by
  rw [alike.eq_of_blind blind]
  exact alike.rewrite (f a)

theorem getElem?_alike (alike : List.Forall₂ Alike agents agents') (i : Nat) :
    Option.Rel Alike agents[i]? agents'[i]? := by
  induction alike generalizing i with
  | nil => exact .none
  | cons first rest ih =>
    cases i with
    | zero => exact .some first
    | succ i => exact ih i

theorem modify_alike (alike : List.Forall₂ Alike agents agents') (i : Nat)
    {f : Agent σ μ → Agent σ μ} (same : ∀ {a a'}, a.Alike a' → (f a).Alike (f a')) :
    List.Forall₂ Alike (agents.modify i f) (agents'.modify i f) := by
  induction alike generalizing i with
  | nil => simp
  | cons first rest ih =>
    cases i with
    | zero => exact .cons (same first) rest
    | succ i => exact .cons first (ih i)

theorem fillChunk_alike (alike : List.Forall₂ Alike agents agents') (size room : Nat) :
    List.Forall₂ Alike (fillChunk size room agents).1 (fillChunk size room agents').1 ∧
      List.Forall₂ (List.Forall₂ Alike) (fillChunk size room agents).2
        (fillChunk size room agents').2 := by
  induction alike generalizing room with
  | nil => cases room <;> exact ⟨.nil, .nil⟩
  | cons first rest ih =>
    cases room with
    | zero =>
      obtain ⟨chunk, others⟩ := ih (size - 1)
      exact ⟨.nil, .cons (.cons first chunk) others⟩
    | succ room =>
      obtain ⟨chunk, others⟩ := ih room
      exact ⟨.cons first chunk, others⟩

/-- Both rows are cut at the same places. -/
theorem chunks_alike (alike : List.Forall₂ Alike agents agents') (size : Nat) :
    List.Forall₂ (List.Forall₂ Alike) (chunks size agents) (chunks size agents') :=
  (fillChunk_alike alike size 0).2

end Agent

/-- The initialization of a newborn does not look at the count of incarnations. -/
def Addition.Blind (x : Addition σ μ η) : Prop := ∀ init, x.init = some init → Agent.Blind init

/-- Neither acting, nor inheriting, nor the initializations that acts ask for look at the count of
incarnations. -/
structure Behavior.Blind (b : Behavior σ μ η) : Prop where
  act : ∀ c, Agent.Blind (b.act c)
  inherit : ∀ h, Agent.Blind (b.inherit · h)
  additions : ∀ {c a buffer surveyed x},
    (b.turn c a buffer).Yields c.space (fun _ => True) surveyed x →
      (∀ y ∈ buffer.additions, y.Blind) → ∀ y ∈ x.2.commands.additions, y.Blind

namespace Worker

/-- Two workers that have come equally far on agents that are alike. -/
inductive Alike : Worker σ μ η → Worker σ μ η → Prop where
  | ready {acted acted' buffer waiting waiting'} : List.Forall₂ Agent.Alike acted acted' →
      List.Forall₂ Agent.Alike waiting waiting' →
      Alike (.ready acted buffer waiting) (.ready acted' buffer waiting')
  | acting {acted acted' a a' turn waiting waiting'} : List.Forall₂ Agent.Alike acted acted' →
      a.Alike a' → List.Forall₂ Agent.Alike waiting waiting' →
      Alike (.acting acted a turn waiting) (.acting acted' a' turn waiting')
  | stopped {acted acted' cause waiting waiting'} : List.Forall₂ Agent.Alike acted acted' →
      List.Forall₂ Agent.Alike waiting waiting' →
      Alike (.stopped acted cause waiting) (.stopped acted' cause waiting')

/-- A worker that has asked for no initialization that looks at the count, and does not go on to. -/
inductive Asking (b : Behavior σ μ η) (c : Context) : Worker σ μ η → Commons → Prop where
  | ready {acted buffer waiting shared} : (∀ y ∈ buffer.additions, y.Blind) →
      Asking b c (.ready acted buffer waiting) shared
  | acting {acted a turn waiting buffer shared} : (∀ y ∈ buffer.additions, y.Blind) →
      (b.turn c a buffer).Remains c.space shared.index turn →
      Asking b c (.acting acted a turn waiting) shared
  | stopped {acted cause waiting shared} : Asking b c (.stopped acted cause waiting) shared

variable {b : Behavior σ μ η} {c : Context} {w w' v : Worker σ μ η} {shared shared' : Commons}

theorem Alike.agents (alike : w.Alike v) : List.Forall₂ Agent.Alike w.agents v.agents := by
  cases alike with
  | ready acted waiting => exact List.rel_append acted waiting
  | acting acted first waiting => exact List.rel_append acted (.cons first waiting)
  | stopped acted waiting => exact List.rel_append acted waiting

theorem Alike.done (alike : w.Alike v) (done : w.Done) : v.Done ∧ v.buffer = w.buffer := by
  obtain ⟨acted, buffer, rfl⟩ := done
  cases alike with
  | ready _ waiting =>
    cases waiting
    exact ⟨⟨_, _, rfl⟩, rfl⟩

/-- What the one does, the other can do. -/
theorem Alike.step (blind : b.Blind) (alike : w.Alike v) (step : Steps b c w shared w' shared') :
    ∃ v', Steps b c v shared v' shared' ∧ w'.Alike v' := by
  cases step with
  | @start acted buffer a waiting =>
    cases alike with
    | ready done waits =>
      cases waits with
      | @cons _ a' _ rest first others =>
        have same : b.turn c a' buffer = b.turn c a buffer := by
          obtain ⟨n, rfl⟩ := first
          rw [Behavior.turn, Behavior.turn, blind.act c a n]
        refine ⟨_, .start, ?_⟩
        rw [same]
        exact .acting done first others
  | access more =>
    cases alike with
    | acting done first others => exact ⟨_, .access more, .acting done first others⟩
  | finish =>
    cases alike with
    | acting done first others =>
      exact ⟨_, .finish, .ready (List.rel_append done (.cons (first.rewrite _) .nil)) others⟩
  | fail =>
    cases alike with
    | acting done first others =>
      exact ⟨_, .fail, .stopped (List.rel_append done (.cons (first.rewrite _) .nil)) others⟩

theorem Asking.retakes (asking : Asking b c w shared)
    (retakes : c.space.Retakes shared.index shared'.index) : Asking b c w shared' := by
  cases asking with
  | ready asked => exact .ready asked
  | acting asked rest => exact .acting asked (rest.retakes retakes)
  | stopped => exact .stopped

theorem Asking.step (blind : b.Blind) (step : Steps b c w shared w' shared')
    (views : c.space.Views shared.index) (asking : Asking b c w shared) : Asking b c w' shared' := by
  cases step with
  | start =>
    cases asking with
    | ready asked => exact .acting asked (Turn.remains_whole views _)
  | access =>
    cases asking with
    | acting asked rest => exact .acting asked rest.advance
  | finish =>
    cases asking with
    | acting asked rest =>
      obtain ⟨surveyed, yields⟩ := rest.ends
      exact .ready (blind.additions yields asked)
  | fail => exact .stopped

end Worker

namespace Behavior
variable {b : Behavior σ μ η} {c : Context} {a a' : Agent σ μ} {agents agents' out : List (Agent σ μ)}
  {commands : Commands σ μ η} {shared shared' : Commons} {ws ws' vs : List (Worker σ μ η)}
  {chunks chunks' : List (List (Agent σ μ))} {result : Except BehaviorError (Commands σ μ η)}

/-! One after the other. -/

theorem Blind.perform (blind : b.Blind) (alike : a.Alike a') (buffer : Commands σ μ η)
    (shared : Commons) :
    ∃ acted', b.perform c a' buffer shared =
        ((b.perform c a buffer shared).1, acted', (b.perform c a buffer shared).2.2) ∧
      (b.perform c a buffer shared).2.1.Alike acted' := by
  obtain ⟨n, rfl⟩ := alike
  refine ⟨(b.perform c { a with incarnation := n } buffer shared).2.1, ?_, n, ?_⟩
  · simp only [Behavior.perform, Behavior.turn, blind.act c a n]
  · simp only [Behavior.perform, Behavior.turn, blind.act c a n]
    rfl

theorem Blind.performAll (blind : b.Blind) (alike : List.Forall₂ Agent.Alike agents agents')
    (buffer : Commands σ μ η) (shared : Commons) :
    ∃ out', b.performAll c agents' buffer shared =
        ((b.performAll c agents buffer shared).1, out', (b.performAll c agents buffer shared).2.2) ∧
      List.Forall₂ Agent.Alike (b.performAll c agents buffer shared).2.1 out' := by
  induction alike generalizing buffer shared with
  | nil => exact ⟨[], rfl, .nil⟩
  | @cons a a' rest rest' first others ih =>
    obtain ⟨acted', turn', same⟩ := blind.perform (c := c) first buffer shared
    simp only [Behavior.performAll, turn']
    revert same
    rcases b.perform c a buffer shared with ⟨e | commands, acted, middle⟩
    · exact fun same => ⟨_, rfl, .cons same others⟩
    · intro same
      obtain ⟨out', turns, more⟩ := ih commands middle
      simp only [turns]
      exact ⟨_, rfl, .cons same more⟩

theorem Blind.performChunks (blind : b.Blind)
    (alike : List.Forall₂ (List.Forall₂ Agent.Alike) chunks chunks') (shared : Commons) :
    ∃ out', b.performChunks c chunks' shared =
        ((b.performChunks c chunks shared).1, out', (b.performChunks c chunks shared).2.2) ∧
      List.Forall₂ Agent.Alike (b.performChunks c chunks shared).2.1 out' := by
  induction alike generalizing shared with
  | nil => exact ⟨[], rfl, .nil⟩
  | @cons chunk chunk' rest rest' first others ih =>
    obtain ⟨acted', turns, same⟩ := blind.performAll (c := c) first .empty shared
    simp only [Behavior.performChunks, turns]
    revert same
    rcases b.performAll c chunk .empty shared with ⟨e | commands, acted, middle⟩
    · exact fun same => ⟨_, rfl, List.rel_append same (List.rel_flatten others)⟩
    · intro same
      obtain ⟨out', turns', more⟩ := ih middle
      simp only [turns']
      exact ⟨_, rfl, List.rel_append same more⟩

/-! On workers. -/

theorem Blind.steps (blind : b.Blind) (alike : List.Forall₂ Worker.Alike ws vs)
    (step : b.Steps c ws shared ws' shared') :
    ∃ vs', b.Steps c vs shared vs' shared' ∧ List.Forall₂ Worker.Alike ws' vs' := by
  induction step generalizing vs with
  | here first =>
    cases alike with
    | cons same others =>
      obtain ⟨v', first', same'⟩ := same.step blind first
      exact ⟨_, .here first', .cons same' others⟩
  | behind _ ih =>
    cases alike with
    | cons same others =>
      obtain ⟨vs', behind', others'⟩ := ih others
      exact ⟨_, .behind behind', .cons same others'⟩

theorem Blind.runs (blind : b.Blind) (alike : List.Forall₂ Worker.Alike ws vs)
    (runs : b.Runs c ws shared ws' shared') :
    ∃ vs', b.Runs c vs shared vs' shared' ∧ List.Forall₂ Worker.Alike ws' vs' := by
  induction runs generalizing vs with
  | refl => exact ⟨vs, .refl, alike⟩
  | step first _ ih =>
    obtain ⟨vs₁, first', alike₁⟩ := blind.steps alike first
    obtain ⟨vs₂, others', alike₂⟩ := ih alike₁
    exact ⟨vs₂, .step first' others', alike₂⟩

theorem agents_alike (alike : List.Forall₂ Worker.Alike ws vs) :
    List.Forall₂ Agent.Alike (ws.flatMap (·.agents)) (vs.flatMap (·.agents)) := by
  induction alike with
  | nil => exact .nil
  | cons same _ ih =>
    rw [List.flatMap_cons, List.flatMap_cons]
    exact List.rel_append same.agents ih

theorem done_alike (alike : List.Forall₂ Worker.Alike ws vs) (done : ∀ w ∈ ws, w.Done) :
    (∀ v ∈ vs, v.Done) ∧
      vs.foldr (·.buffer ++ ·) .empty = ws.foldr (·.buffer ++ ·) Commands.empty := by
  induction alike with
  | nil => exact ⟨List.forall_mem_nil _, rfl⟩
  | cons same _ ih =>
    rw [List.forall_mem_cons] at done
    obtain ⟨done', buffer⟩ := same.done done.1
    obtain ⟨others, buffers⟩ := ih done.2
    exact ⟨List.forall_mem_cons.mpr ⟨done', others⟩, by rw [List.foldr_cons, buffer, buffers]; rfl⟩

theorem exists_alike {R : Worker σ μ η → Worker σ μ η → Prop} (alike : List.Forall₂ R ws vs) :
    ∀ w ∈ ws, ∃ v ∈ vs, R w v := by
  induction alike with
  | nil => exact List.forall_mem_nil _
  | @cons w v _ _ same _ ih =>
    refine List.forall_mem_cons.mpr ⟨⟨v, .head _, same⟩, fun w' among => ?_⟩
    obtain ⟨v', there, same'⟩ := ih w' among
    exact ⟨v', .tail _ there, same'⟩

/-- However the turns of some chunks end, those of chunks with the likes of their agents can. -/
theorem Blind.ends (blind : b.Blind) (alike : List.Forall₂ (List.Forall₂ Agent.Alike) chunks chunks')
    (ends : b.Ends c chunks shared result out shared') :
    ∃ out', b.Ends c chunks' shared result out' shared' ∧ List.Forall₂ Agent.Alike out out' := by
  have fresh : List.Forall₂ Worker.Alike (chunks.map (.new : _ → Worker σ μ η))
      (chunks'.map .new) := by
    rw [List.forall₂_map_left_iff, List.forall₂_map_right_iff]
    exact alike.imp fun _ _ same => .ready .nil same
  cases ends with
  | done runs done =>
    obtain ⟨vs, runs', alike'⟩ := blind.runs fresh runs
    obtain ⟨done', same⟩ := done_alike alike' done
    exact ⟨_, same ▸ .done runs' done', agents_alike alike'⟩
  | failed runs stopped rests =>
    obtain ⟨vs, runs', alike'⟩ := blind.runs fresh runs
    obtain ⟨v, among, same⟩ := exists_alike alike' _ stopped
    cases same with
    | stopped =>
      refine ⟨_, .failed runs' among ?_, agents_alike alike'⟩
      rintro v among acted a turn waiting rfl
      obtain ⟨w, among', same'⟩ := exists_alike alike'.flip _ among
      cases same'
      exact rests _ among' _ _ _ _ rfl

theorem additions_of_done
    (asking : List.Forall₂ (fun _ w => Worker.Asking b c w shared) chunks ws)
    (done : ∀ w ∈ ws, w.Done) :
    ∀ y ∈ (ws.foldr (·.buffer ++ ·) Commands.empty).additions, y.Blind := by
  induction asking with
  | nil => exact List.forall_mem_nil _
  | cons own _ ih =>
    rw [List.forall_mem_cons] at done
    obtain ⟨acted, buffer, rfl⟩ := done.1
    cases own with
    | ready asked => exact List.forall_mem_append.mpr ⟨asked, ih done.2⟩

theorem Ends.additions_blind (ends : b.Ends c chunks shared (.ok commands) out shared')
    (blind : b.Blind) (views : c.space.Views shared.index) :
    ∀ y ∈ commands.additions, y.Blind := by
  cases ends with
  | done runs done =>
    have fresh : List.Forall₂ (fun _ w => Worker.Asking b c w shared) chunks (chunks.map .new) := by
      rw [List.forall₂_map_right_iff, List.forall₂_same]
      exact fun _ _ => .ready (List.forall_mem_nil _)
    have last := runs.retaking (P := fun _ w shared => Worker.Asking b c w shared)
      (fun step views asking => asking.step blind step views)
      (fun asking retakes => asking.retakes retakes) views fresh
    exact additions_of_done last.1 done

end Behavior
end Vivarium
