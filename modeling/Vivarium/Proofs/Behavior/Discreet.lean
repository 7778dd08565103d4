import Vivarium.Proofs.Behavior.Workers

/-! Behaviours whose acts do nothing to the world but append to the requests, and read neither these,
nor the board, nor the chunk size. A query by distance may find the picture of positions outdated and
then takes a new one, which is more than appending; so where an act may do this, none may tell whether
it was done yet, by the flag of the picture or by the count. What such agents do does not depend on who
acts before whom: all workers together ask for what the agents ask for one after the other. -/
namespace Vivarium
variable {σ μ η : Type}

/-- The context with another chunk size. -/
def Context.rechunked (c : Context) (chunkSize : UInt64) : Context :=
  { c with config := { c.config with chunkSize } }

namespace Behavior

/-- Some act may bring the picture up to date. -/
def Surveys (b : Behavior σ μ η) (c : Context) : Prop :=
  ∃ chunkSize a buffer x,
    (b.turn (c.rechunked chunkSize) a buffer).Yields c.space (fun _ => True) true x

/-- The pictures that acts can find: only if one of them may have taken it, the one that is up to
date. -/
def Pictures (b : Behavior σ μ η) (c : Context) (taken : Bool) : Prop := taken = true → b.Surveys c

/-- How an act ends, which body it leaves, what it asks for and whether it brings the picture up to
date, whatever the chunk size, whatever the board answers, whoever has acted before, and whatever was
asked for before. -/
def Does (b : Behavior σ μ η) (c : Context) (a : Agent σ μ) (result : Except BehaviorError Unit)
    (body : Body σ) (asked : Commands σ μ η) (surveyed : Bool) : Prop :=
  ∀ chunkSize buffer surveyed' x,
    (b.turn (c.rechunked chunkSize) a buffer).Yields c.space (b.Pictures c) surveyed' x →
      surveyed' = surveyed ∧ x = (result, ⟨body, buffer ++ asked⟩)

/-- Every act only appends to the requests and reads neither these, nor the board, nor the chunk size,
and none can tell what another has done. -/
def Discreet (b : Behavior σ μ η) : Prop :=
  ∀ c a, ∃ result body asked surveyed, b.Does c a result body asked surveyed

/-- The picture that is there is one that acts can find. -/
def Finds (b : Behavior σ μ η) (c : Context) (taken : Bool) (shared : Commons) : Prop :=
  shared.index = c.space.picture taken ∧ b.Pictures c taken

variable {b : Behavior σ μ η} {c : Context} {a : Agent σ μ} {agents agents' : List (Agent σ μ)}
  {result result' : Except BehaviorError Unit} {body body' : Body σ}
  {asked asked' commands : Commands σ μ η} {shared shared' : Commons}
  {taken surveyed surveyed' : Bool}

theorem does_rechunked (chunkSize : UInt64) :
    b.Does (c.rechunked chunkSize) a result body asked surveyed ↔
      b.Does c a result body asked surveyed := Iff.rfl

theorem pictures_false (b : Behavior σ μ η) (c : Context) : b.Pictures c false := by
  rintro ⟨⟩

theorem finds_first (first : shared.index = c.space.index) : b.Finds c false shared :=
  ⟨first, b.pictures_false c⟩

theorem Does.yields (does : b.Does c a result body asked surveyed) {buffer : Commands σ μ η}
    {x : Except BehaviorError Unit × Draft σ μ η}
    (yields : (b.turn c a buffer).Yields c.space (b.Pictures c) surveyed' x) :
    surveyed' = surveyed ∧ x = (result, ⟨body, buffer ++ asked⟩) :=
  does c.config.chunkSize buffer surveyed' x yields

theorem Does.pictures (does : b.Does c a result body asked surveyed) : b.Pictures c surveyed := by
  rintro rfl
  obtain ⟨surveyed, x, yields⟩ := (b.turn c a .empty).exists_yields c.space (b.pictures_false c)
  obtain ⟨rfl, -⟩ := does.yields yields
  exact ⟨c.config.chunkSize, a, .empty, x, yields.mono fun _ _ => trivial⟩

theorem Does.unique (does : b.Does c a result body asked surveyed)
    (again : b.Does c a result' body' asked' surveyed') :
    result' = result ∧ body' = body ∧ asked' = asked ∧ surveyed' = surveyed := by
  obtain ⟨_, x, yields⟩ := (b.turn c a .empty).exists_yields c.space (b.pictures_false c)
  obtain ⟨rfl, first⟩ := does.yields yields
  obtain ⟨rfl, second⟩ := again.yields yields
  simpa using second.symm.trans first

/-! All agents of a row. -/

/-- Every agent acts without failing; together they ask for `commands`, and bring the picture up to
date if one of them does. -/
inductive AllDo (b : Behavior σ μ η) (c : Context) :
    List (Agent σ μ) → Commands σ μ η → List (Agent σ μ) → Bool → Prop where
  | nil : AllDo b c [] .empty [] false
  | cons {a body asked surveyed rest more rest' later} : b.Does c a (.ok ()) body asked surveyed →
      AllDo b c rest more rest' later →
      AllDo b c (a :: rest) (asked ++ more) (a.withBody body :: rest') (surveyed || later)

/-- The act of some agent fails. -/
def Fails (b : Behavior σ μ η) (c : Context) (agents : List (Agent σ μ)) : Prop :=
  ∃ a ∈ agents, ∃ cause body asked surveyed, b.Does c a (.error cause) body asked surveyed

/-- The act of some agent brings the picture up to date. -/
def Stirs (b : Behavior σ μ η) (c : Context) (agents : List (Agent σ μ)) : Prop :=
  ∃ a ∈ agents, ∃ result body asked, b.Does c a result body asked true

theorem AllDo.append (first : b.AllDo c agents commands agents' surveyed) {more : List (Agent σ μ)}
    {others : Commands σ μ η} {more' : List (Agent σ μ)}
    (second : b.AllDo c more others more' surveyed') :
    b.AllDo c (agents ++ more) (commands ++ others) (agents' ++ more') (surveyed || surveyed') := by
  induction first with
  | nil => exact second
  | cons does rest ih =>
    rw [Commands.append_assoc, Bool.or_assoc]
    exact .cons does ih

theorem AllDo.snoc (first : b.AllDo c agents commands agents' surveyed)
    (does : b.Does c a (.ok ()) body asked surveyed') :
    b.AllDo c (agents ++ [a]) (commands ++ asked) (agents' ++ [a.withBody body])
      (surveyed || surveyed') := by
  have one : b.AllDo c [a] (asked ++ .empty) [a.withBody body] (surveyed' || false) :=
    .cons does .nil
  rw [Commands.append_empty, Bool.or_false] at one
  exact first.append one

theorem AllDo.rechunked (all : b.AllDo c agents commands agents' surveyed) (chunkSize : UInt64) :
    b.AllDo (c.rechunked chunkSize) agents commands agents' surveyed := by
  induction all with
  | nil => exact .nil
  | cons does rest ih => exact .cons ((does_rechunked chunkSize).mpr does) ih

theorem Fails.rechunked (fails : b.Fails c agents) (chunkSize : UInt64) :
    b.Fails (c.rechunked chunkSize) agents := by
  obtain ⟨a, among, cause, body, asked, surveyed, does⟩ := fails
  exact ⟨a, among, cause, body, asked, surveyed, (does_rechunked chunkSize).mpr does⟩

theorem AllDo.not_fails (all : b.AllDo c agents commands agents' surveyed) :
    ¬b.Fails c agents := by
  rintro ⟨a, among, cause, body, asked, surveyed, fails⟩
  induction all with
  | nil => cases among
  | cons does rest ih =>
    rcases List.mem_cons.mp among with rfl | later
    · cases (does.unique fails).1
    · exact ih later

theorem AllDo.rewritten (all : b.AllDo c agents commands agents' surveyed) :
    List.Forall₂ Agent.Rewritten agents agents' := by
  induction all with
  | nil => exact .nil
  | cons _ _ ih => exact .cons ⟨_, rfl⟩ ih

/-- There is only one thing that they all do. -/
theorem AllDo.unique (all : b.AllDo c agents commands agents' surveyed)
    {commands' : Commands σ μ η} {out : List (Agent σ μ)}
    (again : b.AllDo c agents commands' out surveyed') :
    commands' = commands ∧ out = agents' ∧ surveyed' = surveyed := by
  induction all generalizing commands' out surveyed' with
  | nil =>
    cases again
    exact ⟨rfl, rfl, rfl⟩
  | cons does _ ih =>
    cases again with
    | cons does' rest' =>
      obtain ⟨-, rfl, rfl, rfl⟩ := does.unique does'
      obtain ⟨rfl, rfl, rfl⟩ := ih rest'
      exact ⟨rfl, rfl, rfl⟩

theorem AllDo.surveyed_of_stirs (all : b.AllDo c agents commands agents' surveyed)
    (stirs : b.Stirs c agents) : surveyed = true := by
  obtain ⟨a, among, result, body, asked, does⟩ := stirs
  induction all with
  | nil => cases among
  | cons does' rest ih =>
    rcases List.mem_cons.mp among with rfl | later
    · rw [← (does'.unique does).2.2.2, Bool.true_or]
    · rw [ih later, Bool.or_true]

theorem Discreet.allDo_or_fails (discreet : b.Discreet) (c : Context) (agents : List (Agent σ μ)) :
    (∃ commands agents' surveyed, b.AllDo c agents commands agents' surveyed) ∨
      b.Fails c agents := by
  induction agents with
  | nil => exact .inl ⟨_, _, _, .nil⟩
  | cons a rest ih =>
    obtain ⟨cause | ⟨⟨⟩⟩, body, asked, surveyed, does⟩ := discreet c a
    · exact .inr ⟨a, List.mem_cons_self, cause, body, asked, surveyed, does⟩
    · rcases ih with ⟨commands, rest', later, all⟩ | ⟨other, among, fails⟩
      · exact .inl ⟨_, _, _, .cons does all⟩
      · exact .inr ⟨other, List.mem_cons_of_mem a among, fails⟩

/-! All workers together. -/

/-- A worker that is up to date with a chunk of agents. While one acts, `seen` are the pictures that it
can still find, and `own` tells whether it has brought the picture up to date. -/
inductive Follows (b : Behavior σ μ η) (c : Context) (chunk : List (Agent σ μ)) :
    Worker σ μ η → Commons → Prop where
  | ready {before buffer acted waiting surveyed shared} : before ++ waiting = chunk →
      b.AllDo c before buffer acted surveyed →
      (surveyed = true → shared.index = c.space.picture true) →
      Follows b c chunk (.ready acted buffer waiting) shared
  | acting {before buffer acted a turn waiting earlier result body asked surveyed own taken shared}
      {seen : Bool → Prop} :
      before ++ a :: waiting = chunk → b.AllDo c before buffer acted earlier →
      b.Does c a result body asked surveyed →
      (∀ later x, turn.Yields c.space seen later x →
        (own || later) = surveyed ∧ x = (result, ⟨body, buffer ++ asked⟩)) →
      shared.index = c.space.picture taken → seen taken → (b.Surveys c → seen true) →
      ((earlier || own) = true → shared.index = c.space.picture true) →
      Follows b c chunk (.acting acted a turn waiting) shared
  | stopped {acted cause waiting shared} :
      (∃ a ∈ chunk, ∃ body asked surveyed, b.Does c a (.error cause) body asked surveyed) →
      Follows b c chunk (.stopped acted cause waiting) shared

/-- What the acts of some agents do to the picture. -/
def Renews (b : Behavior σ μ η) (c : Context) (agents : List (Agent σ μ))
    (shared shared' : Commons) : Prop :=
  shared'.index = shared.index ∨ b.Stirs c agents ∧ shared'.index = c.space.picture true

theorem Renews.trans {shared'' : Commons} (first : b.Renews c agents shared shared')
    (second : b.Renews c agents shared' shared'') : b.Renews c agents shared shared'' := by
  rcases second with same | stirred
  · rcases first with same' | ⟨stirs, new⟩
    · exact .inl (same.trans same')
    · exact .inr ⟨stirs, same.trans new⟩
  · exact .inr stirred

theorem Stirs.surveys (stirs : b.Stirs c agents) : b.Surveys c := by
  obtain ⟨a, -, result, body, asked, does⟩ := stirs
  exact does.pictures rfl

theorem Finds.renews (finds : b.Finds c taken shared) (renews : b.Renews c agents shared shared') :
    ∃ taken', b.Finds c taken' shared' := by
  rcases renews with same | ⟨stirs, new⟩
  · exact ⟨taken, same.trans finds.1, finds.2⟩
  · exact ⟨true, new, fun _ => stirs.surveys⟩

/-- What the acts of others do to the picture does not put a worker behind. -/
theorem Follows.renews {chunk : List (Agent σ μ)} {w : Worker σ μ η}
    (follows : b.Follows c chunk w shared) (renews : b.Renews c agents shared shared') :
    b.Follows c chunk w shared' := by
  have renewed : ∀ {flag : Bool}, (flag = true → shared.index = c.space.picture true) →
      flag = true → shared'.index = c.space.picture true := by
    intro flag before holds
    rcases renews with same | ⟨-, new⟩
    · exact same.trans (before holds)
    · exact new
  cases follows with
  | ready whole all surveyed => exact .ready whole all (renewed surveyed)
  | @acting _ _ _ _ _ _ _ _ _ _ _ _ taken _ seen whole all does only found may still own =>
    rcases renews with same | ⟨stirs, new⟩
    · exact .acting whole all does only (same.trans found) may still fun holds =>
        same.trans (own holds)
    · exact .acting whole all does only new (still stirs.surveys) still fun _ => new
  | stopped fails => exact .stopped fails

/-- One access of a worker in the middle of a turn. -/
theorem Follows.access {chunk acted waiting : List (Agent σ μ)} {acc : Access}
    {next : acc.Answer → Turn (Except BehaviorError Unit × Draft σ μ η)}
    (inside : ∀ a ∈ chunk, a ∈ agents)
    (follows : b.Follows c chunk (.acting acted a (.access acc next) waiting) shared) :
    b.Follows c chunk (.acting acted a (next (acc.perform c.space shared).1) waiting)
        (acc.perform c.space shared).2 ∧
      b.Renews c agents shared (acc.perform c.space shared).2 := by
  cases follows with
  | @acting before buffer _ _ _ _ earlier result body asked surveyed own taken _ seen whole all does
      only found may still renewed =>
    have index := Access.perform_index found acc
    have may' := Access.leaves_of_seen may acc
    have rest : ∀ later x, (next (acc.perform c.space shared).1).Yields c.space (acc.leaves seen)
        later x → ((own || acc.surveys) || later) = surveyed ∧ x = (result, ⟨body, buffer ++ asked⟩) := by
      intro later x yields
      rw [Bool.or_assoc]
      exact only _ x (.access (Access.perform_gets found may acc) yields)
    have still' : b.Surveys c → acc.leaves seen true := fun surveys =>
      Access.leaves_true (still surveys) acc
    rcases Access.perform_taken found acc with ⟨surveys, new⟩ | ⟨blind, same⟩
    · -- some way to end the turn shows that the act brings the picture up to date
      obtain ⟨later, x, yields⟩ :=
        (next (acc.perform c.space shared).1).exists_yields c.space may'
      have flag := (rest later x yields).1
      rw [surveys, Bool.or_true, Bool.true_or] at flag
      have member : a ∈ chunk := whole ▸ List.mem_append_right before List.mem_cons_self
      have stirs : b.Stirs c agents := ⟨a, inside a member, result, body, asked, flag ▸ does⟩
      exact ⟨.acting whole all does rest index may' still' fun _ => new, .inr ⟨stirs, new⟩⟩
    · refine ⟨.acting whole all does rest index may' still' fun holds => ?_, .inl same⟩
      rw [blind, Bool.or_false] at holds
      exact same.trans (renewed holds)

theorem Discreet.follows (discreet : b.Discreet) {chunk : List (Agent σ μ)} {w w' : Worker σ μ η}
    (inside : ∀ a ∈ chunk, a ∈ agents) (step : Worker.Steps b c w shared w' shared')
    (finds : b.Finds c taken shared) (follows : b.Follows c chunk w shared) :
    b.Follows c chunk w' shared' ∧ b.Renews c agents shared shared' := by
  cases step with
  | @start acted buffer a waiting =>
    cases follows with
    | ready whole all surveyed =>
      obtain ⟨result, body, asked, own, does⟩ := discreet c a
      have only : ∀ later x, (b.turn c a buffer).Yields c.space (b.Pictures c) later x →
          (false || later) = own ∧ x = (result, ⟨body, buffer ++ asked⟩) := by
        intro later x yields
        rw [Bool.false_or]
        exact does.yields yields
      refine ⟨.acting whole all does only finds.1 finds.2 (fun surveys _ => surveys) ?_, .inl rfl⟩
      rwa [Bool.or_false]
  | @access acted a turn waiting _ more =>
    cases turn with
    | done x => exact absurd rfl (more x)
    | access acc next => exact follows.access inside
  | finish =>
    cases follows with
    | @acting before buffer acted a _ waiting earlier result body asked surveyed own _ _ _ whole all does
        only _ _ _ renewed =>
      obtain ⟨flag, ends⟩ := only _ _ (.done _)
      rw [Bool.or_false] at flag
      simp only [Prod.mk.injEq] at ends
      obtain ⟨rfl, rfl⟩ := ends
      refine ⟨.ready ?_ (all.snoc does) (flag ▸ renewed), .inl rfl⟩
      rw [List.append_assoc]
      exact whole
  | @fail acted a cause draft waiting =>
    cases follows with
    | @acting before buffer _ _ _ _ earlier result body asked surveyed _ _ _ _ whole all does only =>
      obtain ⟨-, ends⟩ := only _ _ (.done _)
      simp only [Prod.mk.injEq] at ends
      obtain ⟨rfl, rfl⟩ := ends
      have member : a ∈ chunk := whole ▸ List.mem_append_right before List.mem_cons_self
      exact ⟨.stopped ⟨a, member, body, asked, surveyed, does⟩, .inl rfl⟩

theorem Discreet.runs_follow (discreet : b.Discreet) {chunks : List (List (Agent σ μ))}
    {ws : List (Worker σ μ η)} (first : shared.index = c.space.index)
    (runs : b.Runs c (chunks.map .new) shared ws shared') :
    List.Forall₂ (b.Follows c · · shared') chunks ws ∧
      b.Renews c chunks.flatten shared shared' := by
  let P (chunk : List (Agent σ μ)) (w : Worker σ μ η) (shared : Commons) : Prop :=
    (∀ a ∈ chunk, a ∈ chunks.flatten) ∧ (∃ taken, b.Finds c taken shared) ∧
      b.Follows c chunk w shared
  have fresh : List.Forall₂ (P · · shared) chunks (chunks.map .new) := by
    rw [List.forall₂_map_right_iff, List.forall₂_same]
    intro chunk among
    exact ⟨fun a inside => List.mem_flatten.mpr ⟨chunk, among, inside⟩,
      ⟨false, finds_first first⟩, .ready (List.nil_append chunk) .nil (by rintro ⟨⟩)⟩
  have last := runs.undisturbed (P := P) (G := b.Renews c chunks.flatten) (fun _ => .inl rfl)
    Renews.trans ?_ ?_ fresh
  · exact ⟨last.1.imp fun _ _ holds => holds.2.2, last.2⟩
  · rintro chunk w shared w' shared' step ⟨inside, ⟨taken, finds⟩, follows⟩
    obtain ⟨after, renews⟩ := discreet.follows inside step finds follows
    exact ⟨⟨inside, finds.renews renews, after⟩, renews⟩
  · rintro chunk w shared shared' ⟨inside, ⟨taken, finds⟩, follows⟩ renews
    exact ⟨inside, finds.renews renews, follows.renews renews⟩

/-- Workers that are done have together done what the agents do one after the other. -/
theorem allDo_of_done {chunks : List (List (Agent σ μ))} {ws : List (Worker σ μ η)}
    (follow : List.Forall₂ (b.Follows c · · shared) chunks ws) (done : ∀ w ∈ ws, w.Done) :
    ∃ surveyed, b.AllDo c chunks.flatten (ws.foldr (·.buffer ++ ·) .empty)
        (ws.flatMap (·.agents)) surveyed ∧
      (surveyed = true → shared.index = c.space.picture true) := by
  induction follow with
  | nil => exact ⟨false, .nil, by rintro ⟨⟩⟩
  | cons follows rest ih =>
    rw [List.forall_mem_cons] at done
    obtain ⟨⟨acted, buffer, rfl⟩, others⟩ := done
    obtain ⟨later, more, renewed'⟩ := ih others
    cases follows with
    | @ready _ _ _ _ surveyed _ whole all renewed =>
      rw [List.append_nil] at whole
      subst whole
      refine ⟨surveyed || later, ?_, fun either => ?_⟩
      · rw [List.flatten_cons, List.foldr_cons, List.flatMap_cons]
        simpa only [Worker.agents, Worker.buffer, List.append_nil] using all.append more
      · exact (Bool.or_eq_true_iff.mp either).elim renewed renewed'

/-- A worker that has stopped has met an act that fails. -/
theorem fails_of_stopped {chunks : List (List (Agent σ μ))} {ws : List (Worker σ μ η)}
    (follow : List.Forall₂ (b.Follows c · · shared) chunks ws) {acted waiting : List (Agent σ μ)}
    {cause : BehaviorError} (stopped : .stopped acted cause waiting ∈ ws) :
    b.Fails c chunks.flatten := by
  induction follow with
  | nil => cases stopped
  | @cons chunk w chunks ws follows rest ih =>
    rw [List.flatten_cons]
    rcases List.mem_cons.mp stopped with rfl | later
    · cases follows with
      | stopped fails =>
        obtain ⟨a, inside, body, asked, surveyed, does⟩ := fails
        exact ⟨a, List.mem_append_left _ inside, cause, body, asked, surveyed, does⟩
    · obtain ⟨a, inside, fails⟩ := ih later
      exact ⟨a, List.mem_append_right chunk inside, fails⟩

theorem Discreet.ends_ok (discreet : b.Discreet) {chunks : List (List (Agent σ μ))}
    (first : shared.index = c.space.index)
    (ends : b.Ends c chunks shared (.ok commands) agents shared') :
    ∃ surveyed, b.AllDo c chunks.flatten commands agents surveyed ∧
      shared'.index = c.space.picture surveyed := by
  cases ends with
  | done runs done =>
    obtain ⟨follow, renews⟩ := discreet.runs_follow first runs
    obtain ⟨surveyed, all, renewed⟩ := allDo_of_done follow done
    refine ⟨surveyed, all, ?_⟩
    rcases renews with same | ⟨stirs, new⟩
    · cases surveyed with
      | false => exact same.trans first
      | true => exact renewed rfl
    · rw [all.surveyed_of_stirs stirs]
      exact new

theorem Discreet.ends_error (discreet : b.Discreet) {chunks : List (List (Agent σ μ))}
    {cause : BehaviorError} (first : shared.index = c.space.index)
    (ends : b.Ends c chunks shared (.error cause) agents shared') : b.Fails c chunks.flatten := by
  cases ends with
  | failed runs stopped => exact fails_of_stopped (discreet.runs_follow first runs).1 stopped

/-- However the turns end, it is with what all do. -/
theorem Discreet.ends_allDo (discreet : b.Discreet) {chunks : List (List (Agent σ μ))}
    {result : Except BehaviorError (Commands σ μ η)} {out : List (Agent σ μ)}
    (all : b.AllDo c chunks.flatten commands out surveyed) (first : shared.index = c.space.index)
    (ends : b.Ends c chunks shared result agents shared') :
    result = .ok commands ∧ agents = out ∧ shared'.index = c.space.picture surveyed := by
  cases result with
  | error cause => exact absurd (discreet.ends_error first ends) all.not_fails
  | ok commands' =>
    obtain ⟨surveyed', again, pictured⟩ := discreet.ends_ok first ends
    obtain ⟨rfl, rfl, rfl⟩ := all.unique again
    exact ⟨rfl, rfl, pictured⟩

/-- Where the act of some agent fails, the turns fail. -/
theorem Discreet.ends_fails (discreet : b.Discreet) {chunks : List (List (Agent σ μ))}
    {result : Except BehaviorError (Commands σ μ η)} (fails : b.Fails c chunks.flatten)
    (first : shared.index = c.space.index) (ends : b.Ends c chunks shared result agents shared') :
    ∃ cause, result = .error cause := by
  cases result with
  | error cause => exact ⟨cause, rfl⟩
  | ok commands =>
    obtain ⟨surveyed, all, -⟩ := discreet.ends_ok first ends
    exact absurd fails all.not_fails

end Behavior
end Vivarium
