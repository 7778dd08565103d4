import Vivarium.Proofs.Space.Chart
import Vivarium.Proofs.Space.Queries

/-! Moving all objects at once is moving them one after the other, in any order. The motion of one
object is a movement of all in which the others rest; two movements in a row that move different objects
are one; so any order of single motions adds up to the whole. -/
namespace Vivarium

/-- What two changes in a row mark outdated. -/
theorem SpatialIndex.invalidate_twice {F : Type} (x : SpatialIndex F) {P Q : Prop} [Decidable P]
    [Decidable Q] :
    (if Q then if P then x else x.invalidate else (if P then x else x.invalidate).invalidate) =
      if P ∧ Q then x else x.invalidate := by
  by_cases first : P <;> by_cases second : Q <;> simp [first, second, invalidate]

namespace Space
variable {F : Type} [Scalar F] [Trig F] {s : Space F} {t : Terrain F} {e : Entry F} {id : AgentId}
  {m : Motion F} {motionOf others : AgentId → Option (Motion F)}

/-- Moves some objects one after the other. -/
def moveInTurn (s : Space F) (calls : List (AgentId × Motion F)) : Space F :=
  s.afterAll (calls.map fun c => .moveObject c.1 c.2)

theorem moveInTurn_append (s : Space F) (first second : List (AgentId × Motion F)) :
    s.moveInTurn (first ++ second) = (s.moveInTurn first).moveInTurn second := by
  rw [moveInTurn, List.map_append, afterAll_append]
  rfl

/-! One entry. -/

theorem moveEntry_snd (t : Terrain F) (motionOf : AgentId → Option (Motion F)) (e : Entry F) :
    (moveEntry t motionOf e).2 = (motionOf e.id).any (!·.isStill) := by
  rw [moveEntry]
  rcases motionOf e.id with - | m
  · rfl
  · simp only [Option.bind_some, Entry.moved?_eq, Option.any_some]
    cases m.isStill <;> rfl

theorem moveEntry_none (rests : motionOf e.id = none) : moveEntry t motionOf e = (e, false) := by
  rw [moveEntry, rests]
  rfl

theorem moveEntry_congr (same : motionOf e.id = others e.id) :
    moveEntry t motionOf e = moveEntry t others e := by
  rw [moveEntry, moveEntry, same]

/-- Two movements in a row of which at most one moves this entry. -/
theorem moveEntry_moveEntry (apart : motionOf e.id = none ∨ others e.id = none) :
    let first := moveEntry t motionOf e
    let second := moveEntry t others first.1
    (second.1, first.2 || second.2) =
      moveEntry t (fun id => (motionOf id).or (others id)) e := by
  dsimp only
  rcases apart with rests | rests
  · rw [moveEntry_none rests, Bool.false_or]
    exact moveEntry_congr (by rw [rests, Option.none_or])
  · have kept : (moveEntry t motionOf e).1.id = e.id := (moveEntry_becomes t motionOf e).id_eq
    have later : others (moveEntry t motionOf e).1.id = none := by rw [kept, rests]
    rw [moveEntry_none later, Bool.or_false]
    exact moveEntry_congr (by rw [rests, Option.or_none])

/-! All entries. -/

/-- The number of moved objects is that of the motions that are not still. -/
theorem moveAll_total (chunkSize : Nat) (motionOf : AgentId → Option (Motion F)) :
    (s.moveAll chunkSize motionOf).1 = s.ids.countP fun id => (motionOf id).any (!·.isStill) := by
  simp only [moveAll_fst, moveEntry_snd, ids, List.countP_map]
  rfl

theorem moveEach_congr (same : ∀ id ∈ s.ids, motionOf id = others id) :
    s.moveEach motionOf = s.moveEach others := by
  have moves : s.entries.toList.map (moveEntry s.terrain motionOf) =
      s.entries.toList.map (moveEntry s.terrain others) := by
    apply List.map_congr_left
    intro e stored
    exact moveEntry_congr (same e.id (List.mem_map.mpr ⟨e, stored, rfl⟩))
  simp only [moveEach, moves]

theorem moveEach_none (s : Space F) : (s.moveEach fun _ => none).2 = s := by
  have moves : s.entries.toList.map (moveEntry s.terrain fun _ => none) =
      s.entries.toList.map (·, false) :=
    List.map_congr_left fun e _ => moveEntry_none rfl
  simp [moveEach, moves, Function.comp_def]

theorem moveEach_ids (s : Space F) (motionOf : AgentId → Option (Motion F)) :
    (s.moveEach motionOf).2.ids = s.ids := by
  rw [ids_eq_map, ids_eq_map, ← moveAll_eq 0, moveAll_members]

/-- What a movement changes. -/
theorem moveEach_eq (s : Space F) (motionOf : AgentId → Option (Motion F)) :
    (s.moveEach motionOf).2 = { s with
      entries := (s.entries.toList.map fun e => (moveEntry s.terrain motionOf e).1).toArray
      index :=
        if ∀ e ∈ s.entries, (moveEntry s.terrain motionOf e).2 = false then s.index
        else s.index.invalidate } := by
  have still : (s.moveEach motionOf).1 = 0 ↔
      ∀ e ∈ s.entries, (moveEntry s.terrain motionOf e).2 = false := by
    simp [moveEach]
  simp only [← still]
  simp only [moveEach, List.map_map]
  rfl

/-- Two movements in a row that move different objects. -/
theorem moveEach_moveEach (apart : ∀ id ∈ s.ids, motionOf id = none ∨ others id = none) :
    ((s.moveEach motionOf).2.moveEach others).2 =
      (s.moveEach fun id => (motionOf id).or (others id)).2 := by
  have each : ∀ e ∈ s.entries, _ := fun e stored =>
    moveEntry_moveEntry (t := s.terrain) (apart e.id (mem_ids.mpr ⟨e, stored, rfl⟩))
  simp only [Prod.ext_iff] at each
  simp only [moveEach_eq, List.mem_toArray, List.forall_mem_map, Space.mk.injEq, true_and]
  refine ⟨?_, ?_⟩
  · rw [List.map_map]
    exact congrArg _ (List.map_congr_left fun e stored => (each e (Array.mem_toList_iff.mp stored)).1)
  · have rests : (∀ e ∈ s.entries, (moveEntry s.terrain
          (fun id => (motionOf id).or (others id)) e).2 = false) ↔
        (∀ e ∈ s.entries, (moveEntry s.terrain motionOf e).2 = false) ∧
          ∀ e ∈ s.entries.toList,
            (moveEntry s.terrain others (moveEntry s.terrain motionOf e).1).2 = false := by
      simp only [Array.mem_toList_iff, ← forall₂_and, ← Bool.or_eq_false_iff]
      exact forall₂_congr fun e stored => by rw [(each e stored).2]
    simp only [rests]
    exact s.index.invalidate_twice

/-! One object. -/

/-- The motion of one object, as a movement of all. -/
def only (id : AgentId) (m : Motion F) (other : AgentId) : Option (Motion F) :=
  if other = id then some m else none

theorem moveEntry_only (t : Terrain F) (id : AgentId) (m : Motion F) (e : Entry F) :
    (moveEntry t (only id m) e).1 =
        { e with projection := if e.id = id then e.projection.carried t m else e.projection } ∧
      (moveEntry t (only id m) e).2 = (decide (e.id = id) && !m.isStill) := by
  rw [moveEntry_snd]
  by_cases here : e.id = id
  · have moves : only id m e.id = some m := if_pos here
    rw [moveEntry_eq moves, moves, if_pos here]
    simp [here]
  · have rests : only id m e.id = none := if_neg here
    rw [moveEntry_none rests, rests, if_neg here]
    simp [here]

/-- A stored object can be moved, and moving it is a movement in which the others rest. -/
theorem WellFormed.moveObject_eq_moveEach (wf : s.WellFormed) (stored : id ∈ s.ids) (m : Motion F) :
    ∃ p, s.moveObject id m = .ok (p, (s.moveEach (only id m)).2) := by
  rcases moved : s.moveObject id m with x | ⟨p, s'⟩
  · exact absurd stored (wf.find?_eq_none.mp (moveObject_eq_error moved).1)
  have entries : s'.entries =
      (s.entries.toList.map fun e => (moveEntry s.terrain (only id m) e).1).toArray := by
    apply Array.toList_inj.mp
    rw [wf.moveObject_entries moved]
    exact List.map_congr_left fun e _ => (moveEntry_only s.terrain id m e).1.symm
  have rests : (∀ e ∈ s.entries, (moveEntry s.terrain (only id m) e).2 = false) ↔
      m.isStill = true := by
    obtain ⟨e, there, named⟩ := mem_ids.mp stored
    simp only [moveEntry_only, Bool.and_eq_false_iff, decide_eq_false_iff_not, Bool.not_eq_false']
    constructor
    · exact fun all => (all e there).resolve_left (not_not_intro named)
    · exact fun still _ _ => .inr still
  refine ⟨p, ?_⟩
  rw [moveEach_eq, ← entries]
  simp only [rests]
  obtain ⟨slot, e, found, ⟨still, rfl⟩ | ⟨e', way, rfl⟩⟩ := Space.moveObject_eq_ok moved
  · rw [Entry.moved?_eq, ite_eq_left_iff] at still
    rw [if_pos]
    by_contra moves
    cases still moves
  · rw [Entry.moved?_eq] at way
    split at way
    · cases way
    · rename_i moves
      rw [if_neg moves]

/-! Some objects, in any order. -/

theorem moveInTurn_cons (wf : s.WellFormed) (stored : id ∈ s.ids) (m : Motion F)
    (rest : List (AgentId × Motion F)) :
    s.moveInTurn ((id, m) :: rest) = (s.moveEach (only id m)).2.moveInTurn rest := by
  obtain ⟨p, moved⟩ := wf.moveObject_eq_moveEach stored m
  rw [moveInTurn, List.map_cons, afterAll, List.foldl_cons, after, moved]
  rfl

theorem WellFormed.moveEach (wf : s.WellFormed) (motionOf : AgentId → Option (Motion F)) :
    (s.moveEach motionOf).2.WellFormed := by
  rw [← moveAll_eq 0]
  exact wf.moveAll 0 motionOf

/-- Single motions of different objects add up. -/
theorem WellFormed.moveInTurn_eq (wf : s.WellFormed) {calls : List (AgentId × Motion F)}
    (once : (calls.map (·.1)).Nodup)
    (calling : ∀ id m, (id, m) ∈ calls ↔ id ∈ s.ids ∧ motionOf id = some m) :
    s.moveInTurn calls = (s.moveEach motionOf).2 := by
  induction calls generalizing s motionOf with
  | nil =>
    have rests : ∀ id ∈ s.ids, motionOf id = none := by
      intro id stored
      by_contra moves
      obtain ⟨m, moves⟩ := Option.ne_none_iff_exists'.mp moves
      cases (calling id m).mpr ⟨stored, moves⟩
    rw [moveEach_congr rests, moveEach_none]
    rfl
  | cons c rest ih =>
    obtain ⟨id, m⟩ := c
    obtain ⟨fresh, once⟩ := List.nodup_cons.mp once
    obtain ⟨stored, moves⟩ := (calling id m).mp List.mem_cons_self
    -- The later calls make up a movement in which the first object rests.
    let others : AgentId → Option (Motion F) := fun other =>
      if other = id then none else motionOf other
    have apart : ∀ other ∈ s.ids, only id m other = none ∨ others other = none := by
      intro other _
      by_cases same : other = id
      · exact .inr (if_pos same)
      · exact .inl (if_neg same)
    have later : ∀ other m', (other, m') ∈ rest ↔
        other ∈ (s.moveEach (only id m)).2.ids ∧ others other = some m' := by
      intro other m'
      rw [moveEach_ids]
      by_cases same : other = id
      · subst same
        have absent : (other, m') ∉ rest := fun among =>
          fresh (List.mem_map.mpr ⟨_, among, rfl⟩)
        simp [absent, others]
      · simpa [same, others] using calling other m'
    rw [moveInTurn_cons wf stored, ih (wf.moveEach _) once later, moveEach_moveEach apart]
    refine congrArg Prod.snd (moveEach_congr fun other _ => ?_)
    by_cases same : other = id
    · simp [only, others, same, moves]
    · simp [only, others, same]

/-- A motion of one object takes none away. -/
theorem WellFormed.moveInTurn_ids (wf : s.WellFormed) {calls : List (AgentId × Motion F)}
    (stored : ∀ c ∈ calls, c.1 ∈ s.ids) : (s.moveInTurn calls).ids = s.ids := by
  induction calls generalizing s with
  | nil => rfl
  | cons c rest ih =>
    have first := stored c List.mem_cons_self
    rw [moveInTurn_cons wf first, ih (wf.moveEach _), moveEach_ids]
    intro c' later
    rw [moveEach_ids]
    exact stored c' (List.mem_cons_of_mem c later)

/-! All objects that have a motion. -/

/-- The single motions that a movement of all consists of. -/
def callsOf (s : Space F) (motionOf : AgentId → Option (Motion F)) : List (AgentId × Motion F) :=
  s.ids.filterMap fun id => (motionOf id).map (id, ·)

omit [Scalar F] [Trig F] in
theorem mem_callsOf : (id, m) ∈ s.callsOf motionOf ↔ id ∈ s.ids ∧ motionOf id = some m := by
  simp only [callsOf, List.mem_filterMap, Option.map_eq_some_iff, Prod.mk.injEq]
  constructor
  · rintro ⟨id, stored, m, moves, rfl, rfl⟩
    exact ⟨stored, moves⟩
  · rintro ⟨stored, moves⟩
    exact ⟨id, stored, m, moves, rfl, rfl⟩

omit [Scalar F] [Trig F] in
theorem WellFormed.callsOf_nodup (wf : s.WellFormed) (motionOf : AgentId → Option (Motion F)) :
    ((s.callsOf motionOf).map (·.1)).Nodup := by
  rw [callsOf, List.map_filterMap]
  refine wf.slots.nodup.filterMap fun id id' key moves moves' => ?_
  simp only [Option.mem_def, Option.map_map, Option.map_eq_some_iff, Function.comp_apply] at moves moves'
  obtain ⟨-, -, rfl⟩ := moves
  obtain ⟨-, -, same⟩ := moves'
  exact same.symm

/-- As many motions are counted as are not still. -/
theorem moveAll_fst_eq (chunkSize : Nat) (motionOf : AgentId → Option (Motion F)) :
    (s.moveAll chunkSize motionOf).1 = (s.callsOf motionOf).countP (!·.2.isStill) := by
  rw [moveAll_total, callsOf, List.countP_filterMap]
  apply List.countP_congr
  intro id _
  cases motionOf id <;> simp

/-- Moving all objects at once, in chunks of any size, leaves the store as moving every object that has
a motion by itself does, in any order, and counts those motions that are not still. None of the single
motions is refused, and an object without a motion stays as it is. -/
theorem bulk_exact (t : Terrain F) (events : List (Event F)) (chunkSize : Nat)
    (motionOf : AgentId → Option (Motion F)) (calls : List (AgentId × Motion F)) :
    let s := (empty t).metAll events
    calls.Perm (s.ids.filterMap fun id => (motionOf id).map (id, ·)) →
      s.moveAll chunkSize motionOf = (calls.countP (!·.2.isStill), s.moveInTurn calls) ∧
      (∀ first c rest, calls = first ++ c :: rest →
        ∃ p, (s.moveInTurn first).moveObject c.1 c.2 = .ok (p, s.moveInTurn (first ++ [c]))) ∧
      ∀ (i : Nat) (e : Entry F), s.entries[i]? = some e → motionOf e.id = none →
        (s.moveAll chunkSize motionOf).2.entries[i]? = some e := by
  intro s order
  have wf : s.WellFormed := ((empty_fresh t).metAll events).wellFormed
  have once : (calls.map (·.1)).Nodup :=
    (order.map (·.1)).nodup_iff.mpr (wf.callsOf_nodup motionOf)
  have calling : ∀ id m, (id, m) ∈ calls ↔ id ∈ s.ids ∧ motionOf id = some m :=
    fun _ _ => order.mem_iff.trans mem_callsOf
  refine ⟨?_, ?_, ?_⟩
  · apply Prod.ext
    · rw [moveAll_fst_eq, order.countP_eq]
      rfl
    · rw [moveAll_eq, wf.moveInTurn_eq once calling]
  · rintro first ⟨id, m⟩ rest rfl
    have stored : ∀ c ∈ first ++ (id, m) :: rest, c.1 ∈ s.ids :=
      fun c among => ((calling c.1 c.2).mp among).1
    have wf' : (s.moveInTurn first).WellFormed := wf.afterAll _
    have there : id ∈ (s.moveInTurn first).ids := by
      rw [wf.moveInTurn_ids fun c earlier => stored c (List.mem_append_left _ earlier)]
      exact stored (id, m) (List.mem_append_right _ List.mem_cons_self)
    obtain ⟨p, moved⟩ := wf'.moveObject_eq_moveEach there m
    refine ⟨p, moved.trans ?_⟩
    rw [moveInTurn_append, moveInTurn_cons wf' there]
    rfl
  · intro i e there rests
    rw [← Array.getElem?_toList] at there ⊢
    rw [moveAll_entries, List.getElem?_map, there, Option.map_some, moveEntry_none rests]

/-- Of two objects one turns and one is still, in chunks of size zero or the second object first. -/
theorem bulk_exact_pair :
    let motionOf : AgentId → Option (Motion Float) :=
      fun id => some (if id = ⟨0⟩ then ⟨1.0, 0.0⟩ else .rest)
    let calls : List (AgentId × Motion Float) := [(⟨1⟩, .rest), (⟨0⟩, ⟨1.0, 0.0⟩)]
    calls.Perm (pair.ids.filterMap fun id => (motionOf id).map (id, ·)) ∧
      pair.moveAll 0 motionOf = (1, pair.moveInTurn calls) := by
  intro motionOf calls
  have ids : pair.ids = [⟨0⟩, ⟨1⟩] := by simp [Space.ids, pair_spec.2]
  have order : calls.Perm (pair.ids.filterMap fun id => (motionOf id).map (id, ·)) := by
    rw [ids]
    exact .swap _ _ _
  have counted : calls.countP (!·.2.isStill) = 1 := by decide +kernel
  obtain ⟨whole, -⟩ := bulk_exact (.ofGrid pairGrid) pairEvents 0 motionOf calls order
  exact ⟨order, whole.trans (by rw [counted]; rfl)⟩

end Space
end Vivarium
