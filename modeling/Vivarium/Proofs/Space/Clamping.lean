import Mathlib.Logic.Function.Basic
import Vivarium.Proofs.Route.Collisions
import Vivarium.Proofs.Space.Moved

/-! Motions whose fields nobody has clamped. A motion is clamped again before it is made, so it does
what its clamped form does; but whether it is still is read off the fields as they are. The only motions
that do something else are those that are not still and of which clamping leaves nothing. -/
namespace Vivarium
open Scalar Rounded

namespace Motion
variable {F : Type} [Scalar F] {m : Motion F}

/-- The motion that the constructor makes of the same numbers. -/
def clamped (m : Motion F) : Motion F := .of m.rotation m.translation

/-- Not still, but nothing is left of it once its fields are clamped. -/
def vain (m : Motion F) : Bool := !m.isStill && m.clamped.isStill

theorem clamped_clamped (m : Motion F) : m.clamped.clamped = m.clamped := by
  simp only [clamped, of, Motion.mk.injEq]
  constructor
  · split <;> simp_all
  · split <;> simp_all

theorem aim_clamped [Trig F] (m : Motion F) (p : Projection F) : m.clamped.aim p = m.aim p := by
  have again := m.clamped_clamped
  rw [clamped] at again
  rw [aim, again]
  rfl

variable [Rounded F]

/-- Clamping sets nothing in motion. -/
theorem isStill_clamped (still : m.isStill = true) : m.clamped.isStill = true := by
  have zeros : (zero == (zero : F)) = true := number_zero
  rw [isStill, Bool.and_eq_true] at still ⊢
  simp only [clamped, of]
  constructor
  · split
    · exact still.1
    · exact zeros
  · split
    · exact still.2
    · exact zeros

theorem clamped_isStill_eq (able : m.vain = false) : m.clamped.isStill = m.isStill := by
  rw [vain] at able
  cases still : m.isStill with
  | true => exact isStill_clamped still
  | false => simpa [still] using able

/-- A motion is vain if each of its fields is one that clamping takes away, or zero. -/
theorem vain_iff : m.vain = true ↔
    m.isStill = false ∧ (isFinite m.rotation = true → (m.rotation == zero) = true) ∧
      ¬(isFinite m.translation = true ∧ zero < m.translation) := by
  have zeros : (zero == (zero : F)) = true := number_zero
  have rotation : (m.clamped.rotation == zero) = true ↔
      (isFinite m.rotation = true → (m.rotation == zero) = true) := by
    simp only [clamped, of]
    split
    · rename_i finite
      exact ⟨fun same _ => same, fun same => same finite⟩
    · rename_i infinite
      exact iff_of_true zeros fun finite => absurd finite infinite
  have translation : (m.clamped.translation == zero) = true ↔
      ¬(isFinite m.translation = true ∧ zero < m.translation) := by
    simp only [clamped, of, Bool.and_eq_true, decide_eq_true_iff]
    split
    · rename_i advances
      refine iff_of_false (fun zero => ?_) (not_not_intro advances)
      exact (lt_iff.mp advances.2).2.2.ne (beq_iff.mp zero).2.2.symm
    · rename_i stays
      exact iff_of_true zeros stays
  rw [vain, Bool.and_eq_true, Bool.not_eq_true', and_congr_right_iff]
  intro _
  rw [isStill, Bool.and_eq_true, translation, rotation, and_comm]

theorem vain_stays (vain : m.vain = true) : ¬zero < m.clamped.translation := by
  have stays : m.clamped.translation = zero :=
    if_neg (by simpa only [Bool.and_eq_true, decide_eq_true_iff] using (vain_iff.mp vain).2.2)
  rw [stays, lt_iff]
  exact fun less => less.2.2.ne rfl

end Motion

namespace Projection
variable {F : Type} [Scalar F] [Trig F] {t : Terrain F} {m : Motion F}

/-- Turned without asking for an advance. -/
def spun (p : Projection F) (t : Terrain F) (rotation : F) : Projection F :=
  let way := t.route p.position p.position
  ⟨way.point, Angle.fold (p.orientation + rotation), way.collided⟩

theorem carried_eq_spun (p : Projection F) (moves : m.isStill = false)
    (stays : ¬zero < m.clamped.translation) : p.carried t m = p.spun t m.clamped.rotation := by
  have aim : m.aim p = ⟨Angle.fold (p.orientation + m.clamped.rotation), p.position⟩ := by
    rw [Motion.aim]
    exact congrArg _ (if_neg stays)
  rw [carried, moves, aim]
  rfl

omit [Trig F] in
theorem spun_ofGrid [Rounded F] (p : Projection F) (g : Grid) (rotation : F) :
    p.spun (.ofGrid g) rotation = ⟨p.position, Angle.fold (p.orientation + rotation), false⟩ := by
  simp only [spun, Terrain.ofGrid, Grid.route_self]
  rfl

theorem carried_clamped [Rounded F] (p : Projection F) (t : Terrain F) (able : m.vain = false) :
    p.carried t m.clamped = p.carried t m := by
  rw [carried, carried, Motion.clamped_isStill_eq able, Motion.aim_clamped]

end Projection

theorem Entry.moved?_clamped {F : Type} [Scalar F] [Trig F] [Rounded F] {m : Motion F}
    (t : Terrain F) (e : Entry F) (able : m.vain = false) :
    e.moved? t m.clamped = e.moved? t m := by
  rw [moved?_eq, moved?_eq, Motion.clamped_isStill_eq able, Projection.carried_clamped _ t able]

namespace Space
variable {F : Type} [Scalar F] [Trig F] {s : Space F} {id : AgentId} {m : Motion F}
  {motionOf : AgentId → Option (Motion F)} {p : Projection F}

/-! A motion that is not vain. -/

theorem moveObject_clamped [Rounded F] (s : Space F) (id : AgentId) (able : m.vain = false) :
    s.moveObject id m.clamped = s.moveObject id m := by
  simp only [moveObject, Entry.moved?_clamped _ _ able]

theorem moveEntry_clamped [Rounded F] (t : Terrain F) (id : AgentId)
    (motionOf : AgentId → Option (Motion F)) (e : Entry F) (able : m.vain = false) :
    moveEntry t (Function.update motionOf id (some m.clamped)) e =
      moveEntry t (Function.update motionOf id (some m)) e := by
  by_cases here : e.id = id
  · simp only [moveEntry, here, Function.update_self, Option.bind_some,
      Entry.moved?_clamped _ _ able]
  · apply moveEntry_congr
    rw [Function.update_of_ne here, Function.update_of_ne here]

theorem moveAll_clamped [Rounded F] (s : Space F) (id : AgentId) (chunkSize : Nat)
    (motionOf : AgentId → Option (Motion F)) (able : m.vain = false) :
    s.moveAll chunkSize (Function.update motionOf id (some m.clamped)) =
      s.moveAll chunkSize (Function.update motionOf id (some m)) := by
  have moves : moveEntry s.terrain (Function.update motionOf id (some m.clamped)) =
      moveEntry s.terrain (Function.update motionOf id (some m)) :=
    funext fun e => moveEntry_clamped s.terrain id motionOf e able
  rw [moveAll_eq, moveAll_eq, moveEach, moveEach, moves]

/-! A motion that is vain. -/

omit [Scalar F] [Trig F] in
theorem projection?_found :
    s.projection? id = some p ↔ ∃ slot e, s.find? id = some (slot, e) ∧ e.projection = p := by
  simp [projection?, entry?, Option.map_eq_some_iff]

/-- A motion that is still leaves the store as it is. -/
theorem moveObject_still (there : s.projection? id = some p) (still : m.isStill = true) :
    s.moveObject id m = .ok (p, s) := by
  obtain ⟨slot, e, found, rfl⟩ := projection?_found.mp there
  simp only [moveObject, found, Entry.moved?_eq, still, if_true]

/-- The store with one object at another place. -/
def relocated (s : Space F) (id : AgentId) (p : Projection F) : Space F := { s with
  entries := (s.entries.toList.map fun e => if e.id = id then { e with projection := p } else e).toArray
  index := s.index.invalidate }

/-- A motion that asks for no advance turns the object where it stands. -/
theorem WellFormed.moveObject_spun (wf : s.WellFormed) (there : s.projection? id = some p)
    (moves : m.isStill = false) (stays : ¬zero < m.clamped.translation) :
    s.moveObject id m = .ok (p.spun s.terrain m.clamped.rotation,
      s.relocated id (p.spun s.terrain m.clamped.rotation)) := by
  obtain ⟨slot, e, found, rfl⟩ := projection?_found.mp there
  obtain ⟨place, rfl⟩ := wf.find?_eq_some found
  rw [← Array.getElem?_toList] at place
  have entries := set_eq_map wf.slots.nodup place
    fun e' => { e' with projection := e.projection.spun s.terrain m.clamped.rotation }
  rw [← Array.toList_setIfInBounds] at entries
  simp only [Space.moveObject, found, Entry.moved?_eq, moves, Bool.false_eq_true, if_false,
    Projection.carried_eq_spun _ moves stays, relocated, ← entries, Array.toArray_toList]

/-- A motion in place of one that is still is one more to be counted. -/
theorem WellFormed.moveAll_one_more (wf : s.WellFormed) (stored : id ∈ s.ids) (chunkSize : Nat)
    (motionOf : AgentId → Option (Motion F)) {still : Motion F} (rests : still.isStill = true)
    (moves : m.isStill = false) :
    (s.moveAll chunkSize (Function.update motionOf id (some m))).1 =
      (s.moveAll chunkSize (Function.update motionOf id (some still))).1 + 1 := by
  let driven : Motion F → AgentId → Bool := fun m other =>
    (Function.update motionOf id (some m) other).any (!·.isStill)
  have elsewhere : ∀ other, other ≠ id → driven still other = driven m other := by
    intro other apart
    simp only [driven, Function.update_of_ne apart]
  have here : driven still id = false ∧ driven m id = true := by
    simp [driven, rests, moves]
  have counted : Counted s.ids (driven m) (driven still) (s.ids.countP (driven m)) := by
    apply Counted.of_driven
    intro other _ set
    by_cases same : other = id
    · rw [same, here.1] at set
      cases set
    · rwa [← elsewhere other same]
  have once : (s.ids.countP fun other => driven m other && !driven still other) = 1 := by
    rw [← List.count_eq_one_of_mem wf.slots.nodup stored, List.count]
    apply List.countP_congr
    intro other _
    by_cases same : other = id
    · simp [same, here]
    · simp [same, elsewhere other same]
  rw [moveAll_total, moveAll_total, ← once]
  exact counted.split

/-- A motion does to a store what its clamped form does, unless it is vain. A vain motion turns the
object where it stands, forgets that it had run into a wall, marks the index outdated and is counted;
its clamped form does nothing. -/
theorem clamping_exact [Rounded F] (t : Terrain F) (events : List (Event F)) (id : AgentId)
    (m : Motion F) :
    let s := (empty t).metAll events
    id ∈ s.ids →
      (m.vain = false →
        s.moveObject id m.clamped = s.moveObject id m ∧
        ∀ chunkSize motionOf, s.moveAll chunkSize (Function.update motionOf id (some m.clamped)) =
          s.moveAll chunkSize (Function.update motionOf id (some m))) ∧
      (m.vain = true →
        ∃ p, s.projection? id = some p ∧
          s.moveObject id m.clamped = .ok (p, s) ∧
          s.moveObject id m = .ok (p.spun t m.clamped.rotation,
            s.relocated id (p.spun t m.clamped.rotation)) ∧
          (∀ chunkSize motionOf,
            (s.moveAll chunkSize (Function.update motionOf id (some m))).1 =
              (s.moveAll chunkSize (Function.update motionOf id (some m.clamped))).1 + 1) ∧
          ∀ g, t = .ofGrid g → p.spun t m.clamped.rotation =
            ⟨p.position, Angle.fold (p.orientation + m.clamped.rotation), false⟩) := by
  intro s stored
  have wf : s.WellFormed := ((empty_fresh t).metAll events).wellFormed
  have terrain : s.terrain = t := (empty_fresh t).metAll_terrain events
  refine ⟨fun able => ⟨moveObject_clamped s id able, fun chunkSize motionOf =>
    moveAll_clamped s id chunkSize motionOf able⟩, fun vain => ?_⟩
  obtain ⟨e, there, named⟩ := mem_ids.mp stored
  have before : s.projection? id = some e.projection :=
    wf.projection?_eq_some.mpr ⟨e, there, named, rfl⟩
  have stays := Motion.vain_stays vain
  rw [Motion.vain, Bool.and_eq_true, Bool.not_eq_true'] at vain
  obtain ⟨moves, rests⟩ := vain
  refine ⟨e.projection, before, moveObject_still before rests, ?_, ?_, ?_⟩
  · rw [← terrain]
    exact wf.moveObject_spun before moves stays
  · exact fun chunkSize motionOf => wf.moveAll_one_more stored chunkSize motionOf rests moves
  · rintro g rfl
    exact e.projection.spun_ofGrid g _

/-! An object that has run into a wall, under an index that is up to date. -/

def bumpedEvents : List (Event Float) :=
  [.request (.insert ⟨⟨0⟩, "a", ⟨⟨0.5, 0.5⟩, 0.0, true⟩⟩), .query (.within ⟨0.5, 0.5⟩ 1.0)]

def bumped : Space Float := (empty (.ofGrid pairGrid)).metAll bumpedEvents

theorem bumped_spec : bumped.index.outdated = false ∧
    bumped.entries = #[⟨⟨0⟩, "a", ⟨⟨0.5, 0.5⟩, 0.0, true⟩⟩] := by
  have inner : pairGrid.extent.contains (⟨0.5, 0.5⟩ : Point Float) = true := by decide +kernel
  have radius : (zero : Float) ≤ 1.0 := by decide +kernel
  simp [bumped, bumpedEvents, metAll, met, asked, within_snd, radius, refreshed, after, insert,
    Space.contains, empty, Terrain.ofGrid, inner, SpatialIndex.refreshed, SpatialIndex.invalidate]

theorem bumped_ids : bumped.ids = [⟨0⟩] := by
  rw [ids, bumped_spec.2]
  rfl

/-- A step backward is vain; a turn together with one is not. -/
theorem clamping_exact_backward :
    let backward : Motion Float := ⟨0.0, -1.0⟩
    let turn : Motion Float := ⟨1.0, -1.0⟩
    (⟨0⟩ : AgentId) ∈ bumped.ids ∧ turn.vain = false ∧ backward.vain = true ∧
      bumped.moveObject ⟨0⟩ turn.clamped = bumped.moveObject ⟨0⟩ turn ∧
      ∃ p, bumped.moveObject ⟨0⟩ backward.clamped = .ok (p, bumped) := by
  intro backward turn
  have stored : (⟨0⟩ : AgentId) ∈ bumped.ids := by
    rw [bumped_ids]
    exact List.mem_singleton_self _
  have able : turn.vain = false := by decide +kernel
  have vain : backward.vain = true := by decide +kernel
  have turned := clamping_exact (.ofGrid pairGrid) bumpedEvents ⟨0⟩ turn stored
  have walked := clamping_exact (.ofGrid pairGrid) bumpedEvents ⟨0⟩ backward stored
  obtain ⟨p, -, stays, -⟩ := walked.2 vain
  exact ⟨stored, able, vain, (turned.1 able).1, p, stays⟩

/-- A step backward differs from rest, which is its clamped form: an object that has run into a wall
forgets it, the index is outdated, and a movement is counted. -/
theorem clamping_shows :
    let backward : Motion Float := ⟨0.0, -1.0⟩
    backward.clamped = .rest ∧ bumped.index.outdated = false ∧
      bumped.moveObject ⟨0⟩ .rest = .ok (⟨⟨0.5, 0.5⟩, 0.0, true⟩, bumped) ∧
      (∃ s, bumped.moveObject ⟨0⟩ backward = .ok (⟨⟨0.5, 0.5⟩, 0.0, false⟩, s) ∧
        s.index.outdated = true) ∧
      (bumped.moveAll 1 fun _ => some .rest).1 = 0 ∧
      (bumped.moveAll 1 fun _ => some backward).1 = 1 := by
  intro backward
  have wf : bumped.WellFormed := ((empty_fresh _).metAll bumpedEvents).wellFormed
  have terrain : bumped.terrain = .ofGrid pairGrid := (empty_fresh _).metAll_terrain bumpedEvents
  have clamped : backward.clamped = .rest := by decide +kernel
  have still : (Motion.rest : Motion Float).isStill = true := by decide +kernel
  have moves : backward.isStill = false := by decide +kernel
  have stays : ¬zero < backward.clamped.translation := by decide +kernel
  have there : bumped.projection? ⟨0⟩ = some ⟨⟨0.5, 0.5⟩, 0.0, true⟩ := by
    rw [wf.projection?_eq_some, bumped_spec.2]
    exact ⟨_, Array.mem_singleton_self _, rfl, rfl⟩
  have turned : Angle.fold ((0.0 : Float) + backward.clamped.rotation) = 0.0 := by decide +kernel
  have walked := wf.moveObject_spun there moves stays
  rw [terrain, Projection.spun_ofGrid, turned] at walked
  refine ⟨clamped, bumped_spec.1, moveObject_still there still, ⟨_, walked, rfl⟩, ?_, ?_⟩
  · rw [moveAll_total, bumped_ids]
    simp [still]
  · rw [moveAll_total, bumped_ids]
    simp [moves]

end Space
end Vivarium
