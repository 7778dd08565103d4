import Vivarium.Proofs.Space.Clamping

/-! Motions that are asked for with a field that is not finite, as they are or through the constructor.
Each field is clamped for itself. So an advance that is not finite is none, and the object stays where it
is; but a finite advance is made even if the turn before it is not finite, which is then none. -/
namespace Vivarium
open Scalar Rounded

/-- A move to the place where it starts is free. -/
def Terrain.Steady {F : Type} (t : Terrain F) : Prop := ∀ p, t.route p p = .free p

namespace Terrain
variable {F : Type} [Scalar F]

theorem steady_ofGrid [Rounded F] (g : Grid) : (ofGrid g : Terrain F).Steady := g.route_self

end Terrain

namespace Motion
variable {F : Type} [Scalar F] {m : Motion F} {rotation translation : F}

/-- The motion is asked for by the two numbers, which the constructor may have clamped. -/
def Asks (m : Motion F) (rotation translation : F) : Prop :=
  m = ⟨rotation, translation⟩ ∨ m = .of rotation translation

/-- Something is left of the advance when it is clamped. -/
def Advances (translation : F) : Prop := isFinite translation = true ∧ zero < translation

theorem Asks.clamped_eq (asks : m.Asks rotation translation) :
    m.clamped = .of rotation translation := by
  rcases asks with rfl | rfl
  · rfl
  · exact clamped_clamped ⟨rotation, translation⟩

theorem of_translation_advances (advances : Advances translation) :
    (of rotation translation).translation = translation :=
  if_pos (by rwa [Bool.and_eq_true, decide_eq_true_iff])

theorem of_translation_stays (stays : ¬Advances translation) :
    (of rotation translation).translation = zero :=
  if_neg (by rwa [Bool.and_eq_true, decide_eq_true_iff])

/-- With an advance that is finite it is the turn that is not. -/
theorem of_advances (endless : ¬(isFinite rotation = true ∧ isFinite translation = true))
    (advances : Advances translation) : of rotation translation = ⟨zero, translation⟩ := by
  have turn : (of rotation translation).rotation = zero :=
    if_neg fun finite => endless ⟨finite, advances.1⟩
  have advance : (of rotation translation).translation = translation :=
    of_translation_advances advances
  exact congrArg₂ Motion.mk turn advance

variable [Rounded F]

/-- What advances is not still, and clamping leaves the advance. -/
theorem Asks.able (asks : m.Asks rotation translation) (advances : Advances translation) :
    m.vain = false := by
  have apart : (translation == zero) = false := by
    rw [Bool.eq_false_iff]
    exact fun zero => (lt_iff.mp advances.2).2.2.ne (beq_iff.mp zero).2.2.symm
  have moves : m.clamped.isStill = false := by
    rw [asks.clamped_eq, isStill, of_translation_advances advances, apart, Bool.false_and]
  rw [vain, moves, Bool.and_false]

end Motion

namespace Projection
variable {F : Type} [Scalar F] [Trig F] [Rounded F] {t : Terrain F} {m : Motion F}
  {rotation translation : F}

/-- An advance is made without the turn that is not finite. -/
theorem carried_advances (p : Projection F) (asks : m.Asks rotation translation)
    (endless : ¬(isFinite rotation = true ∧ isFinite translation = true))
    (advances : Motion.Advances translation) : p.carried t m = p.carried t ⟨zero, translation⟩ := by
  rw [← carried_clamped p t (asks.able advances), asks.clamped_eq,
    Motion.of_advances endless advances]

/-- Without an advance an object stays where it is. -/
theorem carried_stays (p : Projection F) (asks : m.Asks rotation translation)
    (stays : ¬Motion.Advances translation) (steady : t.Steady) :
    (p.carried t m).position = p.position ∧
      ((p.carried t m).collided = false ∨ (p.carried t m).collided = p.collided) := by
  cases still : m.isStill with
  | true =>
    rw [carried, if_pos still]
    exact ⟨rfl, .inr rfl⟩
  | false =>
    have none : ¬zero < m.clamped.translation := by
      rw [asks.clamped_eq, Motion.of_translation_stays stays, lt_iff]
      exact fun less => less.2.2.ne rfl
    rw [carried_eq_spun p still none, spun, steady p.position]
    exact ⟨rfl, .inl rfl⟩

end Projection

namespace Space
variable {F : Type} [Scalar F] [Trig F] {s : Space F} {id : AgentId} {p : Projection F}

/-- A single motion takes a stored object where the motion leads. -/
theorem WellFormed.moveObject_carried (wf : s.WellFormed) (there : s.projection? id = some p)
    (m : Motion F) : ∃ s', s.moveObject id m = .ok (p.carried s.terrain m, s') ∧
      s'.projection? id = some (p.carried s.terrain m) := by
  obtain ⟨e, stored, named, rfl⟩ := wf.projection?_eq_some.mp there
  rcases moved : s.moveObject id m with x | ⟨p, s'⟩
  · exact absurd (mem_ids.mpr ⟨e, stored, named⟩) (wf.find?_eq_none.mp (moveObject_eq_error moved).1)
  · have entries := wf.moveObject_entries moved
    obtain ⟨slot, e', found, named', rfl, -⟩ := wf.moveObject_eq_ok moved
    obtain rfl := wf.unique stored (Array.mem_of_getElem? found) (named.trans named'.symm)
    refine ⟨s', rfl, ?_⟩
    rw [(wf.moveObject moved).projection?_eq_some]
    refine ⟨{ e with projection := e.projection.carried s.terrain m }, ?_, named, rfl⟩
    rw [← Array.mem_toList_iff, entries, List.mem_map]
    exact ⟨e, Array.mem_toList_iff.mpr stored, by rw [if_pos named]⟩

/-- A motion that is asked for with a field that is not finite leaves the object at its place, and says of
no wall that it was met now, unless it is the turn alone that is not finite and the object is to advance;
then it advances without the turn. It does not matter who clamps the fields, nor how the object is
moved. -/
theorem nonfinite_exact [Rounded F] (t : Terrain F) (events : List (Event F)) (id : AgentId)
    (rotation translation : F) (m : Motion F) :
    let s := (empty t).metAll events
    id ∈ s.ids → ¬(isFinite rotation = true ∧ isFinite translation = true) →
    m.Asks rotation translation →
      ∃ p p', s.projection? id = some p ∧
        (∃ s', s.moveObject id m = .ok (p', s') ∧ s'.projection? id = some p') ∧
        (∀ chunkSize motionOf, motionOf id = some m →
          (s.moveAll chunkSize motionOf).2.projection? id = some p') ∧
        (Motion.Advances translation → p' = p.carried t ⟨zero, translation⟩) ∧
        (¬Motion.Advances translation → t.Steady →
          p'.position = p.position ∧ (p'.collided = false ∨ p'.collided = p.collided)) := by
  intro s stored endless asks
  have wf : s.WellFormed := ((empty_fresh t).metAll events).wellFormed
  have terrain : s.terrain = t := (empty_fresh t).metAll_terrain events
  obtain ⟨e, there, named⟩ := mem_ids.mp stored
  have before : s.projection? id = some e.projection :=
    wf.projection?_eq_some.mpr ⟨e, there, named, rfl⟩
  refine ⟨e.projection, e.projection.carried t m, before, ?_, ?_, ?_, ?_⟩
  · rw [← terrain]
    exact wf.moveObject_carried before m
  · intro chunkSize motionOf moves
    rw [← terrain]
    exact wf.projection?_moveAll chunkSize moves before
  · exact e.projection.carried_advances asks endless
  · exact e.projection.carried_stays asks

/-! The western one of two objects, which face east, is asked for a turn that is no number. -/

theorem pair_placed [Trig Float] : ((empty (.ofGrid pairGrid)).metAll pairEvents).projection? ⟨0⟩ =
    some (Projection.placed (F := Float) 0.5 0.5) := by
  have wf := ((empty_fresh (.ofGrid pairGrid)).metAll pairEvents).wellFormed
  have west : pairGrid.extent.contains (Projection.placed (F := Float) 0.5 0.5).position = true := by
    decide +kernel
  have east : pairGrid.extent.contains (Projection.placed (F := Float) 1.5 0.5).position = true := by
    decide +kernel
  rw [wf.projection?_eq_some]
  refine ⟨⟨⟨0⟩, "a", .placed 0.5 0.5⟩, ?_, rfl, rfl⟩
  simp [pairEvents, metAll, met, after, insert, Space.contains, empty, Terrain.ofGrid, west, east]

theorem pair_stored : (⟨0⟩ : AgentId) ∈ pair.ids := by
  obtain ⟨e, there, named, -⟩ :=
    ((empty_fresh _).metAll pairEvents).wellFormed.projection?_eq_some.mp pair_placed
  exact mem_ids.mpr ⟨e, there, named⟩

/-- With an advance that is infinite it stays where it is; with a finite one it goes ahead. -/
theorem nonfinite_exact_pair :
    let nan : Float := 0.0 / 0.0
    let infinite : Float := 1.0 / 0.0
    (⟨0⟩ : AgentId) ∈ pair.ids ∧ isFinite nan = false ∧ isFinite infinite = false ∧
      (∃ p s', pair.moveObject ⟨0⟩ ⟨nan, infinite⟩ = .ok (p, s') ∧ p.position = ⟨0.5, 0.5⟩) ∧
      ∃ s', pair.moveObject ⟨0⟩ ⟨nan, 0.25⟩ =
        .ok ((Projection.placed 0.5 0.5).carried (.ofGrid pairGrid) ⟨zero, 0.25⟩, s') := by
  intro nan infinite
  have undefined : isFinite nan = false := by decide +kernel
  have unbounded : isFinite infinite = false := by decide +kernel
  have endless : ∀ v : Float, ¬(isFinite nan = true ∧ isFinite v = true) := by
    simp [undefined]
  refine ⟨pair_stored, undefined, unbounded, ?_, ?_⟩
  · obtain ⟨p, p', there, ⟨s', moved, -⟩, -, -, stays⟩ := nonfinite_exact (.ofGrid pairGrid) pairEvents
      ⟨0⟩ nan infinite ⟨nan, infinite⟩ pair_stored (endless _) (.inl rfl)
    obtain rfl := Option.some.inj (pair_placed.symm.trans there)
    have rests : ¬Motion.Advances infinite := fun advances => by simp [advances.1] at unbounded
    exact ⟨p', s', moved, (stays rests (Terrain.steady_ofGrid _)).1⟩
  · obtain ⟨p, p', there, ⟨s', moved, -⟩, -, ahead, -⟩ := nonfinite_exact (.ofGrid pairGrid) pairEvents
      ⟨0⟩ nan 0.25 ⟨nan, 0.25⟩ pair_stored (endless _) (.inl rfl)
    obtain rfl := Option.some.inj (pair_placed.symm.trans there)
    rw [ahead ⟨by decide +kernel, by decide +kernel⟩] at moved
    exact ⟨s', moved⟩

/-- A turn that is no number does not keep the object at its place, whoever clamps it and however the
object is moved. The sine and the cosine are right for east. -/
theorem nonfinite_advances :
    ∃ _ : Trig Float, Trig.sin (0.0 : Float) = 0.0 ∧ Trig.cos (0.0 : Float) = 1.0 ∧
      let nan : Float := 0.0 / 0.0
      let ahead : Projection Float := ⟨⟨0.75, 0.5⟩, 0.0, false⟩
      let s := (empty (.ofGrid pairGrid)).metAll pairEvents
      isFinite nan = false ∧ s.projection? ⟨0⟩ = some ⟨⟨0.5, 0.5⟩, 0.0, false⟩ ∧
      (∃ s', s.moveObject ⟨0⟩ ⟨nan, 0.25⟩ = .ok (ahead, s')) ∧
      (∃ s', s.moveObject ⟨0⟩ (.of nan 0.25) = .ok (ahead, s')) ∧
      (s.moveAll 1 fun _ => some ⟨nan, 0.25⟩).2.projection? ⟨0⟩ = some ahead := by
  let trig : Trig Float := ⟨fun _ => 0.0, fun _ => 1.0⟩
  refine ⟨trig, rfl, rfl, ?_⟩
  intro nan ahead s
  have wf : s.WellFormed := ((empty_fresh _).metAll pairEvents).wellFormed
  have terrain : s.terrain = .ofGrid pairGrid := (empty_fresh _).metAll_terrain pairEvents
  have there : s.projection? ⟨0⟩ = some (Projection.placed 0.5 0.5) := pair_placed
  have literal : (Projection.placed 0.5 0.5).carried s.terrain ⟨nan, 0.25⟩ = ahead := by
    rw [terrain]
    decide +kernel
  have clamped : (Projection.placed 0.5 0.5).carried s.terrain (.of nan 0.25) = ahead := by
    rw [terrain]
    decide +kernel
  have first := wf.moveObject_carried there ⟨nan, 0.25⟩
  have second := wf.moveObject_carried there (.of nan 0.25)
  have all : (s.moveAll 1 fun _ => some ⟨nan, 0.25⟩).2.projection? ⟨0⟩ =
      some ((Projection.placed 0.5 0.5).carried s.terrain ⟨nan, 0.25⟩) :=
    wf.projection?_moveAll 1 rfl there
  rw [literal] at first all
  rw [clamped] at second
  refine ⟨by decide +kernel, there, ?_, ?_, all⟩
  · exact first.imp fun _ => And.left
  · exact second.imp fun _ => And.left

end Space
end Vivarium
