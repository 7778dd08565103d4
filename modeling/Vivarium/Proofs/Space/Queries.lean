import Vivarium.Proofs.Binary64.Distance
import Vivarium.Proofs.Space.Freshness
import Vivarium.Proofs.Space.Lookup
import Vivarium.Proofs.Space.Rooms

/-! What queries by distance answer. As the picture is never stale, each answer is about the objects
as they are: those within a radius, the nearest ones, and the neighbours of an object. -/
namespace Vivarium
open Scalar

namespace SpatialIndex
variable {F : Type} [Scalar F] {x : SpatialIndex F} {center : Point F} {count : Nat}

/-- A choice of the objects nearest to a point, in ascending distance; none of those left out is
nearer. -/
structure Nearest (center : Point F) (all chosen left : List (Sighting F)) : Prop where
  parts : (chosen ++ left).Perm all
  ascending : chosen.Pairwise fun a b =>
    center.squaredDistance a.position ≤ center.squaredDistance b.position
  closer : ∀ a ∈ chosen, ∀ b ∈ left,
    center.squaredDistance a.position ≤ center.squaredDistance b.position

theorem nearest?_eq_none : x.nearest? center count = none ↔
    1 < x.sightings.length ∧
      ∃ s ∈ x.sightings, ¬IsNumber (center.squaredDistance s.position) := by
  simp only [nearest?, List.length_map]
  split
  · rename_i vague
    simpa [IsNumber, bne] using vague
  · rename_i clear
    simpa [IsNumber, bne] using clear

/-- How objects at given distances are ranked. -/
def ahead (a b : F × AgentId) : Bool :=
  decide (a.1 < b.1) || (!decide (b.1 < a.1) && decide (a.2.val ≤ b.2.val))

variable [Rounded F]
open Rounded

/-- Among numbers the ranking is one by what they stand for, and then by id. -/
theorem ahead_eq {a b : F × AgentId} (ha : IsNumber a.1) (hb : IsNumber b.1) :
    ahead a b =
      decide (level a.1 < level b.1 ∨ level a.1 = level b.1 ∧ a.2.val ≤ b.2.val) := by
  simp only [ahead, lt_iff, ha, hb, true_and]
  rcases lt_trichotomy (level a.1) (level b.1) with less | same | more
  · simp [less]
  · simp [same]
  · simp [more, more.not_gt, more.ne']

theorem mergeSort_ascending {ranked : List (F × AgentId)} (numbers : ∀ r ∈ ranked, IsNumber r.1) :
    (ranked.mergeSort ahead).Pairwise fun a b => a.1 ≤ b.1 := by
  let byLevel (a b : F × AgentId) : Bool :=
    decide (level a.1 < level b.1 ∨ level a.1 = level b.1 ∧ a.2.val ≤ b.2.val)
  have same : ranked.mergeSort ahead = ranked.mergeSort byLevel := by
    have mapped := List.map_mergeSort (f := id) (r := ahead) (s := byLevel) (l := ranked)
      fun a ha b hb => ahead_eq (numbers a ha) (numbers b hb)
    simpa using mapped
  have sorted := @List.pairwise_mergeSort _ byLevel (fun a b c => ?trans) (fun a b => ?total)
    ranked
  case trans =>
    simp only [byLevel, decide_eq_true_eq]
    rintro (less | ⟨equal, id⟩) (less' | ⟨equal', id'⟩)
    · exact .inl (less.trans less')
    · exact .inl (equal' ▸ less)
    · exact .inl (equal ▸ less')
    · exact .inr ⟨equal.trans equal', UInt32.le_trans id id'⟩
  case total =>
    simp only [byLevel, Bool.or_eq_true, decide_eq_true_eq]
    rcases lt_trichotomy (level a.1) (level b.1) with less | equal | more
    · exact .inl (.inl less)
    · rcases UInt32.le_total a.2.val b.2.val with id | id
      · exact .inl (.inr ⟨equal, id⟩)
      · exact .inr (.inr ⟨equal.symm, id⟩)
    · exact .inr (.inl more)
  rw [same]
  refine sorted.imp_of_mem ?_
  intro a b ha hb before
  have among : ∀ r ∈ ranked.mergeSort byLevel, IsNumber r.1 :=
    fun r hr => numbers r ((List.mergeSort_perm ranked byLevel).mem_iff.mp hr)
  refine le_iff.mpr ⟨among a ha, among b hb, ?_⟩
  rcases of_decide_eq_true before with less | ⟨equal, -⟩
  · exact less.le
  · exact equal.le

/-- What an answer is: the first ones of all objects in ascending distance. -/
theorem nearest?_eq_some {ids : List AgentId} (answered : x.nearest? center count = some ids) :
    ∃ chosen left, Nearest center x.sightings chosen left ∧
      chosen.length = min count x.sightings.length ∧ ids = chosen.map (·.id) := by
  let key (s : Sighting F) : F × AgentId := (center.squaredDistance s.position, s.id)
  let sorted := x.sightings.mergeSort fun a b => ahead (key a) (key b)
  have perm : sorted.Perm x.sightings := List.mergeSort_perm _ _
  have mapped : sorted.map key = (x.sightings.map key).mergeSort ahead :=
    List.map_mergeSort fun _ _ _ _ => rfl
  have ascending : sorted.Pairwise fun a b => (key a).1 ≤ (key b).1 := by
    rcases Nat.lt_or_ge 1 x.sightings.length with several | few
    · have numbers : ∀ s ∈ x.sightings, IsNumber (key s).1 := by
        intro s shown
        by_contra vague
        rw [nearest?_eq_none.mpr ⟨several, s, shown, vague⟩] at answered
        cases answered
      rw [← List.pairwise_map (R := fun a b : F × AgentId => a.1 ≤ b.1), mapped]
      exact mergeSort_ascending (by simpa using numbers)
    · rw [← perm.length_eq] at few
      match sorted, few with
      | [], _ => exact .nil
      | [a], _ => exact List.pairwise_singleton _ a
  rw [← List.take_append_drop count sorted, List.pairwise_append] at ascending
  obtain ⟨first, -, across⟩ := ascending
  refine ⟨sorted.take count, sorted.drop count, ⟨?_, first, across⟩, ?_, ?_⟩
  · rwa [List.take_append_drop]
  · rw [List.length_take, perm.length_eq]
  · simp only [nearest?] at answered
    split at answered
    · cases answered
    · change some ((((x.sightings.map key).mergeSort ahead).take count).map (·.2)) = _ at answered
      rw [← mapped, ← List.map_take, List.map_map] at answered
      exact (Option.some.inj answered).symm

end SpatialIndex

namespace Space
variable {F : Type} [Scalar F] {s : Space F}

omit [Scalar F] in
theorem sightings_ids (s : Space F) : s.sightings.map (·.id) = s.ids := by
  rw [sightings, ids, List.map_map]
  rfl

/-! Objects within a radius. -/

/-- An answer lists the objects within the radius, each as often as it is stored. -/
theorem Fresh.within_perm (fresh : s.Fresh) {center : Point F} {radius : F}
    (wide : zero ≤ radius) : (s.within center radius).1.Perm
      ((s.entries.toList.filter fun e =>
        decide (center.squaredDistance e.projection.position ≤ radius * radius)).map (·.id)) := by
  rw [within, if_pos wide]
  have seen := (fresh.refreshed.filter fun v =>
    decide (center.squaredDistance v.position ≤ radius * radius)).map (·.id)
  rw [sightings, List.filter_map, List.map_map] at seen
  exact seen

theorem Fresh.within_nodup (fresh : s.Fresh) (center : Point F) (radius : F) :
    (s.within center radius).1.Nodup := by
  by_cases wide : zero ≤ radius
  · rw [(fresh.within_perm wide).nodup_iff]
    exact fresh.wellFormed.slots.nodup.sublist (List.filter_sublist.map _)
  · rw [within, if_neg wide]
    exact .nil

theorem Fresh.mem_within (fresh : s.Fresh) {center : Point F} {radius : F} {id : AgentId} :
    id ∈ (s.within center radius).1 ↔ zero ≤ radius ∧ ∃ e ∈ s.entries, e.id = id ∧
      center.squaredDistance e.projection.position ≤ radius * radius := by
  by_cases wide : zero ≤ radius
  · rw [(fresh.within_perm wide).mem_iff]
    simp only [wide, true_and, List.mem_map, List.mem_filter, Array.mem_toList_iff,
      decide_eq_true_eq]
    exact exists_congr fun e => by rw [and_assoc, and_comm (a := e.id = id)]
  · simp [within, wide]

/-! Neighbours. -/

/-- The first object has the other one for a neighbour. -/
structure Neighbours (s : Space F) (radius : F) (me other : Entry F) : Prop where
  stored : other ∈ s.entries
  different : other.id ≠ me.id
  wide : zero ≤ radius
  near : me.projection.position.squaredDistance other.projection.position ≤ radius * radius

theorem Fresh.mem_neighboursOf (fresh : s.Fresh) {id : AgentId} {radius : F}
    {accept : Entry F → Entry F → Bool} {other : Entry F} :
    other ∈ (s.neighboursOf id radius accept).1 ↔
      ∃ me ∈ s.entries, me.id = id ∧ s.Neighbours radius me other ∧ accept me other = true := by
  have wf := fresh.wellFormed
  rw [neighboursOf]
  rcases found : s.entry? id with - | me
  · constructor
    · intro among
      cases among
    · rintro ⟨me, stored, rfl, -⟩
      rw [wf.entry?_eq_some.mpr ⟨stored, rfl⟩] at found
      cases found
  · obtain ⟨stored, rfl⟩ := wf.entry?_eq_some.mp found
    have alone : ∀ me' ∈ s.entries, me'.id = me.id → me' = me :=
      fun me' stored' same => wf.unique stored' stored same
    simp only [othersOf, List.mem_filter, List.mem_filterMap, decide_eq_true_eq, fresh.mem_within]
    constructor
    · rintro ⟨⟨id, ⟨⟨wide, e, there, rfl, near⟩, different⟩, entry⟩, accepted⟩
      obtain ⟨there', same⟩ := wf.entry?_eq_some.mp entry
      obtain rfl := wf.unique there there' same.symm
      exact ⟨me, stored, rfl, ⟨there, different, wide, near⟩, accepted⟩
    · rintro ⟨me', stored', same, ⟨there, different, wide, near⟩, accepted⟩
      obtain rfl := alone me' stored' same
      exact ⟨⟨other.id, ⟨⟨wide, other, there, rfl, near⟩, different⟩,
        wf.entry?_eq_some.mpr ⟨there, rfl⟩⟩, accepted⟩

theorem Fresh.neighboursOf_nodup (fresh : s.Fresh) (id : AgentId) (radius : F)
    (accept : Entry F → Entry F → Bool) : (s.neighboursOf id radius accept).1.Nodup := by
  rw [neighboursOf]
  split
  · exact .nil
  · rename_i me found
    have single := fresh.within_nodup me.projection.position radius
    apply List.Nodup.filter
    refine List.Nodup.filterMap ?_ (single.filter _)
    intro id id' e first second
    rw [← (fresh.wellFormed.entry?_eq_some.mp first).2,
      ← (fresh.wellFormed.entry?_eq_some.mp second).2]

/-! The nearest objects. -/

omit [Scalar F] in
theorem count_sightings (s : Space F) : s.sightings.length = s.count := by
  simp [sightings, count]

theorem Fresh.nearest?_eq_none (fresh : s.Fresh) {center : Point F} {count : Nat} :
    (s.nearest? center count).1 = none ↔
      1 < s.count ∧ ∃ e ∈ s.entries, ¬IsNumber (center.squaredDistance e.projection.position) := by
  have shown := fresh.refreshed
  rw [nearest?, SpatialIndex.nearest?_eq_none, shown.length_eq, count_sightings]
  simp only [shown.mem_iff, sightings, List.mem_map, Array.mem_toList_iff, exists_exists_and_eq_and]

theorem Fresh.nearest?_eq_some [Rounded F] (fresh : s.Fresh) {center : Point F} {count : Nat}
    {ids : List AgentId} (answered : (s.nearest? center count).1 = some ids) :
    ids.Nodup ∧ ids.length = min count s.count ∧
      ∃ chosen left, ids = chosen.map (·.id) ∧
        SpatialIndex.Nearest center s.sightings chosen left := by
  obtain ⟨chosen, left, nearest, length, rfl⟩ := SpatialIndex.nearest?_eq_some answered
  have parts := nearest.parts.trans fresh.refreshed
  refine ⟨?_, ?_, chosen, left, rfl, parts, nearest.ascending, nearest.closer⟩
  · have all := (parts.map (·.id)).nodup_iff
    rw [sightings_ids, List.map_append] at all
    exact (all.mpr fresh.wellFormed.slots.nodup).of_append_left
  · rw [List.length_map, length, fresh.refreshed.length_eq, count_sightings]

/-! Stores over a grid. -/

section
variable {g : Grid}

theorem Housed.asked (housed : s.Housed g) (q : Query F) : (s.asked q).Housed g := by
  rw [housed.wellFormed.asked_eq]
  split
  · exact ⟨housed.wellFormed.refreshed, housed.terrain, housed.inside⟩
  · exact housed

variable [Rounded F]

theorem Housed.metAll [Trig F] (housed : s.Housed g) (built : g.Built) (events : List (Event F)) :
    (s.metAll events).Housed g := by
  induction events generalizing s with
  | nil => exact housed
  | cons event rest ih =>
    cases event with
    | request r => exact ih (housed.after built r)
    | query q => exact ih (housed.asked q)

end

/-- In a grid only a center without coordinates has distances that cannot be compared. -/
theorem Housed.nearest?_ne_none {s : Space Float} {g : Grid} (housed : s.Housed g) (fresh : s.Fresh)
    {center : Point Float} (nx : IsNumber center.x) (ny : IsNumber center.y) (count : Nat) :
    (s.nearest? center count).1 ≠ none := by
  rw [Ne, fresh.nearest?_eq_none]
  rintro ⟨-, e, stored, vague⟩
  have finite := Extent.isFinite_of_contains (housed.inside e stored)
  exact vague (Binary64.squaredDistance_isNumber finite nx ny)

section
variable [Trig Float]

/-- After any changes and queries the picture is not stale, every query answers about the objects
as they are, and an outdated picture is taken anew by the first query that looks at it. -/
theorem queries_exact (t : Terrain Float) (events : List (Event Float)) :
    let s := (empty t).metAll events
    (s.index.outdated = false → s.index.sightings.Perm s.sightings) ∧
      (∀ center radius, (s.within center radius).1.Nodup ∧
        ∀ id, id ∈ (s.within center radius).1 ↔ zero ≤ radius ∧ ∃ e ∈ s.entries, e.id = id ∧
          center.squaredDistance e.projection.position ≤ radius * radius) ∧
      (∀ center count,
        ((s.nearest? center count).1 = none ↔ 1 < s.count ∧
          ∃ e ∈ s.entries, ¬IsNumber (center.squaredDistance e.projection.position)) ∧
        ∀ ids, (s.nearest? center count).1 = some ids →
          ids.Nodup ∧ ids.length = min count s.count ∧
            ∃ chosen left, ids = chosen.map (·.id) ∧
              SpatialIndex.Nearest center s.sightings chosen left) ∧
      (∀ g : Grid, g.Built → t = .ofGrid g → ∀ center count,
        IsNumber center.x → IsNumber center.y → (s.nearest? center count).1 ≠ none) ∧
      (∀ id radius, (s.neighbours id radius).1.Nodup ∧ (s.visibleNeighbours id radius).1.Nodup ∧
        ∀ other,
          (other ∈ (s.neighbours id radius).1 ↔
            ∃ me ∈ s.entries, me.id = id ∧ s.Neighbours radius me other) ∧
          (other ∈ (s.visibleNeighbours id radius).1 ↔
            ∃ me ∈ s.entries, me.id = id ∧ s.Neighbours radius me other ∧
              t.isVisible me.projection.position other.projection.position = true)) ∧
      (∀ q, (s.asked q).index.rebuilds =
        s.index.rebuilds + (if s.index.outdated ∧ s.consults q then 1 else 0)) ∧
      ∀ queries, (s.askedAll queries).index.rebuilds ≤ s.index.rebuilds + 1 := by
  intro s
  have fresh : s.Fresh := (empty_fresh t).metAll events
  refine ⟨fresh.picture, ?_, ?_, ?_, ?_, ?_, ?_⟩
  · exact fun center radius => ⟨fresh.within_nodup center radius, fun id => fresh.mem_within⟩
  · exact fun center count => ⟨fresh.nearest?_eq_none, fun ids => fresh.nearest?_eq_some⟩
  · rintro g built rfl center count nx ny
    exact ((empty_housed g).metAll built events).nearest?_ne_none fresh nx ny count
  · intro id radius
    refine ⟨fresh.neighboursOf_nodup id radius _, fresh.neighboursOf_nodup id radius _, ?_⟩
    intro other
    rw [neighbours, visibleNeighbours, fresh.mem_neighboursOf, fresh.mem_neighboursOf]
    have terrain : s.terrain = t := (empty_fresh t).metAll_terrain events
    simp only [sees, terrain, and_true, iff_self, and_self]
  · exact fun q => (fresh.wellFormed.asked_index q).1
  · intro queries
    rw [fresh.wellFormed.askedAll_index]
    split <;> omega

end

/-! Two tiles with an object in the middle of each. -/

def pairGrid : Grid := .empty ⟨2, 1, by decide, by decide, by decide, by decide⟩

def pairEvents : List (Event Float) :=
  [.request (.insert ⟨⟨0⟩, "a", .placed 0.5 0.5⟩), .request (.insert ⟨⟨1⟩, "a", .placed 1.5 0.5⟩)]

def pair : Space Float := (empty (.ofGrid pairGrid)).metAll pairEvents

theorem pair_spec : pair.index = ⟨[], true, 0⟩ ∧
    pair.entries = #[⟨⟨0⟩, "a", .placed 0.5 0.5⟩, ⟨⟨1⟩, "a", .placed 1.5 0.5⟩] := by
  have west : pairGrid.extent.contains (Projection.placed (F := Float) 0.5 0.5).position = true := by
    decide +kernel
  have east : pairGrid.extent.contains (Projection.placed (F := Float) 1.5 0.5).position = true := by
    decide +kernel
  simp [pair, pairEvents, metAll, met, after, insert, Space.contains, empty, Terrain.ofGrid,
    SpatialIndex.empty, SpatialIndex.invalidate, west, east]

/-- The eastern object is within one tile of the western one, and some object is nearest. -/
theorem queries_exact_pair :
    pairGrid.Built ∧ (⟨1⟩ : AgentId) ∈ (pair.within ⟨0.5, 0.5⟩ 1.0).1 ∧
      (pair.nearest? ⟨0.5, 0.5⟩ 1).1 ≠ none := by
  have built : pairGrid.Built := Grid.Built.empty _
  obtain ⟨-, within, -, nearest, -⟩ := queries_exact (.ofGrid pairGrid) pairEvents
  refine ⟨built, ?_, ?_⟩
  · refine ((within _ _).2 _).mpr ⟨by decide +kernel, ⟨⟨1⟩, "a", .placed 1.5 0.5⟩, ?_, rfl, ?_⟩
    · change _ ∈ pair.entries
      simp [pair_spec.2]
    · decide +kernel
  · exact nearest pairGrid built rfl ⟨0.5, 0.5⟩ 1 (by decide +kernel) (by decide +kernel)

/-- A query within a negative radius leaves an outdated picture as it is, and a center without
coordinates has no nearest objects. -/
theorem queries_aside :
    let aside := pair.asked (.within ⟨0.5, 0.5⟩ (-1.0))
    pair.index.outdated = true ∧ aside.index.rebuilds = pair.index.rebuilds ∧
      aside.index.outdated = true ∧ pair.count = 2 ∧
      (pair.nearest? ⟨0.0 / 0.0, 0.5⟩ 0).1 = none := by
  have below : ¬(zero : Float) ≤ -1.0 := by decide +kernel
  have vague : ¬IsNumber ((⟨0.0 / 0.0, 0.5⟩ : Point Float).squaredDistance ⟨0.5, 0.5⟩) := by
    decide +kernel
  have fresh : pair.Fresh := (empty_fresh _).metAll pairEvents
  obtain ⟨index, entries⟩ := pair_spec
  refine ⟨by rw [index], ?_, ?_, by simp [count, entries], ?_⟩
  · rw [asked, within_snd, if_neg below]
  · rw [asked, within_snd, if_neg below, index]
  · rw [fresh.nearest?_eq_none]
    exact ⟨by simp [count, entries], ⟨⟨0⟩, "a", .placed 0.5 0.5⟩, by simp [entries], vague⟩

end Space
end Vivarium
