import Std.Data.ExtTreeMap.Lemmas
import Vivarium.Proofs.Space.Lookup
import Vivarium.Proofs.Space.Run

/-! The store as a finite map. A chart says of every stored id which population it is of and where it
is, and nothing about places in an array; each request changes it in one line. Whatever the requests,
the store answers as the chart does, and its three tables hold what its entries say. -/
namespace Vivarium

/-- Population and projection of every object. -/
abbrev Chart (F : Type) : Type := Std.ExtTreeMap AgentId (Population × Projection F)

namespace Chart
variable {F : Type}

/-- What a chart says of an id, as an entry. -/
def entry (id : AgentId) (r : Population × Projection F) : Entry F := ⟨id, r.1, r.2⟩

def entry? (m : Chart F) (id : AgentId) : Option (Entry F) := m[id]?.map (entry id)

theorem erase_of_missing {m : Chart F} {id : AgentId} (missing : m[id]? = none) :
    m.erase id = m := by
  apply Std.ExtTreeMap.ext_getElem?
  intro other
  rw [Std.ExtTreeMap.getElem?_erase]
  split
  · rename_i same
    rw [← Std.compare_eq_iff_eq.mp same, missing]
  · rfl

/-- What one object does, as something that all do. -/
theorem getElem?_modify (m : Chart F) (id other : AgentId) (way : Projection F → Projection F) :
    (m.modify id fun r => (r.1, way r.2))[other]? =
      m[other]?.map fun r => (r.1, if other = id then way r.2 else r.2) := by
  rw [Std.ExtTreeMap.getElem?_modify]
  split
  · rename_i same
    obtain rfl := Std.compare_eq_iff_eq.mp same
    simp
  · rename_i different
    have apart : other ≠ id := fun same => different (Std.compare_eq_iff_eq.mpr same.symm)
    simp [apart]

theorem modify_of_missing {m : Chart F} {id : AgentId} (missing : m[id]? = none)
    (way : Projection F → Projection F) : (m.modify id fun r => (r.1, way r.2)) = m := by
  apply Std.ExtTreeMap.ext_getElem?
  intro other
  rw [getElem?_modify]
  by_cases same : other = id
  · rw [same, missing]
    rfl
  · simp [same]

variable [Scalar F] [Trig F]

/-- The chart after a request. A request that the store has to refuse changes nothing. -/
def after (t : Terrain F) (m : Chart F) : Space.Request F → Chart F
  | .insert e =>
    if m.contains e.id || !t.contains e.projection.position then m
    else m.insert e.id (e.population, e.projection)
  | .remove id => m.erase id
  | .removeIf doomed => m.filter fun id r => !doomed (entry id r)
  | .moveObject id motion => m.modify id fun r => (r.1, r.2.carried t motion)
  | .moveAll _ motionOf => m.map fun id r => (r.1, match motionOf id with
    | some motion => r.2.carried t motion
    | none => r.2)

def afterAll (t : Terrain F) (m : Chart F) (requests : List (Space.Request F)) : Chart F :=
  requests.foldl (after t) m

end Chart

namespace Space
variable {F : Type} {s s' : Space F} {m m' : Chart F} {id : AgentId} {e : Entry F}

/-- The chart lists exactly the entries. -/
def Charted (s : Space F) (m : Chart F) : Prop :=
  ∀ e : Entry F, e ∈ s.entries ↔ m[e.id]? = some (e.population, e.projection)

theorem empty_charted (t : Terrain F) : (empty t).Charted ∅ := by
  intro e
  simp [empty]

namespace Charted

theorem mem_iff (charted : s.Charted m) : id ∈ m ↔ id ∈ s.ids := by
  rw [mem_ids, Std.ExtTreeMap.mem_iff_isSome_getElem?, Option.isSome_iff_exists]
  constructor
  · rintro ⟨⟨population, projection⟩, known⟩
    exact ⟨⟨id, population, projection⟩, (charted _).mpr known, rfl⟩
  · rintro ⟨e, stored, rfl⟩
    exact ⟨_, (charted e).mp stored⟩

theorem getElem?_eq_none (charted : s.Charted m) (wf : s.WellFormed) (missing : s.find? id = none) :
    m[id]? = none :=
  Std.ExtTreeMap.getElem?_eq_none (mt charted.mem_iff.mp (wf.find?_eq_none.mp missing))

theorem contains_eq (charted : s.Charted m) (wf : s.WellFormed) :
    s.contains id = m.contains id := by
  rw [wf.contains_eq, Bool.eq_iff_iff, decide_eq_true_iff, Std.ExtTreeMap.contains_iff_mem,
    charted.mem_iff]

theorem entry?_eq (charted : s.Charted m) (wf : s.WellFormed) : s.entry? id = m.entry? id := by
  rw [Space.entry?, Chart.entry?]
  rcases found : s.find? id with - | ⟨slot, e⟩
  · rw [charted.getElem?_eq_none wf found]
    rfl
  · obtain ⟨there, rfl⟩ := wf.find?_eq_some found
    rw [(charted e).mp (Array.mem_of_getElem? there)]
    rfl

theorem count_eq (charted : s.Charted m) (wf : s.WellFormed) : s.count = m.size := by
  have distinct : m.keys.Nodup :=
    Std.ExtTreeMap.distinct_keys.imp fun apart same => apart (Std.compare_eq_iff_eq.mpr same)
  have same : s.ids.Perm m.keys := by
    rw [List.perm_ext_iff_of_nodup wf.slots.nodup distinct]
    intro id
    rw [Std.ExtTreeMap.mem_keys, charted.mem_iff]
  have sizes := same.length_eq
  rwa [ids, List.length_map, Array.length_toList, Std.ExtTreeMap.length_keys] at sizes

/-! What a request does to an entry it does to the chart. -/

theorem insert (charted : s.Charted m) (wf : s.WellFormed) (inserted : s.insert e = .ok s') :
    s'.Charted (m.insert e.id (e.population, e.projection)) := by
  obtain ⟨absent, -, rfl⟩ := insert_eq_ok inserted
  rw [wf.contains_eq, decide_eq_false_iff_not] at absent
  intro other
  rw [Array.mem_push, charted other, Std.ExtTreeMap.getElem?_insert]
  split
  · rename_i same
    have same : e.id = other.id := Std.compare_eq_iff_eq.mp same
    have older : ¬m[other.id]? = some (other.population, other.projection) := by
      rw [← charted other]
      intro stored
      exact absent (mem_ids.mpr ⟨other, stored, same.symm⟩)
    rw [or_iff_right older, Option.some.injEq, Prod.mk.injEq]
    constructor
    · rintro rfl
      exact ⟨rfl, rfl⟩
    · rintro ⟨population, projection⟩
      cases e
      cases other
      simp_all
  · rename_i different
    refine or_iff_left ?_
    rintro rfl
    exact different (Std.compare_eq_iff_eq.mpr rfl)

theorem remove (charted : s.Charted m) (wf : s.WellFormed) (removed : s.remove id = .ok (e, s')) :
    s'.Charted (m.erase id) := by
  obtain ⟨slot, last, found, final, rfl⟩ := remove_eq_ok removed
  obtain ⟨there, rfl⟩ := wf.find?_eq_some found
  have stored := Array.mem_of_getElem? there
  rw [← Array.getElem?_toList] at there
  rw [← Array.getLast?_toList] at final
  have parts := swap_perm there final
  have apart := wf.slots.nodup
  rw [ids, (parts.map (·.id)).nodup_iff] at apart
  intro other
  rw [Std.ExtTreeMap.getElem?_erase, ← Array.mem_toList_iff, Array.toList_pop,
    Array.toList_setIfInBounds]
  split
  · rename_i same
    have same : e.id = other.id := Std.compare_eq_iff_eq.mp same
    simp only [reduceCtorEq, iff_false]
    intro rest
    exact (List.nodup_cons.mp apart).1 (List.mem_map.mpr ⟨other, rest, same.symm⟩)
  · rename_i different
    rw [← charted other, ← Array.mem_toList_iff, parts.mem_iff, List.mem_cons]
    refine (or_iff_right ?_).symm
    rintro rfl
    exact different (Std.compare_eq_iff_eq.mpr rfl)

theorem removeIf (charted : s.Charted m) (doomed : Entry F → Bool) :
    (s.removeIf doomed).2.Charted (m.filter fun id r => !doomed (Chart.entry id r)) := by
  intro e
  rw [← Array.mem_toList_iff, removeIf_entries, List.mem_filter, Array.mem_toList_iff, charted e,
    Std.ExtTreeMap.getElem?_filter', Option.filter_eq_some_iff]
  rfl

/-- The projections change, each according to its id. -/
theorem moved (charted : s.Charted m) (way : AgentId → Projection F → Projection F)
    (entries : s'.entries.toList =
      s.entries.toList.map fun e => { e with projection := way e.id e.projection })
    (chart : ∀ id, m'[id]? = m[id]?.map fun r => (r.1, way id r.2)) : s'.Charted m' := by
  intro e
  rw [← Array.mem_toList_iff, entries, List.mem_map, chart, Option.map_eq_some_iff]
  constructor
  · rintro ⟨origin, stored, rfl⟩
    exact ⟨_, (charted origin).mp (Array.mem_toList_iff.mp stored), rfl⟩
  · rintro ⟨⟨population, projection⟩, known, same⟩
    obtain ⟨rfl, there⟩ := Prod.mk.inj same
    refine ⟨{ e with projection }, Array.mem_toList_iff.mpr ((charted _).mpr known), ?_⟩
    rw [there]

end Charted

/-! Movement, one object at a time or all together. -/

section
variable [Scalar F] [Trig F] {motion : Motion F} {p : Projection F}

/-- Where the moved entry stands, and how it moved. A motion that is still writes the entry back. -/
theorem WellFormed.moveObject_eq_ok (wf : s.WellFormed)
    (moved : s.moveObject id motion = .ok (p, s')) :
    ∃ slot e, s.entries[slot]? = some e ∧ e.id = id ∧ p = e.projection.carried s.terrain motion ∧
      s'.entries.toList = s.entries.toList.set slot { e with projection := p } := by
  rw [Space.moveObject] at moved
  split at moved
  · cases moved
  · rename_i slot e found
    obtain ⟨there, rfl⟩ := wf.find?_eq_some found
    refine ⟨slot, e, there, rfl, ?_⟩
    rw [Entry.moved?_eq] at moved
    split at moved
    · rename_i still
      split at still
      · rename_i rests
        cases moved
        rw [Projection.carried, if_pos rests]
        rw [← Array.getElem?_toList] at there
        obtain ⟨bound, value⟩ := List.getElem?_eq_some_iff.mp there
        exact ⟨rfl, by rw [← value, List.set_getElem_self]⟩
      · cases still
    · rename_i e' way
      split at way
      · cases way
      · cases way
        cases moved
        exact ⟨rfl, Array.toList_setIfInBounds⟩

/-- What is done to the element at one place is done to the elements with its key. -/
theorem set_eq_map {α β : Type} [DecidableEq β] {key : α → β} {xs : List α} {i : Nat} {x : α}
    (distinct : (xs.map key).Nodup) (there : xs[i]? = some x) (f : α → α) :
    xs.set i (f x) = xs.map fun y => if key y = key x then f y else y := by
  apply List.ext_getElem?
  intro j
  rw [List.getElem?_map, List.getElem?_set]
  have bound := (List.getElem?_eq_some_iff.mp there).1
  by_cases same : i = j
  · subst same
    rw [if_pos rfl, if_pos bound, there, Option.map_some, if_pos rfl]
  · rw [if_neg same]
    rcases here : xs[j]? with - | y
    · rfl
    · have apart : key y ≠ key x := by
        intro equal
        have first : (xs.map key)[i]? = some (key x) := by rw [List.getElem?_map, there]; rfl
        have second : (xs.map key)[j]? = some (key x) := by
          rw [List.getElem?_map, here, Option.map_some, equal]
        have inner : i < (xs.map key).length := by rwa [List.length_map]
        exact same ((List.getElem?_inj inner distinct).mp (first.trans second.symm))
      rw [Option.map_some, if_neg apart]

/-- The way of one object, as a way of all. -/
theorem WellFormed.moveObject_entries (wf : s.WellFormed)
    (moved : s.moveObject id motion = .ok (p, s')) :
    s'.entries.toList = s.entries.toList.map fun e =>
      { e with projection :=
          if e.id = id then e.projection.carried s.terrain motion else e.projection } := by
  obtain ⟨slot, e, there, rfl, rfl, entries⟩ := wf.moveObject_eq_ok moved
  rw [← Array.getElem?_toList] at there
  rw [entries, set_eq_map wf.slots.nodup there
    fun e => { e with projection := e.projection.carried s.terrain motion }]
  apply List.map_congr_left
  intro other _
  split
  · rfl
  · rfl

theorem moveAll_projections (chunkSize : Nat) (motionOf : AgentId → Option (Motion F)) :
    (s.moveAll chunkSize motionOf).2.entries.toList = s.entries.toList.map fun e =>
      { e with projection := match motionOf e.id with
          | some motion => e.projection.carried s.terrain motion
          | none => e.projection } := by
  rw [moveAll_entries]
  apply List.map_congr_left
  intro e _
  rcases moves : motionOf e.id with - | motion
  · rw [moveEntry, moves]
    rfl
  · exact moveEntry_eq moves

/-! Requests, granted and refused. -/

/-- Whether an insertion is granted stands in the chart, and which of two faults is named. -/
theorem Charted.insert_eq (charted : s.Charted m) (wf : s.WellFormed) (e : Entry F) :
    s.insert e =
      if m.contains e.id then .error (.duplicate e.id)
      else if !s.terrain.contains e.projection.position then
        .error (.outside e.id e.projection.position)
      else .ok (s.after (.insert e)) := by
  rw [← charted.contains_eq wf, Space.after]
  rcases inserted : s.insert e with x | s'
  · rcases insert_eq_error inserted with ⟨stored, rfl⟩ | ⟨fresh, outside, rfl⟩
    · rw [if_pos stored]
    · rw [fresh, outside]
      rfl
  · obtain ⟨fresh, inside, -⟩ := insert_eq_ok inserted
    rw [fresh, inside]
    rfl

theorem Charted.remove_eq (charted : s.Charted m) (wf : s.WellFormed) (id : AgentId) :
    s.remove id = match m.entry? id with
      | none => .error (.unknown id)
      | some e => .ok (e, s.after (.remove id)) := by
  rw [← charted.entry?_eq wf, Space.entry?, Space.after]
  rcases removed : s.remove id with x | ⟨e, s'⟩
  · obtain ⟨missing, rfl⟩ := remove_eq_error removed
    rw [missing]
    rfl
  · obtain ⟨slot, last, found, -, -⟩ := remove_eq_ok removed
    rw [found]
    rfl

theorem Charted.moveObject_eq (charted : s.Charted m) (wf : s.WellFormed) (id : AgentId)
    (motion : Motion F) :
    s.moveObject id motion = match m.entry? id with
      | none => .error (.unknown id)
      | some e => .ok (e.projection.carried s.terrain motion, s.after (.moveObject id motion)) := by
  rw [← charted.entry?_eq wf, Space.entry?, Space.after]
  rcases moved : s.moveObject id motion with x | ⟨p, s'⟩
  · obtain ⟨missing, rfl⟩ := moveObject_eq_error moved
    rw [missing]
    rfl
  · obtain ⟨slot, e, found, -⟩ := Space.moveObject_eq_ok moved
    obtain ⟨slot', e', there, named, rfl, -⟩ := wf.moveObject_eq_ok moved
    obtain ⟨there', named'⟩ := wf.find?_eq_some found
    obtain rfl := wf.unique (Array.mem_of_getElem? there) (Array.mem_of_getElem? there')
      (named.trans named'.symm)
    rw [found]
    rfl

/-- One request does to the chart what it does to the store. -/
theorem Charted.after (charted : s.Charted m) (wf : s.WellFormed) (r : Request F) :
    (s.after r).Charted (m.after s.terrain r) := by
  cases r with
  | insert e =>
    rw [Chart.after, ← charted.contains_eq wf, Space.after]
    rcases inserted : s.insert e with x | s'
    · rcases insert_eq_error inserted with ⟨stored, -⟩ | ⟨-, outside, -⟩
      · rwa [stored]
      · rwa [outside, Bool.not_false, Bool.or_true]
    · obtain ⟨fresh, inside, -⟩ := insert_eq_ok inserted
      rw [fresh, inside]
      exact charted.insert wf inserted
  | remove id =>
    rw [Chart.after, Space.after]
    rcases removed : s.remove id with x | ⟨e, s'⟩
    · rwa [Chart.erase_of_missing (charted.getElem?_eq_none wf (remove_eq_error removed).1)]
    · exact charted.remove wf removed
  | removeIf doomed => exact charted.removeIf doomed
  | moveObject id motion =>
    rw [Chart.after, Space.after]
    rcases moved : s.moveObject id motion with x | ⟨p, s'⟩
    · have missing := charted.getElem?_eq_none wf (moveObject_eq_error moved).1
      rwa [Chart.modify_of_missing missing fun p => p.carried s.terrain motion]
    · exact charted.moved (fun other p => if other = id then p.carried s.terrain motion else p)
        (wf.moveObject_entries moved)
        fun other => m.getElem?_modify id other fun p => p.carried s.terrain motion
  | moveAll chunkSize motionOf =>
    exact charted.moved (fun id p => match motionOf id with
      | some motion => p.carried s.terrain motion
      | none => p) (moveAll_projections chunkSize motionOf) fun _ => Std.ExtTreeMap.getElem?_map

theorem Charted.afterAll (charted : s.Charted m) (wf : s.WellFormed) (requests : List (Request F)) :
    (s.afterAll requests).Charted (m.afterAll s.terrain requests) := by
  induction requests generalizing s m with
  | nil => exact charted
  | cons r rest ih =>
    have next := ih (charted.after wf r) (wf.after r)
    rwa [after_terrain] at next

/-- Whatever was requested of an empty store, granted or refused, its tables say what its entries say,
and it answers and acts as the chart of the same requests. -/
theorem refines_map (t : Terrain F) (requests : List (Request F)) :
    let s := (empty t).afterAll requests
    let m := Chart.afterAll t ∅ requests
    (s.entries.toList.map (·.id)).Nodup ∧
      (∀ (id : AgentId) (i : Nat), s.slots[id]? = some i ↔ s.entries[i]?.map (·.id) = some id) ∧
      (∀ p id, s.populations.contains p id = true ↔
        ∃ e ∈ s.entries, e.id = id ∧ e.population = p) ∧
      (∀ p, s.populations.count p = s.entries.toList.countP fun e => e.population = p) ∧
      (∀ p, (s.populations.members p).Pairwise (·.index < ·.index) ∧
        ∀ id, id ∈ s.populations.members p ↔ ∃ e ∈ s.entries, e.id = id ∧ e.population = p) ∧
      (s.populations.populations.Nodup ∧
        ∀ p, p ∈ s.populations.populations ↔ ∃ e ∈ s.entries, e.population = p) ∧
      s.populations.total = s.count ∧ s.count = m.size ∧
      (∀ id, s.contains id = m.contains id ∧
        s.entry? id = m[id]?.map (fun r => ⟨id, r.1, r.2⟩) ∧
        s.projection? id = m[id]?.map (·.2)) ∧
      (∀ e, s.insert e =
        if m.contains e.id then .error (.duplicate e.id)
        else if !t.contains e.projection.position then .error (.outside e.id e.projection.position)
        else .ok (s.after (.insert e))) ∧
      (∀ id, s.remove id = match m[id]? with
        | none => .error (.unknown id)
        | some r => .ok (⟨id, r.1, r.2⟩, s.after (.remove id))) ∧
      (∀ id motion, s.moveObject id motion = match m[id]? with
        | none => .error (.unknown id)
        | some r => .ok (r.2.carried t motion, s.after (.moveObject id motion))) ∧
      (∀ e x, s.insert e = .error x → s.after (.insert e) = s) ∧
      (∀ id x, s.remove id = .error x → s.after (.remove id) = s) ∧
      (∀ id motion x, s.moveObject id motion = .error x → s.after (.moveObject id motion) = s) ∧
      ∀ doomed, (s.removeIf doomed).1 = s.entries.toList.countP doomed ∧
        (s.removeIf doomed).2.entries.toList = s.entries.toList.filter fun e => !doomed e := by
  intro s m
  have wf : s.WellFormed := (empty_wellFormed t).afterAll requests
  have charted : s.Charted m := (empty_charted t).afterAll (empty_wellFormed t) requests
  have terrain : s.terrain = t := afterAll_terrain (empty t) requests
  refine ⟨wf.slots.nodup, ?_, wf.populations_contain, ?_, ?_, ?_, ?_, charted.count_eq wf, ?_, ?_,
    ?_, ?_, ?_, ?_, ?_, fun doomed => ⟨removeIf_fst doomed, removeIf_entries doomed⟩⟩
  · intro id i
    rw [wf.slots id i, getElem?_ids]
  · intro p
    rw [wf.populations.count_eq, members, List.countP_map]
    rfl
  · intro p
    refine ⟨s.populations.members_ascending p, fun id => ?_⟩
    rw [PopulationIndex.mem_members, wf.populations_contain]
  · refine ⟨s.populations.populations_nodup, fun p => ?_⟩
    simp only [PopulationIndex.mem_populations, wf.populations_contain]
    constructor
    · rintro ⟨id, e, stored, -, same⟩
      exact ⟨e, stored, same⟩
    · rintro ⟨e, stored, same⟩
      exact ⟨e.id, e, stored, rfl, same⟩
  · rw [wf.populations.total, members, List.length_map, Array.length_toList, count]
  · intro id
    refine ⟨charted.contains_eq wf, charted.entry?_eq wf, ?_⟩
    rw [projection?, charted.entry?_eq wf, Chart.entry?, Option.map_map]
    rfl
  · intro e
    rw [charted.insert_eq wf, terrain]
  · intro id
    rw [charted.remove_eq wf, Chart.entry?]
    cases m[id]? <;> rfl
  · intro id motion
    rw [charted.moveObject_eq wf, Chart.entry?, terrain]
    cases m[id]? <;> rfl
  · intro e x refused
    simp only [after, refused]
  · intro id x refused
    simp only [after, refused]
  · intro id motion x refused
    simp only [after, refused]

end

end Space
end Vivarium
