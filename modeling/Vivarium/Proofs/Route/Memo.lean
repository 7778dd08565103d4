import Vivarium.Route.Search

/-! The search with notes finds what the plain search finds. A note is only ever written for a
tile that has been settled, so every note tells the outcome of the plain search from its tile. -/
namespace Vivarium.WallSearch
variable {F : Type} [Scalar F] {s : WallSearch F}

/-- The bound on the tiles ahead limits the recursion and decides nothing else. -/
theorem findWithin_bound (n m : Nat) (t : s.grid.Tile) (hn : s.course.ahead t ≤ n)
    (hm : s.course.ahead t ≤ m) : s.findWithin n t hn = s.findWithin m t hm := by
  induction n generalizing m t with
  | zero =>
    cases m with
    | zero => rfl
    | succ m =>
      simp only [findWithin]
      congr 1
      funext next fewer
      omega
  | succ n ih =>
    cases m with
    | zero =>
      simp only [findWithin]
      congr 1
      funext next fewer
      omega
    | succ m =>
      simp only [findWithin]
      congr 1
      funext next fewer
      exact ih m next _ _

/-- The plain search, one tile at a time. -/
theorem find_eq_settle (t : s.grid.Tile) : s.find t = s.settle t fun next _ => s.find next := by
  have deeper : s.find t = s.findWithin (s.course.ahead t + 1) t (Nat.le_succ _) :=
    findWithin_bound _ _ t _ _
  rw [deeper]
  simp only [findWithin]
  congr 1
  funext next fewer
  exact findWithin_bound _ _ next _ _

omit [Scalar F] in
theorem through_tile {t next : s.grid.Tile} {e : Exit F s.course}
    (behind : s.grid.extent.neighbour? t.x t.y e.edge = some next)
    (onward : (next : s.grid.Tile) → s.course.ahead next < s.course.ahead t → s.Found) :
    s.through t onward e = onward next (Course.ahead_lt e.facing behind) := by
  rw [through]
  split
  · rename_i other found
    obtain rfl := Option.some.inj (found.symm.trans behind)
    rfl
  · rename_i outside
    cases outside.symm.trans behind

omit [Scalar F] in
theorem through_border {t : s.grid.Tile} {e : Exit F s.course}
    (outside : s.grid.extent.neighbour? t.x t.y e.edge = none)
    (onward : (next : s.grid.Tile) → s.course.ahead next < s.course.ahead t → s.Found) :
    s.through t onward e = some ⟨t, e.edge, e.point⟩ := by
  rw [through]
  split
  · rename_i other found
    cases outside.symm.trans found
  · rfl

/-- Every note tells what the plain search finds. -/
def Notes.Faithful (notes : s.Notes) : Prop :=
  ∀ t found, notes.settled[t]? = some found → found = s.find t

theorem Notes.blank_faithful : (Notes.blank s).Faithful := by
  intro t found known
  simp [Notes.blank] at known

theorem Notes.Faithful.settle {notes : s.Notes} (faithful : notes.Faithful) (t : s.grid.Tile) :
    Notes.Faithful { notes with settled := notes.settled.insert t (s.find t) } := by
  intro u found known
  simp only [Std.HashMap.getElem?_insert] at known
  split at known
  · rename_i same
    obtain rfl := eq_of_beq same
    exact (Option.some.inj known).symm
  · exact faithful u found known

/-- A search with notes that finds what the plain search finds, from faithful notes on. -/
def Follows (s : WallSearch F) (t : s.grid.Tile)
    (onward : (next : s.grid.Tile) → s.course.ahead next < s.course.ahead t →
      s.Notes → s.Found × s.Notes) : Prop :=
  ∀ next fewer notes, Notes.Faithful notes →
    (onward next fewer notes).1 = s.find next ∧ (onward next fewer notes).2.Faithful

theorem throughAll_follows {t : s.grid.Tile}
    {onward : (next : s.grid.Tile) → s.course.ahead next < s.course.ahead t →
      s.Notes → s.Found × s.Notes} (follows : s.Follows t onward)
    (exits : List (Exit F s.course)) (best : s.Found) (notes : s.Notes)
    (faithful : notes.Faithful) :
    (s.throughAll t onward exits best notes).1 =
        exits.foldl (fun best e => s.nearer best (s.through t (fun next _ => s.find next) e)) best ∧
      (s.throughAll t onward exits best notes).2.Faithful := by
  induction exits generalizing best notes with
  | nil => exact ⟨rfl, faithful⟩
  | cons e rest ih =>
    simp only [throughAll, List.foldl_cons]
    split
    · rename_i next behind
      obtain ⟨found, kept⟩ := follows next (Course.ahead_lt e.facing behind) notes faithful
      rw [through_tile behind, ← found]
      exact ih _ _ kept
    · rename_i outside
      rw [through_border outside]
      exact ih _ _ faithful

theorem settleNoting_follows {t : s.grid.Tile}
    {onward : (next : s.grid.Tile) → s.course.ahead next < s.course.ahead t →
      s.Notes → s.Found × s.Notes} (follows : s.Follows t onward)
    {notes : s.Notes} (faithful : notes.Faithful) :
    (s.settleNoting t onward notes).1 = s.find t ∧
      (s.settleNoting t onward notes).2.Faithful := by
  have plain := s.find_eq_settle t
  rw [settle] at plain
  rw [settleNoting]
  split
  · rename_i arrived
    rw [if_pos arrived] at plain
    exact ⟨plain.symm, faithful⟩
  · rename_i elsewhere
    rw [if_neg elsewhere] at plain
    split
    · rename_i known noted
      exact ⟨faithful t known noted, faithful⟩
    · cases walled : s.blocked t (s.exits t) with
      | some hit =>
        simp only [walled] at plain ⊢
        rw [← plain]
        have expanded : Notes.Faithful { notes with expanded := t :: notes.expanded } := faithful
        exact ⟨rfl, expanded.settle t⟩
      | none =>
        simp only [walled] at plain ⊢
        obtain ⟨found, kept⟩ := throughAll_follows follows (s.exits t) none
          { notes with expanded := t :: notes.expanded } faithful
        rw [found, ← plain]
        exact ⟨rfl, kept.settle t⟩

theorem traceWithin_follows (n : Nat) (t : s.grid.Tile) (bound : s.course.ahead t ≤ n)
    {notes : s.Notes} (faithful : notes.Faithful) :
    (s.traceWithin n t bound notes).1 = s.find t ∧ (s.traceWithin n t bound notes).2.Faithful := by
  induction n generalizing t notes with
  | zero =>
    apply settleNoting_follows _ faithful
    intro next fewer
    omega
  | succ n ih =>
    apply settleNoting_follows _ faithful
    intro next fewer notes faithful
    exact ih next _ faithful

theorem trace_eq_find (t : s.grid.Tile) : s.trace t = s.find t :=
  (traceWithin_follows _ t (Nat.le_refl _) Notes.blank_faithful).1

end Vivarium.WallSearch
