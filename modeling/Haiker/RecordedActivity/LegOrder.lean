import Mathlib.Data.List.InsertIdx
import Haiker.RecordedActivity.LegNumbering

/-!
This module contains what order the legs of an activity have after a reordering, with the repositories
on the database and with the one in memory that the tests of the commands use.
-/

open ActivityCatalog (ActivityId)

namespace RecordedActivity

/--
The repository in memory. The rows stand for the values of the `HashMap` in the order of its iteration.
-/
structure TestLegRepo where
  legs : Sql.Table Leg.id

namespace TestLegRepo

def listLegs (activityId : ActivityId) (repo : TestLegRepo) : List Leg :=
  repo.legs.selectOrdered (fun leg => leg.activityId = activityId) (·.legNumber)

-- the new numbers, from `1` on
def renumbered (legs : List Leg) : List Leg := legs.mapIdx fun i leg => { leg with legNumber := i + 1 }

def reorderLegs (activityId : ActivityId) (legId : LegId) (newPosition : Nat) (repo : TestLegRepo)
    : Except LegError TestLegRepo :=
  let activityLegs := repo.listLegs activityId
  match activityLegs.zipIdx.find? fun leg => leg.1.id = legId with
  | none => throw (.legNotFound legId)
  | some (movingLeg, idx) =>
    let activityLegs := activityLegs.eraseIdx idx
    let insertIdx := min (newPosition - 1) activityLegs.length
    let activityLegs := activityLegs.insertIdx insertIdx movingLeg
    return {
      -- `legs.insert(leg.id, leg)`, the legs having the ids of the keys
      legs := repo.legs.upsertAll (renumbered activityLegs) (fun leg old => { leg with id := old.id })
        (fun _ _ => rfl)
    }

end TestLegRepo

/-
Orders of legs.
-/

-- what `list_legs` reads
def readLegs (t : LegTable) (activityId : ActivityId) : List Leg :=
  (t.legs.selectOrdered (fun row => row.activityId = activityId.val) (·.legNumber)).map rowToLeg

theorem run_listLegs_eq (activityId : ActivityId) (t : LegTable)
    : (listLegs activityId).run t = (.ok (readLegs t activityId), t) := run_listLegs activityId t

def order (legs : List Leg) : List LegId := legs.map (·.id)

/--
The leg is removed from the list and inserted at the position, or at the end.
-/
def move (legId : LegId) (position : Nat) (order : List LegId) : List LegId :=
  (order.erase legId).insertIdx (min position order.length - 1) legId

section Lists

variable {α : Type} {l : List α} {x : α} {i j : Nat}

theorem insertIdx_eraseIdx_self (h : l[i]? = some x) : (l.eraseIdx i).insertIdx i x = l := by
  induction l generalizing i with
  | nil => cases h
  | cons y l ih =>
    cases i with
    | zero =>
      cases h
      rfl
    | succ i =>
      rw [List.eraseIdx_cons_succ, List.insertIdx_succ_cons, ih h]

theorem insertIdx_eraseIdx_eq_iff (hnodup : l.Nodup) (hi : l[i]? = some x) (hj : j < l.length)
    : (l.eraseIdx i).insertIdx j x = l ↔ j = i := by
  constructor
  . intro hsame
    obtain ⟨hlt, hget⟩ := List.getElem?_eq_some_iff.mp hi
    have hlength := List.length_eraseIdx_of_lt hlt
    have hinserted : ((l.eraseIdx i).insertIdx j x)[j]? = some x := by
      rw [List.getElem?_insertIdx_self, if_pos (by omega)]
    rw [hsame, List.getElem?_eq_getElem hj, Option.some.injEq, ← hget] at hinserted
    exact hnodup.getElem_inj_iff.mp hinserted
  . rintro rfl
    exact insertIdx_eraseIdx_self hi

variable [DecidableEq α]

theorem erase_eq_eraseIdx_of_nodup (hnodup : l.Nodup) (hi : l[i]? = some x)
    : l.erase x = l.eraseIdx i := by
  obtain ⟨hlt, hget⟩ := List.getElem?_eq_some_iff.mp hi
  apply List.erase_eq_eraseIdx_of_idxOf
  rw [← hget]
  exact hnodup.idxOf_getElem i hlt

end Lists

/-
The repository in memory moves the leg.
-/

namespace TestLegRepo

variable {repo : TestLegRepo} {activityId : ActivityId} {legId : LegId}

theorem order_renumbered (legs : List Leg) : order (renumbered legs) = order legs := by
  apply List.ext_getElem?
  intro i
  simp only [order, renumbered, List.getElem?_map, List.getElem?_mapIdx, Option.map_map]
  rfl

theorem pairwise_renumbered (legs : List Leg)
    : (renumbered legs).Pairwise fun leg leg' => leg.legNumber < leg'.legNumber := by
  rw [List.pairwise_iff_getElem]
  intro i j hi hj hlt
  simp only [renumbered, List.getElem_mapIdx]
  omega

theorem nodup_order_listLegs (repo : TestLegRepo) (activityId : ActivityId)
    : (order (repo.listLegs activityId)).Nodup := repo.legs.nodup_key_selectOrdered _ _

theorem mem_listLegs {leg : Leg}
    : leg ∈ repo.listLegs activityId ↔ repo.legs.find? leg.id = some leg ∧ leg.activityId = activityId := by
  rw [listLegs, Sql.Table.mem_selectOrdered, decide_eq_true_eq]

-- the legs in a new order are read with the numbers of that order
theorem listLegs_upsertAll {legs : List Leg} (hperm : legs.Perm (repo.listLegs activityId))
    : listLegs activityId
          ⟨repo.legs.upsertAll (renumbered legs) (fun leg old => { leg with id := old.id }) (fun _ _ => rfl)⟩
        = renumbered legs := by
  have horder : (renumbered legs).map (·.id) = legs.map (·.id) := order_renumbered legs
  have hnodup : ((renumbered legs).map (·.id)).Nodup := by
    rw [horder, (hperm.map (·.id)).nodup_iff]
    exact nodup_order_listLegs repo activityId
  have hstored : ∀ leg ∈ renumbered legs,
      (repo.legs.upsertAll (renumbered legs) (fun leg old => { leg with id := old.id })
        (fun _ _ => rfl)).find? leg.id = some leg ∧ leg.activityId = activityId := by
    intro leg hleg
    obtain ⟨i, hi, hget⟩ := List.mem_mapIdx.mp hleg
    have hlisted : legs[i] ∈ repo.listLegs activityId := hperm.mem_iff.mp (List.getElem_mem hi)
    rw [mem_listLegs] at hlisted
    have hid : leg.id = legs[i].id := by rw [← hget]
    constructor
    . rw [Sql.Table.find?_upsertAll_of_mem _ hnodup hleg, hid, hlisted.1, Option.elim_some, ← hget]
    . rw [← hget]
      exact hlisted.2
  apply Sql.Table.selectOrdered_eq _ (pairwise_renumbered legs)
  intro leg
  rw [decide_eq_true_eq]
  constructor
  . exact hstored leg
  . rintro ⟨hfind, hactivity⟩
    by_cases hmem : leg.id ∈ (renumbered legs).map (·.id)
    . obtain ⟨leg', hleg', hid⟩ := List.mem_map.mp hmem
      have hfind' := (hstored leg' hleg').1
      rw [hid, hfind, Option.some.injEq] at hfind'
      rw [hfind']
      exact hleg'
    . rw [Sql.Table.find?_upsertAll_of_not_mem _ hmem] at hfind
      have hlisted := hperm.mem_iff.mpr (mem_listLegs.mpr ⟨hfind, hactivity⟩)
      rw [horder] at hmem
      exact absurd (List.mem_map_of_mem hlisted) hmem

theorem find?_zipIdx {legs : List Leg} {leg : Leg} {i : Nat} (hnodup : (order legs).Nodup)
    (hi : legs[i]? = some leg)
    : (legs.zipIdx.find? fun other => other.1.id = leg.id) = some (leg, i) := by
  have hmem : (leg, i) ∈ legs.zipIdx := List.mem_zipIdx_iff_getElem?.mpr hi
  cases hfind : legs.zipIdx.find? fun other => other.1.id = leg.id with
  | none =>
    have hnone := List.find?_eq_none.mp hfind (leg, i) hmem
    simp at hnone
  | some pair =>
    obtain ⟨other, j⟩ := pair
    have hid : other.id = leg.id := by simpa using List.find?_some hfind
    have hj : legs[j]? = some other := List.mem_zipIdx_iff_getElem?.mp (List.mem_of_find?_eq_some hfind)
    obtain ⟨hi, hgeti⟩ := List.getElem?_eq_some_iff.mp hi
    obtain ⟨hj, hgetj⟩ := List.getElem?_eq_some_iff.mp hj
    have hi' : i < (order legs).length := by simpa [order] using hi
    have hj' : j < (order legs).length := by simpa [order] using hj
    have heq : (order legs)[j] = (order legs)[i] := by
      simp only [order, List.getElem_map, hgeti, hgetj, hid]
    have hsame : j = i := hnodup.getElem_inj_iff.mp heq
    subst hsame
    rw [hgeti] at hgetj
    rw [hgetj]

theorem order_reorderLegs (repo : TestLegRepo) {leg : Leg} (hleg : leg ∈ repo.listLegs activityId)
    {newPosition : Nat} (hone : 1 ≤ newPosition)
    : ∃ repo', repo.reorderLegs activityId leg.id newPosition = .ok repo'
        ∧ order (repo'.listLegs activityId) = move leg.id newPosition (order (repo.listLegs activityId)) := by
  have hnodup := nodup_order_listLegs repo activityId
  obtain ⟨i, hi⟩ := List.getElem?_of_mem hleg
  obtain ⟨hlt, hget⟩ := List.getElem?_eq_some_iff.mp hi
  have hlength := List.length_eraseIdx_of_lt hlt
  have hperm : (((repo.listLegs activityId).eraseIdx i).insertIdx
      (min (newPosition - 1) ((repo.listLegs activityId).eraseIdx i).length) leg).Perm
        (repo.listLegs activityId) := by
    have hback := List.perm_insertIdx leg ((repo.listLegs activityId).eraseIdx i) (i := i) (by omega)
    rw [insertIdx_eraseIdx_self hi] at hback
    exact (List.perm_insertIdx leg _ (Nat.min_le_right _ _)).trans hback.symm
  have hrun : repo.reorderLegs activityId leg.id newPosition
      = .ok ⟨repo.legs.upsertAll (renumbered (((repo.listLegs activityId).eraseIdx i).insertIdx
        (min (newPosition - 1) ((repo.listLegs activityId).eraseIdx i).length) leg))
          (fun leg old => { leg with id := old.id }) (fun _ _ => rfl)⟩ := by
    unfold reorderLegs
    simp only [find?_zipIdx hnodup hi]
    rfl
  have hid : (order (repo.listLegs activityId))[i]? = some leg.id := by
    rw [order, List.getElem?_map, hi, Option.map_some]
  have hposition : min (newPosition - 1) ((repo.listLegs activityId).eraseIdx i).length
      = min newPosition (order (repo.listLegs activityId)).length - 1 := by
    rw [order, List.length_map]
    omega
  refine ⟨_, hrun, ?_⟩
  rw [listLegs_upsertAll hperm, order_renumbered, move, erase_eq_eraseIdx_of_nodup hnodup hid, hposition,
    order, List.map_insertIdx, ← List.eraseIdx_map, order]

end TestLegRepo

/-
The repositories on the database move no leg.
-/

variable {t : LegTable} {activityId : ActivityId} {row : LegRow}

theorem nodup_order_readLegs (t : LegTable) (activityId : ActivityId)
    : (order (readLegs t activityId)).Nodup := by
  have hkeys := t.legs.nodup_key_selectOrdered (fun row => row.activityId = activityId.val) (·.legNumber)
  apply List.Nodup.of_map LegId.val
  rw [order, readLegs, List.map_map, List.map_map]
  exact hkeys

theorem length_order (t : LegTable) (activityId : ActivityId)
    : (order (readLegs t activityId)).length = (t.numbers activityId.val).length := by
  rw [order, readLegs, List.length_map, List.length_map, Sql.Table.selectOrdered, List.length_insertionSort,
    LegTable.numbers, List.length_map]

-- dense numbers are read in their order
theorem numbers_readLegs (hdense : Dense t activityId.val)
    : (readLegs t activityId).map (·.legNumber) = List.range' 1 (t.numbers activityId.val).length := by
  have hnumbers : (readLegs t activityId).map (·.legNumber)
      = (t.legs.selectOrdered (fun row => row.activityId = activityId.val) (·.legNumber)).map
        (·.legNumber) := by
    rw [readLegs, List.map_map]
    rfl
  have hsorted : (t.legs.selectOrdered (fun row => row.activityId = activityId.val)
      (·.legNumber)).Pairwise fun row row' => row.legNumber ≤ row'.legNumber :=
    List.pairwise_insertionSort _ _
  have hperm := List.perm_insertionSort (fun row row' : LegRow => row.legNumber ≤ row'.legNumber)
    (t.legs.rows.filter fun row => row.activityId = activityId.val)
  rw [hnumbers]
  apply ((hperm.map LegRow.legNumber).trans hdense).eq_of_pairwise
  . intro m n _ _ hmn hnm
    exact Nat.le_antisymm hmn hnm
  . exact List.pairwise_map.mpr hsorted
  . exact List.pairwise_le_range'

theorem getElem?_readLegs (hdense : Dense t activityId.val) (hrow : t.legs.find? row.id = some row)
    (hactivity : row.activityId = activityId.val)
    : ∃ i, i + 1 = row.legNumber ∧ (order (readLegs t activityId))[i]? = some ⟨row.id⟩ := by
  have hmem : rowToLeg row ∈ readLegs t activityId := by
    apply List.mem_map_of_mem
    rw [Sql.Table.mem_selectOrdered, decide_eq_true_eq]
    exact ⟨hrow, hactivity⟩
  obtain ⟨i, hi⟩ := List.getElem?_of_mem hmem
  have hnumber : ((readLegs t activityId).map (·.legNumber))[i]? = some row.legNumber := by
    rw [List.getElem?_map, hi]
    rfl
  rw [numbers_readLegs hdense] at hnumber
  refine ⟨i, ?_, ?_⟩
  . obtain ⟨hi, hget⟩ := List.getElem?_eq_some_iff.mp hnumber
    rw [List.getElem_range'] at hget
    omega
  . rw [order, List.getElem?_map, hi]
    rfl

-- the last leg stays the last one
theorem order_of_gap {now : Timestamp} {newPosition : Nat} {t' : LegTable} (hdense : Dense t activityId.val)
    (hrow : t.legs.find? row.id = some row)
    (hlegs : t'.legs = t.legs.updateWhere (fun other => other.id = row.id)
      (fun other => { other with legNumber := newPosition, updatedAt := now }) (fun _ => rfl))
    (hlast : ∀ number ∈ t.numbers activityId.val, number ≤ row.legNumber)
    (hdown : row.legNumber < newPosition)
    : order (readLegs t' activityId) = order (readLegs t activityId) := by
  have hselect : t'.legs.selectOrdered (fun row => row.activityId = activityId.val) (·.legNumber)
      = (t.legs.selectOrdered (fun row => row.activityId = activityId.val) (·.legNumber)).map
        fun other => if other.id = row.id then
          { other with legNumber := newPosition, updatedAt := now }
        else
          other := by
    have hnumbers := numbers_readLegs hdense
    rw [readLegs, List.map_map] at hnumbers
    have hsorted : (t.legs.selectOrdered (fun row => row.activityId = activityId.val)
        (·.legNumber)).Pairwise fun row row' => row.legNumber < row'.legNumber := by
      have hlt := List.pairwise_lt_range' (s := 1) (n := (t.numbers activityId.val).length)
      rw [← hnumbers, List.pairwise_map] at hlt
      exact hlt
    have hkey : ∀ other : LegRow, (if other.id = row.id then
        { other with legNumber := newPosition, updatedAt := now } else other).id = other.id := by
      intro other
      split
      . rfl
      . rfl
    apply Sql.Table.selectOrdered_eq
    . rw [List.pairwise_map]
      apply hsorted.imp_of_mem
      intro first second hfirst hsecond hlt
      rw [Sql.Table.mem_selectOrdered, decide_eq_true_eq] at hfirst hsecond
      have hle := hlast second.legNumber
        (LegTable.mem_numbers.mpr ⟨second.id, second, hsecond.1, hsecond.2, rfl⟩)
      split
      . next hid =>
        rw [hid, hrow, Option.some.injEq] at hfirst
        rw [← hfirst.1] at hlt
        omega
      . split
        . exact Nat.lt_trans hlt (Nat.lt_of_le_of_lt hle hdown)
        . exact hlt
    . intro other
      have hactivity : ∀ other : LegRow, (if other.id = row.id then
          { other with legNumber := newPosition, updatedAt := now } else other).activityId
            = other.activityId := by
        intro other
        split
        . rfl
        . rfl
      rw [hlegs, Sql.Table.find?_updateWhere, List.mem_map, Option.map_eq_some_iff, decide_eq_true_eq]
      simp only [decide_eq_true_eq]
      constructor
      . rintro ⟨original, hmem, rfl⟩
        rw [Sql.Table.mem_selectOrdered, decide_eq_true_eq] at hmem
        rw [hkey, hactivity]
        exact ⟨⟨original, hmem.1, rfl⟩, hmem.2⟩
      . rintro ⟨⟨original, hfind, rfl⟩, hof⟩
        rw [hkey] at hfind
        rw [hactivity] at hof
        refine ⟨original, ?_, rfl⟩
        rw [Sql.Table.mem_selectOrdered, decide_eq_true_eq]
        exact ⟨hfind, hof⟩
  rw [readLegs, hselect, order, order, readLegs, List.map_map, List.map_map, List.map_map]
  apply List.map_congr_left
  intro other _
  simp only [Function.comp_apply]
  split
  . rfl
  . rfl

-- no reordering changes the order
theorem order_after_reorderLegs (repo : PgLegRepository) (now : Timestamp) (hdense : Dense t activityId.val)
    (hrow : t.legs.find? row.id = some row) (hactivity : row.activityId = activityId.val) (newPosition : Nat)
    (hone : 1 ≤ newPosition)
    : order (readLegs ((repo.reorderLegs now activityId ⟨row.id⟩ newPosition).run t).2 activityId)
        = order (readLegs t activityId) := by
  obtain ⟨activityId⟩ := activityId
  obtain rfl : row.activityId = activityId := hactivity
  have hdense : Dense t row.activityId := hdense
  by_cases hsame : newPosition = row.legNumber
  . rw [hsame, run_reorderLegs_of_same repo now ⟨row.id⟩ hrow]
  . by_cases hlast : row.legNumber < newPosition ∧ row.legNumber = (t.numbers row.activityId).length
    . have hall : ∀ number ∈ t.numbers row.activityId, number ≤ row.legNumber := by
        intro number hmem
        have := hdense.mem_iff.mp hmem
        omega
      obtain ⟨t', rest, hrun, hlegs, _⟩ :=
        run_reorderLegs_of_gap repo now ⟨row.id⟩ newPosition hrow hlast.1 hall
      rw [hrun]
      exact order_of_gap hdense hrow hlegs hall hlast.1
    . rw [run_reorderLegs_of_moves repo now ⟨row.id⟩ newPosition hdense hrow hone hsame hlast]

/--
After a reordering by either repository the legs are read in the order that the move gives, which is the
one that the repository in memory gives, exactly if the leg is already at the position, or is the last one
and the position is behind it. `leg_number` is an `INTEGER`.
-/
theorem reorderLegs_moves_iff (repo : PgLegRepository) (now : Timestamp) (t : LegTable)
    (activityId : ActivityId) (hdense : Dense t activityId.val) (memory : TestLegRepo)
    (hmemory : memory.listLegs activityId = readLegs t activityId) (row : LegRow)
    (hrow : t.legs.find? row.id = some row) (hactivity : row.activityId = activityId.val)
    (newPosition : Nat) (hone : 1 ≤ newPosition) (hint : newPosition < 2 ^ 31)
    : (order (readLegs ((repo.reorderLegs now activityId ⟨row.id⟩ newPosition).run t).2 activityId)
          = move ⟨row.id⟩ newPosition (order (readLegs t activityId))
        ∧ (memory.reorderLegs activityId ⟨row.id⟩ newPosition).map
            (fun repo' => order (repo'.listLegs activityId))
          = .ok (order (readLegs ((repo.reorderLegs now activityId ⟨row.id⟩ newPosition).run t).2
            activityId)))
      ↔ min newPosition (t.numbers activityId.val).length = row.legNumber := by
  have hafter := order_after_reorderLegs repo now hdense hrow hactivity newPosition hone
  have hleg : rowToLeg row ∈ memory.listLegs activityId := by
    rw [hmemory]
    apply List.mem_map_of_mem
    rw [Sql.Table.mem_selectOrdered, decide_eq_true_eq]
    exact ⟨hrow, hactivity⟩
  obtain ⟨memory', hrun, hmoved⟩ := TestLegRepo.order_reorderLegs memory hleg hone
  obtain ⟨i, hi, hget⟩ := getElem?_readLegs hdense hrow hactivity
  have hnodup := nodup_order_readLegs t activityId
  have hlength := length_order t activityId
  obtain ⟨hlt, _⟩ := List.getElem?_eq_some_iff.mp hget
  have hstays : move ⟨row.id⟩ newPosition (order (readLegs t activityId)) = order (readLegs t activityId)
      ↔ min newPosition (t.numbers activityId.val).length = row.legNumber := by
    rw [move, erase_eq_eraseIdx_of_nodup hnodup hget, insertIdx_eraseIdx_eq_iff hnodup hget (by omega)]
    omega
  rw [hmemory] at hmoved
  have hrun : memory.reorderLegs activityId ⟨row.id⟩ newPosition = .ok memory' := hrun
  have hmoved : order (memory'.listLegs activityId) = move ⟨row.id⟩ newPosition (order (readLegs t activityId)) :=
    hmoved
  rw [hafter, hrun, ← hstays, Except.map, hmoved]
  constructor
  . exact fun h => h.1.symm
  . exact fun h => ⟨h.symm, congrArg Except.ok h⟩

-- the two legs of the sample in memory
def sampleMemory : TestLegRepo where
  legs := ⟨readLegs sampleLegs ⟨⟨9⟩⟩, by decide⟩

def secondLeg : LegRow where
  id := ⟨2⟩
  activityId := ⟨9⟩
  legNumber := 2
  title := none
  date := 0
  sourceRevisionId := none
  recordedTrackId := none
  createdAt := 0
  updatedAt := 0

theorem reorderLegs_moves_iff_secondLeg
    : (order (readLegs ((PgLegRepository.platform.reorderLegs 0 ⟨⟨9⟩⟩ ⟨⟨2⟩⟩ 5).run sampleLegs).2 ⟨⟨9⟩⟩)
          = move ⟨⟨2⟩⟩ 5 (order (readLegs sampleLegs ⟨⟨9⟩⟩))
        ∧ (sampleMemory.reorderLegs ⟨⟨9⟩⟩ ⟨⟨2⟩⟩ 5).map (fun repo' => order (repo'.listLegs ⟨⟨9⟩⟩))
          = .ok (order (readLegs
            ((PgLegRepository.platform.reorderLegs 0 ⟨⟨9⟩⟩ ⟨⟨2⟩⟩ 5).run sampleLegs).2 ⟨⟨9⟩⟩)))
      ↔ min 5 (sampleLegs.numbers ⟨9⟩).length = 2 :=
  reorderLegs_moves_iff .platform 0 sampleLegs ⟨⟨9⟩⟩ (dense_of_perm (n := 2) (.refl _)) sampleMemory rfl
    secondLeg rfl rfl 5 (by decide) (by decide)

/--
The second of two legs is not moved to the front, although the repository in memory moves it there.
-/
theorem not_moved_to_front
    : move ⟨⟨2⟩⟩ 1 (order (readLegs sampleLegs ⟨⟨9⟩⟩)) = [⟨⟨2⟩⟩, ⟨⟨1⟩⟩]
        ∧ (sampleMemory.reorderLegs ⟨⟨9⟩⟩ ⟨⟨2⟩⟩ 1).map (fun repo' => order (repo'.listLegs ⟨⟨9⟩⟩))
          = .ok [⟨⟨2⟩⟩, ⟨⟨1⟩⟩]
        ∧ (∀ repo : PgLegRepository,
          order (readLegs ((repo.reorderLegs 0 ⟨⟨9⟩⟩ ⟨⟨2⟩⟩ 1).run sampleLegs).2 ⟨⟨9⟩⟩)
            = [⟨⟨1⟩⟩, ⟨⟨2⟩⟩]) := by
  refine ⟨by decide, rfl, ?_⟩
  rintro (_ | _)
  . decide
  . decide

end RecordedActivity
