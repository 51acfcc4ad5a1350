import Mathlib.Order.Basic
import Haiker.Rust.HashMap
import Haiker.Simulation.Lockstep

/-!
This module contains maps from which entries are evicted, and when nobody can tell that they are.
-/

open Rust

namespace Eviction

variable {κ τ ε α : Type} [DecidableEq κ]

/--
`answer k now entry` is what a call under the key `k` leaves as the entry and answers.
-/
def serve (answer : κ → τ → Option ε → ε × α) (evict : τ → HashMap κ ε → HashMap κ ε) (m : HashMap κ ε)
    (call : κ × τ) : HashMap κ ε × α :=
  let m := evict call.2 m
  let (entry, a) := answer call.1 call.2 (m.get? call.1)
  (m.insert call.1 entry, a)

-- nothing is evicted
def keep (_ : τ) (m : HashMap κ ε) : HashMap κ ε := m

/--
The entries that meet `good` stay so, only stale ones are evicted, and a stale entry is as good as none
at any later time.
-/
structure Transparent [Preorder τ] (answer : κ → τ → Option ε → ε × α)
    (evict : τ → HashMap κ ε → HashMap κ ε) (good : κ → ε → Prop) (stale : κ → ε → τ → Prop) : Prop where
  good_new : ∀ k now, good k (answer k now none).1
  good_answer : ∀ k now e, good k e → good k (answer k now (some e)).1
  evicts : ∀ now m k, (evict now m).get? k = m.get? k
    ∨ (evict now m).get? k = none ∧ ∃ e, m.get? k = some e ∧ stale k e now
  invisible : ∀ k e now later, good k e → stale k e now → now ≤ later →
    answer k later (some e) = answer k later none

variable [Preorder τ] {answer : κ → τ → Option ε → ε × α} {evict : τ → HashMap κ ε → HashMap κ ε}
  {good : κ → ε → Prop} {stale : κ → ε → τ → Prop} {m r : HashMap κ ε} {now : τ}

/--
An entry of the map with evictions and one of the map without: they are the same, or the entry has been
evicted.
-/
def Same (good : κ → ε → Prop) (stale : κ → ε → τ → Prop) (now : τ) (k : κ) (entry kept : Option ε) : Prop :=
  (∀ e, kept = some e → good k e)
    ∧ (entry = kept ∨ entry = none ∧ ∃ e past, kept = some e ∧ stale k e past ∧ past ≤ now)

omit [DecidableEq κ] in
theorem Same.mono {k : κ} {entry kept : Option ε} (h : Same good stale now k entry kept) {later : τ}
    (hle : now ≤ later) : Same good stale later k entry kept := by
  refine ⟨h.1, ?_⟩
  rcases h.2 with hsame | ⟨hnone, e, past, hkept, hstale, hpast⟩
  . exact .inl hsame
  . exact .inr ⟨hnone, e, past, hkept, hstale, hpast.trans hle⟩

namespace Transparent

variable (ht : Transparent answer evict good stale)

include ht

theorem same_evict {k : κ} {kept : Option ε} (h : Same good stale now k (m.get? k) kept)
    : Same good stale now k ((evict now m).get? k) kept := by
  refine ⟨h.1, ?_⟩
  rcases ht.evicts now m k with hget | ⟨hnone, e, hentry, hstale⟩
  . rw [hget]
    exact h.2
  . rcases h.2 with hsame | ⟨habsent, _⟩
    . exact .inr ⟨hnone, e, now, hsame.symm.trans hentry, hstale, le_refl now⟩
    . rw [habsent] at hentry
      cases hentry

theorem answer_eq {k : κ} {entry kept : Option ε} (h : Same good stale now k entry kept)
    : answer k now entry = answer k now kept := by
  rcases h.2 with hsame | ⟨hnone, e, past, hkept, hstale, hpast⟩
  . rw [hsame]
  . rw [hnone, hkept, ht.invisible k e past now (h.1 e hkept) hstale hpast]

theorem good_next {k : κ} {kept : Option ε} (h : ∀ e, kept = some e → good k e)
    : good k (answer k now kept).1 := by
  cases kept with
  | none => exact ht.good_new k now
  | some e => exact ht.good_answer k now e (h e rfl)

/--
What a map with evictions answers to the calls under some keys is what a map without evictions answers
that gets only those calls.
-/
theorem trace_filter {only : κ → Bool} {calls : List (κ × τ)}
    (hsorted : (calls.map Prod.snd).Pairwise (· ≤ ·)) (hnow : ∀ call ∈ calls, now ≤ call.2)
    (h : ∀ k, only k = true → Same good stale now k (m.get? k) (r.get? k))
    : (calls.zip (Lockstep.trace (serve answer evict) m calls)).filter (fun pair => only pair.1.1)
        = (calls.filter fun call => only call.1).zip
          (Lockstep.trace (serve answer keep) r (calls.filter fun call => only call.1)) := by
  induction calls generalizing m r now with
  | nil => rfl
  | cons call calls ih =>
    obtain ⟨k, time⟩ := call
    rw [List.map_cons, List.pairwise_cons] at hsorted
    have hlater : ∀ call ∈ calls, time ≤ call.2 := fun call hcall =>
      hsorted.1 call.2 (List.mem_map_of_mem hcall)
    have hle : now ≤ time := hnow (k, time) List.mem_cons_self
    have hevicted : ∀ k, only k = true → Same good stale time k ((evict time m).get? k) (r.get? k) :=
      fun k hk => ht.same_evict ((h k hk).mono hle)
    rw [Lockstep.trace, List.zip_cons_cons]
    cases hk : only k with
    | false =>
      rw [List.filter_cons_of_neg (by simp [hk]), List.filter_cons_of_neg (by simp [hk])]
      apply ih hsorted.2 hlater
      intro other hother
      have hne : other ≠ k := by
        rintro rfl
        rw [hk] at hother
        cases hother
      simp only [serve]
      rw [HashMap.get?_insert_of_ne hne]
      exact hevicted other hother
    | true =>
      have hanswer := ht.answer_eq (hevicted k hk)
      rw [List.filter_cons_of_pos (by simp [hk]), List.filter_cons_of_pos (by simp [hk]), Lockstep.trace,
        List.zip_cons_cons]
      have hfirst : (serve answer evict m (k, time)).2 = (serve answer keep r (k, time)).2 := by
        show (answer k time ((evict time m).get? k)).2 = (answer k time (r.get? k)).2
        rw [hanswer]
      rw [hfirst]
      congr 1
      apply ih hsorted.2 hlater
      intro other hother
      simp only [serve, keep]
      rw [HashMap.get?_insert, HashMap.get?_insert, hanswer]
      split
      . next heq =>
        subst heq
        refine ⟨?_, .inl rfl⟩
        intro e he
        rw [← Option.some.inj he]
        exact ht.good_next (hevicted other hother).1
      . exact hevicted other hother

end Transparent

theorem same_empty (k : κ) : Same good stale now k ((HashMap.empty : HashMap κ ε).get? k)
    ((HashMap.empty : HashMap κ ε).get? k) := by
  refine ⟨?_, .inl rfl⟩
  intro e he
  cases he

end Eviction
