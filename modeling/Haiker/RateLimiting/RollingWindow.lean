import Mathlib.Data.List.Induction
import Haiker.RateLimiting.UploadQuota

/-!
This module contains when the upload quota is one over a rolling window. A window starts at the call that
finds the one before it expired, and what has been accepted in that one is forgotten.
-/

open Rust
open Lockstep

namespace RateLimiting

namespace UploadQuota

variable (quota : UploadQuota)

def isOf (userId : Uuid) (a b : Nat) (call : Call) : Bool :=
  call.userId = userId ∧ a ≤ call.now ∧ call.now < b

/--
In no interval `[a, b)` that is no longer than the window are more calls of one user accepted than allowed.
-/
def Rolling (accepted : List Call) : Prop :=
  ∀ userId a b, b ≤ a + quota.windowDuration → accepted.countP (isOf userId a b) ≤ quota.maxImports

-- the window that a call finds, after the eviction
def found (state : State) (call : Call) : Nat × Nat :=
  quota.window call.userId call.now (quota.evict call.now state)

-- the accepted calls of the user before that window that are less than a window old
def forgotten (s : State × List Call) (call : Call) : Nat :=
  s.2.countP fun old => old.userId = call.userId ∧ old.now < (quota.found s.1 call).2
    ∧ call.now < old.now + quota.windowDuration

/--
If there is room in the window that the call finds, then also with the accepted calls that are forgotten.
-/
def Fits (s : State × List Call) (call : Call) : Prop :=
  (quota.found s.1 call).1 < quota.maxImports →
    (quota.found s.1 call).1 + quota.forgotten s call < quota.maxImports

variable {quota} {state : State} {record : List Call} {now : Nat} {call : Call}

/--
What the entries say about the calls that have been accepted up to `now`.
-/
structure Tracks (quota : UploadQuota) (state : State) (record : List Call) (now : Nat) : Prop where
  counts : ∀ userId count start, state.get? userId = some (count, start) →
    start ≤ now ∧ count = record.countP (fun old => old.userId = userId ∧ start ≤ old.now)
  expires : ∀ count start, ∀ old ∈ record, state.get? old.userId = some (count, start) →
    old.now < start + quota.windowDuration
  absent : ∀ old ∈ record, state.get? old.userId = none → old.now < now

theorem Tracks.mono (h : Tracks quota state record now) {later : Nat} (hle : now ≤ later)
    : Tracks quota state record later where
  counts := by
    intro userId count start hentry
    obtain ⟨hstart, hcount⟩ := h.counts userId count start hentry
    exact ⟨Nat.le_trans hstart hle, hcount⟩
  expires := h.expires
  absent := fun old hold hnone => Nat.lt_of_lt_of_le (h.absent old hold hnone) hle

theorem Tracks.evict (h : Tracks quota state record now)
    : Tracks quota (quota.evict now state) record now := by
  unfold UploadQuota.evict
  split
  . constructor
    . intro userId count start hentry
      exact h.counts userId count start (HashMap.get?_of_retain hentry)
    . intro count start old hold hentry
      exact h.expires count start old hold (HashMap.get?_of_retain hentry)
    . intro old hold hnone
      cases hentry : state.get? old.userId with
      | none => exact h.absent old hold hentry
      | some entry =>
        obtain ⟨count, start⟩ := entry
        have hexpires := h.expires count start old hold hentry
        have hstart := (h.counts old.userId count start hentry).1
        rw [HashMap.get?_retain, hentry, Option.filter_eq_none_iff] at hnone
        have hexpired : ¬now - start < quota.windowDuration := by
          intro hlt
          exact hnone (count, start) rfl (decide_eq_true hlt)
        omega
  . exact h

/--
The window that a call finds: it has not expired, its count is the number of the user's accepted calls
since its start, and all of them are before its end.
-/
theorem Tracks.window (h : Tracks quota state record now) (hpos : 0 < quota.windowDuration) (userId : Uuid)
    : (quota.window userId now state).2 ≤ now
        ∧ now < (quota.window userId now state).2 + quota.windowDuration
        ∧ (quota.window userId now state).1 = record.countP (fun old => old.userId = userId
          ∧ (quota.window userId now state).2 ≤ old.now)
        ∧ ∀ old ∈ record, old.userId = userId →
          old.now < (quota.window userId now state).2 + quota.windowDuration := by
  -- a window that starts with the call
  have hnew : (∀ old ∈ record, old.userId = userId → old.now < now) →
      now ≤ now ∧ now < now + quota.windowDuration
        ∧ 0 = record.countP (fun old => old.userId = userId ∧ now ≤ old.now)
        ∧ ∀ old ∈ record, old.userId = userId → old.now < now + quota.windowDuration := by
    intro hbefore
    refine ⟨Nat.le_refl now, by omega, ?_, ?_⟩
    . symm
      rw [List.countP_eq_zero]
      intro old hold
      rw [decide_eq_true_eq]
      rintro ⟨huser, hle⟩
      have hlt := hbefore old hold huser
      omega
    . intro old hold huser
      have hlt := hbefore old hold huser
      omega
  cases hentry : state.get? userId with
  | none =>
    have hwindow : quota.window userId now state = (0, now) := by
      unfold UploadQuota.window
      rw [hentry]
      simp [durationSince]
    rw [hwindow]
    apply hnew
    rintro old hold rfl
    exact h.absent old hold hentry
  | some entry =>
    obtain ⟨count, start⟩ := entry
    obtain ⟨hstart, hcount⟩ := h.counts userId count start hentry
    have hexpires : ∀ old ∈ record, old.userId = userId → old.now < start + quota.windowDuration := by
      rintro old hold rfl
      exact h.expires count start old hold hentry
    by_cases hexpired : quota.windowDuration ≤ durationSince now start
    . have hwindow : quota.window userId now state = (0, now) := by
        unfold UploadQuota.window
        rw [hentry]
        exact if_pos hexpired
      rw [hwindow]
      apply hnew
      intro old hold huser
      have hlt := hexpires old hold huser
      unfold durationSince at hexpired
      omega
    . have hwindow : quota.window userId now state = (count, start) := by
        unfold UploadQuota.window
        rw [hentry]
        exact if_neg hexpired
      rw [hwindow]
      unfold durationSince at hexpired
      exact ⟨hstart, by omega, hcount, hexpires⟩

-- the window that a call finds does not depend on whether entries are evicted before
theorem Tracks.found (h : Tracks quota state record now) (hpos : 0 < quota.windowDuration)
    (hle : now ≤ call.now)
    : (quota.found state call).2 ≤ call.now
        ∧ call.now < (quota.found state call).2 + quota.windowDuration
        ∧ (quota.found state call).1 = record.countP (fun old => old.userId = call.userId
          ∧ (quota.found state call).2 ≤ old.now)
        ∧ ∀ old ∈ record, old.userId = call.userId →
          old.now < (quota.found state call).2 + quota.windowDuration :=
  ((h.mono hle).evict).window hpos call.userId

theorem serve_of_room (h : (quota.found state call).1 < quota.maxImports)
    : quota.serve state call = ((quota.evict call.now state).insert call.userId
        ((quota.found state call).1 + 1, (quota.found state call).2), .ok ()) := by
  unfold serve checkAndIncrementAt
  simp only
  exact if_neg (Nat.not_le.mpr h)

theorem serve_of_full (h : quota.maxImports ≤ (quota.found state call).1)
    : ∃ e, quota.serve state call
        = ((quota.evict call.now state).insert call.userId (quota.found state call), .error e) := by
  unfold serve checkAndIncrementAt
  simp only
  exact ⟨_, if_pos h⟩

/--
The accepted calls of the user that are less than a window old are those that the window counts and those
that are forgotten.
-/
theorem Tracks.countP_young (h : Tracks quota state record now) (hpos : 0 < quota.windowDuration)
    (hle : now ≤ call.now)
    : record.countP (fun old => old.userId = call.userId ∧ call.now < old.now + quota.windowDuration)
        = (quota.found state call).1 + quota.forgotten (state, record) call := by
  obtain ⟨hstart, hend, hcount, -⟩ := h.found hpos hle
  rw [hcount, forgotten]
  generalize (quota.found state call).2 = start at *
  clear hcount h
  induction record with
  | nil => rfl
  | cons old record ih =>
    simp only [List.countP_cons, decide_eq_true_eq] at ih ⊢
    rw [ih]
    by_cases huser : old.userId = call.userId
    . by_cases hcounted : start ≤ old.now
      . have hyoung : call.now < old.now + quota.windowDuration := by omega
        simp [huser, hcounted, hyoung, Nat.not_lt.mpr hcounted]
        omega
      . simp [huser, hcounted, Nat.not_le.mp hcounted]
        omega
    . simp [huser]

theorem Tracks.insert (h : Tracks quota state record now) {userId : Uuid} {count start : Nat}
    (hstart : start ≤ now) (hend : now < start + quota.windowDuration)
    (hcount : count = record.countP (fun old => old.userId = userId ∧ start ≤ old.now))
    (hexpires : ∀ old ∈ record, old.userId = userId → old.now < start + quota.windowDuration)
    (news : List Call) (hnews : ∀ new ∈ news, new.userId = userId ∧ new.now = now)
    : Tracks quota (state.insert userId (count + news.length, start)) (record ++ news) now := by
  constructor
  . intro other count' start' hentry
    rw [HashMap.get?_insert] at hentry
    split at hentry
    . next hother =>
      cases hentry
      subst hother
      refine ⟨hstart, ?_⟩
      have hall : news.countP (fun new => new.userId = other ∧ start ≤ new.now) = news.length := by
        rw [List.countP_eq_length]
        intro new hnew
        obtain ⟨huser, hnow⟩ := hnews new hnew
        exact decide_eq_true ⟨huser, Nat.le_trans hstart (Nat.le_of_eq hnow.symm)⟩
      rw [List.countP_append, ← hcount, hall]
    . next hother =>
      obtain ⟨hstart', hcount'⟩ := h.counts other count' start' hentry
      refine ⟨hstart', ?_⟩
      have hnone : news.countP (fun new => new.userId = other ∧ start' ≤ new.now) = 0 := by
        rw [List.countP_eq_zero]
        intro new hnew
        rw [decide_eq_true_eq]
        rintro ⟨huser, _⟩
        exact hother (huser.symm.trans (hnews new hnew).1)
      rw [List.countP_append, ← hcount', hnone, Nat.add_zero]
  . intro count' start' old hold hentry
    rw [HashMap.get?_insert] at hentry
    split at hentry
    . next huser =>
      cases hentry
      rcases List.mem_append.mp hold with hold | hold
      . exact hexpires old hold huser
      . rw [(hnews old hold).2]
        exact hend
    . next huser =>
      rcases List.mem_append.mp hold with hold | hold
      . exact h.expires count' start' old hold hentry
      . exact absurd (hnews old hold).1 huser
  . intro old hold hnone
    rw [HashMap.get?_insert] at hnone
    split at hnone
    . cases hnone
    . next huser =>
      rcases List.mem_append.mp hold with hold | hold
      . exact h.absent old hold hnone
      . exact absurd (hnews old hold).1 huser

theorem Tracks.recording (h : Tracks quota state record now) (hpos : 0 < quota.windowDuration)
    (hle : now ≤ call.now)
    : Tracks quota (recording quota.serve (state, record) call).1.1
        (Lockstep.recording quota.serve (state, record) call).1.2 call.now := by
  obtain ⟨hstart, hend, hcount, hexpires⟩ := h.found hpos hle
  have hinsert := fun news => ((h.mono hle).evict).insert hstart hend hcount hexpires news
  by_cases hroom : (quota.found state call).1 < quota.maxImports
  . rw [recording_of_ok (serve_of_room hroom)]
    exact hinsert [call] fun new hnew => by rw [List.mem_singleton.mp hnew]; exact ⟨rfl, rfl⟩
  . obtain ⟨e, hserve⟩ := serve_of_full (Nat.not_lt.mp hroom)
    rw [recording_of_error hserve]
    have hsame := hinsert [] (fun new hnew => by cases hnew)
    rw [List.append_nil] at hsame
    exact hsame

theorem tracks_empty (quota : UploadQuota) : Tracks quota .empty [] 0 where
  counts := by
    intro userId count start hentry
    cases hentry
  expires := fun _ _ old hold => by cases hold
  absent := fun old hold => by cases hold

/-
Whole runs.
-/

theorem Rolling.of_append {first second : List Call} (h : Rolling quota (first ++ second))
    : Rolling quota first := by
  intro userId a b hle
  have hcount := h userId a b hle
  rw [List.countP_append] at hcount
  omega

theorem rolling_concat_iff (hrecord : ∀ old ∈ record, old.now ≤ call.now) (hpos : 0 < quota.windowDuration)
    : Rolling quota (record ++ [call])
        ↔ Rolling quota record ∧ record.countP (fun old => old.userId = call.userId
          ∧ call.now < old.now + quota.windowDuration) < quota.maxImports := by
  constructor
  . intro h
    refine ⟨h.of_append, ?_⟩
    have hcount := h call.userId (call.now + 1 - quota.windowDuration) (call.now + 1) (by omega)
    have hcall : isOf call.userId (call.now + 1 - quota.windowDuration) (call.now + 1) call = true :=
      decide_eq_true ⟨rfl, by omega, by omega⟩
    rw [List.countP_append, List.countP_singleton, if_pos hcall] at hcount
    apply Nat.lt_of_lt_of_le _ hcount
    apply Nat.lt_succ_of_le
    apply List.countP_mono_left
    intro old hold hyoung
    rw [decide_eq_true_eq] at hyoung
    have hle := hrecord old hold
    exact decide_eq_true ⟨hyoung.1, by omega, by omega⟩
  . rintro ⟨h, hroom⟩ userId a b hle
    rw [List.countP_append, List.countP_singleton]
    split
    . next hcall =>
      obtain ⟨huser, ha, hb⟩ := of_decide_eq_true hcall
      apply Nat.lt_of_le_of_lt _ hroom
      apply List.countP_mono_left
      intro old hold hof
      obtain ⟨huser', ha', hb'⟩ := of_decide_eq_true hof
      exact decide_eq_true ⟨huser'.trans huser.symm, by omega⟩
    . exact h userId a b hle

-- a window of no duration
theorem fits_of_zero (hzero : quota.windowDuration = 0) (s : State × List Call) (call : Call)
    : Fits quota s call := by
  intro hroom
  have hstart : quota.found s.1 call = (0, call.now) := by
    unfold found window
    rw [hzero]
    exact if_pos (Nat.zero_le _)
  have hnone : quota.forgotten s call = 0 := by
    rw [forgotten, List.countP_eq_zero, hstart, hzero]
    intro old _
    rw [decide_eq_true_eq]
    rintro ⟨_, hlt, hlt'⟩
    exact Nat.lt_asymm hlt hlt'
  rw [hnone, Nat.add_zero]
  exact hroom

theorem rolling_of_zero (hzero : quota.windowDuration = 0) (accepted : List Call)
    : Rolling quota accepted := by
  intro userId a b hle
  have hnone : accepted.countP (isOf userId a b) = 0 := by
    rw [List.countP_eq_zero]
    intro call _ hof
    obtain ⟨_, ha, hb⟩ := of_decide_eq_true hof
    omega
  rw [hnone]
  exact Nat.zero_le _

theorem mem_recording {old : Call} (hold : old ∈ (recording quota.serve (state, record) call).1.2)
    : old ∈ record ∨ old = call := by
  by_cases hroom : (quota.found state call).1 < quota.maxImports
  . rw [recording_of_ok (serve_of_room hroom)] at hold
    rcases List.mem_append.mp hold with hold | hold
    . exact .inl hold
    . exact .inr (List.mem_singleton.mp hold)
  . obtain ⟨e, hserve⟩ := serve_of_full (Nat.not_lt.mp hroom)
    rw [recording_of_error hserve] at hold
    exact .inl hold

theorem rolling_recording_iff (htracks : Tracks quota state record call.now)
    (hpos : 0 < quota.windowDuration) (hrecord : ∀ old ∈ record, old.now ≤ call.now)
    : Rolling quota (recording quota.serve (state, record) call).1.2
        ↔ Rolling quota record ∧ Fits quota (state, record) call := by
  by_cases hroom : (quota.found state call).1 < quota.maxImports
  . rw [recording_of_ok (serve_of_room hroom), rolling_concat_iff hrecord hpos,
      htracks.countP_young hpos (Nat.le_refl _)]
    exact and_congr_right fun _ => ⟨fun h _ => h, fun h => h hroom⟩
  . obtain ⟨e, hserve⟩ := serve_of_full (Nat.not_lt.mp hroom)
    rw [recording_of_error hserve]
    exact ⟨fun h => ⟨h, fun h' => absurd h' hroom⟩, fun h => h.1⟩

-- the state and the record after calls at times that do not decrease
theorem tracks_run (hpos : 0 < quota.windowDuration) {calls : List Call}
    (hsorted : (calls.map Call.now).Pairwise (· ≤ ·)) (hnow : ∀ call ∈ calls, call.now ≤ now)
    : Tracks quota (finalState (recording quota.serve) (.empty, []) calls).1 (quota.accepted calls) now
        ∧ ∀ old ∈ quota.accepted calls, old ∈ calls := by
  induction calls using List.reverseRecOn generalizing now with
  | nil => exact ⟨(tracks_empty quota).mono (Nat.zero_le now), List.forall_mem_nil _⟩
  | append_singleton calls call ih =>
    rw [List.map_append, List.pairwise_append] at hsorted
    have hbefore : ∀ old ∈ calls, old.now ≤ call.now := fun old hold =>
      hsorted.2.2 old.now (List.mem_map_of_mem hold) call.now (List.mem_singleton.mpr rfl)
    obtain ⟨htracks, hmem⟩ := ih hsorted.1 hbefore
    have hlast := hnow call (List.mem_append_right _ (List.mem_singleton.mpr rfl))
    rw [accepted, admitted] at htracks hmem ⊢
    rw [finalState_concat]
    refine ⟨(htracks.recording hpos (Nat.le_refl _)).mono hlast, ?_⟩
    intro old hold
    rcases mem_recording hold with hold | rfl
    . exact List.mem_append_left _ (hmem old hold)
    . exact List.mem_append_right _ (List.mem_singleton.mpr rfl)

def hour : Nat := fromSecs (60 * 60)

def walkerCalls : List Call := [⟨⟨1⟩, 0⟩, ⟨⟨1⟩, 23 * hour⟩, ⟨⟨1⟩, 24 * hour⟩, ⟨⟨1⟩, 24 * hour + 1⟩]

end UploadQuota

end RateLimiting
