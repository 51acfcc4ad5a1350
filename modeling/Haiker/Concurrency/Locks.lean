import Mathlib.Logic.Function.Basic

/-!
This module contains transactions that lock what their statements touch, one statement after the other,
and give all locks back at their end. What a statement has found out about the things it has locked stays
true until then, as long as nobody changes what others have locked. It also contains the argument behind locking
optimistically: where every change of a value raises a version, what was read while the version was `v` is still
there as long as the version is `v`.
-/

/--
Who has locked what.
-/
abbrev Locks (κ ι : Type) := κ → Option ι

namespace Locks

variable {κ ι : Type} [DecidableEq κ] [DecidableEq ι] {locks : Locks κ ι} {me other : ι}
  {keys : List κ} {k : κ}

def free : Locks κ ι := fun _ => none

-- nobody else has locked one of the keys
def available (locks : Locks κ ι) (me : ι) (keys : List κ) : Bool :=
  keys.all fun k => locks k = none ∨ locks k = some me

def acquire (locks : Locks κ ι) (me : ι) (keys : List κ) : Locks κ ι :=
  fun k => if k ∈ keys then some me else locks k

def release (locks : Locks κ ι) (me : ι) : Locks κ ι :=
  fun k => if locks k = some me then none else locks k

def Held (locks : Locks κ ι) (me : ι) (keys : List κ) : Prop := ∀ k ∈ keys, locks k = some me

omit [DecidableEq ι] in
theorem held_acquire (locks : Locks κ ι) (me : ι) (keys : List κ) : (locks.acquire me keys).Held me keys :=
  fun k hk => by simp [acquire, hk]

theorem acquire_of_other (h : locks.available me keys = true) (hother : other ≠ me)
    (hk : locks k = some other) : locks.acquire me keys k = some other := by
  unfold acquire
  split
  . next hmem =>
    simp only [available, List.all_eq_true, decide_eq_true_eq] at h
    have hfree := h k hmem
    rw [hk, Option.some.injEq] at hfree
    obtain hnone | hsame := hfree
    . cases hnone
    . exact absurd hsame hother
  . exact hk

omit [DecidableEq ι] in
theorem acquire_of_own (hk : locks k = some me) : locks.acquire me keys k = some me := by
  unfold acquire
  split
  . rfl
  . exact hk

omit [DecidableEq κ] in
theorem release_of_other (hother : other ≠ me) (hk : locks k = some other)
    : locks.release me k = some other := by
  unfold release
  rw [if_neg, hk]
  rw [hk, Option.some.injEq]
  exact hother

omit [DecidableEq κ] [DecidableEq ι] in
theorem Held.append {keys' : List κ} (h : locks.Held me keys) (h' : locks.Held me keys')
    : locks.Held me (keys ++ keys') := by
  intro k hk
  obtain hk | hk := List.mem_append.mp hk
  . exact h k hk
  . exact h' k hk

end Locks

/--
A statement that changes something: the keys that it locks, and the constraint that refuses it.
-/
structure Statement (σ κ ε : Type) where
  keys : σ → List κ
  refused : σ → Option ε

namespace Statement

variable {σ κ ι ε : Type} [DecidableEq κ] [DecidableEq ι]

/--
The locks after the statement, or the error of the constraint. The statement waits as long as the result
is `none`.
-/
def run (statement : Statement σ κ ε) (me : ι) (s : σ) (locks : Locks κ ι)
    : Option (Except ε (Locks κ ι)) :=
  if locks.available me (statement.keys s) then
    match statement.refused s with
    | some e => some (.error e)
    | none => some (.ok (locks.acquire me (statement.keys s)))
  else
    none

section Done

/-
`Same s s' k` says that what is locked by the key is the same in both states.
-/
variable (Same : σ → σ → κ → Prop)

/--
A statement looks at nothing but what it locks.
-/
def Local (statement : Statement σ κ ε) : Prop :=
  ∀ s s', (∀ k ∈ statement.keys s, Same s s' k) →
    statement.keys s' = statement.keys s ∧ statement.refused s' = statement.refused s

/--
What a client has locked is as it was, and is still locked.
-/
def Leaves (me : ι) (s : σ) (locks : Locks κ ι) (s' : σ) (locks' : Locks κ ι) : Prop :=
  ∀ k, locks k = some me → Same s s' k ∧ locks' k = some me

/--
The statement has been run and would not be refused now.
-/
structure Done (statement : Statement σ κ ε) (me : ι) (s : σ) (locks : Locks κ ι) : Prop where
  held : locks.Held me (statement.keys s)
  accepted : statement.refused s = none

variable {Same} {statement : Statement σ κ ε} {me : ι} {s s' : σ} {locks locks' : Locks κ ι}

omit [DecidableEq κ] [DecidableEq ι] in
theorem Done.leaves (h : statement.Done me s locks) (hlocal : statement.Local Same)
    (hleaves : Leaves Same me s locks s' locks') : statement.Done me s' locks' := by
  obtain ⟨hkeys, hrefused⟩ := hlocal s s' fun k hk => (hleaves k (h.held k hk)).1
  refine ⟨?_, hrefused.trans h.accepted⟩
  intro k hk
  rw [hkeys] at hk
  exact (hleaves k (h.held k hk)).2

theorem run_cases (statement : Statement σ κ ε) (me : ι) (s : σ) (locks : Locks κ ι)
    : statement.run me s locks = none
        ∨ (∃ e, statement.run me s locks = some (.error e))
        ∨ locks.available me (statement.keys s) = true
          ∧ statement.run me s locks = some (.ok (locks.acquire me (statement.keys s)))
          ∧ statement.Done me s (locks.acquire me (statement.keys s)) := by
  unfold run
  split
  . next havailable =>
    cases hrefused : statement.refused s with
    | some e => exact .inr (.inl ⟨e, rfl⟩)
    | none =>
      exact .inr (.inr ⟨havailable, rfl, locks.held_acquire me _, hrefused⟩)
  . exact .inl rfl

omit [DecidableEq ι] in
-- a statement that is done stays done when its client locks more
theorem Done.acquire (h : statement.Done me s locks) (keys : List κ)
    : statement.Done me s (locks.acquire me keys) :=
  ⟨fun k hk => Locks.acquire_of_own (h.held k hk), h.accepted⟩

end Done

end Statement

namespace Versioned

variable {σ ν : Type} (version : σ → Nat) (value : σ → ν)

/--
A step either leaves version and value alone or raises the version.
-/
def Advances (s s' : σ) : Prop :=
  (version s' = version s ∧ value s' = value s) ∨ version s < version s'

/--
`x` is what a reader got no earlier than version `v`: should the version still be `v`, then the value
still is `x`.
-/
structure ReadAt (s : σ) (v : Nat) (x : ν) : Prop where
  le : v ≤ version s
  eq : version s = v → value s = x

variable {version value}

theorem Advances.refl (s : σ) : Advances version value s s := Or.inl ⟨rfl, rfl⟩

theorem Advances.imp {μ : Type} {other : σ → μ} {s s' : σ} (h : Advances version value s s')
    (hvalue : value s' = value s → other s' = other s) : Advances version other s s' := by
  cases h with
  | inl hsame => exact Or.inl ⟨hsame.1, hvalue hsame.2⟩
  | inr hlt => exact Or.inr hlt

theorem ReadAt.of_le {s : σ} {v : Nat} (h : v ≤ version s) : ReadAt version value s v (value s) where
  le := h
  eq := fun _ => rfl

theorem ReadAt.advances {s s' : σ} {v : Nat} {x : ν} (h : ReadAt version value s v x)
    (hstep : Advances version value s s') : ReadAt version value s' v x := by
  cases hstep with
  | inl hsame =>
    constructor
    . rw [hsame.1]
      exact h.le
    . rw [hsame.1, hsame.2]
      exact h.eq
  | inr hlt =>
    constructor
    . exact Nat.le_of_lt (Nat.lt_of_le_of_lt h.le hlt)
    . intro heq
      have := h.le
      omega

end Versioned
