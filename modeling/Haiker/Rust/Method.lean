import Mathlib.Data.List.Basic

/-!
This module contains the part of Rust's semantics that fallible methods with a `&mut self` receiver
rely on: an error leaves whatever the method has written so far in place, and slice accesses and
checked arithmetic may panic. There are rules for showing that a method does not panic, one for each way to put
methods together and one for each operation that may panic.
-/

namespace Rust

/--
What a method can end in apart from a result: an error it returns, or a panic.
-/
inductive Fault (ε : Type) where
  | panic
  | err (error : ε)
  deriving DecidableEq

/--
A method `fn f(&mut self) -> Result<α, ε>` on a `self` of type `σ`. The state after an error is the
state the method had reached, nothing is rolled back.
-/
abbrev Method (ε σ α : Type) := EStateM (Fault ε) σ α

/--
The number of values of `usize` and `u64`.
-/
def usizeSize : Nat := UInt64.size

variable {ε σ α : Type}

/--
`return Err(error)`.
-/
def fail (error : ε) : Method ε σ α := throw (.err error)

def panic : Method ε σ α := throw .panic

/--
`a + b` on `usize`, as a build with overflow checks runs it.
-/
def addUsize (a b : Nat) : Method ε σ Nat :=
  if a + b < usizeSize then pure (a + b) else panic

/--
`a - b` on `usize`, as a build with overflow checks runs it.
-/
def subUsize (a b : Nat) : Method ε σ Nat :=
  if b ≤ a then pure (a - b) else panic

/--
`v[i]`.
-/
def index (v : List α) (i : Nat) : Method ε σ α :=
  match v[i]? with
  | some a => pure a
  | none => panic

/--
`v.insert(i, a)`.
-/
def insert (v : List α) (i : Nat) (a : α) : Method ε σ (List α) :=
  if i ≤ v.length then pure (v.take i ++ a :: v.drop i) else panic

/--
`v.remove(i)`, giving the removed element and what is left.
-/
def remove (v : List α) (i : Nat) : Method ε σ (α × List α) :=
  match v[i]? with
  | some a => pure (a, v.eraseIdx i)
  | none => panic

/--
`v[..=i].to_vec()`.
-/
def sliceTo (v : List α) (i : Nat) : Method ε σ (List α) :=
  if i < v.length then pure (v.take (i + 1)) else panic

/--
`v[i..].to_vec()`.
-/
def sliceFrom (v : List α) (i : Nat) : Method ε σ (List α) :=
  if i ≤ v.length then pure (v.drop i) else panic

/--
`v.splice(first..=last, replacement)`, which is `v.drain(first..=last)` when there is no replacement.
-/
def splice (v : List α) (first last : Nat) (replacement : List α) : Method ε σ (List α) :=
  if first ≤ last + 1 ∧ last < v.length then
    pure (v.take first ++ replacement ++ v.drop (last + 1))
  else
    panic

/--
`method.map_err(f)`
-/
def mapErr {ε' : Type} (f : ε → ε') (m : Method ε σ α) : Method ε' σ α := fun s =>
  match m.run s with
  | .ok a s' => .ok a s'
  | .error (.err e) s' => .error (.err (f e)) s'
  | .error .panic s' => .error .panic s'

/--
`?` on a result that does not depend on `self`.
-/
def ofResult : Except (Fault ε) α → Method ε σ α
  | .ok a => pure a
  | .error e => throw e

/--
A database transaction: what an aborted one has written is rolled back.
-/
def transaction (m : Method ε σ α) : Method ε σ α := fun s =>
  match m.run s with
  | .ok a s' => .ok a s'
  | .error e _ => .error e s

/--
The result a caller of the method sees.
-/
def outcome (m : Method ε σ α) (s : σ) : Except (Fault ε) α :=
  match m.run s with
  | .ok a _ => .ok a
  | .error e _ => .error e

/--
What the method leaves in `self`, whether it succeeds or fails.
-/
def after (m : Method ε σ α) (s : σ) : σ :=
  match m.run s with
  | .ok _ s => s
  | .error _ s => s

theorem outcome_of_run_ok {m : Method ε σ α} {s s' : σ} {a : α} (h : m.run s = .ok a s')
    : outcome m s = .ok a := by
  simp [outcome, h]

theorem outcome_of_run_error {m : Method ε σ α} {s s' : σ} {e : Fault ε} (h : m.run s = .error e s')
    : outcome m s = .error e := by
  simp [outcome, h]

theorem after_of_run_ok {m : Method ε σ α} {s s' : σ} {a : α} (h : m.run s = .ok a s')
    : after m s = s' := by
  simp [after, h]

theorem after_of_run_error {m : Method ε σ α} {s s' : σ} {e : Fault ε} (h : m.run s = .error e s')
    : after m s = s' := by
  simp [after, h]

theorem outcome_eq_ok_iff {m : Method ε σ α} {s : σ} {a : α}
    : outcome m s = .ok a ↔ m.run s = .ok a (after m s) := by
  unfold outcome after
  cases m.run s with
  | ok | error => simp

theorem after_bind_pure {β : Type} (m : Method ε σ α) (f : α → β) (s : σ)
    : after (do return f (← m)) s = after m s := by
  unfold after
  rw [EStateM.run_bind]
  cases m.run s with
  | ok | error => rfl

@[simp]
theorem run_fail (error : ε) (s : σ) :
    (fail error : Method ε σ α).run s = .error (.err error) s := rfl

@[simp]
theorem run_panic (s : σ) : (panic : Method ε σ α).run s = .error .panic s := rfl

theorem run_mapErr {ε' : Type} (f : ε → ε') (m : Method ε σ α) (s : σ)
    : (mapErr f m).run s
        =
      match m.run s with
      | .ok a s' => .ok a s'
      | .error (.err e) s' => .error (.err (f e)) s'
      | .error .panic s' => .error .panic s' := by
  rfl

theorem run_transaction (m : Method ε σ α) (s : σ)
    : (transaction m).run s
        =
      match m.run s with
      | .ok a s' => .ok a s'
      | .error e _ => .error e s := by
  rfl

@[simp]
theorem run_ofResult_ok (a : α) (s : σ) : (ofResult (.ok a) : Method ε σ α).run s = .ok a s := rfl

@[simp]
theorem run_ofResult_error (e : Fault ε) (s : σ)
    : (ofResult (.error e) : Method ε σ α).run s = .error e s := rfl

theorem run_addUsize {a b : Nat} (h : a + b < usizeSize) (s : σ) :
    (addUsize a b : Method ε σ Nat).run s = .ok (a + b) s := by
  simp [addUsize, h]

theorem run_addUsize_overflow {a b : Nat} (h : usizeSize ≤ a + b) (s : σ) :
    (addUsize a b : Method ε σ Nat).run s = .error .panic s := by
  have : ¬ a + b < usizeSize := by omega
  simp [addUsize, this]

theorem run_subUsize {a b : Nat} (h : b ≤ a) (s : σ) :
    (subUsize a b : Method ε σ Nat).run s = .ok (a - b) s := by
  simp [subUsize, h]

theorem run_index {v : List α} {i : Nat} {a : α} (h : v[i]? = some a) (s : σ) :
    (index v i : Method ε σ α).run s = .ok a s := by
  simp [index, h]

theorem run_insert {v : List α} {i : Nat} (h : i ≤ v.length) (a : α) (s : σ) :
    (insert v i a : Method ε σ (List α)).run s = .ok (v.take i ++ a :: v.drop i) s := by
  simp [insert, h]

theorem run_remove {v : List α} {i : Nat} {a : α} (h : v[i]? = some a) (s : σ) :
    (remove v i : Method ε σ (α × List α)).run s = .ok (a, v.eraseIdx i) s := by
  simp [remove, h]

theorem run_sliceTo {v : List α} {i : Nat} (h : i < v.length) (s : σ) :
    (sliceTo v i : Method ε σ (List α)).run s = .ok (v.take (i + 1)) s := by
  simp [sliceTo, h]

theorem run_sliceFrom {v : List α} {i : Nat} (h : i ≤ v.length) (s : σ) :
    (sliceFrom v i : Method ε σ (List α)).run s = .ok (v.drop i) s := by
  simp [sliceFrom, h]

theorem run_splice {v : List α} {first last : Nat} (hle : first ≤ last + 1) (hlt : last < v.length)
    (replacement : List α) (s : σ) :
    (splice v first last replacement : Method ε σ (List α)).run s
      = .ok (v.take first ++ replacement ++ v.drop (last + 1)) s := by
  simp [splice, hle, hlt]

/-
Methods that do not panic.
-/

variable {β : Type}

/--
From `s` the method does not panic, and `post` holds of what it ends with when it does not fail either.
-/
def PanicFree (m : Method ε σ α) (s : σ) (post : α → σ → Prop) : Prop :=
  match m.run s with
  | .ok a s' => post a s'
  | .error (.err _) _ => True
  | .error .panic _ => False

variable {s : σ} {post : α → σ → Prop}

theorem PanicFree.outcome_ne {m : Method ε σ α} (h : PanicFree m s post) : outcome m s ≠ .error .panic := by
  intro hpanic
  unfold PanicFree at h
  unfold outcome at hpanic
  cases hrun : m.run s with
  | ok a s' =>
    rw [hrun] at hpanic
    cases hpanic
  | error e s' =>
    rw [hrun] at h hpanic
    obtain rfl := Except.error.inj hpanic
    exact h

theorem panicFree_pure {a : α} (h : post a s) : PanicFree (pure a : Method ε σ α) s post := h

theorem panicFree_fail (error : ε) : PanicFree (fail error : Method ε σ α) s post := trivial

theorem PanicFree.bind {m : Method ε σ α} {f : α → Method ε σ β} {post : β → σ → Prop}
    (h : PanicFree m s fun a s' => PanicFree (f a) s' post) : PanicFree (m >>= f) s post := by
  unfold PanicFree at h ⊢
  rw [EStateM.run_bind]
  cases hrun : m.run s with
  | ok a s' =>
    rw [hrun] at h
    exact h
  | error e s' =>
    rw [hrun] at h
    cases e with
    | panic => exact h
    | err e => trivial

theorem panicFree_get {post : σ → σ → Prop} (h : post s s) : PanicFree (get : Method ε σ σ) s post := h

theorem panicFree_set {s' : σ} {post : PUnit → σ → Prop} (h : post ⟨⟩ s')
    : PanicFree (set s' : Method ε σ PUnit) s post := h

theorem panicFree_modify {f : σ → σ} {post : PUnit → σ → Prop} (h : post ⟨⟩ (f s))
    : PanicFree (modify f : Method ε σ PUnit) s post := h

theorem panicFree_ite {c : Prop} [Decidable c] {m m' : Method ε σ α} (h : c → PanicFree m s post)
    (h' : ¬c → PanicFree m' s post) : PanicFree (if c then m else m') s post := by
  split
  . next hc => exact h hc
  . next hc => exact h' hc

/-
The operations that panic outside of what they are made for.
-/

theorem panicFree_addUsize {a b : Nat} {post : Nat → σ → Prop} (hfits : a + b < usizeSize)
    (h : post (a + b) s) : PanicFree (addUsize a b : Method ε σ Nat) s post := by
  unfold PanicFree
  rw [run_addUsize hfits]
  exact h

theorem panicFree_subUsize {a b : Nat} {post : Nat → σ → Prop} (hle : b ≤ a) (h : post (a - b) s)
    : PanicFree (subUsize a b : Method ε σ Nat) s post := by
  unfold PanicFree
  rw [run_subUsize hle]
  exact h

theorem panicFree_index {v : List α} {i : Nat} (hlt : i < v.length) (h : ∀ a, v[i]? = some a → post a s)
    : PanicFree (index v i : Method ε σ α) s post := by
  have hi : v[i]? = some v[i] := List.getElem?_eq_getElem hlt
  unfold PanicFree
  rw [run_index hi]
  exact h _ hi

theorem panicFree_insert {v : List α} {i : Nat} {a : α} {post : List α → σ → Prop} (hle : i ≤ v.length)
    (h : post (v.take i ++ a :: v.drop i) s) : PanicFree (insert v i a : Method ε σ (List α)) s post := by
  unfold PanicFree
  rw [run_insert hle]
  exact h

theorem panicFree_remove {v : List α} {i : Nat} {post : α × List α → σ → Prop} (hlt : i < v.length)
    (h : ∀ a, post (a, v.eraseIdx i) s) : PanicFree (remove v i : Method ε σ (α × List α)) s post := by
  have hi : v[i]? = some v[i] := List.getElem?_eq_getElem hlt
  unfold PanicFree
  rw [run_remove hi]
  exact h _

theorem panicFree_sliceTo {v : List α} {i : Nat} {post : List α → σ → Prop} (hlt : i < v.length)
    (h : post (v.take (i + 1)) s) : PanicFree (sliceTo v i : Method ε σ (List α)) s post := by
  unfold PanicFree
  rw [run_sliceTo hlt]
  exact h

theorem panicFree_sliceFrom {v : List α} {i : Nat} {post : List α → σ → Prop} (hle : i ≤ v.length)
    (h : post (v.drop i) s) : PanicFree (sliceFrom v i : Method ε σ (List α)) s post := by
  unfold PanicFree
  rw [run_sliceFrom hle]
  exact h

theorem panicFree_splice {v : List α} {first last : Nat} {replacement : List α}
    {post : List α → σ → Prop} (hle : first ≤ last + 1) (hlt : last < v.length)
    (h : post (v.take first ++ replacement ++ v.drop (last + 1)) s)
    : PanicFree (splice v first last replacement : Method ε σ (List α)) s post := by
  unfold PanicFree
  rw [run_splice hle hlt]
  exact h

end Rust
