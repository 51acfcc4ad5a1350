import Haiker.Rust.F64

/-!
This module contains JSON values and the readers and writers that derived `Serialize` and
`Deserialize` implementations are made of, together with their round trips.
-/

open Rust

inductive Json where
  | null
  | bool (value : Bool)
  | int (value : Int)
  | float (value : ℚ)
  | str (value : String)
  | arr (items : List Json)
  | obj (fields : List (String × Json))

namespace Json

variable {α : Type}

/--
The values of a struct's fields, `none` for a field that is missing. A struct is read from an object
by name and from an array by position.
-/
def structFields (names : List String) : Json → Option (List (Option Json))
  | .obj fields => some (names.map fun name => fields.lookup name)
  | .arr items => if items.length = names.length then some (items.map some) else none
  | _ => none

/--
The variant name and the content of an externally tagged enum.
-/
def variant? : Json → Option (String × Json)
  | .obj [field] => some field
  | _ => none

/--
The values of the fields of a struct variant, which is read from an object only.
-/
def variantFields (names : List String) : Json → Option (List (Option Json))
  | .obj fields => some (names.map fun name => fields.lookup name)
  | _ => none

/--
`value.get(name)`
-/
def get? (name : String) : Json → Option Json
  | .obj fields => fields.lookup name
  | _ => none

def asStr? : Json → Option String
  | .str value => some value
  | _ => none

def asArr? : Json → Option (List Json)
  | .arr items => some items
  | _ => none

/--
Numbers that are not finite are written as `null`.
-/
def ofF64 : F64 → Json
  | .fin q => .float q
  | _ => .null

def toF64? : Json → Option F64
  | .int n => some (.fin n)
  | .float q => some (.fin q)
  | _ => none

def ofNat (n : Nat) : Json := .int n

def toNat? : Json → Option Nat
  | .int (.ofNat n) => some n
  | _ => none

def toU32? (j : Json) : Option Nat :=
  match j.toNat? with
  | some n => if n < UInt32.size then some n else none
  | none => none

def ofOption (write : α → Json) : Option α → Json
  | some a => write a
  | none => .null

def toOption? (read : Json → Option α) : Json → Option (Option α)
  | .null => some none
  | j => (read j).map some

def ofList (write : α → Json) (as : List α) : Json := .arr (as.map write)

def toList? (read : Json → Option α) : Json → Option (List α)
  | .arr items => items.mapM read
  | _ => none

@[simp]
theorem toF64?_ofF64 (q : ℚ) : toF64? (ofF64 (.fin q)) = some (.fin q) := rfl

@[simp]
theorem toNat?_ofNat (n : Nat) : toNat? (ofNat n) = some n := rfl

@[simp]
theorem ofNat_inj {m n : Nat} : ofNat m = ofNat n ↔ m = n := by
  simp [ofNat]

theorem toF64?_ofF64_of_isFinite {x : F64} (h : x.isFinite = true) :
    toF64? (ofF64 x) = some x := by
  cases x with
  | fin q => rfl
  | nan | negInf | posInf => simp [F64.isFinite] at h

theorem toOption?_ofOption {read : Json → Option α} {write : α → Json} {o : Option α}
    (hnull : ∀ a, o = some a → write a ≠ .null)
    (hread : ∀ a, o = some a → read (write a) = some a) :
    toOption? read (ofOption write o) = some o := by
  cases o with
  | none => rfl
  | some a =>
    have hnull := hnull a rfl
    have hread := hread a rfl
    simp only [ofOption]
    cases hw : write a with
    | null => exact absurd hw hnull
    | bool | int | float | str | arr | obj => simp [toOption?, ← hw, hread]

theorem toList?_ofList_map {β : Type} {read : Json → Option β} {write : α → Json} {as : List α}
    (f : α → β) (h : ∀ a ∈ as, read (write a) = some (f a))
    : toList? read (ofList write as) = some (as.map f) := by
  simp only [ofList, toList?]
  induction as with
  | nil => rfl
  | cons a as ih =>
    have ha := h a (by simp)
    have has := ih (fun b hb => h b (by simp [hb]))
    simp [ha, has]

theorem toList?_ofList {read : Json → Option α} {write : α → Json} {as : List α}
    (h : ∀ a ∈ as, read (write a) = some a) : toList? read (ofList write as) = some as := by
  rw [toList?_ofList_map id h, List.map_id]

theorem isFinite_of_toF64? {j : Json} {x : F64} (h : j.toF64? = some x) : x.isFinite = true := by
  unfold toF64? at h
  split at h
  . cases h
    rfl
  . cases h
    rfl
  . cases h

theorem eq_arr_of_toList? {read : Json → Option α} {j : Json} {as : List α}
    (h : j.toList? read = some as) : ∃ items, j = .arr items ∧ items.mapM read = some as := by
  cases j with
  | arr items => exact ⟨items, rfl, h⟩
  | null | bool | int | float | str | obj => cases h

theorem exists_of_mem_of_mapM {read : Json → Option α} {items : List Json} {as : List α}
    (h : items.mapM read = some as) {item : Json} (hmem : item ∈ items)
    : ∃ a ∈ as, read item = some a := by
  induction items generalizing as with
  | nil => cases hmem
  | cons first items ih =>
    simp only [List.mapM_cons, Option.pure_def, Option.bind_eq_bind, Option.bind_eq_some_iff,
      Option.some.injEq] at h
    obtain ⟨a, hfirst, rest, hrest, rfl⟩ := h
    cases List.mem_cons.mp hmem with
    | inl heq => exact ⟨a, List.mem_cons_self, by rw [heq, hfirst]⟩
    | inr hmem =>
      obtain ⟨b, hb, hread⟩ := ih hrest hmem
      exact ⟨b, List.mem_cons_of_mem a hb, hread⟩

theorem toList?_eq_none_of_mem {read : Json → Option α} {items : List Json} {item : Json}
    (hmem : item ∈ items) (h : read item = none) : toList? read (.arr items) = none := by
  cases hread : toList? read (.arr items) with
  | none => rfl
  | some as =>
    obtain ⟨a, _, ha⟩ := exists_of_mem_of_mapM hread hmem
    rw [h] at ha
    cases ha

theorem mem_of_mapM_eq_some {read : Json → Option α} {items : List Json} {as : List α}
    (h : items.mapM read = some as) : ∀ a ∈ as, ∃ item, read item = some a := by
  induction items generalizing as with
  | nil =>
    cases h
    simp
  | cons item items ih =>
    simp only [List.mapM_cons, Option.pure_def, Option.bind_eq_bind, Option.bind_eq_some_iff,
      Option.some.injEq] at h
    obtain ⟨first, hfirst, rest, hrest, rfl⟩ := h
    intro a ha
    cases List.mem_cons.mp ha with
    | inl heq => exact ⟨item, by rw [heq, hfirst]⟩
    | inr hmem => exact ih hrest a hmem

theorem mem_of_toList? {read : Json → Option α} {j : Json} {as : List α}
    (h : j.toList? read = some as) : ∀ a ∈ as, ∃ item, read item = some a := by
  unfold toList? at h
  split at h
  . exact mem_of_mapM_eq_some h
  . cases h

end Json
