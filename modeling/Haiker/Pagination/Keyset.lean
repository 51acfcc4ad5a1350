import Mathlib.Data.List.Perm.Subperm
import Mathlib.Data.List.Sort
import Mathlib.Data.Option.Basic
import Mathlib.Order.Basic

/-!
This module contains keyset pagination: pages that go on below the key of the last item of the page before, over
a collection that changes from one request to the next.
-/

namespace Pagination

structure Page (α : Type) where
  items : List α
  nextCursor : Option String
  hasMore : Bool

section Client

variable {α ε : Type} (fetch : Nat → Option String → Except ε (Page α))

/--
The requests that a client comes to who begins without a cursor.
-/
inductive Reaches : Nat → Option String → Prop where
  | first : Reaches 0 none
  | next {k : Nat} {cursor : Option String} {page : Page α} (h : Reaches k cursor)
    (hfetch : fetch k cursor = .ok page) (hmore : page.hasMore = true) : Reaches (k + 1) page.nextCursor

/--
The pages from a request up to the one after which there is no more.
-/
inductive Follows : Nat → Option String → List (Page α) → Prop where
  | last {k : Nat} {cursor : Option String} {page : Page α} (hfetch : fetch k cursor = .ok page)
    (hlast : page.hasMore = false) : Follows k cursor [page]
  | more {k : Nat} {cursor : Option String} {page : Page α} {pages : List (Page α)}
    (hfetch : fetch k cursor = .ok page) (hmore : page.hasMore = true)
    (rest : Follows (k + 1) page.nextCursor pages) : Follows k cursor (page :: pages)

variable {fetch}

theorem Follows.reaches {k : Nat} {cursor : Option String} {pages : List (Page α)} (h : Follows fetch k cursor pages)
    (hreaches : Reaches fetch k cursor) {i : Nat} {page : Page α} (hpage : pages[i]? = some page)
    : ∃ cursor', Reaches fetch (k + i) cursor' ∧ fetch (k + i) cursor' = .ok page := by
  induction h generalizing i with
  | @last k cursor _ hfetch _ =>
    cases i with
    | zero =>
      cases hpage
      exact ⟨cursor, hreaches, hfetch⟩
    | succ i => cases hpage
  | @more k cursor _ _ hfetch hmore _ ih =>
    cases i with
    | zero =>
      cases hpage
      exact ⟨cursor, hreaches, hfetch⟩
    | succ i =>
      rw [Nat.add_comm i, ← Nat.add_assoc]
      exact ih (hreaches.next hfetch hmore) hpage

end Client

section Keys

variable {κ : Type} [LinearOrder κ]

def Below (cursor : Option κ) (x : κ) : Prop := ∀ c ∈ cursor, x < c

-- the keys that are still to come
def rest (cursor : Option κ) (keys : List κ) : List κ := keys.filter fun x => cursor.all (x < ·)

theorem all_iff_below {cursor : Option κ} {x : κ} : cursor.all (x < ·) = true ↔ Below cursor x := by
  unfold Below
  rw [Option.all_eq_true]
  simp

theorem mem_rest {cursor : Option κ} {keys : List κ} {x : κ} : x ∈ rest cursor keys ↔ x ∈ keys ∧ Below cursor x := by
  rw [← all_iff_below]
  exact List.mem_filter

theorem sorted_rest {keys : List κ} (h : keys.Pairwise (· > ·)) (cursor : Option κ)
    : (rest cursor keys).Pairwise (· > ·) := h.filter _

/--
What follows a part of the rest is what lies below the last key of that part.
-/
theorem rest_of_append {cursor : Option κ} {keys taken left : List κ} {c : κ} (h : keys.Pairwise (· > ·))
    (hrest : rest cursor keys = taken ++ left) (hlast : taken.getLast? = some c) : rest (some c) keys = left := by
  have hsorted := sorted_rest h cursor
  rw [hrest, List.pairwise_append] at hsorted
  have hmem : c ∈ taken := List.mem_of_getLast? hlast
  have hc : Below cursor c := by
    have := List.mem_append_left left hmem
    rw [← hrest] at this
    exact (mem_rest.mp this).2
  have hsplit : rest (some c) keys = rest (some c) (rest cursor keys) := by
    unfold rest
    rw [List.filter_filter]
    apply List.filter_congr
    intro x _
    have hbelow : x < c → cursor.all (x < ·) = true :=
      fun hlt => all_iff_below.mpr fun d hd => hlt.trans (hc d hd)
    by_cases hlt : x < c
    . simp [hlt, hbelow hlt]
    . simp [hlt]
  have htaken : rest (some c) taken = [] := by
    apply List.filter_eq_nil_iff.mpr
    intro x hx
    obtain ⟨init, rfl⟩ := List.getLast?_eq_some_iff.mp hlast
    rw [List.mem_append, List.mem_singleton] at hx
    have hle : c ≤ x := by
      cases hx with
      | inl hx => exact ((List.pairwise_append.mp hsorted.1).2.2 x hx c (List.mem_singleton_self c)).le
      | inr hx => exact hx.ge
    simpa using hle
  have hleft : rest (some c) left = left := by
    apply List.filter_eq_self.mpr
    intro x hx
    simpa using hsorted.2.2 c hmem x hx
  rw [hsplit, hrest]
  unfold rest at htaken hleft ⊢
  rw [List.filter_append, htaken, hleft, List.nil_append]

end Keys

section Keyset

variable {α κ ε : Type} [LinearOrder κ] {key : α → κ} {fetch : Nat → Option String → Except ε (Page α)}
    {keys : Nat → List κ} {size : Nat → Nat} {Codes : String → κ → Prop}

/--
The page has the first `size` keys that are still to come, and says where to go on if there are more.
-/
structure Serves (key : α → κ) (Codes : String → κ → Prop) (cursor : Option κ) (size : Nat) (keys : List κ)
    (page : Page α) : Prop where
  items : page.items.map key = (rest cursor keys).take size
  hasMore : page.hasMore = true ↔ size < (rest cursor keys).length
  nextCursor : page.hasMore = true → ∀ a ∈ page.items.getLast?, ∃ text, page.nextCursor = some text
    ∧ Codes text (key a)

/--
`fetch` pages through the keys that there are at each request. A text may stand for a key as a cursor.
-/
structure Keyset (key : α → κ) (Codes : String → κ → Prop) (keys : Nat → List κ) (size : Nat → Nat)
    (fetch : Nat → Option String → Except ε (Page α)) : Prop where
  sorted : ∀ k, (keys k).Pairwise (· > ·)
  positive : ∀ k, 0 < size k
  serves : ∀ k text cursor page, Option.Rel Codes text cursor → fetch k text = .ok page →
    Serves key Codes cursor (size k) (keys k) page

def items (pages : List (Page α)) : List α := pages.flatMap (·.items)

omit [LinearOrder κ] in
theorem mem_items {pages : List (Page α)} {a : α}
    : a ∈ items pages ↔ ∃ (i : Nat) (page : Page α), pages[i]? = some page ∧ a ∈ page.items := by
  unfold items
  rw [List.mem_flatMap]
  constructor
  . rintro ⟨page, hpage, ha⟩
    obtain ⟨i, hi⟩ := List.getElem?_of_mem hpage
    exact ⟨i, page, hi, ha⟩
  . rintro ⟨i, page, hi, ha⟩
    exact ⟨page, List.mem_of_getElem? hi, ha⟩

/--
From the `k`-th request on, the pages have every key below the cursor that is there all the time, and each of
their keys once and in order.
-/
structure Enumerates (key : α → κ) (keys : Nat → List κ) (k : Nat) (cursor : Option κ) (pages : List (Page α))
    : Prop where
  below : ∀ a ∈ items pages, Below cursor (key a)
  decreasing : (items pages).Pairwise fun a b => key a > key b
  stored : ∀ i page, pages[i]? = some page → ∀ a ∈ page.items, key a ∈ keys (k + i)
  complete : ∀ x, Below cursor x → (∀ i < pages.length, x ∈ keys (k + i)) → ∃ a ∈ items pages, key a = x
  hasMore : ∀ i page, pages[i]? = some page →
    (page.hasMore = true ↔ ∃ x ∈ keys (k + i), Below cursor x ∧ ∀ a ∈ items (pages.take (i + 1)), x < key a)

theorem Serves.mem_items {cursor : Option κ} {size : Nat} {keys : List κ} {page : Page α}
    (h : Serves key Codes cursor size keys page) {a : α} (ha : a ∈ page.items)
    : key a ∈ keys ∧ Below cursor (key a) := by
  have hmem := List.mem_map_of_mem (f := key) ha
  rw [h.items] at hmem
  exact mem_rest.mp (List.mem_of_mem_take hmem)

theorem Serves.decreasing {cursor : Option κ} {size : Nat} {keys : List κ} {page : Page α}
    (h : Serves key Codes cursor size keys page) (hsorted : keys.Pairwise (· > ·))
    : page.items.Pairwise fun a b => key a > key b := by
  rw [← List.pairwise_map (f := key) (R := (· > ·)), h.items]
  exact (sorted_rest hsorted cursor).take

theorem Serves.hasMore_iff {cursor : Option κ} {size : Nat} {keys : List κ} {page : Page α}
    (h : Serves key Codes cursor size keys page) (hsorted : keys.Pairwise (· > ·))
    : page.hasMore = true ↔ ∃ x ∈ keys, Below cursor x ∧ ∀ a ∈ page.items, x < key a := by
  have hsplit : (rest cursor keys).take size ++ (rest cursor keys).drop size = rest cursor keys :=
    List.take_append_drop ..
  have hpairs := sorted_rest hsorted cursor
  rw [← hsplit, List.pairwise_append] at hpairs
  rw [h.hasMore]
  constructor
  . intro hlt
    have hdrop : (rest cursor keys)[size] ∈ (rest cursor keys).drop size := by
      rw [List.drop_eq_getElem_cons hlt]
      exact List.mem_cons_self
    obtain ⟨hkey, hbelow⟩ := mem_rest.mp (List.mem_of_mem_drop hdrop)
    refine ⟨_, hkey, hbelow, fun a ha => ?_⟩
    have hmem := List.mem_map_of_mem (f := key) ha
    rw [h.items] at hmem
    exact hpairs.2.2 _ hmem _ hdrop
  . rintro ⟨x, hkey, hbelow, hleast⟩
    by_contra hle
    have hmem : x ∈ page.items.map key := by
      rw [h.items, List.take_of_length_le (Nat.le_of_not_lt hle)]
      exact mem_rest.mpr ⟨hkey, hbelow⟩
    obtain ⟨a, ha, hx⟩ := List.mem_map.mp hmem
    exact (hleast a ha).ne hx.symm

/--
Where the next page goes on.
-/
theorem Serves.exists_last {cursor : Option κ} {size : Nat} {keys : List κ} {page : Page α}
    (h : Serves key Codes cursor size keys page) (hpositive : 0 < size) (hmore : page.hasMore = true)
    : ∃ a text, page.items.getLast? = some a ∧ page.nextCursor = some text ∧ Codes text (key a) := by
  have hlt := h.hasMore.mp hmore
  have hne : page.items ≠ [] := by
    intro hnil
    have hlength := congrArg List.length h.items
    rw [hnil, List.map_nil, List.length_nil, List.length_take] at hlength
    omega
  obtain ⟨text, hnext, hcodes⟩ := h.nextCursor hmore _ (List.getLast?_eq_some_getLast hne)
  exact ⟨_, text, List.getLast?_eq_some_getLast hne, hnext, hcodes⟩

theorem key_last_le {as : List α} {last : α} (hsorted : as.Pairwise fun a b => key a > key b)
    (hlast : as.getLast? = some last) {a : α} (ha : a ∈ as) : key last ≤ key a := by
  obtain ⟨init, rfl⟩ := List.getLast?_eq_some_iff.mp hlast
  rw [List.mem_append, List.mem_singleton] at ha
  cases ha with
  | inl ha => exact ((List.pairwise_append.mp hsorted).2.2 a ha last (List.mem_singleton_self last)).le
  | inr ha => rw [ha]

/--
What is left for the next page, if nothing changes.
-/
theorem Serves.rest_last {cursor : Option κ} {size : Nat} {keys : List κ} {page : Page α} {last : α}
    (h : Serves key Codes cursor size keys page) (hsorted : keys.Pairwise (· > ·))
    (hlast : page.items.getLast? = some last) : rest (some (key last)) keys = (rest cursor keys).drop size := by
  have hsplit : rest cursor keys = (rest cursor keys).take size ++ (rest cursor keys).drop size :=
    (List.take_append_drop ..).symm
  apply rest_of_append hsorted hsplit
  rw [← h.items, List.getLast?_map, hlast]
  rfl

theorem enumerates_last {k : Nat} {cursor : Option κ} {page : Page α}
    (h : Serves key Codes cursor (size k) (keys k) page) (hsorted : (keys k).Pairwise (· > ·))
    (hlast : page.hasMore = false) : Enumerates key keys k cursor [page] := by
  have hitems : items [page] = page.items := List.append_nil _
  have honly : ∀ {i : Nat} {page' : Page α}, [page][i]? = some page' → i = 0 ∧ page' = page := by
    intro i page' hget
    cases i with
    | zero => exact ⟨rfl, (Option.some.inj hget).symm⟩
    | succ i => cases hget
  constructor
  case below =>
    rw [hitems]
    exact fun a ha => (h.mem_items ha).2
  case decreasing =>
    rw [hitems]
    exact h.decreasing hsorted
  case stored =>
    intro i page' hget a ha
    obtain ⟨rfl, rfl⟩ := honly hget
    exact (h.mem_items ha).1
  case complete =>
    intro x hbelow hthere
    rw [hitems, ← List.mem_map, h.items, List.take_of_length_le]
    . exact mem_rest.mpr ⟨hthere 0 Nat.zero_lt_one, hbelow⟩
    . apply Nat.le_of_not_lt
      rw [← h.hasMore, hlast]
      exact Bool.false_ne_true
  case hasMore =>
    intro i page' hget
    obtain ⟨rfl, rfl⟩ := honly hget
    rw [show [page'].take 1 = [page'] from rfl, hitems]
    exact h.hasMore_iff hsorted

theorem enumerates_more {k : Nat} {cursor : Option κ} {page : Page α} {pages : List (Page α)} {last : α}
    (h : Serves key Codes cursor (size k) (keys k) page) (hsorted : (keys k).Pairwise (· > ·))
    (hlast : page.items.getLast? = some last)
    (hrest : Enumerates key keys (k + 1) (some (key last)) pages) : Enumerates key keys k cursor (page :: pages) := by
  have hitems : ∀ pages : List (Page α), items (page :: pages) = page.items ++ items pages := fun _ => rfl
  have hmem : last ∈ page.items := List.mem_of_getLast? hlast
  have hdecreasing := h.decreasing hsorted
  have hbelow : ∀ {x : κ}, x < key last → Below cursor x :=
    fun hlt c hc => hlt.trans ((h.mem_items hmem).2 c hc)
  have hunder : ∀ {x : κ}, x < key last → ∀ a ∈ page.items, x < key a :=
    fun hlt a ha => hlt.trans_le (key_last_le hdecreasing hlast ha)
  constructor
  case below =>
    intro a ha
    rw [hitems, List.mem_append] at ha
    cases ha with
    | inl ha => exact (h.mem_items ha).2
    | inr ha => exact hbelow (hrest.below a ha _ rfl)
  case decreasing =>
    rw [hitems, List.pairwise_append]
    exact ⟨hdecreasing, hrest.decreasing, fun a ha b hb => hunder (hrest.below b hb _ rfl) a ha⟩
  case stored =>
    intro i page' hget a ha
    cases i with
    | zero =>
      rw [← Option.some.inj hget] at ha
      exact (h.mem_items ha).1
    | succ i =>
      rw [Nat.add_comm i, ← Nat.add_assoc]
      exact hrest.stored i page' hget a ha
  case complete =>
    intro x hx hthere
    simp only [hitems, List.mem_append]
    by_cases hlt : x < key last
    . have hlater : ∀ i < pages.length, x ∈ keys (k + 1 + i) := by
        intro i hi
        rw [Nat.add_assoc, Nat.add_comm 1]
        exact hthere (i + 1) (Nat.succ_lt_succ hi)
      obtain ⟨a, ha, rfl⟩ := hrest.complete x (fun c hc => by rwa [← Option.some.inj hc]) hlater
      exact ⟨a, .inr ha, rfl⟩
    . -- what is not below the last item of the page is on the page
      have hhere : x ∈ rest cursor (keys k) := mem_rest.mpr ⟨hthere 0 (Nat.succ_pos _), hx⟩
      rw [← List.take_append_drop (size k) (rest cursor (keys k)), List.mem_append, ← h.items,
        ← h.rest_last hsorted hlast] at hhere
      cases hhere with
      | inl hpage =>
        obtain ⟨a, ha, rfl⟩ := List.mem_map.mp hpage
        exact ⟨a, .inl ha, rfl⟩
      | inr hleft => exact absurd ((mem_rest.mp hleft).2 _ rfl) hlt
  case hasMore =>
    intro i page' hget
    cases i with
    | zero =>
      rw [← Option.some.inj hget, Nat.zero_add, List.take_succ_cons, List.take_zero, hitems]
      rw [show items ([] : List (Page α)) = [] from rfl, List.append_nil]
      exact h.hasMore_iff hsorted
    | succ i =>
      rw [List.getElem?_cons_succ] at hget
      rw [hrest.hasMore i page' hget, List.take_succ_cons, hitems, Nat.add_comm i, ← Nat.add_assoc]
      constructor
      . rintro ⟨x, hkey, hx, hleast⟩
        refine ⟨x, hkey, hbelow (hx _ rfl), fun a ha => ?_⟩
        rw [List.mem_append] at ha
        cases ha with
        | inl ha => exact hunder (hx _ rfl) a ha
        | inr ha => exact hleast a ha
      . rintro ⟨x, hkey, _, hleast⟩
        refine ⟨x, hkey, fun c hc => ?_, fun a ha => hleast a (List.mem_append_right _ ha)⟩
        rw [← Option.some.inj hc]
        exact hleast last (List.mem_append_left _ hmem)

/--
Whatever comes and goes between the requests, the pages are an enumeration.
-/
theorem Keyset.enumerates (hkeyset : Keyset key Codes keys size fetch) {k : Nat} {text : Option String}
    {pages : List (Page α)} (h : Follows fetch k text pages) {cursor : Option κ}
    (htext : Option.Rel Codes text cursor) : Enumerates key keys k cursor pages := by
  induction h generalizing cursor with
  | @last k _ page hfetch hlast =>
    exact enumerates_last (hkeyset.serves _ _ _ _ htext hfetch) (hkeyset.sorted k) hlast
  | @more k _ page _ hfetch hmore _ ih =>
    have hserves := hkeyset.serves _ _ _ _ htext hfetch
    obtain ⟨last, following, hlast, hnext, hcodes⟩ := hserves.exists_last (hkeyset.positive k) hmore
    rw [hnext] at ih
    exact enumerates_more hserves (hkeyset.sorted k) hlast (ih (.some hcodes))

-- every cursor that a client comes to stands for a key
theorem Keyset.rel_of_reaches (hkeyset : Keyset key Codes keys size fetch) {k : Nat} {text : Option String}
    (h : Reaches fetch k text) : ∃ cursor, Option.Rel Codes text cursor := by
  induction h with
  | first => exact ⟨none, .none⟩
  | @next k text page _ hfetch hmore ih =>
    obtain ⟨cursor, htext⟩ := ih
    obtain ⟨last, following, _, hnext, hcodes⟩ :=
      (hkeyset.serves k text cursor page htext hfetch).exists_last (hkeyset.positive k) hmore
    rw [hnext]
    exact ⟨some (key last), .some hcodes⟩

/--
From the `n`-th request on, what is new lies above all that has been there.
-/
def Settled (keys : Nat → List κ) (n : Nat) : Prop :=
  ∀ k, n ≤ k → ∀ x ∈ keys (k + 1), x ∈ keys k ∨ ∀ y ∈ keys k, y < x

theorem Keyset.length_rest_lt (hkeyset : Keyset key Codes keys size fetch) {n k : Nat} (hsettled : Settled keys n)
    (hk : n ≤ k) {cursor : Option κ} {page : Page α} (h : Serves key Codes cursor (size k) (keys k) page)
    (hmore : page.hasMore = true) {last : α} (hlast : page.items.getLast? = some last)
    : (rest (some (key last)) (keys (k + 1))).length < (rest cursor (keys k)).length := by
  have hlt := h.hasMore.mp hmore
  have hpositive := hkeyset.positive k
  have hstored := (h.mem_items (List.mem_of_getLast? hlast)).1
  have hsubset : rest (some (key last)) (keys (k + 1)) ⊆ rest (some (key last)) (keys k) := by
    intro x hx
    obtain ⟨hkey, hbelow⟩ := mem_rest.mp hx
    obtain hthere | habove := hsettled k hk x hkey
    . exact mem_rest.mpr ⟨hthere, hbelow⟩
    . exact absurd (hbelow _ rfl) (habove _ hstored).asymm
  have hnodup : (rest (some (key last)) (keys (k + 1))).Nodup :=
    (sorted_rest (hkeyset.sorted (k + 1)) _).imp ne_of_gt
  have hle := (List.subperm_of_subset hnodup hsubset).length_le
  rw [h.rest_last (hkeyset.sorted k) hlast, List.length_drop] at hle
  omega

/--
A client whose requests are all answered comes to an end.
-/
theorem Keyset.exists_follows (hkeyset : Keyset key Codes keys size fetch) {n : Nat} (hsettled : Settled keys n)
    (hanswered : ∀ k text, Reaches fetch k text → ∃ page, fetch k text = .ok page) {k : Nat}
    {text : Option String} (hreaches : Reaches fetch k text) {cursor : Option κ}
    (htext : Option.Rel Codes text cursor) : ∃ pages, Follows fetch k text pages := by
  obtain ⟨page, hfetch⟩ := hanswered k text hreaches
  have hserves := hkeyset.serves k text cursor page htext hfetch
  cases hmore : page.hasMore with
  | false => exact ⟨_, .last hfetch hmore⟩
  | true =>
    obtain ⟨last, following, hlast, hnext, hcodes⟩ := hserves.exists_last (hkeyset.positive k) hmore
    have htext' : Option.Rel Codes page.nextCursor (some (key last)) := by
      rw [hnext]
      exact .some hcodes
    obtain ⟨pages, hpages⟩ := hkeyset.exists_follows hsettled hanswered (hreaches.next hfetch hmore) htext'
    exact ⟨_, .more hfetch hmore hpages⟩
termination_by (n - k, (rest cursor (keys k)).length)
decreasing_by
  -- the requests until it is settled, and then the keys still to come
  by_cases hk : n ≤ k
  . have hlt := hkeyset.length_rest_lt hsettled hk hserves hmore hlast
    rw [Nat.sub_eq_zero_of_le hk, Nat.sub_eq_zero_of_le (Nat.le_succ_of_le hk)]
    exact .right _ hlt
  . exact .left _ _ (by omega)

end Keyset

section Rows

variable {α ρ κ ε : Type} [LinearOrder κ] {key : α → κ} {rowKey : ρ → κ} {Codes : String → κ → Prop}

-- `ORDER BY .. DESC`
def descending (rowKey : ρ → κ) (rows : List ρ) : List ρ := rows.insertionSort fun a b => rowKey b ≤ rowKey a

@[simp]
theorem mem_descending {rows : List ρ} {row : ρ} : row ∈ descending rowKey rows ↔ row ∈ rows :=
  List.mem_insertionSort _

theorem sorted_descending {rows : List ρ} (h : (rows.map rowKey).Nodup)
    : ((descending rowKey rows).map rowKey).Pairwise (· > ·) := by
  have htotal : Std.Total fun a b : ρ => rowKey b ≤ rowKey a := ⟨fun a b => le_total (rowKey b) (rowKey a)⟩
  have htrans : IsTrans ρ fun a b => rowKey b ≤ rowKey a := ⟨fun _ _ _ hab hbc => hbc.trans hab⟩
  have hsorted := List.pairwise_insertionSort (fun a b : ρ => rowKey b ≤ rowKey a) rows
  have hnodup : ((descending rowKey rows).map rowKey).Nodup :=
    ((List.perm_insertionSort _ rows).map rowKey).nodup_iff.mpr h
  rw [List.pairwise_map]
  exact (hsorted.and (List.pairwise_map.mp hnodup)).imp fun h => lt_of_le_of_ne h.1 h.2.symm

/--
A query that leaves out what is not below the cursor selects what is still to come.
-/
theorem map_descending_filter {rows : List ρ} (h : (rows.map rowKey).Nodup) (cursor : Option κ)
    : (descending rowKey (rows.filter fun row => cursor.all (rowKey row < ·))).map rowKey
        = rest cursor ((descending rowKey rows).map rowKey) := by
  have hfiltered : ((rows.filter fun row => cursor.all (rowKey row < ·)).map rowKey).Nodup :=
    h.sublist (List.filter_sublist.map rowKey)
  apply (sorted_descending hfiltered).eq_of_mem_iff (sorted_rest (sorted_descending h) cursor)
  intro x
  rw [mem_rest, List.mem_map, List.mem_map]
  simp only [mem_descending, List.mem_filter, all_iff_below]
  constructor
  . rintro ⟨row, ⟨hrow, hbelow⟩, rfl⟩
    exact ⟨⟨row, hrow, rfl⟩, hbelow⟩
  . rintro ⟨⟨row, hrow, rfl⟩, hbelow⟩
    exact ⟨row, ⟨hrow, hbelow⟩, rfl⟩

/--
A page that is made of one row more than it has items.
-/
theorem serves_of_rows {cursor : Option κ} {size : Nat} {keys : List κ} {rows : List ρ} {page : Page α}
    (hrows : rows.map rowKey = rest cursor keys)
    (hitems : List.Forall₂ (fun row a => key a = rowKey row) ((rows.take (size + 1)).take size) page.items)
    (hmore : page.hasMore = decide (size < (rows.take (size + 1)).length))
    (hnext : page.hasMore = true →
      ∀ a ∈ page.items.getLast?, ∃ text, page.nextCursor = some text ∧ Codes text (key a))
    : Serves key Codes cursor size keys page where
  items := by
    have hkeys : page.items.map key = ((rows.take (size + 1)).take size).map rowKey := by
      generalize (rows.take (size + 1)).take size = taken, page.items = items at hitems
      induction hitems with
      | nil => rfl
      | cons hkey _ ih => rw [List.map_cons, List.map_cons, hkey, ih]
    rw [hkeys, List.take_take, Nat.min_eq_left (Nat.le_succ size), List.map_take, hrows]
  hasMore := by
    rw [hmore, decide_eq_true_eq, List.length_take, ← hrows, List.length_map]
    omega
  nextCursor := hnext

-- rows that are read one after the other, up to the first one that cannot be read
theorem mapM_eq_ok_iff {f : ρ → Except ε α} {rows : List ρ} {as : List α}
    : rows.mapM f = .ok as ↔ List.Forall₂ (fun row a => f row = .ok a) rows as := by
  induction rows generalizing as with
  | nil =>
    rw [List.mapM_nil, List.forall₂_nil_left_iff]
    exact ⟨fun h => (Except.ok.inj h).symm, fun h => by rw [h]; rfl⟩
  | cons row rows ih =>
    rw [List.mapM_cons, List.forall₂_cons_left_iff]
    cases hrow : f row with
    | error e =>
      constructor
      . intro h
        cases h
      . rintro ⟨a, _, ha, _⟩
        cases ha
    | ok a =>
      cases hrows : rows.mapM f with
      | error e =>
        constructor
        . intro h
          cases h
        . rintro ⟨_, rest, _, hrest, _⟩
          rw [← ih, hrows] at hrest
          cases hrest
      | ok rest =>
        constructor
        . intro h
          cases h
          exact ⟨a, rest, rfl, ih.mp hrows, rfl⟩
        . rintro ⟨_, rest', ha, hrest, rfl⟩
          rw [← ih, hrows] at hrest
          cases ha
          cases hrest
          rfl

theorem exists_mapM {f : ρ → Except ε α} {rows : List ρ} (h : ∀ row ∈ rows, ∃ a, f row = .ok a)
    : ∃ as, rows.mapM f = .ok as := by
  induction rows with
  | nil => exact ⟨[], rfl⟩
  | cons row rows ih =>
    obtain ⟨a, ha⟩ := h row List.mem_cons_self
    obtain ⟨as, has⟩ := ih fun other hother => h other (List.mem_cons_of_mem _ hother)
    refine ⟨a :: as, ?_⟩
    rw [List.mapM_cons, ha, has]
    rfl

theorem exists_of_mem_forall₂ {R : ρ → α → Prop} {rows : List ρ} {as : List α} (h : List.Forall₂ R rows as) {a : α}
    (ha : a ∈ as) : ∃ row ∈ rows, R row a := by
  induction h with
  | nil => cases ha
  | @cons row b rows bs hrow _ ih =>
    cases List.mem_cons.mp ha with
    | inl ha =>
      rw [ha]
      exact ⟨row, List.mem_cons_self, hrow⟩
    | inr ha =>
      obtain ⟨other, hother, hread⟩ := ih ha
      exact ⟨other, List.mem_cons_of_mem _ hother, hread⟩

end Rows

end Pagination
