import Haiker.Outbox.Lemmas.Outbox

/-!
This module contains when an event is dispatched once. The locks of `poll_unprocessed` end with the
statement and nothing is claimed, so two dispatchers may have an event in their batches, and only
`is_processed` is left to keep them apart.
-/

open Interleaving

namespace Outbox

variable {ι : Type} [DecidableEq ι]

/--
Client `i` runs no handler with success for which one has succeeded before, and marks no event failed
that has been marked processed.
-/
def DispatchesOnce (c : Config State Client ι) (i : ι) : Prop :=
  (∀ e, (c.clients i).succeeds = some e → e.id ∉ c.shared.succeeded)
    ∧ ∀ e row, (c.clients i).marksFailed = some e → c.shared.outbox.find? e.id = some row →
      row.processedAt = none

-- nobody else is at the event when client `i` finds it not processed
def ChecksAlone (c : Config State Client ι) (i : ι) : Prop :=
  ∀ event, (c.clients i).passing c.shared = some event →
    ∀ j, j ≠ i → ∀ e, (c.clients j).current = some e → e.id ≠ event.id

-- what a dispatcher knows of its batch
structure Sound (s : State) (client : Client) : Prop where
  present : ∀ e ∈ client.pending, ∃ row, s.outbox.find? e.id = some row
  unprocessed : ∀ e row, client.current = some e → s.outbox.find? e.id = some row →
    row.processedAt = none
  fresh : ∀ e, client.current = some e → client.marksProcessed = none → e.id ∉ s.succeeded

/--
No two dispatchers are at one event, and an event whose handler has succeeded is processed or about to be
marked so.
-/
structure Exclusive (c : Config State Client ι) : Prop where
  sound : ∀ i, Sound c.shared (c.clients i)
  unshared : ∀ i j e e', i ≠ j → (c.clients i).current = some e → (c.clients j).current = some e' →
    e.id ≠ e'.id
  settled : ∀ id ∈ c.shared.succeeded,
    (∃ row, c.shared.outbox.find? id = some row ∧ row.processedAt ≠ none)
      ∨ ∃ i e, (c.clients i).marksProcessed = some e ∧ e.id = id

variable {s s' : State} {client : Client} {d : OutboxDispatcher} {e event : OutboxEvent} {batch : Batch}
  {k : Uuid} {row : OutboxRow} {c : Config State Client ι} {i : ι}

theorem mem_pending_of_current (h : client.current = some e) : e ∈ client.pending := by
  cases client with
  | dispatcher d =>
    simp only [Client.current, Client.dispatching, OutboxDispatcher.current] at h
    simp only [Client.pending, OutboxDispatcher.pending]
    cases hphase : d.phase with
    | polling | checking =>
      simp only [hphase] at h
      cases h
    | handling | succeeding | failing | writing =>
      simp only [hphase] at h
      cases h
      exact List.mem_cons_self
  | publisher | clock => cases h

theorem current_of_marksProcessed (h : client.marksProcessed = some e) : client.current = some e := by
  cases client with
  | dispatcher d =>
    simp only [Client.marksProcessed, Client.dispatching, OutboxDispatcher.marksProcessed] at h
    simp only [Client.current, Client.dispatching, OutboxDispatcher.current]
    cases hphase : d.phase with
    | succeeding =>
      simp only [hphase] at h
      exact h
    | polling | checking | handling | failing | writing =>
      simp only [hphase] at h
      cases h
  | publisher | clock => cases h

/-
What the statements leave of the marks.
-/

-- rows stay, and only the one of the event becomes processed
structure Marks (event : Option OutboxEvent) (outbox outbox' : OutboxTable) : Prop where
  kept : ∀ k row, outbox.find? k = some row → ∃ row', outbox'.find? k = some row'
    ∧ (row.processedAt ≠ none → row'.processedAt ≠ none)
  marked : ∀ k row', outbox'.find? k = some row' → row'.processedAt ≠ none →
    (∃ row, outbox.find? k = some row ∧ row.processedAt ≠ none) ∨ ∃ e, event = some e ∧ e.id = k

theorem Marks.refl (event : Option OutboxEvent) (outbox : OutboxTable) : Marks event outbox outbox where
  kept := fun _ row hrow => ⟨row, hrow, id⟩
  marked := fun _ row hrow hprocessed => .inl ⟨row, hrow, hprocessed⟩

theorem marks_markProcessed (now : Timestamp) (e : OutboxEvent) (outbox : OutboxTable)
    : Marks (some e) outbox (markProcessed now e.id outbox) where
  kept := by
    intro k row hrow
    refine ⟨_, (find?_updateEvent outbox e.id k).trans (by rw [hrow]; rfl), ?_⟩
    intro hprocessed
    split
    . simp
    . exact hprocessed
  marked := by
    intro k row' hrow' hprocessed
    have hafter : (markProcessed now e.id outbox).find? k = _ := find?_updateEvent outbox e.id k
    rw [hrow'] at hafter
    obtain ⟨row, hrow, hsame⟩ := Option.map_eq_some_iff.mp hafter.symm
    by_cases hk : k = e.id
    . exact .inr ⟨e, rfl, hk.symm⟩
    . rw [if_neg hk] at hsame
      rw [hsame] at hrow
      exact .inl ⟨row', hrow, hprocessed⟩

theorem marks_updateEvent {f : OutboxRow → OutboxRow} {hf : ∀ row, (f row).id = row.id}
    (hsame : ∀ row, (f row).processedAt = row.processedAt) (event : Option OutboxEvent)
    (outbox : OutboxTable) (eventId : Uuid)
    : Marks event outbox (updateEvent eventId f hf outbox) where
  kept := by
    intro k row hrow
    refine ⟨_, (find?_updateEvent outbox eventId k).trans (by rw [hrow]; rfl), ?_⟩
    intro hprocessed
    split
    . rw [hsame]
      exact hprocessed
    . exact hprocessed
  marked := by
    intro k row' hrow' hprocessed
    rw [find?_updateEvent] at hrow'
    obtain ⟨row, hrow, rfl⟩ := Option.map_eq_some_iff.mp hrow'
    left
    refine ⟨row, hrow, ?_⟩
    split at hprocessed
    . rw [hsame] at hprocessed
      exact hprocessed
    . exact hprocessed

theorem marks_markFailedWrite (now : Timestamp) (eventId : Uuid) (newRetryCount : Int)
    (errorMessage : String) (maxRetries : Int) (event : Option OutboxEvent) (outbox : OutboxTable)
    : Marks event outbox (markFailedWrite now eventId newRetryCount errorMessage maxRetries outbox) := by
  unfold markFailedWrite
  split
  . apply marks_updateEvent
    exact fun _ => rfl
  . apply marks_updateEvent
    exact fun _ => rfl

theorem marks_publish {outbox outbox' : OutboxTable} {published : OutboxEvent}
    (h : publish published outbox = some outbox') (event : Option OutboxEvent)
    : Marks event outbox outbox' where
  kept := fun _ row hrow => ⟨row, Sql.Table.find?_insert?_of_some h hrow, id⟩
  marked := by
    intro k row' hrow' hprocessed
    rcases Sql.Table.find?_of_insert? h hrow' with rfl | hrow
    . exact absurd rfl hprocessed
    . exact .inl ⟨row', hrow, hprocessed⟩

theorem Exclusive.of_marks (h : Exclusive c)
    (hmarks : Marks (c.clients i).current c.shared.outbox (fire Client.step c i).shared.outbox)
    (hsucceeded : ∀ id ∈ (fire Client.step c i).shared.succeeded, id ∈ c.shared.succeeded
      ∨ ∃ e, (c.clients i).current = some e ∧ e.id = id
        ∧ ((fire Client.step c i).clients i).marksProcessed = some e)
    (hown : Sound (fire Client.step c i).shared ((fire Client.step c i).clients i))
    (hcurrent : ∀ e, ((fire Client.step c i).clients i).current = some e →
      (c.clients i).current = some e
        ∨ ∀ j, j ≠ i → ∀ e', (c.clients j).current = some e' → e'.id ≠ e.id)
    (hdone : ∀ e, (c.clients i).marksProcessed = some e →
      (∃ row, (fire Client.step c i).shared.outbox.find? e.id = some row ∧ row.processedAt ≠ none)
        ∨ ((fire Client.step c i).clients i).marksProcessed = some e)
    : Exclusive (fire Client.step c i) := by
  have hother : ∀ j, j ≠ i → ∀ e, ((fire Client.step c i).clients j).current = some e →
      ∀ e', (c.clients i).current = some e' → e.id ≠ e'.id := by
    intro j hj e he e' he'
    rw [fire_clients_ne Client.step c hj] at he
    exact h.unshared j i e e' hj he he'
  constructor
  . intro j
    by_cases hj : j = i
    . rw [hj]
      exact hown
    . have hsound := h.sound j
      rw [← fire_clients_ne Client.step c hj] at hsound
      constructor
      . intro e he
        obtain ⟨row, hrow⟩ := hsound.present e he
        obtain ⟨row', hrow', _⟩ := hmarks.kept e.id row hrow
        exact ⟨row', hrow'⟩
      . intro e row' he hrow'
        by_contra hprocessed
        rcases hmarks.marked e.id row' hrow' hprocessed with ⟨row, hrow, hbefore⟩ | ⟨e', he', hid⟩
        . exact hbefore (hsound.unprocessed e row he hrow)
        . exact hother j hj e he e' he' hid.symm
      . intro e he hmarking hmem
        rcases hsucceeded e.id hmem with hbefore | ⟨e', he', hid, _⟩
        . exact hsound.fresh e he hmarking hbefore
        . exact hother j hj e he e' he' hid.symm
  . have hnew : ∀ j e e', j ≠ i → ((fire Client.step c i).clients i).current = some e →
        ((fire Client.step c i).clients j).current = some e' → e'.id ≠ e.id := by
      intro j e e' hj he he'
      rcases hcurrent e he with hbefore | halone
      . exact hother j hj e' he' e hbefore
      . rw [fire_clients_ne Client.step c hj] at he'
        exact halone j hj e' he'
    intro j k e e' hne he he'
    by_cases hj : j = i
    . rw [hj] at he
      exact (hnew k e e' (fun hk => hne (hj.trans hk.symm)) he he').symm
    . by_cases hk : k = i
      . rw [hk] at he'
        exact hnew j e' e hj he' he
      . rw [fire_clients_ne Client.step c hj] at he
        rw [fire_clients_ne Client.step c hk] at he'
        exact h.unshared j k e e' hne he he'
  . intro id hid
    rcases hsucceeded id hid with hbefore | ⟨e, _, rfl, hmarking⟩
    . rcases h.settled id hbefore with ⟨row, hrow, hprocessed⟩ | ⟨j, e, hmarking, rfl⟩
      . obtain ⟨row', hrow', hkept⟩ := hmarks.kept id row hrow
        exact .inl ⟨row', hrow', hkept hprocessed⟩
      . by_cases hj : j = i
        . rw [hj] at hmarking
          rcases hdone e hmarking with hprocessed | hmarking'
          . exact .inl hprocessed
          . exact .inr ⟨i, e, hmarking', rfl⟩
        . rw [← fire_clients_ne Client.step c hj] at hmarking
          exact .inr ⟨j, e, hmarking, rfl⟩
    . exact .inr ⟨i, e, hmarking, rfl⟩

/-
What a dispatcher knows after its own step.
-/

-- a batch of events that are in the table, none of them under way
theorem sound_checking {d : OutboxDispatcher} (hphase : d.phase = .checking batch)
    (hpresent : ∀ e ∈ batch.remaining, ∃ row, s.outbox.find? e.id = some row)
    : Sound s (.dispatcher d) where
  present := by
    intro e he
    apply hpresent e
    simpa [Client.pending, OutboxDispatcher.pending, hphase] using he
  unprocessed := by
    intro e row he
    simp [Client.current, Client.dispatching, OutboxDispatcher.current, hphase] at he
  fresh := by
    intro e he
    simp [Client.current, Client.dispatching, OutboxDispatcher.current, hphase] at he

theorem sound_polling {d : OutboxDispatcher} (hphase : d.phase = .polling) : Sound s (.dispatcher d) where
  present := by
    intro e he
    simp [Client.pending, OutboxDispatcher.pending, hphase] at he
  unprocessed := by
    intro e row he
    simp [Client.current, Client.dispatching, OutboxDispatcher.current, hphase] at he
  fresh := by
    intro e he
    simp [Client.current, Client.dispatching, OutboxDispatcher.current, hphase] at he

theorem not_processed (h : isProcessed event.id s.outbox = false)
    (hrow : s.outbox.find? event.id = some row) : row.processedAt = none := by
  rw [isProcessed, hrow, Option.any_some] at h
  exact Option.not_isSome_iff_eq_none.mp (by rw [h]; exact Bool.false_ne_true)

-- a step that leaves the state, and the dispatcher at no event or the same as before
theorem Exclusive.of_quiet (h : Exclusive c) {d' : OutboxDispatcher}
    (hstep : (c.clients i).step c.shared = (c.shared, .dispatcher d'))
    (hsound : Sound c.shared (.dispatcher d'))
    (hcurrent : ∀ e, d'.current = some e → (c.clients i).current = some e
      ∨ ∀ j, j ≠ i → ∀ e', (c.clients j).current = some e' → e'.id ≠ e.id)
    (hmarks : (c.clients i).marksProcessed = none)
    : Exclusive (fire Client.step c i) := by
  have hshared : (fire Client.step c i).shared = c.shared := by
    unfold Interleaving.fire
    rw [hstep]
  have hclient : (fire Client.step c i).clients i = .dispatcher d' := by
    rw [fire_clients_self, hstep]
  apply h.of_marks
  . rw [hshared]
    exact .refl _ _
  . rw [hshared]
    exact fun id hid => .inl hid
  . rw [hshared, hclient]
    exact hsound
  . rw [hclient]
    exact hcurrent
  . intro e he
    rw [hmarks] at he
    cases he

-- a batch whose first event is under way
theorem sound_current {d : OutboxDispatcher} {remaining : List OutboxEvent}
    (hcurrent : d.current = some event) (hpending : d.pending = event :: remaining)
    (hpresent : ∀ e ∈ event :: remaining, ∃ row, s.outbox.find? e.id = some row)
    (hunprocessed : ∀ row, s.outbox.find? event.id = some row → row.processedAt = none)
    (hfresh : d.marksProcessed = none → event.id ∉ s.succeeded)
    : Sound s (.dispatcher d) where
  present := by
    intro e he
    have he : e ∈ d.pending := he
    rw [hpending] at he
    exact hpresent e he
  unprocessed := by
    intro e row he hrow
    have he : d.current = some e := he
    rw [hcurrent, Option.some.injEq] at he
    rw [← he] at hrow
    exact hunprocessed row hrow
  fresh := by
    intro e he hmarking
    have he : d.current = some e := he
    rw [hcurrent, Option.some.injEq] at he
    rw [← he]
    exact hfresh hmarking

theorem Exclusive.polling (h : Exclusive c) (hclient : c.clients i = .dispatcher d)
    (hphase : d.phase = .polling) : Exclusive (fire Client.step c i) := by
  have hmarks : (c.clients i).marksProcessed = none := by
    simp [hclient, Client.marksProcessed, Client.dispatching, OutboxDispatcher.marksProcessed, hphase]
  cases hrounds : d.rounds with
  | nil =>
    have hstep := OutboxDispatcher.step_of_rounds_nil (s := c.shared) hphase hrounds
    refine h.of_quiet (by rw [hclient, Client.step, hstep]) (sound_polling hphase) ?_ hmarks
    intro e he
    simp [OutboxDispatcher.current, hphase] at he
  | cons round rounds =>
    have hstep := OutboxDispatcher.step_of_rounds_cons (s := c.shared) hphase hrounds
    refine h.of_quiet (by rw [hclient, Client.step, hstep]) (sound_checking rfl ?_) ?_ hmarks
    . intro e he
      have hmem := (perm_dispatchOrder _).mem_iff.mp he
      obtain ⟨row, hrow, _⟩ := exists_of_mem_pollUnprocessed hmem
      exact ⟨row, hrow⟩
    . intro e he
      simp [OutboxDispatcher.current] at he

theorem Exclusive.checking (h : Exclusive c) (hclient : c.clients i = .dispatcher d)
    (hphase : d.phase = .checking batch) (hchecks : ChecksAlone c i)
    : Exclusive (fire Client.step c i) := by
  have hmarks : (c.clients i).marksProcessed = none := by
    simp [hclient, Client.marksProcessed, Client.dispatching, OutboxDispatcher.marksProcessed, hphase]
  have hpresent : ∀ e ∈ batch.remaining, ∃ row, c.shared.outbox.find? e.id = some row := by
    have hpresent := (h.sound i).present
    simpa [hclient, Client.pending, OutboxDispatcher.pending, hphase] using hpresent
  cases hremaining : batch.remaining with
  | nil =>
    have hstep := OutboxDispatcher.step_of_remaining_nil (s := c.shared) hphase hremaining
    refine h.of_quiet (by rw [hclient, Client.step, hstep]) (sound_polling rfl) ?_ hmarks
    intro e he
    simp [OutboxDispatcher.current] at he
  | cons event remaining =>
    rw [hremaining] at hpresent
    cases hprocessed : isProcessed event.id c.shared.outbox with
    | true =>
      have hstep := OutboxDispatcher.step_of_processed hphase hremaining hprocessed
      refine h.of_quiet (by rw [hclient, Client.step, hstep]) (sound_checking rfl ?_) ?_ hmarks
      . exact fun e he => hpresent e (List.mem_cons_of_mem event he)
      . intro e he
        simp [OutboxDispatcher.current] at he
    | false =>
      have hpassing : (c.clients i).passing c.shared = some event := by
        simp [hclient, Client.passing, Client.dispatching, OutboxDispatcher.passing, hphase, hremaining,
          hprocessed]
      have halone := hchecks event hpassing
      have hunprocessed : ∀ row, c.shared.outbox.find? event.id = some row → row.processedAt = none :=
        fun row hrow => not_processed hprocessed hrow
      -- nobody is about to mark it processed
      have hfresh : event.id ∉ c.shared.succeeded := by
        intro hmem
        rcases h.settled event.id hmem with ⟨row, hrow, hmarked⟩ | ⟨j, e, hmarking, hid⟩
        . exact hmarked (hunprocessed row hrow)
        . by_cases hj : j = i
          . rw [hj, hmarks] at hmarking
            cases hmarking
          . exact halone j hj e (current_of_marksProcessed hmarking) hid
      by_cases hregistered : event.eventType ∈ d.eventTypes
      . have hstep := OutboxDispatcher.step_of_registered hphase hremaining hprocessed hregistered
        refine h.of_quiet (by rw [hclient, Client.step, hstep])
          (sound_current rfl rfl hpresent hunprocessed fun _ => hfresh) ?_ hmarks
        intro e he
        rw [← Option.some.inj he]
        exact .inr halone
      . have hstep := OutboxDispatcher.step_of_unregistered hphase hremaining hprocessed hregistered
        refine h.of_quiet (by rw [hclient, Client.step, hstep])
          (sound_current rfl rfl hpresent hunprocessed fun _ => hfresh) ?_ hmarks
        intro e he
        rw [← Option.some.inj he]
        exact .inr halone

-- what is known of the event that is under way
omit [DecidableEq ι] in
theorem Exclusive.underWay (h : Exclusive c) {remaining : List OutboxEvent}
    (hclient : c.clients i = .dispatcher d) (hcurrent : d.current = some event)
    (hpending : d.pending = event :: remaining)
    : (∀ e ∈ event :: remaining, ∃ row, c.shared.outbox.find? e.id = some row)
        ∧ (∀ row, c.shared.outbox.find? event.id = some row → row.processedAt = none)
        ∧ (d.marksProcessed = none → event.id ∉ c.shared.succeeded) := by
  have hsound := h.sound i
  rw [hclient] at hsound
  refine ⟨?_, ?_, ?_⟩
  . intro e he
    apply hsound.present e
    show e ∈ d.pending
    rw [hpending]
    exact he
  . exact fun row hrow => hsound.unprocessed event row hcurrent hrow
  . exact fun hmarking => hsound.fresh event hcurrent hmarking

theorem Exclusive.handling (h : Exclusive c) (hclient : c.clients i = .dispatcher d)
    (hphase : d.phase = .handling event batch) : Exclusive (fire Client.step c i) := by
  have hcurrent : d.current = some event := by simp [OutboxDispatcher.current, hphase]
  have hpending : d.pending = event :: batch.remaining := by simp [OutboxDispatcher.pending, hphase]
  have hmarking : d.marksProcessed = none := by simp [OutboxDispatcher.marksProcessed, hphase]
  have hmarks : (c.clients i).marksProcessed = none := by
    rw [hclient]
    exact hmarking
  have hwas : (c.clients i).current = some event := by
    rw [hclient]
    exact hcurrent
  obtain ⟨hpresent, hunprocessed, hfresh⟩ := h.underWay hclient hcurrent hpending
  cases hresult : d.handle d.calls event with
  | error errorMessage =>
    have hstep := OutboxDispatcher.step_of_handler_error (s := c.shared) hphase hresult
    refine h.of_quiet (by rw [hclient, Client.step, hstep])
      (sound_current rfl rfl hpresent hunprocessed fun _ => hfresh hmarking) ?_ hmarks
    intro e he
    left
    rw [hwas]
    exact he
  | ok _ =>
    have hstep := OutboxDispatcher.step_of_handled (s := c.shared) hphase hresult
    have hfire : (c.clients i).step c.shared
        = ({ c.shared with succeeded := event.id :: c.shared.succeeded },
          .dispatcher { d with calls := d.calls + 1, phase := .succeeding event batch }) := by
      rw [hclient, Client.step, hstep]
    apply h.of_marks
    . unfold fire
      rw [hfire]
      exact .refl _ _
    . intro id hid
      unfold fire at hid
      rw [hfire] at hid
      rcases List.mem_cons.mp hid with rfl | hid
      . right
        refine ⟨event, hwas, rfl, ?_⟩
        rw [fire_clients_self, hfire]
        rfl
      . exact .inl hid
    . rw [fire_clients_self]
      unfold fire
      rw [hfire]
      exact sound_current rfl rfl hpresent hunprocessed fun hnone => by cases hnone
    . intro e he
      rw [fire_clients_self, hfire] at he
      left
      rw [hwas]
      exact he
    . intro e he
      rw [hmarks] at he
      cases he

-- a mark leaves the dispatcher at no event
theorem Exclusive.of_marked (h : Exclusive c) {d' : OutboxDispatcher} {outbox : OutboxTable}
    (hstep : (c.clients i).step c.shared = ({ c.shared with outbox }, .dispatcher d'))
    (hmarks : Marks (c.clients i).current c.shared.outbox outbox) (hphase : d'.phase = .checking batch)
    (hpresent : ∀ e ∈ batch.remaining, ∃ row, c.shared.outbox.find? e.id = some row)
    (hdone : ∀ e, (c.clients i).marksProcessed = some e →
      ∃ row, outbox.find? e.id = some row ∧ row.processedAt ≠ none)
    : Exclusive (fire Client.step c i) := by
  have hshared : (fire Client.step c i).shared = { c.shared with outbox } := by
    unfold Interleaving.fire
    rw [hstep]
  have hclient : (fire Client.step c i).clients i = .dispatcher d' := by
    rw [fire_clients_self, hstep]
  apply h.of_marks
  . rw [hshared]
    exact hmarks
  . rw [hshared]
    exact fun id hid => .inl hid
  . rw [hshared, hclient]
    apply sound_checking hphase
    intro e he
    obtain ⟨row, hrow⟩ := hpresent e he
    obtain ⟨row', hrow', _⟩ := hmarks.kept e.id row hrow
    exact ⟨row', hrow'⟩
  . rw [hclient]
    intro e he
    simp [Client.current, Client.dispatching, OutboxDispatcher.current, hphase] at he
  . rw [hshared]
    exact fun e he => .inl (hdone e he)

theorem Exclusive.succeeding (h : Exclusive c) (hclient : c.clients i = .dispatcher d)
    (hphase : d.phase = .succeeding event batch) : Exclusive (fire Client.step c i) := by
  have hcurrent : d.current = some event := by simp [OutboxDispatcher.current, hphase]
  have hpending : d.pending = event :: batch.remaining := by simp [OutboxDispatcher.pending, hphase]
  obtain ⟨hpresent, _, _⟩ := h.underWay hclient hcurrent hpending
  have hstep := OutboxDispatcher.step_of_succeeding (s := c.shared) hphase
  apply h.of_marked (by rw [hclient, Client.step, hstep])
  . rw [hclient, Client.current, Client.dispatching, hcurrent]
    exact marks_markProcessed _ _ _
  . rfl
  . exact fun e he => hpresent e (List.mem_cons_of_mem event he)
  . intro e he
    have hsame : event = e := by
      simpa [hclient, Client.marksProcessed, Client.dispatching, OutboxDispatcher.marksProcessed, hphase]
        using he
    obtain ⟨row, hrow⟩ := hpresent event List.mem_cons_self
    refine ⟨{ row with processedAt := some c.shared.now }, ?_, by simp⟩
    rw [← hsame]
    refine (find?_updateEvent c.shared.outbox event.id event.id).trans ?_
    rw [hrow, Option.map_some, if_pos rfl]

theorem Exclusive.failing (h : Exclusive c) {errorMessage : String}
    (hclient : c.clients i = .dispatcher d) (hphase : d.phase = .failing event errorMessage batch)
    : Exclusive (fire Client.step c i) := by
  have hcurrent : d.current = some event := by simp [OutboxDispatcher.current, hphase]
  have hpending : d.pending = event :: batch.remaining := by simp [OutboxDispatcher.pending, hphase]
  have hmarking : d.marksProcessed = none := by simp [OutboxDispatcher.marksProcessed, hphase]
  obtain ⟨hpresent, hunprocessed, hfresh⟩ := h.underWay hclient hcurrent hpending
  obtain ⟨row, hrow⟩ := hpresent event List.mem_cons_self
  have hstep := OutboxDispatcher.step_of_failing hphase hrow
  refine h.of_quiet (by rw [hclient, Client.step, hstep])
    (sound_current rfl rfl hpresent hunprocessed fun _ => hfresh hmarking) ?_ ?_
  . intro e he
    left
    rw [hclient, Client.current, Client.dispatching, hcurrent]
    exact he
  . rw [hclient]
    exact hmarking

theorem Exclusive.writing (h : Exclusive c) {errorMessage : String} {newRetryCount : Int}
    (hclient : c.clients i = .dispatcher d)
    (hphase : d.phase = .writing event errorMessage newRetryCount batch)
    : Exclusive (fire Client.step c i) := by
  have hcurrent : d.current = some event := by simp [OutboxDispatcher.current, hphase]
  have hpending : d.pending = event :: batch.remaining := by simp [OutboxDispatcher.pending, hphase]
  obtain ⟨hpresent, _, _⟩ := h.underWay hclient hcurrent hpending
  have hstep := OutboxDispatcher.step_of_writing (s := c.shared) hphase
  apply h.of_marked (by rw [hclient, Client.step, hstep])
  . exact marks_markFailedWrite _ _ _ _ _ _ _
  . rfl
  . exact fun e he => hpresent e (List.mem_cons_of_mem event he)
  . intro e he
    simp [hclient, Client.marksProcessed, Client.dispatching, OutboxDispatcher.marksProcessed, hphase]
      at he

-- whoever is no dispatcher
theorem Exclusive.of_other (h : Exclusive c) {s' : State} {client' : Client}
    (hstep : (c.clients i).step c.shared = (s', client'))
    (hmarks : Marks (c.clients i).current c.shared.outbox s'.outbox)
    (hsucceeded : s'.succeeded = c.shared.succeeded) (hwas : (c.clients i).marksProcessed = none)
    (hpending : client'.pending = []) (hcurrent : client'.current = none)
    : Exclusive (fire Client.step c i) := by
  have hshared : (fire Client.step c i).shared = s' := by
    unfold Interleaving.fire
    rw [hstep]
  have hclient : (fire Client.step c i).clients i = client' := by
    rw [fire_clients_self, hstep]
  apply h.of_marks
  . rw [hshared]
    exact hmarks
  . rw [hshared, hsucceeded]
    exact fun id hid => .inl hid
  . rw [hclient]
    constructor
    . intro e he
      rw [hpending] at he
      cases he
    . intro e row he
      rw [hcurrent] at he
      cases he
    . intro e he
      rw [hcurrent] at he
      cases he
  . rw [hclient, hcurrent]
    intro e he
    cases he
  . intro e he
    rw [hwas] at he
    cases he

theorem Exclusive.fire (h : Exclusive c) (hchecks : ChecksAlone c i)
    : Exclusive (fire Client.step c i) := by
  cases hclient : c.clients i with
  | dispatcher d =>
    cases hphase : d.phase with
    | polling => exact h.polling hclient hphase
    | checking batch => exact h.checking hclient hphase hchecks
    | handling event batch => exact h.handling hclient hphase
    | succeeding event batch => exact h.succeeding hclient hphase
    | failing event errorMessage batch => exact h.failing hclient hphase
    | writing event errorMessage newRetryCount batch => exact h.writing hclient hphase
  | publisher event =>
    have hwas : (c.clients i).marksProcessed = none := by rw [hclient]; rfl
    cases hpublish : publish event c.shared.outbox with
    | some outbox =>
      have hstep : (c.clients i).step c.shared
          = ({ c.shared with outbox, published := event :: c.shared.published }, .publisher event) := by
        rw [hclient]
        simp only [Client.step, hpublish]
      exact h.of_other hstep (marks_publish hpublish _) rfl hwas rfl rfl
    | none =>
      have hstep : (c.clients i).step c.shared = (c.shared, .publisher event) := by
        rw [hclient]
        simp only [Client.step, hpublish]
      exact h.of_other hstep (.refl _ _) rfl hwas rfl rfl
  | clock elapsed =>
    have hwas : (c.clients i).marksProcessed = none := by rw [hclient]; rfl
    have hstep : (c.clients i).step c.shared
        = ({ c.shared with now := c.shared.now + elapsed }, .clock elapsed) := by
      rw [hclient]
      rfl
    exact h.of_other hstep (.refl _ _) rfl hwas rfl rfl

omit [DecidableEq ι] in
theorem Exclusive.dispatchesOnce (h : Exclusive c) : DispatchesOnce c i := by
  have hsound := h.sound i
  constructor
  . intro e he
    cases hclient : c.clients i with
    | dispatcher d =>
      rw [hclient] at he hsound
      have he : d.succeeds = some e := he
      unfold OutboxDispatcher.succeeds at he
      cases hphase : d.phase with
      | handling event batch =>
        simp only [hphase] at he
        cases hresult : d.handle d.calls event with
        | ok _ =>
          simp only [hresult] at he
          cases he
          apply hsound.fresh e
          . simp [Client.current, Client.dispatching, OutboxDispatcher.current, hphase]
          . simp [Client.marksProcessed, Client.dispatching, OutboxDispatcher.marksProcessed, hphase]
        | error =>
          simp only [hresult] at he
          cases he
      | polling | checking | succeeding | failing | writing =>
        simp only [hphase] at he
        cases he
    | publisher | clock =>
      rw [hclient] at he
      cases he
  . intro e row he hrow
    cases hclient : c.clients i with
    | dispatcher d =>
      rw [hclient] at he hsound
      have he : d.marksFailed = some e := he
      unfold OutboxDispatcher.marksFailed at he
      cases hphase : d.phase with
      | writing event errorMessage newRetryCount batch =>
        simp only [hphase] at he
        cases he
        apply hsound.unprocessed e row _ hrow
        simp [Client.current, Client.dispatching, OutboxDispatcher.current, hphase]
      | polling | checking | handling | succeeding | failing =>
        simp only [hphase] at he
        cases he
    | publisher | clock =>
      rw [hclient] at he
      cases he

/--
In every run of any number of dispatchers, none of them being in a batch at first, whose checks of an
event find nobody else at it: each handler succeeds at most once for an event, and no event is marked
failed after it has been marked processed.
-/
theorem dispatches_once_of_checks_alone (c : Config State Client ι)
    (hidle : ∀ i, (c.clients i).pending = []) (hsucceeded : c.shared.succeeded = [])
    (schedule : List ι) (hchecks : Along Client.step ChecksAlone c schedule)
    : Along Client.step DispatchesOnce c schedule := by
  have hnobody : ∀ i e, (c.clients i).current ≠ some e := by
    intro i e he
    have hmem := mem_pending_of_current he
    rw [hidle i] at hmem
    cases hmem
  have hexclusive : Exclusive c := by
    constructor
    . intro i
      constructor
      . intro e he
        rw [hidle i] at he
        cases he
      . exact fun e row he => absurd he (hnobody i e)
      . exact fun e he => absurd he (hnobody i e)
    . exact fun i _ e _ _ he => absurd he (hnobody i e)
    . intro id hid
      rw [hsucceeded] at hid
      cases hid
  have hkept : ∀ (c : Config State Client ι) i, Exclusive c → ChecksAlone c i →
      Exclusive (Interleaving.fire Client.step c i) := fun _ _ h hchecks => h.fire hchecks
  have honce : ∀ (c : Config State Client ι) i, Exclusive c → ChecksAlone c i → DispatchesOnce c i :=
    fun _ _ h _ => h.dispatchesOnce
  exact Along.of_reached Client.step honce hkept hexclusive hchecks

inductive SampleClient where
  | first | second
  deriving DecidableEq

def sampleEvent : OutboxEvent := {
  id := ⟨1⟩
  aggregateType := "activity"
  aggregateId := "7"
  eventType := "activity_created"
  payload := .null
  createdAt := 0
  retryCount := 0
  correlationId := none
}

def sampleState : State where
  outbox := (publish sampleEvent .empty).getD .empty
  now := 1
  succeeded := []
  published := []

-- the handler of the second dispatcher ends as given
def sampleDispatchers (outcome : Except String Unit) : SampleClient → Client
  | .first => .dispatcher ⟨["activity_created"], fun _ _ => .ok (), 5, [⟨10, []⟩], 0, .polling, []⟩
  | .second => .dispatcher ⟨["activity_created"], fun _ _ => outcome, 5, [⟨10, []⟩], 0, .polling, []⟩

omit [DecidableEq ι] in
theorem checksAlone_of_passing_eq_none (h : (c.clients i).passing c.shared = none) : ChecksAlone c i := by
  intro event hpassing
  rw [h] at hpassing
  cases hpassing

theorem dispatches_once_of_checks_alone_sampleDispatchers
    : Along Client.step ChecksAlone ⟨sampleState, sampleDispatchers (.ok ())⟩
        [.first, .second, .first, .first, .first, .second]
      ∧ Along Client.step DispatchesOnce ⟨sampleState, sampleDispatchers (.ok ())⟩
        [.first, .second, .first, .first, .first, .second] := by
  have hchecks : Along Client.step ChecksAlone ⟨sampleState, sampleDispatchers (.ok ())⟩
      [.first, .second, .first, .first, .first, .second] := by
    refine ⟨?_, ?_, ?_, ?_, ?_, ?_, trivial⟩
    . exact checksAlone_of_passing_eq_none rfl
    . exact checksAlone_of_passing_eq_none rfl
    . intro event _ j hj e he
      cases j with
      | first => exact absurd rfl hj
      | second => cases he
    . exact checksAlone_of_passing_eq_none rfl
    . exact checksAlone_of_passing_eq_none rfl
    . exact checksAlone_of_passing_eq_none rfl
  refine ⟨hchecks, dispatches_once_of_checks_alone _ ?_ rfl _ hchecks⟩
  intro i
  cases i with
  | first | second => rfl

/--
If two dispatchers poll an event, and the second one checks it before the first one has marked it, its
handler succeeds twice, or it is marked failed after it has been marked processed.
-/
theorem dispatched_twice
    : ¬Along Client.step DispatchesOnce ⟨sampleState, sampleDispatchers (.ok ())⟩
        [.first, .second, .first, .second, .first, .second]
      ∧ ¬Along Client.step DispatchesOnce ⟨sampleState, sampleDispatchers (.error "boom")⟩
        [.first, .second, .first, .second, .first, .first, .second, .second, .second] := by
  constructor
  . rintro ⟨_, _, _, _, _, ⟨honce, _⟩, _⟩
    exact honce sampleEvent rfl List.mem_cons_self
  . rintro ⟨_, _, _, _, _, _, _, _, ⟨_, honce⟩, _⟩
    have hnone := honce sampleEvent _ rfl rfl
    cases hnone

end Outbox
