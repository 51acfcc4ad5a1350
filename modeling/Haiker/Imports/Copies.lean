import Mathlib.Logic.Relation
import Haiker.Imports.Workers

/-!
This module contains the actors at work, and what they write compared with the copy of the import that
they have. A copy is what an actor has loaded or stored last.
-/

open Rust

namespace Imports

namespace ImportStatus

def Edge (status status' : ImportStatus) : Prop := status.transitionTo status' = .ok status'

-- how far an import has come
def rank : ImportStatus → Nat
  | .requested => 0
  | .uploading => 1
  | .uploaded => 2
  | .validating => 3
  | .queued => 4
  | .parsing => 5
  | .committing => 6
  | .completed => 7
  | .failed | .cancelled => 8

def Before (status status' : ImportStatus) : Prop :=
  status.isTerminal = false ∧ status.rank < status'.rank

-- the edge that does not give up
def next : ImportStatus → ImportStatus
  | .requested => .uploading
  | .uploading => .uploaded
  | .uploaded => .validating
  | .validating => .queued
  | .queued => .parsing
  | .parsing => .committing
  | .committing => .completed
  | status => status

instance (status status' : ImportStatus) : Decidable (Edge status status') :=
  inferInstanceAs (Decidable (_ = _))

instance (status status' : ImportStatus) : Decidable (Before status status') :=
  inferInstanceAs (Decidable (_ ∧ _))

variable {status status' : ImportStatus}

theorem Edge.before (h : Edge status status') : Before status status' := by
  revert h
  cases status with
  | requested | uploading | uploaded | validating | queued | parsing | committing | completed | failed
  | cancelled =>
    cases status' with
    | requested | uploading | uploaded | validating | queued | parsing | committing | completed | failed
    | cancelled => decide

theorem edge_next (h : status.isTerminal = false) : Edge status status.next := by
  revert h
  cases status with
  | requested | uploading | uploaded | validating | queued | parsing | committing | completed | failed
  | cancelled => decide

-- what is not one edge away is behind the next status
theorem Before.next (h : Before status status') (hedge : ¬Edge status status')
    : Before status.next status' := by
  revert h hedge
  cases status with
  | requested | uploading | uploaded | validating | queued | parsing | committing | completed | failed
  | cancelled =>
    cases status' with
    | requested | uploading | uploaded | validating | queued | parsing | committing | completed | failed
    | cancelled => decide

theorem rank_next (h : status.isTerminal = false) : status.next.rank = status.rank + 1 := by
  revert h
  cases status with
  | requested | uploading | uploaded | validating | queued | parsing | committing | completed | failed
  | cancelled => decide

theorem Before.path (h : Before status status') : Relation.TransGen Edge status status' := by
  -- every edge brings the status closer
  induction hdistance : status'.rank - status.rank generalizing status with
  | zero =>
    have hlt := h.2
    omega
  | succ n ih =>
    by_cases hedge : Edge status status'
    . exact .single hedge
    . have hrank := rank_next h.1
      exact .head (edge_next h.1) (ih (h.next hedge) (by omega))

theorem path_iff_before : Relation.TransGen Edge status status' ↔ Before status status' := by
  constructor
  . intro h
    induction h with
    | single hedge => exact hedge.before
    | tail _ hedge ih => exact ⟨ih.1, ih.2.trans hedge.before.2⟩
  . exact Before.path

end ImportStatus

abbrev Known := Uuid → Option Import

/--
The copies of an actor after a reply.
-/
def Known.learn (known : Known) : (command : Command) → command.Reply → Known
  | .findById _, reply =>
    match reply with
    | .ok (some imp) => Function.update known imp.id.val (some imp)
    | _ => known
  | .update imp, reply =>
    match reply with
    | .ok () => Function.update known imp.id.val (some imp)
    | .error _ => known
  | .findAbandoned _, reply =>
    match reply with
    | .ok imports => fun id => (imports.find? fun imp => imp.id.val = id).or (known id)
    | .error _ => known
  | _, _ => known

/--
An actor at work. Each asks the object storage at most once, and that may change in between. What it
knows is not looked at by the program.
-/
structure Client where
  storage : Storage
  program : Program Command.Reply Unit
  known : Known

namespace Client

def start (storage : Storage) (actor : Actor) : Client :=
  { storage, program := actor.program, known := fun _ => none }

def step (db : Database) (client : Client) : Database × Client :=
  let answered := client.program.step (answer client.storage) db
  (answered.1, { client with
    program := answered.2
    known := client.program.learned Known.learn (answer client.storage) db client.known
  })

end Client

-- a worker does not change the file that the import is of
structure WritesFrom (actor : Actor) (copy imp : Import) : Prop where
  before : copy.status.Before imp.status
  kept : ∀ externals job, actor = .worker externals job →
    imp.checksum = copy.checksum ∧ imp.sourceArtifactId = copy.sourceArtifactId

-- the commit is of the file that the copy is of
structure CommitsFrom (actor : Actor) (copy : Import) (data : ImportCommitData) : Prop where
  committing : copy.status = .committing
  worker : ∃ externals job, actor = .worker externals job
    ∧ data.importId = { val := job.importId } ∧ data.ownerId = { val := job.ownerId }
  checksum : copy.checksum.map (·.value) = some data.checksum
  artifact : ∀ artifactId, copy.sourceArtifactId = some artifactId → data.sourceArtifactId = artifactId

-- what is written comes from the copy
def Asks (actor : Actor) (known : Known) : Command → Prop
  | .update imp => ∃ copy, known imp.id.val = some copy ∧ WritesFrom actor copy imp
  | .commit _ data => ∃ copy, known data.importId.val = some copy ∧ CommitsFrom actor copy data
  | _ => True

-- what is read is what was asked for
def Tells (_ : Known) : (command : Command) → command.Reply → Prop
  | .findById id, reply => ∀ imp, reply = .ok (some imp) → imp.id = id
  | .findAbandoned _, reply => ∀ imports, reply = .ok imports →
    (imports.map (·.id.val)).Nodup ∧ ∀ imp ∈ imports, imp.status.isTerminal = false
  | _, _ => True

section Follows

variable {α β ε : Type} {actor : Actor} {known : Known}

/--
The program writes what comes from its copies. `post` holds of its result.
-/
def Follows (actor : Actor) (program : ExceptT ε (Program Command.Reply) α) (known : Known)
    (post : α → Known → Prop) : Prop :=
  (ExceptT.run program).Tracks (Asks actor) Tells Known.learn
    (fun result known => ∀ a, result = .ok a → post a known) known

theorem Follows.mono {program : ExceptT ε (Program Command.Reply) α} {post post' : α → Known → Prop}
    (h : Follows actor program known post) (hpost : ∀ a known, post a known → post' a known)
    : Follows actor program known post' :=
  Program.Yields.mono h hpost

theorem Follows.bind {program : ExceptT ε (Program Command.Reply) α}
    {f : α → ExceptT ε (Program Command.Reply) β} {post : β → Known → Prop}
    (h : Follows actor program known fun a known => Follows actor (f a) known post)
    : Follows actor (program >>= f) known post :=
  Program.Yields.bind h

theorem follows_pure {post : α → Known → Prop} {a : α} (h : post a known)
    : Follows actor (pure a : ExceptT ε (Program Command.Reply) α) known post :=
  Program.yields_pure h

theorem follows_throw (e : ε) (known : Known) (post : α → Known → Prop)
    : Follows actor (throw e : ExceptT ε (Program Command.Reply) α) known post :=
  Program.yields_throw e known post

theorem follows_ofExcept {result : Except ImportError α} {post : α → Known → Prop}
    (h : ∀ a, result = .ok a → post a known) : Follows actor (ofExcept result) known post := h

theorem follows_findById {id : ImportId} {post : Option Import → Known → Prop}
    (hnone : post none known)
    (hsome : ∀ imp, imp.id = id → post (some imp) (Function.update known id.val (some imp)))
    : Follows actor (findById id) known post := by
  refine ⟨trivial, ?_⟩
  intro reply hreply found hfound
  subst hfound
  cases found with
  | none => exact hnone
  | some imp =>
    obtain rfl := hreply imp rfl
    exact hsome imp rfl

theorem follows_update {copy imp : Import} {post : Unit → Known → Prop}
    (hcopy : known imp.id.val = some copy) (hwrites : WritesFrom actor copy imp)
    (h : post () (Function.update known imp.id.val (some imp)))
    : Follows actor (update imp) known post := by
  refine ⟨⟨copy, hcopy, hwrites⟩, ?_⟩
  intro reply _ a ha
  subst ha
  exact h

-- a command that writes nothing
theorem follows_attempt {command : Command} {post : command.Reply → Known → Prop}
    (hasks : Asks actor known command)
    (h : ∀ reply, Tells known command reply → post reply (known.learn command reply))
    : Follows actor (attempt command : ExceptT ε (Program Command.Reply) command.Reply) known post :=
  Program.yields_lift_call hasks h

theorem follows_lift {program : ExceptT ε (Program Command.Reply) α} {ε' : Type}
    {post : Except ε α → Known → Prop}
    (h : (ExceptT.run program).Tracks (Asks actor) Tells Known.learn post known)
    : Follows actor (ExceptT.lift program.run : ExceptT ε' (Program Command.Reply) (Except ε α)) known
      post := by
  apply Program.Tracks.bind
  apply h.mono
  intro result known hresult a ha
  cases ha
  exact hresult

end Follows

end Imports
