import Mathlib.Data.Option.Basic
import Haiker.Concurrency.Interleaving
import Haiker.Exports.GenerateExport

/-!
This module contains those who work on exports, each of whom may be gone after any number of calls, and
where what they ask for comes from: the copy of the job that they have loaded, the object that they have
downloaded and the file that they have generated.
-/

open Rust

namespace Exports

open GenerateExportJobHandler (storageKey EXPIRATION)

/--
What a client has got and given so far. It is not looked at by the programs.
-/
structure Known where
  loaded : Option ExportJob
  downloaded : Option Bytes
  -- an activity without a title, and one whose title could not be read, count as `none`
  titles : List (Option String)
  given : Option Bytes

namespace Known

def nothing : Known where
  loaded := none
  downloaded := none
  titles := []
  given := none

def learn (known : Known) : (command : Command) → command.Reply → Known
  | .findById _, reply =>
    match reply with
    | .ok (some job) => { known with loaded := some job }
    | _ => known
  | .findTitle _, reply => { known with titles := reply.toOption.join :: known.titles }
  | .download _, reply =>
    match reply with
    | .ok bytes => { known with downloaded := some bytes }
    | .error _ => known
  | .upload _ body, _ => { known with given := some body }
  | .update _, _ | .findGeometry _, _ | .generate _, _ | .exists_ _, _ | .delete _, _
  | .setTitle _ _, _ => known

end Known

/--
A client with what is left of its program. It is gone after `lifetime` more calls, and a crash in the
middle of a call is a call that fails.
-/
structure Client where
  program : Program Command.Reply (Option ExportJob)
  known : Known
  lifetime : Option Nat

namespace Client

variable (crates : Crates)

def start (actor : Actor) (lifetime : Option Nat) : Client :=
  { program := actor.program crates, known := .nothing, lifetime }

def step (s : State) (client : Client) : State × Client :=
  if client.lifetime = some 0 then
    (s, client)
  else
    let answered := client.program.step (answer crates) s
    (answered.1, {
      program := answered.2
      known := client.program.learned Known.learn (answer crates) s client.known
      lifetime := client.lifetime.map (· - 1)
    })

-- the next call, if the client is still there for it
def command? (client : Client) : Option Command :=
  if client.lifetime = some 0 then none else client.program.command?

-- the job that the next call stores, be it said to have failed or not
def stores (client : Client) (s : State) : Option ExportJob :=
  match client.command? with
  | some (.update job) => if s.takesEffect then some job else none
  | _ => none

-- what the next call leaves in the storage, and under which key
def puts (client : Client) (s : State) : Option (String × Option StoredObject) :=
  match client.command? with
  | some (.upload key body) =>
    if s.takesEffect then
      (s.faults.stored s.calls body).map fun bytes => (key, some ⟨bytes, bytes = body⟩)
    else
      none
  | some (.delete key) => if s.takesEffect then some (key, none) else none
  | _ => none

end Client

section Follows

variable (crates : Crates) (geometries : Uuid → Option Json)

-- the file of an attempt that has read one of the titles
def File (routeVersionId : Uuid) (titles : List (Option String)) (bytes : Bytes) : Prop :=
  ∃ geometryJson segments, geometries routeVersionId = some geometryJson
    ∧ parseGeometryJson geometryJson = .ok segments
    ∧ ∃ activityName ∈ titles, bytes = gpxBytes crates { activityName, segments }

/--
The ways to come from a copy to what is stored.
-/
inductive WritesFrom (known : Known) (copy : ExportJob) : Actor → ExportJob → Prop where
  | starting {now timeoutSeconds payload} (hqueued : copy.status = .queued)
    : WritesFrom known copy (.worker now timeoutSeconds payload)
        { copy with status := .generating, updatedAt := now }
  | completing {now timeoutSeconds payload bytes}
    (hstatus : copy.status = .queued ∨ copy.status = .generating)
    (hid : copy.id.val = payload.exportJobId) (hdownloaded : known.downloaded = some bytes)
    (hgiven : ∀ file, known.given = some file →
      File crates geometries payload.routeVersionId known.titles file)
    : WritesFrom known copy (.worker now timeoutSeconds payload)
        { copy with
          status := .ready
          objectStorageKey := some (storageKey crates payload.ownerId payload.exportJobId)
          checksum := some (crates.sha256Hex bytes)
          expiresAt := some (now + EXPIRATION)
          updatedAt := now
        }
  | keeping {now timeoutSeconds payload} (hstatus : copy.status = .failed ∨ copy.status = .expired)
    : WritesFrom known copy (.worker now timeoutSeconds payload) copy
  | failing {now timeoutSeconds payload} (reason : String) (hopen : copy.status.isTerminal = false)
    : WritesFrom known copy (.worker now timeoutSeconds payload)
        { copy with status := .failed, failureReason := some reason, updatedAt := now }
  | expiring {now exportId} (hready : copy.status = .ready)
    : WritesFrom known copy (.expirer now exportId)
        { copy with status := .expired, updatedAt := now }

def Asks (actor : Actor) (known : Known) : Command → Prop
  | .update job => ∃ copy, known.loaded = some copy ∧ copy.id = job.id
    ∧ WritesFrom crates geometries known copy actor job
  | .upload key body => ∃ now timeoutSeconds payload, actor = .worker now timeoutSeconds payload
    ∧ key = storageKey crates payload.ownerId payload.exportJobId
    ∧ File crates geometries payload.routeVersionId known.titles body
  | .delete key => ∃ now copy, actor = .expirer now copy.id ∧ known.loaded = some copy
    ∧ copy.objectStorageKey = some key
  | _ => True

-- what is read is what was asked for
def Tells (_ : Known) : (command : Command) → command.Reply → Prop
  | .findById id, reply => ∀ job, reply = .ok (some job) → job.id = id
  | .findGeometry routeVersionId, reply =>
    ∀ geometryJson, reply = .ok (some geometryJson) → geometries routeVersionId = some geometryJson
  | .generate input, reply => ∀ bytes, reply = .ok bytes → bytes = gpxBytes crates input
  | _, _ => True

variable {crates geometries} {α β ε : Type} {actor : Actor} {known : Known}

/--
The program asks for what comes from what it has got. `post` holds of its result.
-/
def Follows (crates : Crates) (geometries : Uuid → Option Json) (actor : Actor)
    (program : ExceptT ε (Program Command.Reply) α) (known : Known) (post : α → Known → Prop) : Prop :=
  (ExceptT.run program).Tracks (Asks crates geometries actor) (Tells crates geometries) Known.learn
    (fun result known => ∀ a, result = .ok a → post a known) known

theorem Follows.mono {program : ExceptT ε (Program Command.Reply) α} {post post' : α → Known → Prop}
    (h : Follows crates geometries actor program known post)
    (hpost : ∀ a known, post a known → post' a known)
    : Follows crates geometries actor program known post' :=
  Program.Tracks.mono h fun _ known hresult a ha => hpost a known (hresult a ha)

theorem Follows.bind {program : ExceptT ε (Program Command.Reply) α}
    {f : α → ExceptT ε (Program Command.Reply) β} {post : β → Known → Prop}
    (h : Follows crates geometries actor program known
      fun a known => Follows crates geometries actor (f a) known post)
    : Follows crates geometries actor (program >>= f) known post := by
  apply Program.Tracks.exceptBind
  apply Program.Tracks.mono h
  intro result known hresult
  exact ⟨hresult, fun e _ b hb => by cases hb⟩

theorem follows_pure {post : α → Known → Prop} {a : α} (h : post a known)
    : Follows crates geometries actor (pure a : ExceptT ε (Program Command.Reply) α) known post := by
  intro b hb
  cases hb
  exact h

theorem follows_throw (e : ε) (known : Known) (post : α → Known → Prop)
    : Follows crates geometries actor (throw e : ExceptT ε (Program Command.Reply) α) known post := by
  intro b hb
  cases hb

-- what needs no call
theorem follows_done {result : Except ε α} {post : α → Known → Prop}
    (h : ∀ a, result = .ok a → post a known)
    : Follows crates geometries actor (ExceptT.mk (.done result)) known post := h

theorem follows_attempt {command : Command} {post : command.Reply → Known → Prop}
    (hasks : Asks crates geometries actor known command)
    (h : ∀ reply, Tells crates geometries known command reply → post reply (known.learn command reply))
    : Follows crates geometries actor
        (attempt command : ExceptT ε (Program Command.Reply) command.Reply) known post := by
  refine ⟨hasks, ?_⟩
  intro reply hreply a ha
  cases ha
  exact h reply hreply

theorem follows_lift {program : ExceptT ε (Program Command.Reply) α} {ε' : Type}
    {post : Except ε α → Known → Prop}
    (h : (ExceptT.run program).Tracks (Asks crates geometries actor) (Tells crates geometries) Known.learn
      post known)
    : Follows crates geometries actor
        (ExceptT.lift program.run : ExceptT ε' (Program Command.Reply) (Except ε α)) known post := by
  apply Program.Tracks.bind
  apply h.mono
  intro result known hresult a ha
  cases ha
  exact hresult

end Follows

end Exports
