import DataOlympus.Python.Dict
import DataOlympus.Text.Lines
import DataOlympus.Transition.Run

/-!
# Live sessions and the tracker of their activity

A transport session is registered by the transport library and stamped by the middleware
whenever a request names it.  The reaper asks the tracker which of the live sessions are idle
and terminates those one after the other, and every other task may run in between.
-/

namespace DataOlympus.Sessions

open Lines Python Transition

/-- The value of an `mcp-session-id` header. -/
abbrev SessionId : Type := Text

/-- `SessionActivityTracker`, whose stamps are readings of the monotonic clock. -/
structure Tracker where
  lastSeen : Dict SessionId Int

namespace Tracker

/-- `touch(session_id)`. -/
def touch (tracker : Tracker) (id : SessionId) (now : Int) : Tracker :=
  if id = [] then tracker else ⟨tracker.lastSeen.set id now⟩

/-- `forget(session_id)`. -/
def forget (tracker : Tracker) (id : SessionId) : Tracker :=
  ⟨tracker.lastSeen.erase id⟩

/-- The loop of `idle_session_ids` over the live ids. -/
def judge (idleAfter now : Int) : List SessionId → Tracker → List SessionId × Tracker
  | [], tracker => ([], tracker)
  | id :: rest, tracker =>
      match tracker.lastSeen.get id with
      | none => judge idleAfter now rest ⟨tracker.lastSeen.set id now⟩
      | some seen =>
          let (idle, judged) := judge idleAfter now rest tracker
          (if idleAfter ≤ now - seen then id :: idle else idle, judged)

/-- `idle_session_ids(…)`: what is no longer live is dropped first. -/
def idleSessionIds (tracker : Tracker) (liveIds : List SessionId) (idleAfter now : Int) :
    List SessionId × Tracker :=
  judge idleAfter now liveIds ⟨tracker.lastSeen.filter fun id _ => id ∈ liveIds⟩

variable {tracker : Tracker} {idleAfter now : Int} {liveIds : List SessionId} {id : SessionId}

@[simp]
theorem get_touch (other : SessionId) : (tracker.touch id now).lastSeen.get other =
    if other = id ∧ id ≠ [] then some now else tracker.lastSeen.get other := by
  unfold touch
  by_cases empty : id = []
  · simp [empty]
  · by_cases same : other = id
    · simp [empty, same, Dict.get_set]
    · simp [empty, same, Dict.get_set_of_ne]

@[simp]
theorem get_forget (other : SessionId) : (tracker.forget id).lastSeen.get other =
    if other = id then none else tracker.lastSeen.get other := by
  by_cases same : other = id
  · simp [forget, same, Dict.get_erase]
  · simp [forget, same, Dict.get_erase_of_ne]

/-- The loop stamps the ids it does not know and tells the idle ones of those it knows. -/
theorem judge_spec (once : liveIds.Nodup) (tracker : Tracker) :
    (∀ id, id ∈ (judge idleAfter now liveIds tracker).1 ↔
      id ∈ liveIds ∧ ∃ seen, tracker.lastSeen.get id = some seen ∧ idleAfter ≤ now - seen) ∧
    ∀ id, (judge idleAfter now liveIds tracker).2.lastSeen.get id =
      if id ∈ liveIds then some ((tracker.lastSeen.get id).getD now)
      else tracker.lastSeen.get id := by
  induction liveIds generalizing tracker with
  | nil => simp [judge]
  | cons first rest ih =>
      obtain ⟨fresh, restOnce⟩ := List.nodup_cons.mp once
      unfold judge
      cases known : tracker.lastSeen.get first with
      | none =>
          obtain ⟨idle, stamps⟩ := ih restOnce ⟨tracker.lastSeen.set first now⟩
          constructor
          · intro id
            by_cases same : id = first
            · subst same
              simp [idle, fresh, known]
            · simp [idle, same, Dict.get_set_of_ne]
          · intro id
            by_cases same : id = first
            · subst same
              simp [stamps, fresh, known, Dict.get_set]
            · simp [stamps, same, Dict.get_set_of_ne]
      | some seen =>
          obtain ⟨idle, stamps⟩ := ih restOnce tracker
          constructor
          · intro id
            by_cases same : id = first
            · subst same
              by_cases long : idleAfter ≤ now - seen
              · simp [long, known]
              · simp [long, idle, fresh, known]
            · by_cases long : idleAfter ≤ now - seen
              · simp [long, idle, same]
              · simp [long, idle, same]
          · intro id
            by_cases same : id = first
            · subst same
              simp [stamps, fresh, known]
            · simp [stamps, same]

theorem get_filter_mem (tracker : Tracker) : (tracker.lastSeen.filter fun id _ =>
    id ∈ liveIds).get id = if id ∈ liveIds then tracker.lastSeen.get id else none := by
  apply Option.ext
  intro seen
  rw [Dict.get_eq_some_iff, Dict.mem_filter]
  by_cases live : id ∈ liveIds
  · simp [live, Dict.get_eq_some_iff]
  · simp [live]

/-- The idle ones are live and were stamped long ago. -/
theorem mem_idleSessionIds (once : liveIds.Nodup) :
    id ∈ (tracker.idleSessionIds liveIds idleAfter now).1 ↔
      id ∈ liveIds ∧ ∃ seen, tracker.lastSeen.get id = some seen ∧ idleAfter ≤ now - seen := by
  unfold idleSessionIds
  rw [(judge_spec once _).1, get_filter_mem]
  by_cases live : id ∈ liveIds
  · simp [live]
  · simp [live]

/-- Behind the question exactly the live ids have a stamp. -/
theorem get_idleSessionIds (once : liveIds.Nodup) :
    (tracker.idleSessionIds liveIds idleAfter now).2.lastSeen.get id =
      if id ∈ liveIds then some ((tracker.lastSeen.get id).getD now) else none := by
  unfold idleSessionIds
  rw [(judge_spec once _).2, get_filter_mem]
  by_cases live : id ∈ liveIds
  · simp [live]
  · simp [live]

end Tracker

/-! ## The server and its tasks -/

/-- A pass of the reaper in flight. -/
structure Pass where
  /-- The idle sessions whose turn has not come. -/
  waiting : List SessionId
  /-- The session whose `terminate()` is awaited. -/
  awaited : Option SessionId

structure Server where
  now : Int
  /-- The keys of `_server_instances`. -/
  instances : List SessionId
  once : instances.Nodup
  /-- The transports with `is_terminated`. -/
  terminated : List SessionId
  tracker : Tracker
  /-- The sessions of the open `GET` streams. -/
  streams : List SessionId
  named : [] ∉ streams
  pass : Option Pass

/-- What one task does without yielding. -/
inductive Event where
  /-- The library registers a transport. -/
  | register (id : SessionId)
  /-- The library drops a transport. -/
  | discard (id : SessionId)
  /-- A transport becomes terminated. -/
  | markTerminated (id : SessionId)
  /-- The middleware sees a request with a session header. -/
  | request (id : SessionId) (isGet : Bool)
  /-- `_keep_active` of an open stream wakes up. -/
  | keepActive (id : SessionId)
  /-- An open stream ends. -/
  | disconnect (id : SessionId)
  /-- `reap_idle_sessions` takes its snapshot, in the order of the set. -/
  | beginPass (liveIds : List SessionId)
  /-- The turn of a session that is terminated already. -/
  | skip (id : SessionId)
  /-- The turn of a session: its `terminate()` is called. -/
  | terminate (id : SessionId)
  /-- `terminate()` has returned or raised. -/
  | settle (id : SessionId)
  /-- The pass is over. -/
  | endPass

/-- The session that the event stamps as active. -/
def Event.touches : Event → Option SessionId
  | request id _ => some id
  | keepActive id => some id
  | _ => none

/-- The session is stamped or found live by the event. -/
def Event.Sees (id : SessionId) : Event → Prop
  | request other _ => other = id
  | keepActive other => other = id
  | beginPass liveIds => id ∈ liveIds
  | _ => False

namespace Server

/-- The server before any session. -/
def initial : Server where
  now := 0
  instances := []
  once := List.nodup_nil
  terminated := []
  tracker := ⟨Dict.empty⟩
  streams := []
  named := List.not_mem_nil
  pass := none

/-- What an event does to the server; `none` where it cannot happen. -/
def apply (idleAfter : Int) (server : Server) : Event → Option Server
  | .register id => some { server with
      instances := server.instances.insert id
      once := server.once.insert }
  | .discard id => some { server with
      instances := server.instances.filter (· ≠ id)
      once := server.once.filter _ }
  | .markTerminated id => some { server with terminated := id :: server.terminated }
  | .request id isGet =>
      if unnamed : id = [] then none
      else some { server with
        tracker := server.tracker.touch id server.now
        streams := if isGet then id :: server.streams else server.streams
        named := by
          cases isGet with
          | false => exact server.named
          | true => simpa [eq_comm, unnamed] using server.named }
  | .keepActive id =>
      if id ∈ server.streams then
        some { server with tracker := server.tracker.touch id server.now }
      else none
  | .disconnect id => some { server with
      streams := server.streams.erase id
      named := fun member => server.named (List.mem_of_mem_erase member) }
  | .beginPass liveIds =>
      if server.pass.isNone && decide (liveIds.Perm server.instances) then
        let (idle, tracker) := server.tracker.idleSessionIds liveIds idleAfter server.now
        some { server with tracker := tracker, pass := some ⟨idle, none⟩ }
      else none
  | .skip id =>
      match server.pass with
      | some ⟨first :: waiting, none⟩ =>
          if first = id ∧ id ∈ server.terminated then
            some { server with
              tracker := server.tracker.forget id
              pass := some ⟨waiting, none⟩ }
          else none
      | _ => none
  | .terminate id =>
      match server.pass with
      | some ⟨first :: waiting, none⟩ =>
          if first = id ∧ id ∉ server.terminated then
            some { server with pass := some ⟨waiting, some id⟩ }
          else none
      | _ => none
  | .settle id =>
      match server.pass with
      | some ⟨waiting, some awaited⟩ =>
          if awaited = id then
            some { server with
              tracker := server.tracker.forget id
              pass := some ⟨waiting, none⟩ }
          else none
      | _ => none
  | .endPass =>
      match server.pass with
      | some ⟨[], none⟩ => some { server with pass := none }
      | _ => none

/-- An event at a reading of the clock that is not before the last one. -/
def step (idleAfter : Int) : System Server (Int × Event) := fun source label target =>
  source.now ≤ label.1 ∧ { source with now := label.1 }.apply idleAfter label.2 = some target

/-- A whole run of the tasks, one label after the other. -/
def execute (idleAfter : Int) (server : Server) (labels : List (Int × Event)) : Option Server :=
  labels.foldlM (fun server label =>
    if server.now ≤ label.1 then { server with now := label.1 }.apply idleAfter label.2
    else none) server

theorem run_of_execute {idleAfter : Int} {server target : Server} {labels : List (Int × Event)}
    (executed : server.execute idleAfter labels = some target) :
    Run (step idleAfter) server labels target := by
  induction labels generalizing server with
  | nil =>
      cases executed
      exact Run.refl
  | cons label rest ih =>
      rw [execute, List.foldlM_cons] at executed
      rcases Option.bind_eq_some_iff.mp executed with ⟨middle, first, others⟩
      split at first
      · rename_i later
        exact (Run.single ⟨later, first⟩).trans (ih others)
      · cases first

end Server

end DataOlympus.Sessions
