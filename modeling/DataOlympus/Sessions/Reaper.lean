import DataOlympus.Sessions.Tracker

/-!
# Which sessions the reaper terminates

Whatever the tasks of the server do between the turns of a pass, the reaper terminates a
session only if nothing stamped it for the whole idle time before the pass began, and two
passes that far apart leave no idle session without its turn.
-/

namespace DataOlympus.Sessions

open Python Transition

variable {idleAfter : Int} {server target : Server} {event : Event} {id : SessionId}

/-! ## What one event does -/

/-- The stamp of a session behind an event. -/
def Event.stamp (id : SessionId) (now : Int) (stamp : Option Int) : Event → Option Int
  | request other _ => if id = other then some now else stamp
  | keepActive other => if id = other then some now else stamp
  | beginPass liveIds => if id ∈ liveIds then some (stamp.getD now) else none
  | skip other => if id = other then none else stamp
  | settle other => if id = other then none else stamp
  | _ => stamp

/-- A stamp is an old one that no touch replaced, or it was made where the session was seen. -/
theorem Event.stamp_eq_some {now seen : Int} {stamp : Option Int}
    (stamped : event.stamp id now stamp = some seen) :
    stamp = some seen ∧ event.touches ≠ some id ∨ seen = now ∧ event.Sees id := by
  cases event with
  | request other _ =>
      by_cases same : id = other
      · simp only [Event.stamp, same, if_pos, Option.some.injEq] at stamped
        exact .inr ⟨stamped.symm, same.symm⟩
      · simp only [Event.stamp, same, if_false] at stamped
        exact .inl ⟨stamped, fun touched => same (Option.some.inj touched).symm⟩
  | keepActive other =>
      by_cases same : id = other
      · simp only [Event.stamp, same, if_pos, Option.some.injEq] at stamped
        exact .inr ⟨stamped.symm, same.symm⟩
      · simp only [Event.stamp, same, if_false] at stamped
        exact .inl ⟨stamped, fun touched => same (Option.some.inj touched).symm⟩
  | beginPass liveIds =>
      by_cases live : id ∈ liveIds
      · simp only [Event.stamp, live, if_true, Option.some.injEq] at stamped
        cases stamp with
        | none => exact .inr ⟨stamped.symm, live⟩
        | some old => exact .inl ⟨congrArg some stamped, nofun⟩
      · simp [Event.stamp, live] at stamped
  | skip other =>
      by_cases same : id = other
      · simp [Event.stamp, same] at stamped
      · simp only [Event.stamp, same, if_false] at stamped
        exact .inl ⟨stamped, nofun⟩
  | settle other =>
      by_cases same : id = other
      · simp [Event.stamp, same] at stamped
      · simp only [Event.stamp, same, if_false] at stamped
        exact .inl ⟨stamped, nofun⟩
  | register | discard | markTerminated | disconnect | terminate | endPass =>
      exact .inl ⟨stamped, nofun⟩

/-- A stamp goes only with the turn of its session, or where a pass finds it dead. -/
theorem Event.stamp_some (event : Event) (id : SessionId) (now seen : Int) :
    event.stamp id now (some seen) = some seen ∨
      event.touches = some id ∧ event.stamp id now (some seen) = some now ∨
      event = .skip id ∨ event = .settle id ∨ ∃ liveIds, event = .beginPass liveIds ∧
        id ∉ liveIds := by
  cases event with
  | request other _ =>
      by_cases same : id = other
      · exact .inr (.inl ⟨congrArg some same.symm, if_pos same⟩)
      · exact .inl (if_neg same)
  | keepActive other =>
      by_cases same : id = other
      · exact .inr (.inl ⟨congrArg some same.symm, if_pos same⟩)
      · exact .inl (if_neg same)
  | beginPass liveIds =>
      by_cases live : id ∈ liveIds
      · exact .inl (if_pos live)
      · exact .inr (.inr (.inr (.inr ⟨liveIds, rfl, live⟩)))
  | skip other =>
      by_cases same : id = other
      · exact .inr (.inr (.inl (congrArg _ same.symm)))
      · exact .inl (if_neg same)
  | settle other =>
      by_cases same : id = other
      · exact .inr (.inr (.inr (.inl (congrArg _ same.symm))))
      · exact .inl (if_neg same)
  | register | discard | markTerminated | disconnect | terminate | endPass => exact .inl rfl

/-- The event starts a pass. -/
def Event.Begins (event : Event) : Prop :=
  ∃ liveIds, event = beginPass liveIds

namespace Server

/-- The `terminate()` of the session is awaited. -/
def Awaits (server : Server) (id : SessionId) : Prop :=
  ∃ pass, server.pass = some pass ∧ pass.awaited = some id

/-- The session waits for its turn or has it. -/
def Listed (server : Server) (id : SessionId) : Prop :=
  server.Awaits id ∨ ∃ pass, server.pass = some pass ∧ id ∈ pass.waiting

theorem Listed.of_pass_eq (same : target.pass = server.pass) (listed : target.Listed id) :
    server.Listed id := by
  unfold Listed Awaits at *
  rwa [same] at listed

/-- What an event other than the start of a pass does to the stamps and to the pass. -/
structure Change (server : Server) (event : Event) (target : Server) : Prop where
  now : target.now = server.now
  stamps : ∀ id, target.tracker.lastSeen.get id =
    event.stamp id server.now (server.tracker.lastSeen.get id)
  listed : ∀ id, target.Listed id → server.Listed id
  awaits : ∀ id, target.Awaits id → server.Awaits id ∨ event = .terminate id
  terminates : ∀ id, event = .terminate id → server.Listed id
  settles : ∀ id, event = .settle id → server.Awaits id

theorem Change.of_pass_eq (now : target.now = server.now)
    (stamps : ∀ id, target.tracker.lastSeen.get id =
      event.stamp id server.now (server.tracker.lastSeen.get id))
    (same : target.pass = server.pass)
    (plain : ∀ id, event ≠ .terminate id ∧ event ≠ .settle id) :
    server.Change event target := by
  refine ⟨now, stamps, fun id listed => listed.of_pass_eq same, ?_, ?_, ?_⟩
  · intro id awaits
    unfold Awaits at *
    exact .inl (same ▸ awaits)
  · intro id terminates
    exact absurd terminates (plain id).1
  · intro id settles
    exact absurd settles (plain id).2

/-- The start of a pass lists the live sessions that were stamped long ago. -/
theorem apply_beginPass {liveIds : List SessionId}
    (applied : server.apply idleAfter (.beginPass liveIds) = some target) :
    target.now = server.now ∧
    (∀ id, target.tracker.lastSeen.get id =
      (Event.beginPass liveIds).stamp id server.now (server.tracker.lastSeen.get id)) ∧
    (∀ id, target.Listed id ↔ id ∈ liveIds ∧
      ∃ seen, server.tracker.lastSeen.get id = some seen ∧ idleAfter ≤ server.now - seen) ∧
    ∀ id, ¬target.Awaits id := by
  simp only [apply] at applied
  split at applied
  · rename_i ready
    have once : liveIds.Nodup :=
      (of_decide_eq_true (Bool.and_eq_true_iff.mp ready).2).nodup_iff.mpr server.once
    cases applied
    have none : ∀ id, ¬Awaits { server with
        tracker := (server.tracker.idleSessionIds liveIds idleAfter server.now).2
        pass := some ⟨(server.tracker.idleSessionIds liveIds idleAfter server.now).1, none⟩ }
          id := by
      rintro id ⟨pass, here, awaited⟩
      cases here
      cases awaited
    refine ⟨rfl, fun id => Tracker.get_idleSessionIds once, fun id => ?_, none⟩
    rw [← Tracker.mem_idleSessionIds once]
    constructor
    · rintro (awaits | ⟨pass, here, waits⟩)
      · exact absurd awaits (none id)
      · cases here
        exact waits
    · intro idle
      exact .inr ⟨_, rfl, idle⟩
  · cases applied

/-- Every other event, one after the other. -/
theorem change_of_apply (applied : server.apply idleAfter event = some target)
    (plain : ¬event.Begins) : server.Change event target := by
  cases event with
  | register id =>
      cases applied
      exact .of_pass_eq rfl (fun _ => rfl) rfl (by simp)
  | discard id =>
      cases applied
      exact .of_pass_eq rfl (fun _ => rfl) rfl (by simp)
  | markTerminated id =>
      cases applied
      exact .of_pass_eq rfl (fun _ => rfl) rfl (by simp)
  | disconnect id =>
      cases applied
      exact .of_pass_eq rfl (fun _ => rfl) rfl (by simp)
  | request id isGet =>
      simp only [apply] at applied
      split at applied
      · cases applied
      · rename_i named
        cases applied
        exact .of_pass_eq rfl (fun other => by simp [Event.stamp, named]) rfl (by simp)
  | keepActive id =>
      simp only [apply] at applied
      split at applied
      · rename_i opened
        have named : id ≠ [] := fun unnamed => server.named (unnamed ▸ opened)
        cases applied
        exact .of_pass_eq rfl (fun other => by simp [Event.stamp, named]) rfl (by simp)
      · cases applied
  | beginPass liveIds => exact absurd ⟨liveIds, rfl⟩ plain
  | skip id =>
      simp only [apply] at applied
      split at applied
      · rename_i first waiting here
        split at applied
        · cases applied
          refine ⟨rfl, fun other => by simp [Event.stamp], ?_, ?_, by simp, by simp⟩
          · rintro other (⟨pass, listed, awaited⟩ | ⟨pass, listed, waits⟩)
            · cases listed
              cases awaited
            · cases listed
              exact .inr ⟨_, here, List.mem_cons_of_mem _ waits⟩
          · rintro other ⟨pass, listed, awaited⟩
            cases listed
            cases awaited
        · cases applied
      · cases applied
  | terminate id =>
      simp only [apply] at applied
      split at applied
      · rename_i first waiting here
        split at applied
        · rename_i turn
          cases applied
          refine ⟨rfl, fun other => rfl, ?_, ?_, ?_, by simp⟩
          · rintro other (⟨pass, listed, awaited⟩ | ⟨pass, listed, waits⟩)
            · cases listed
              cases awaited
              exact .inr ⟨_, here, turn.1 ▸ List.mem_cons_self⟩
            · cases listed
              exact .inr ⟨_, here, List.mem_cons_of_mem _ waits⟩
          · rintro other ⟨pass, listed, awaited⟩
            cases listed
            cases awaited
            exact .inr rfl
          · rintro other same
            cases same
            exact .inr ⟨_, here, turn.1 ▸ List.mem_cons_self⟩
        · cases applied
      · cases applied
  | settle id =>
      simp only [apply] at applied
      split at applied
      · rename_i waiting awaited here
        split at applied
        · rename_i turn
          cases applied
          refine ⟨rfl, fun other => by simp [Event.stamp], ?_, ?_, by simp, ?_⟩
          · rintro other (⟨pass, listed, awaited⟩ | ⟨pass, listed, waits⟩)
            · cases listed
              cases awaited
            · cases listed
              exact .inr ⟨_, here, waits⟩
          · rintro other ⟨pass, listed, awaited⟩
            cases listed
            cases awaited
          · rintro other same
            cases same
            exact ⟨_, here, congrArg some turn⟩
        · cases applied
      · cases applied
  | endPass =>
      simp only [apply] at applied
      split at applied
      · cases applied
        refine ⟨rfl, fun other => rfl, ?_, ?_, by simp, by simp⟩
        · rintro other (⟨pass, listed, -⟩ | ⟨pass, listed, -⟩)
          · cases listed
          · cases listed
        · rintro other ⟨pass, listed, -⟩
          cases listed
      · cases applied

end Server

/-! ## Whom the reaper terminates -/

variable {labels : List (Int × Event)}

/-- Nothing stamped the session for the idle time before `started`, and it had been seen by
then. -/
structure IdleAt (idleAfter : Int) (labels : List (Int × Event)) (started : Int)
    (id : SessionId) : Prop where
  quiet : ∀ label ∈ labels, label.2.touches = some id → label.1 + idleAfter ≤ started
  known : ∃ label ∈ labels, label.2.Sees id ∧ label.1 + idleAfter ≤ started

/-- The session was live and idle when the last pass began. -/
def LastPassFound (idleAfter : Int) (labels : List (Int × Event)) (id : SessionId) : Prop :=
  ∃ earlier started liveIds later,
    labels = earlier ++ (started, .beginPass liveIds) :: later ∧ id ∈ liveIds ∧
      (∀ label ∈ later, ¬label.2.Begins) ∧ IdleAt idleAfter earlier started id

/-- What the stamps and the lists of the reaper tell of the past. -/
structure Tracked (idleAfter : Int) (labels : List (Int × Event)) (server : Server) : Prop where
  past : ∀ label ∈ labels, label.1 ≤ server.now
  quiet : ∀ id seen, server.tracker.lastSeen.get id = some seen →
    ∀ label ∈ labels, label.2.touches = some id → label.1 ≤ seen
  known : ∀ id seen, server.tracker.lastSeen.get id = some seen →
    ∃ label ∈ labels, label.2.Sees id ∧ label.1 = seen
  listed : ∀ id, server.Listed id → LastPassFound idleAfter labels id

theorem Tracked.initial : Tracked idleAfter [] Server.initial where
  past _ member := absurd member List.not_mem_nil
  quiet _ _ _ _ member := absurd member List.not_mem_nil
  known _ _ stamped := by cases stamped
  listed id listed := by
    rcases listed with ⟨pass, here, -⟩ | ⟨pass, here, -⟩
    · cases here
    · cases here

theorem LastPassFound.concat {label : Int × Event} (found : LastPassFound idleAfter labels id)
    (plain : ¬label.2.Begins) : LastPassFound idleAfter (labels ++ [label]) id := by
  rcases found with ⟨earlier, started, liveIds, later, rfl, live, quiet, idle⟩
  refine ⟨earlier, started, liveIds, later ++ [label], ?_, live, ?_, idle⟩
  · rw [List.append_assoc, List.cons_append]
  · exact List.forall_mem_append.mpr ⟨quiet, List.forall_mem_singleton.mpr plain⟩

/-- The stamps of any event at a later reading of the clock. -/
theorem Tracked.stamps {label : Int × Event} (tracked : Tracked idleAfter labels server)
    (later : server.now ≤ label.1) (now : target.now = label.1)
    (stamps : ∀ id, target.tracker.lastSeen.get id =
      label.2.stamp id label.1 (server.tracker.lastSeen.get id))
    (listed : ∀ id, target.Listed id → LastPassFound idleAfter (labels ++ [label]) id) :
    Tracked idleAfter (labels ++ [label]) target := by
  have past : ∀ other ∈ labels ++ [label], other.1 ≤ label.1 := by
    intro other member
    rcases List.mem_append.mp member with before | last
    · exact (tracked.past other before).trans later
    · rw [List.mem_singleton.mp last]
  refine ⟨now ▸ past, ?_, ?_, listed⟩
  · intro id seen stamped other member touches
    rw [stamps] at stamped
    rcases Event.stamp_eq_some stamped with ⟨old, untouched⟩ | ⟨rfl, -⟩
    · rcases List.mem_append.mp member with before | last
      · exact tracked.quiet id seen old other before touches
      · rw [List.mem_singleton.mp last] at touches
        exact absurd touches untouched
    · exact past other member
  · intro id seen stamped
    rw [stamps] at stamped
    rcases Event.stamp_eq_some stamped with ⟨old, -⟩ | ⟨rfl, sees⟩
    · rcases tracked.known id seen old with ⟨other, before, sees, same⟩
      exact ⟨other, List.mem_append_left _ before, sees, same⟩
    · exact ⟨label, List.mem_append_right _ List.mem_cons_self, sees, rfl⟩

theorem Tracked.step {label : Int × Event} (tracked : Tracked idleAfter labels server)
    (taken : Server.step idleAfter server label target) :
    Tracked idleAfter (labels ++ [label]) target := by
  rcases taken with ⟨later, applied⟩
  by_cases begins : label.2.Begins
  · rcases label with ⟨time, event⟩
    rcases begins with ⟨liveIds, rfl⟩
    rcases Server.apply_beginPass applied with ⟨now, stamps, listed, -⟩
    refine tracked.stamps later now stamps fun id found => ?_
    rcases (listed id).mp found with ⟨live, seen, stamped, long⟩
    refine ⟨labels, time, liveIds, [], rfl, live, fun _ => nofun, ?_, ?_⟩
    · intro other member touches
      have before := tracked.quiet id seen stamped other member touches
      have span : idleAfter ≤ time - seen := long
      omega
    · rcases tracked.known id seen stamped with ⟨other, member, sees, same⟩
      have span : idleAfter ≤ time - seen := long
      exact ⟨other, member, sees, by omega⟩
  · have change := Server.change_of_apply applied begins
    exact tracked.stamps later change.now change.stamps fun id found =>
      (tracked.listed id (change.listed id found)).concat begins

theorem tracked_of_run (run : Run (Server.step idleAfter) Server.initial labels server) :
    Tracked idleAfter labels server := by
  induction run with
  | refl => exact Tracked.initial
  | tail _ last ih => exact ih.step last

/-- In every run, a session whose `terminate()` the reaper calls was live when the pass began,
had been seen at least the idle time before, and nothing had stamped it since. -/
theorem terminate_only_idle {before after : List (Int × Event)} {time : Int}
    (run : Run (Server.step idleAfter) Server.initial
      (before ++ (time, .terminate id) :: after) server) :
    LastPassFound idleAfter before id := by
  rw [List.append_cons] at run
  rcases run.exists_between with ⟨next, first, -⟩
  rcases first.exists_last with ⟨middle, upTo, -, applied⟩
  have change := Server.change_of_apply applied nofun
  exact (tracked_of_run upTo).listed id (change.terminates id rfl)

/-- A session that handshakes, calls once and is never heard of again. -/
theorem terminate_only_idle_once :
    ∃ server, Run (Server.step 300) Server.initial
        [(0, .register "a".toList), (5, .request "a".toList false),
          (60, .beginPass ["a".toList]), (60, .endPass), (305, .beginPass ["a".toList]),
          (306, .terminate "a".toList)] server ∧
      LastPassFound 300 [(0, .register "a".toList), (5, .request "a".toList false),
        (60, .beginPass ["a".toList]), (60, .endPass), (305, .beginPass ["a".toList])]
          "a".toList := by
  have run : Run (Server.step 300) Server.initial
      ([(0, .register "a".toList), (5, .request "a".toList false), (60, .beginPass ["a".toList]),
        (60, .endPass), (305, .beginPass ["a".toList])] ++ [(306, .terminate "a".toList)]) _ :=
    Server.run_of_execute rfl
  exact ⟨_, run, terminate_only_idle run⟩

/-! ## Whom the reaper reaches -/

/-- The session has had its turn, or its stamp is old enough. -/
def Due (idleAfter : Int) (id : SessionId) (second : Int) (labels : List (Int × Event))
    (server : Server) : Prop :=
  (∃ label ∈ labels, label.2 = .terminate id ∨ label.2 = .skip id) ∨
    ¬server.Awaits id ∧
      ∃ seen, server.tracker.lastSeen.get id = some seen ∧ seen + idleAfter ≤ second

/-- The stamp of a session that is not touched again stays until its turn. -/
theorem Due.step {second : Int} {label : Int × Event} (due : Due idleAfter id second labels server)
    (taken : Server.step idleAfter server label target)
    (live : ∀ liveIds, label.2 = .beginPass liveIds → id ∈ liveIds)
    (quiet : label.2.touches = some id → label.1 + idleAfter ≤ second) :
    Due idleAfter id second (labels ++ [label]) target := by
  rcases due with ⟨turn, before, taken⟩ | ⟨idle, seen, stamped, long⟩
  · exact .inl ⟨turn, List.mem_append_left _ before, taken⟩
  · by_cases turn : label.2 = .terminate id ∨ label.2 = .skip id
    · exact .inl ⟨label, List.mem_append_right _ List.mem_cons_self, turn⟩
    · obtain ⟨notTerminated, notSkipped⟩ := not_or.mp turn
      have effect : ¬target.Awaits id ∧ label.2 ≠ .settle id ∧
          target.tracker.lastSeen.get id = label.2.stamp id label.1 (some seen) := by
        by_cases begins : label.2.Begins
        · rcases label with ⟨time, event⟩
          rcases begins with ⟨liveIds, rfl⟩
          rcases Server.apply_beginPass taken.2 with ⟨-, stamps, -, none⟩
          exact ⟨none id, nofun, (stamps id).trans
            (congrArg ((Event.beginPass liveIds).stamp id time ·) stamped)⟩
        · have change := Server.change_of_apply taken.2 begins
          refine ⟨?_, fun settles => idle (change.settles id settles), ?_⟩
          · intro awaits
            exact (change.awaits id awaits).elim idle notTerminated
          · exact (change.stamps id).trans (congrArg (label.2.stamp id label.1 ·) stamped)
      rcases effect with ⟨stillIdle, unsettled, now⟩
      refine .inr ⟨stillIdle, ?_⟩
      rcases label.2.stamp_some id label.1 seen with
        kept | ⟨touched, fresh⟩ | skipped | settled | ⟨liveIds, begins, dead⟩
      · exact ⟨seen, now.trans kept, long⟩
      · exact ⟨label.1, now.trans fresh, quiet touched⟩
      · exact absurd skipped notSkipped
      · exact absurd settled unsettled
      · exact absurd (live liveIds begins) dead

theorem due_of_run {second : Int} (start : Due idleAfter id second [] server)
    (run : Run (Server.step idleAfter) server labels target)
    (live : ∀ label ∈ labels, ∀ liveIds, label.2 = .beginPass liveIds → id ∈ liveIds)
    (quiet : ∀ label ∈ labels, label.2.touches = some id → label.1 + idleAfter ≤ second) :
    Due idleAfter id second labels target := by
  induction run with
  | refl => exact start
  | tail _ last ih =>
      have before := ih (fun label member => live label (List.mem_append_left _ member))
        fun label member => quiet label (List.mem_append_left _ member)
      exact before.step last (live _ (List.mem_append_right _ List.mem_cons_self))
        (quiet _ (List.mem_append_right _ List.mem_cons_self))

/-- Of two passes at least the idle time apart, the second lists every session that was live
at every pass from the first on and was not touched in that time, unless it has had its turn
in between. -/
theorem idle_has_turn {earlier between : List (Int × Event)} {first second : Int}
    {liveIds againIds : List SessionId}
    (run : Run (Server.step idleAfter) Server.initial
      (earlier ++ (first, .beginPass liveIds) :: between ++ [(second, .beginPass againIds)])
        server)
    (apart : first + idleAfter ≤ second)
    (live : ∀ label ∈ (first, .beginPass liveIds) :: between ++ [(second, .beginPass againIds)],
      ∀ ids, label.2 = .beginPass ids → id ∈ ids)
    (quiet : ∀ label ∈ between, label.2.touches = some id → label.1 + idleAfter ≤ second) :
    (∃ label ∈ between, label.2 = .terminate id ∨ label.2 = .skip id) ∨ server.Listed id := by
  rcases run.exists_last with ⟨atSecond, upTo, late, applied⟩
  rw [List.append_cons] at upTo
  rcases upTo.exists_between with ⟨afterFirst, head, walk⟩
  have tracked := tracked_of_run head
  rcases head.exists_last with ⟨atFirst, -, -, appliedFirst⟩
  rcases Server.apply_beginPass appliedFirst with ⟨nowFirst, stamps, -, none⟩
  have liveFirst : id ∈ liveIds := live _ List.mem_cons_self liveIds rfl
  have start : Due idleAfter id second [] afterFirst := by
    refine .inr ⟨none id, _, (stamps id).trans (if_pos liveFirst), ?_⟩
    rcases tracked.known id _ ((stamps id).trans (if_pos liveFirst)) with ⟨label, member, -, same⟩
    have before := tracked.past label member
    rw [nowFirst] at before
    have upToFirst : label.1 ≤ first := before
    omega
  have due : Due idleAfter id second between atSecond :=
    due_of_run start walk (fun label member =>
      live label (List.mem_cons_of_mem _ (List.mem_append_left _ member))) quiet
  rcases due with turn | ⟨-, seen, stamped, long⟩
  · exact .inl turn
  · right
    rcases Server.apply_beginPass applied with ⟨-, -, listed, -⟩
    have liveAgain : id ∈ againIds :=
      live _ (List.mem_append_right _ List.mem_cons_self) againIds rfl
    have span : idleAfter ≤ second - seen := by omega
    exact (listed id).mpr ⟨liveAgain, seen, stamped, span⟩

/-- A session that handshakes and drops the connection. -/
theorem idle_has_turn_dropped :
    ∃ server, Run (Server.step 300) Server.initial
        [(0, .register "a".toList), (60, .beginPass ["a".toList]), (60, .endPass),
          (360, .beginPass ["a".toList])] server ∧ server.Listed "a".toList := by
  have run : Run (Server.step 300) Server.initial
      ([(0, .register "a".toList)] ++ (60, .beginPass ["a".toList]) :: [(60, .endPass)] ++
        [(360, .beginPass ["a".toList])]) _ :=
    Server.run_of_execute rfl
  refine ⟨_, run, (idle_has_turn run (by decide) ?_ ?_).resolve_left ?_⟩
  · intro label member ids same
    simp only [List.cons_append, List.nil_append, List.mem_cons, List.not_mem_nil,
      or_false] at member
    rcases member with rfl | rfl | rfl
    · cases same
      exact List.mem_cons_self
    · cases same
    · cases same
      exact List.mem_cons_self
  · rintro label (_ | ⟨_, ⟨⟩⟩) touches
    cases touches
  · rintro ⟨label, _ | ⟨_, ⟨⟩⟩, taken | taken⟩
    · cases taken
    · cases taken

end DataOlympus.Sessions
