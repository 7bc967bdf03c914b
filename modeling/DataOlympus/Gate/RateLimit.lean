import DataOlympus.Python.Dict
import DataOlympus.Select.Window
import DataOlympus.Text.Lines
import DataOlympus.Transition.Run
import DataOlympus.Transition.Trace
import Mathlib.Algebra.Order.Ring.Rat

/-!
# The rate limiter

Two sliding windows of an hour: one for every pair of an address and an agent, and one for
every address, if the second is enabled.  A bucket is pruned when it is looked at, an empty one
is evicted, and a call is charged to both buckets or to none.
-/

namespace DataOlympus

open Lines Python Select Transition

/-- One call of `allow`, at a reading of the clock in seconds. -/
structure LimiterCall where
  now : ℚ
  remoteAddr : Text
  agentIdentity : Text

/-- The key of the call's bucket. -/
def LimiterCall.key (call : LimiterCall) : Text × Text :=
  (call.remoteAddr, call.agentIdentity)

/-- `SlidingWindowLimiter`. -/
structure SlidingWindowLimiter where
  max : Int
  maxIp : Int
  buckets : Dict (Text × Text) (List ℚ)
  ipBuckets : Dict Text (List ℚ)

/-- The width of the window. -/
def hour : ℚ := 3600

namespace SlidingWindowLimiter

section Buckets

variable {κ : Type} [DecidableEq κ]

/-- `buckets.get(key, ())`. -/
def held (buckets : Dict κ (List ℚ)) (key : κ) : List ℚ :=
  (buckets.get key).getD []

/-- `_store`. -/
def store (buckets : Dict κ (List ℚ)) (key : κ) (values : List ℚ) : Dict κ (List ℚ) :=
  if values.isEmpty then buckets.erase key else buckets.set key values

@[simp]
theorem held_empty (key : κ) : held Dict.empty key = [] :=
  rfl

@[simp]
theorem held_store (buckets : Dict κ (List ℚ)) (key : κ) (values : List ℚ) :
    held (store buckets key values) key = values := by
  unfold held store
  cases values with
  | nil =>
      rw [List.isEmpty_nil, if_pos rfl, Dict.get_erase, Option.getD_none]
  | cons first rest =>
      rw [List.isEmpty_cons, if_neg Bool.false_ne_true, Dict.get_set, Option.getD_some]

theorem held_store_of_ne (buckets : Dict κ (List ℚ)) {key other : κ} (values : List ℚ)
    (different : other ≠ key) : held (store buckets key values) other = held buckets other := by
  unfold held store
  split
  · rw [Dict.get_erase_of_ne _ different]
  · rw [Dict.get_set_of_ne _ _ different]

end Buckets

/-- `SlidingWindowLimiter(max_per_hour, max_per_ip_per_hour)`. -/
def new (max maxIp : Int) : SlidingWindowLimiter where
  max := max
  maxIp := maxIp
  buckets := Dict.empty
  ipBuckets := Dict.empty

/-- `allow`. -/
def allow (limiter : SlidingWindowLimiter) (call : LimiterCall) : Bool × SlidingWindowLimiter :=
  let cutoff := call.now - hour
  let pruned := live cutoff (held limiter.buckets call.key)
  if 0 < limiter.maxIp then
    let ipPruned := live cutoff (held limiter.ipBuckets call.remoteAddr)
    if limiter.maxIp ≤ ipPruned.length then
      (false, { limiter with
        buckets := store limiter.buckets call.key pruned
        ipBuckets := store limiter.ipBuckets call.remoteAddr ipPruned })
    else if limiter.max ≤ pruned.length then
      (false, { limiter with
        buckets := store limiter.buckets call.key pruned
        ipBuckets := store limiter.ipBuckets call.remoteAddr ipPruned })
    else
      (true, { limiter with
        buckets := store limiter.buckets call.key (pruned ++ [call.now])
        ipBuckets := store limiter.ipBuckets call.remoteAddr (ipPruned ++ [call.now]) })
  else if limiter.max ≤ pruned.length then
    (false, { limiter with buckets := store limiter.buckets call.key pruned })
  else
    (true, { limiter with buckets := store limiter.buckets call.key (pruned ++ [call.now]) })

/-- The pruned bucket of the call's pair. -/
def pruned (limiter : SlidingWindowLimiter) (call : LimiterCall) : List ℚ :=
  live (call.now - hour) (held limiter.buckets call.key)

/-- The pruned bucket of the call's address. -/
def ipPruned (limiter : SlidingWindowLimiter) (call : LimiterCall) : List ℚ :=
  live (call.now - hour) (held limiter.ipBuckets call.remoteAddr)

/-- There is room in both buckets. -/
def Free (limiter : SlidingWindowLimiter) (call : LimiterCall) : Prop :=
  ((limiter.pruned call).length : Int) < limiter.max ∧
    (0 < limiter.maxIp → ((limiter.ipPruned call).length : Int) < limiter.maxIp)

/-- A bucket with the time of an allowed call. -/
def charged (allowed : Bool) (now : ℚ) (times : List ℚ) : List ℚ :=
  if allowed then times ++ [now] else times

/-- What a call does. -/
structure Serves (limiter : SlidingWindowLimiter) (call : LimiterCall) (allowed : Bool)
    (after : SlidingWindowLimiter) : Prop where
  allowed_iff : allowed = true ↔ limiter.Free call
  max_eq : after.max = limiter.max
  maxIp_eq : after.maxIp = limiter.maxIp
  buckets_eq : after.buckets =
    store limiter.buckets call.key (charged allowed call.now (limiter.pruned call))
  ipBuckets_eq : 0 < limiter.maxIp → after.ipBuckets =
    store limiter.ipBuckets call.remoteAddr (charged allowed call.now (limiter.ipPruned call))

theorem serves_allow (limiter : SlidingWindowLimiter) (call : LimiterCall) :
    limiter.Serves call (limiter.allow call).1 (limiter.allow call).2 := by
  unfold allow
  dsimp only
  split
  · rename_i enabled
    split
    · rename_i full
      refine ⟨⟨nofun, ?_⟩, rfl, rfl, rfl, fun _ => rfl⟩
      rintro ⟨-, room⟩
      exact absurd (room enabled) (not_lt.mpr full)
    · rename_i ipRoom
      split
      · rename_i full
        refine ⟨⟨nofun, ?_⟩, rfl, rfl, rfl, fun _ => rfl⟩
        rintro ⟨room, -⟩
        exact absurd room (not_lt.mpr full)
      · rename_i room
        exact ⟨⟨fun _ => ⟨not_le.mp room, fun _ => not_le.mp ipRoom⟩, fun _ => rfl⟩, rfl, rfl,
          rfl, fun _ => rfl⟩
  · rename_i disabled
    split
    · rename_i full
      refine ⟨⟨nofun, ?_⟩, rfl, rfl, rfl, fun enabled => absurd enabled disabled⟩
      rintro ⟨room, -⟩
      exact absurd room (not_lt.mpr full)
    · rename_i room
      exact ⟨⟨fun _ => ⟨not_le.mp room, fun enabled => absurd enabled disabled⟩, fun _ => rfl⟩,
        rfl, rfl, rfl, fun enabled => absurd enabled disabled⟩

end SlidingWindowLimiter

/-! ## Runs -/

/-- A call and its answer. -/
structure LimiterAnswer where
  call : LimiterCall
  allowed : Bool

/-- The times of the allowed calls of some kind. -/
def allowedTimes (of : LimiterCall → Bool) (answers : List LimiterAnswer) : List ℚ :=
  (answers.filter fun answer => answer.allowed && of answer.call).map fun answer =>
    answer.call.now

/-- The limiter, and the answers it has given. -/
structure LimiterLog where
  limiter : SlidingWindowLimiter
  answers : List LimiterAnswer

namespace LimiterLog

/-- The log of a new limiter. -/
def start (max maxIp : Int) : LimiterLog :=
  ⟨SlidingWindowLimiter.new max maxIp, []⟩

/-- A call is served. -/
def serve (log : LimiterLog) (call : LimiterCall) : LimiterLog where
  limiter := (log.limiter.allow call).2
  answers := log.answers ++ [⟨call, (log.limiter.allow call).1⟩]

/-- No answer was given after this time. -/
def Before (answers : List LimiterAnswer) (now : ℚ) : Prop :=
  ∀ answer ∈ answers, answer.call.now ≤ now

/-- A call is served by a clock that does not go back. -/
def Step : System LimiterLog LimiterCall := fun log call after =>
  Before log.answers call.now ∧ after = log.serve call

/-- What a new limiter answers to these calls. -/
def served (max maxIp : Int) (calls : List LimiterCall) : LimiterLog :=
  calls.foldl serve (start max maxIp)

theorem calls_served (max maxIp : Int) (calls : List LimiterCall) :
    (served max maxIp calls).answers.map LimiterAnswer.call = calls := by
  unfold served
  induction calls using List.reverseRecOn with
  | nil => rfl
  | append_singleton calls call ih =>
      rw [List.foldl_append, List.foldl_cons, List.foldl_nil, serve, List.map_append, ih]
      rfl

/-- Calls in the order of their times are served by a clock that does not go back. -/
theorem run_served (max maxIp : Int) {calls : List LimiterCall}
    (ordered : calls.Pairwise fun first second => first.now ≤ second.now) :
    Run Step (start max maxIp) calls (served max maxIp calls) := by
  induction calls using List.reverseRecOn with
  | nil => exact Run.refl
  | append_singleton calls call ih =>
      rw [List.pairwise_append] at ordered
      apply Run.tail (ih ordered.1)
      refine ⟨?_, by rw [served, List.foldl_append]; rfl⟩
      intro answer member
      apply ordered.2.2 answer.call ?_ call (List.mem_singleton_self call)
      rw [← calls_served max maxIp calls]
      exact List.mem_map_of_mem member

end LimiterLog

/-- The calls of one pair. -/
def ofKey (key : Text × Text) (call : LimiterCall) : Bool :=
  call.key = key

/-- The calls from one address. -/
def fromAddr (addr : Text) (call : LimiterCall) : Bool :=
  call.remoteAddr = addr

theorem allowedTimes_concat (of : LimiterCall → Bool) (answers : List LimiterAnswer)
    (call : LimiterCall) (allowed : Bool) :
    allowedTimes of (answers ++ [⟨call, allowed⟩]) =
      SlidingWindowLimiter.charged (allowed && of call) call.now (allowedTimes of answers) := by
  unfold allowedTimes SlidingWindowLimiter.charged
  rw [List.filter_append, List.map_append, List.filter_singleton]
  cases allowed && of call with
  | true => rfl
  | false => exact List.append_nil _

theorem allowedTimes_le {of : LimiterCall → Bool} {answers : List LimiterAnswer} {now : ℚ}
    (before : LimiterLog.Before answers now) : ∀ time ∈ allowedTimes of answers, time ≤ now := by
  intro time member
  obtain ⟨answer, among, rfl⟩ := List.mem_map.mp member
  exact before answer (List.mem_filter.mp among).1

/-- A call more keeps to both bounds. -/
def HasRoom (max maxIp : Int) (answers : List LimiterAnswer) (call : LimiterCall) : Prop :=
  ((allowedTimes (ofKey call.key) answers).countP (inWindowTo hour call.now) : Int) + 1 ≤ max ∧
    (0 < maxIp →
      ((allowedTimes (fromAddr call.remoteAddr) answers).countP (inWindowTo hour call.now) : Int)
        + 1 ≤ maxIp)

/-- A bucket stands for the allowed calls, for every call that may follow, and no window of
them is overfull. -/
structure Bucketed (bound : Int) (of : LimiterCall → Bool) (answers : List LimiterAnswer)
    (kept : List ℚ) : Prop where
  follows : ∀ now, LimiterLog.Before answers now →
    Select.Follows (now - hour) kept (allowedTimes of answers)
  within : Within hour bound.toNat (allowedTimes of answers)

namespace Bucketed

variable {bound : Int} {of : LimiterCall → Bool} {answers : List LimiterAnswer} {kept : List ℚ}
  {call : LimiterCall}

theorem start (bound : Int) (of : LimiterCall → Bool) : Bucketed bound of [] [] where
  follows _ _ := Select.Follows.refl _ _
  within := within_nil hour bound.toNat

/-- The pruned bucket counts the allowed calls of the last hour. -/
theorem length_live (bucketed : Bucketed bound of answers kept)
    (before : LimiterLog.Before answers call.now) :
    (live (call.now - hour) kept).length =
      (allowedTimes of answers).countP (inWindowTo hour call.now) := by
  rw [countP_inWindowTo (allowedTimes_le before), bucketed.follows _ before _ le_rfl]

/-- A call of another kind. -/
theorem other (bucketed : Bucketed bound of answers kept) (different : of call = false)
    (allowed : Bool) : Bucketed bound of (answers ++ [⟨call, allowed⟩]) kept where
  follows := by
    intro now before
    rw [allowedTimes_concat, different, Bool.and_false]
    exact bucketed.follows now (List.forall_mem_append.mp before).1
  within := by
    rw [allowedTimes_concat, different, Bool.and_false]
    exact bucketed.within

/-- A call of this kind, allowed only if there is room. -/
theorem same (bucketed : Bucketed bound of answers kept) (kind : of call = true)
    (before : LimiterLog.Before answers call.now) {allowed : Bool}
    (room : allowed = true → ((live (call.now - hour) kept).length : Int) < bound) :
    Bucketed bound of (answers ++ [⟨call, allowed⟩])
      (SlidingWindowLimiter.charged allowed call.now (live (call.now - hour) kept)) := by
  have pruned := (bucketed.follows call.now before).prune
  constructor
  · intro now later
    have latest : call.now ≤ now := later ⟨call, allowed⟩ (by simp)
    have order : call.now - hour ≤ now - hour := sub_le_sub_right latest hour
    rw [allowedTimes_concat, kind, Bool.and_true]
    cases allowed with
    | true => exact (pruned.concat call.now).mono order
    | false => exact pruned.mono order
  · rw [allowedTimes_concat, kind, Bool.and_true]
    cases allowed with
    | true =>
        apply bucketed.within.concat
        have few := room rfl
        rw [bucketed.follows _ before _ le_rfl] at few
        omega
    | false => exact bucketed.within

end Bucketed

namespace LimiterLog

/-- The buckets stand for the answers, and every answer was right. -/
structure Sound (max maxIp : Int) (log : LimiterLog) : Prop where
  max_eq : log.limiter.max = max
  maxIp_eq : log.limiter.maxIp = maxIp
  buckets : ∀ key, Bucketed max (ofKey key) log.answers
    (SlidingWindowLimiter.held log.limiter.buckets key)
  ipBuckets : 0 < maxIp → ∀ addr, Bucketed maxIp (fromAddr addr) log.answers
    (SlidingWindowLimiter.held log.limiter.ipBuckets addr)
  judged : Avoids (fun before answer =>
    ¬(answer.allowed = true ↔ HasRoom max maxIp before answer.call)) log.answers

theorem sound_start (max maxIp : Int) : (start max maxIp).Sound max maxIp where
  max_eq := rfl
  maxIp_eq := rfl
  buckets key := Bucketed.start max (ofKey key)
  ipBuckets _ addr := Bucketed.start maxIp (fromAddr addr)
  judged := avoids_nil

/-- The pruned buckets have room if the window has. -/
theorem Sound.free_iff {max maxIp : Int} {log : LimiterLog} {call : LimiterCall}
    (sound : log.Sound max maxIp) (before : Before log.answers call.now) :
    log.limiter.Free call ↔ HasRoom max maxIp log.answers call := by
  unfold SlidingWindowLimiter.Free HasRoom
  rw [sound.max_eq, sound.maxIp_eq, SlidingWindowLimiter.pruned,
    (sound.buckets call.key).length_live before]
  refine and_congr Iff.rfl (imp_congr_right fun enabled => ?_)
  rw [SlidingWindowLimiter.ipPruned,
    (sound.ipBuckets enabled call.remoteAddr).length_live before]
  rfl

/-- A call keeps the log sound. -/
theorem Step.sound (max maxIp : Int) : Step.Preserves (Sound max maxIp) := by
  rintro log call _ ⟨before, rfl⟩ sound
  have serves := log.limiter.serves_allow call
  have room := serves.allowed_iff
  constructor
  · exact serves.max_eq.trans sound.max_eq
  · exact serves.maxIp_eq.trans sound.maxIp_eq
  · intro key
    unfold serve
    rw [serves.buckets_eq]
    by_cases same : key = call.key
    · subst same
      rw [SlidingWindowLimiter.held_store]
      apply (sound.buckets call.key).same (by simp [ofKey]) before
      intro allowed
      rw [← sound.max_eq]
      exact (room.mp allowed).1
    · rw [SlidingWindowLimiter.held_store_of_ne _ _ same]
      exact (sound.buckets key).other (by simp [ofKey, Ne.symm same]) _
  · intro enabled addr
    have limited : 0 < log.limiter.maxIp := by
      rwa [sound.maxIp_eq]
    unfold serve
    rw [serves.ipBuckets_eq limited]
    by_cases same : addr = call.remoteAddr
    · subst same
      rw [SlidingWindowLimiter.held_store]
      apply (sound.ipBuckets enabled call.remoteAddr).same (by simp [fromAddr]) before
      intro allowed
      rw [← sound.maxIp_eq]
      exact (room.mp allowed).2 limited
    · rw [SlidingWindowLimiter.held_store_of_ne _ _ same]
      exact (sound.ipBuckets enabled addr).other (by simp [fromAddr, Ne.symm same]) _
  · apply avoids_concat.mpr
    refine ⟨sound.judged, not_not.mpr ?_⟩
    exact room.trans (sound.free_iff before)

end LimiterLog

/-- A denied call leaves the live times of every bucket. -/
theorem SlidingWindowLimiter.Serves.denied {limiter after : SlidingWindowLimiter}
    {call : LimiterCall} (serves : limiter.Serves call false after) :
    (∀ key, Select.Follows (call.now - hour) (held after.buckets key) (held limiter.buckets key)) ∧
      (0 < limiter.maxIp → ∀ addr,
        Select.Follows (call.now - hour) (held after.ipBuckets addr)
          (held limiter.ipBuckets addr)) := by
  constructor
  · intro key
    rw [serves.buckets_eq]
    by_cases same : key = call.key
    · subst same
      rw [held_store]
      exact (Select.Follows.refl _ _).prune
    · rw [held_store_of_ne _ _ same]
      exact Select.Follows.refl _ _
  · intro enabled addr
    rw [serves.ipBuckets_eq enabled]
    by_cases same : addr = call.remoteAddr
    · subst same
      rw [held_store]
      exact (Select.Follows.refl _ _).prune
    · rw [held_store_of_ne _ _ same]
      exact Select.Follows.refl _ _

/-- In every window of an hour no pair and, if the second bound is set, no address has more
allowed calls than its bound.  A call is denied exactly if one of the bounds would be exceeded
by the calls allowed before it, and then it is charged to no bucket. -/
theorem limiter_bounds_every_window (max maxIp : Int) (calls : List LimiterCall)
    (ordered : calls.Pairwise fun first second => first.now ≤ second.now) :
    let log := LimiterLog.served max maxIp calls
    log.answers.map LimiterAnswer.call = calls ∧
      (∀ key last, (allowedTimes (ofKey key) log.answers).countP (inWindowTo hour last) ≤
        max.toNat) ∧
      (0 < maxIp → ∀ addr last,
        (allowedTimes (fromAddr addr) log.answers).countP (inWindowTo hour last) ≤
          maxIp.toNat) ∧
      (∀ before answer after, log.answers = before ++ answer :: after →
        (answer.allowed = true ↔ HasRoom max maxIp before answer.call)) ∧
      ∀ call, (log.limiter.allow call).1 = false →
        (∀ key, Select.Follows (call.now - hour)
          (SlidingWindowLimiter.held (log.limiter.allow call).2.buckets key)
          (SlidingWindowLimiter.held log.limiter.buckets key)) ∧
        (0 < log.limiter.maxIp → ∀ addr, Select.Follows (call.now - hour)
          (SlidingWindowLimiter.held (log.limiter.allow call).2.ipBuckets addr)
          (SlidingWindowLimiter.held log.limiter.ipBuckets addr)) := by
  intro log
  have sound : log.Sound max maxIp :=
    Run.invariant (LimiterLog.Step.sound max maxIp) (LimiterLog.run_served max maxIp ordered)
      (LimiterLog.sound_start max maxIp)
  refine ⟨LimiterLog.calls_served max maxIp calls, ?_, ?_, ?_, ?_⟩
  · intro key last
    exact (sound.buckets key).within last
  · intro enabled addr last
    exact (sound.ipBuckets enabled addr).within last
  · intro before answer after split
    exact not_not.mp (sound.judged before answer after split)
  · intro call denied
    have serves := log.limiter.serves_allow call
    rw [denied] at serves
    exact serves.denied

/-- An address has two calls in an hour, one for each agent, and a third after the first has
left the window. -/
def busyCalls : List LimiterCall :=
  [⟨0, "a".toList, "x".toList⟩, ⟨1, "a".toList, "x".toList⟩, ⟨2, "a".toList, "y".toList⟩,
    ⟨3, "a".toList, "z".toList⟩, ⟨3600, "a".toList, "x".toList⟩]

example : (LimiterLog.served 1 2 busyCalls).answers.map LimiterAnswer.allowed =
    [true, false, true, false, true] := by
  decide +kernel

theorem busy_calls_are_bounded :
    (LimiterLog.served 1 2 busyCalls).answers.map LimiterAnswer.call = busyCalls ∧
      (allowedTimes (ofKey ("a".toList, "x".toList))
        (LimiterLog.served 1 2 busyCalls).answers).countP (inWindowTo hour 3600) ≤ 1 := by
  obtain ⟨calls, pairs, -⟩ := limiter_bounds_every_window 1 2 busyCalls (by decide +kernel)
  exact ⟨calls, pairs _ _⟩

end DataOlympus
