import DataOlympus.Python.Clock
import DataOlympus.Transition.Run
import Mathlib.Data.List.Nodup
import Mathlib.Logic.Function.Basic

/-!
# Bootstraps in flight

A bootstrap that is admitted leaves a marker file for its workspace and component until
it is released or expires.  Claims and releases of one marker run under one lock each,
so they are atomic steps; they may come in any order, from any number of claimers.
-/

namespace DataOlympus

open Lines Transition

/-- The JSON object of a marker file.  A field that is missing, or not of its type, is
`none`. -/
structure Marker where
  workspace : Option Text
  component : Option Text
  claimedAt : Option Time
  expiresAt : Option Time
  token : Option Text

/-- A marker file. -/
inductive MarkerFile where
  /-- Not JSON, or not an object. -/
  | unreadable
  | object (marker : Marker)

/-- The markers under `_root`, by their file names. -/
abbrev MarkerFiles : Type :=
  Text → Option MarkerFile

/-- How `release` ends. -/
inductive ReleaseResult where
  | removed
  | skipped
  /-- `compare_digest` raises a `TypeError` for text beyond ASCII. -/
  | raised
  deriving DecidableEq

/-- `_marker_filename(workspace, component)`. -/
def markerFilename (sha256 : Text → Text) (workspace : Text) (component : Option Text) : Text :=
  sha256 (workspace ++ '\x00' :: component.getD []) ++ ".inflight".toList

namespace MarkerFiles

/-- `_read_marker(path)`. -/
def readMarker (files : MarkerFiles) (path : Text) : Option Marker :=
  match files path with
  | some (.object marker) => some marker
  | _ => none

/-- `_is_expired(path)`. -/
def isExpired (files : MarkerFiles) (path : Text) (now : Time) : Bool :=
  match (files.readMarker path).bind Marker.expiresAt with
  | none => true
  | some expiresAt => expiresAt ≤ now

/-- `claim(workspace, component)`.  The clock is read once for the check and once more
for the marker, which carries the random token. -/
def claim (files : MarkerFiles) (sha256 : Text → Text) (ttl : Time) (workspace : Text)
    (component : Option Text) (checked now : Time) (token : Text) :
    Option Text × MarkerFiles :=
  let path := markerFilename sha256 workspace component
  if files.isExpired path checked then
    (some token, Function.update files path
      (some (.object ⟨some workspace, component, some now, some (now + ttl), some token⟩)))
  else (none, files)

/-- `release(workspace, component, token)`. -/
def release (files : MarkerFiles) (sha256 : Text → Text) (workspace : Text)
    (component : Option Text) (token : Text) : ReleaseResult × MarkerFiles :=
  let path := markerFilename sha256 workspace component
  match (files.readMarker path).bind Marker.token with
  | none => (.skipped, files)
  | some current =>
      if (current ++ token).any fun c => 128 ≤ c.toNat then (.raised, files)
      else if current = token then (.removed, Function.update files path none)
      else (.skipped, files)

end MarkerFiles

/-- A successful claim, and the token only its claimer knows. -/
structure BootstrapClaim where
  workspace : Text
  component : Option Text
  token : Text
  expiresAt : Time

/-- The markers, the clock, and the claims that were made. -/
structure InFlightState where
  files : MarkerFiles
  clock : Time
  /-- Every claim that succeeded. -/
  claims : List BootstrapClaim
  /-- Those that their claimers have not released. -/
  holders : List BootstrapClaim

/-- Any markers that earlier processes left. -/
def InFlightState.start (files : MarkerFiles) (clock : Time) : InFlightState :=
  ⟨files, clock, [], []⟩

inductive InFlightLabel where
  | claim (workspace : Text) (component : Option Text) (checked now : Time) (token : Text)
  /-- A claimer releases a key, with the token of its claim. -/
  | release (workspace : Text) (component : Option Text) (claim : BootstrapClaim)
  | tick (now : Time)

section InFlight

variable (sha256 : Text → Text) (ttl : Time)

/-- The marker file of a claim. -/
def BootstrapClaim.path (claim : BootstrapClaim) : Text :=
  markerFilename sha256 claim.workspace claim.component

/-- The state after a successful claim. -/
def InFlightState.grant (state : InFlightState) (files : MarkerFiles) (now : Time)
    (claim : BootstrapClaim) : InFlightState :=
  ⟨files, now, claim :: state.claims, claim :: state.holders⟩

/-- The steps under any schedule.  Tokens are fresh and the clock does not go back. -/
inductive InFlightStep : InFlightState → InFlightLabel → InFlightState → Prop
  | granted (state : InFlightState) (workspace : Text) (component : Option Text)
      (checked now : Time) (token : Text) (files : MarkerFiles)
      (fresh : ∀ claim ∈ state.claims, claim.token ≠ token)
      (onward : state.clock ≤ checked) (later : checked ≤ now)
      (taken : state.files.claim sha256 ttl workspace component checked now token =
        (some token, files)) :
      InFlightStep state (.claim workspace component checked now token)
        (state.grant files now ⟨workspace, component, token, now + ttl⟩)
  | refused (state : InFlightState) (workspace : Text) (component : Option Text)
      (checked now : Time) (token : Text) (files : MarkerFiles)
      (onward : state.clock ≤ checked) (later : checked ≤ now)
      (taken : state.files.claim sha256 ttl workspace component checked now token =
        (none, files)) :
      InFlightStep state (.claim workspace component checked now token)
        { state with files := files, clock := now }
  | release (state : InFlightState) (workspace : Text) (component : Option Text)
      (claim : BootstrapClaim) (made : claim ∈ state.claims) :
      InFlightStep state (.release workspace component claim)
        { state with
          files := (state.files.release sha256 workspace component claim.token).2
          holders := state.holders.filter fun holder =>
            holder.token ≠ claim.token ∨
              holder.path sha256 ≠ markerFilename sha256 workspace component }
  | tick (state : InFlightState) (now : Time) (onward : state.clock ≤ now) :
      InFlightStep state (.tick now) { state with clock := now }

variable {sha256 ttl}

/-! ## What a call does -/

namespace MarkerFiles

variable {files after : MarkerFiles} {workspace token : Text} {component : Option Text}

theorem claim_eq_some_iff {checked now : Time} {given : Text} :
    files.claim sha256 ttl workspace component checked now token = (some given, after) ↔
      given = token ∧
      files.isExpired (markerFilename sha256 workspace component) checked = true ∧
      after = Function.update files (markerFilename sha256 workspace component)
        (some (.object ⟨some workspace, component, some now, some (now + ttl), some token⟩)) := by
  by_cases free : files.isExpired (markerFilename sha256 workspace component) checked = true
  · simp [claim, free, eq_comm]
  · simp [claim, free]

theorem eq_of_claim_eq_none {checked now : Time}
    (refused : files.claim sha256 ttl workspace component checked now token = (none, after)) :
    after = files := by
  simp only [claim] at refused
  split at refused
  · cases refused
  · exact (congrArg Prod.snd refused).symm

/-- A marker that carries a time is free from that time on. -/
theorem isExpired_eq {path : Text} {marker : Marker} {expiresAt checked : Time}
    (here : files path = some (.object marker)) (carries : marker.expiresAt = some expiresAt) :
    files.isExpired path checked = decide (expiresAt ≤ checked) := by
  simp [isExpired, readMarker, here, carries]

/-- A release leaves every other marker alone. -/
theorem release_of_ne {path : Text}
    (different : path ≠ markerFilename sha256 workspace component) :
    (files.release sha256 workspace component token).2 path = files path := by
  simp only [release]
  split
  · rfl
  · split_ifs
    · rfl
    · exact Function.update_of_ne different _ _
    · rfl

/-- A release leaves a marker with another token alone. -/
theorem release_of_token_ne {marker : Marker} {current : Text}
    (here : files (markerFilename sha256 workspace component) = some (.object marker))
    (carries : marker.token = some current) (different : current ≠ token) :
    (files.release sha256 workspace component token).2 = files := by
  have found : (files.readMarker (markerFilename sha256 workspace component)).bind
      Marker.token = some current := by
    simp [readMarker, here, carries]
  simp only [release, found, if_neg different]
  split_ifs <;> rfl

end MarkerFiles

/-! ## Exclusion -/

/-- The marker of the claim is in place. -/
def InFlightState.Carries (sha256 : Text → Text) (state : InFlightState)
    (claim : BootstrapClaim) : Prop :=
  ∃ marker, state.files (claim.path sha256) = some (.object marker) ∧
    marker.token = some claim.token ∧ marker.expiresAt = some claim.expiresAt

/-- Every holder that has not expired has its marker, and no token was given twice. -/
structure InFlightState.Sound (sha256 : Text → Text) (state : InFlightState) : Prop where
  carried : ∀ holder ∈ state.holders, state.clock < holder.expiresAt →
    state.Carries sha256 holder
  made : state.holders ⊆ state.claims
  distinct : (state.claims.map BootstrapClaim.token).Nodup

namespace InFlightState.Sound

variable {state : InFlightState}

theorem start (files : MarkerFiles) (clock : Time) :
    (InFlightState.start files clock).Sound sha256 := by
  constructor
  · intro holder impossible
    cases impossible
  · exact List.Subset.refl _
  · exact List.nodup_nil

/-- Claims with one token are one claim. -/
theorem eq_of_token_eq (sound : state.Sound sha256) {first second : BootstrapClaim}
    (firstMade : first ∈ state.claims) (secondMade : second ∈ state.claims)
    (same : first.token = second.token) : first = second :=
  List.inj_on_of_nodup_map sound.distinct firstMade secondMade same

theorem granted (sound : state.Sound sha256) {workspace token : Text}
    {component : Option Text} {checked now : Time} {files : MarkerFiles}
    (fresh : ∀ claim ∈ state.claims, claim.token ≠ token) (onward : state.clock ≤ checked)
    (later : checked ≤ now)
    (taken : state.files.claim sha256 ttl workspace component checked now token =
      (some token, files)) :
    (state.grant files now ⟨workspace, component, token, now + ttl⟩).Sound sha256 := by
  obtain ⟨-, free, rfl⟩ := MarkerFiles.claim_eq_some_iff.mp taken
  constructor
  · intro holder member unexpired
    obtain same | before := List.mem_cons.mp member
    · subst holder
      exact ⟨_, Function.update_self _ _ _, rfl, rfl⟩
    · have earlier : state.clock < holder.expiresAt := by
        apply lt_of_le_of_lt _ unexpired
        exact le_trans onward later
      obtain ⟨marker, here, carries, expires⟩ := sound.carried holder before earlier
      by_cases contested : holder.path sha256 = markerFilename sha256 workspace component
      · -- The check found the slot free, so the marker of this holder had expired.
        rw [contested] at here
        rw [MarkerFiles.isExpired_eq here expires, decide_eq_true_eq] at free
        exact absurd unexpired (not_lt_of_ge (le_trans free later))
      · exact ⟨marker, (Function.update_of_ne contested _ _).trans here, carries, expires⟩
  · exact List.cons_subset_cons _ sound.made
  · apply List.nodup_cons.mpr
    refine ⟨?_, sound.distinct⟩
    intro repeated
    obtain ⟨claim, made, same⟩ := List.mem_map.mp repeated
    exact fresh claim made same

theorem later (sound : state.Sound sha256) {now : Time} (onward : state.clock ≤ now) :
    InFlightState.Sound sha256 { state with clock := now } := by
  refine ⟨?_, sound.made, sound.distinct⟩
  intro holder member unexpired
  exact sound.carried holder member (lt_of_le_of_lt onward unexpired)

/-- A release takes away its own claim only. -/
theorem release (sound : state.Sound sha256) (workspace : Text) (component : Option Text)
    (token : Text) :
    InFlightState.Sound sha256 { state with
      files := (state.files.release sha256 workspace component token).2
      holders := state.holders.filter fun holder =>
        holder.token ≠ token ∨
          holder.path sha256 ≠ markerFilename sha256 workspace component } := by
  refine ⟨?_, ?_, sound.distinct⟩
  · intro holder member unexpired
    obtain ⟨before, kept⟩ := List.mem_filter.mp member
    obtain ⟨marker, here, carries, expires⟩ := sound.carried holder before unexpired
    refine ⟨marker, ?_, carries, expires⟩
    by_cases contested : holder.path sha256 = markerFilename sha256 workspace component
    · have different : holder.token ≠ token := by
        simpa [contested] using kept
      have unchanged := MarkerFiles.release_of_token_ne (contested ▸ here) carries different
      exact (congrFun unchanged _).trans here
    · exact (MarkerFiles.release_of_ne contested).trans here
  · exact fun holder member => sound.made (List.mem_of_mem_filter member)

end InFlightState.Sound

theorem InFlightStep.sound :
    System.Preserves (InFlightStep sha256 ttl) (InFlightState.Sound sha256) := by
  intro source label target step sound
  cases step with
  | granted workspace component checked now token files fresh onward later taken =>
      exact sound.granted fresh onward later taken
  | refused workspace component checked now token files onward later taken =>
      rw [MarkerFiles.eq_of_claim_eq_none taken]
      exact sound.later (le_trans onward later)
  | release workspace component claim made =>
      exact sound.release workspace component claim.token
  | tick now onward => exact sound.later onward

/-- Under every schedule, a key has at most one holder that has not expired, and the
release of a claim leaves the marker of every other claim in place. -/
theorem bootstraps_are_exclusive {files : MarkerFiles} {clock : Time}
    {labels : List InFlightLabel} {state : InFlightState}
    (run : Run (InFlightStep sha256 ttl) (.start files clock) labels state) :
    (∀ first ∈ state.holders, ∀ second ∈ state.holders,
      first.path sha256 = second.path sha256 → state.clock < first.expiresAt →
        state.clock < second.expiresAt → first = second) ∧
      ∀ released ∈ state.claims, ∀ owner ∈ state.claims, released ≠ owner →
        state.Carries sha256 owner → ∀ workspace component,
          (state.files.release sha256 workspace component released.token).2
            (owner.path sha256) = state.files (owner.path sha256) := by
  have sound := Run.invariant InFlightStep.sound run (.start files clock)
  constructor
  · intro first firstHolds second secondHolds same firstLive secondLive
    obtain ⟨marker, here, carries, -⟩ := sound.carried first firstHolds firstLive
    obtain ⟨other, there, otherCarries, -⟩ := sound.carried second secondHolds secondLive
    rw [same, there, Option.some.injEq, MarkerFile.object.injEq] at here
    subst other
    apply sound.eq_of_token_eq (sound.made firstHolds) (sound.made secondHolds)
    exact Option.some.inj (carries.symm.trans otherCarries)
  · rintro released releasedMade owner ownerMade different ⟨marker, here, carries, -⟩
      workspace component
    by_cases contested : owner.path sha256 = markerFilename sha256 workspace component
    · have tokens : owner.token ≠ released.token := by
        intro same
        exact different (sound.eq_of_token_eq releasedMade ownerMade same.symm)
      rw [MarkerFiles.release_of_token_ne (contested ▸ here) carries tokens]
    · exact MarkerFiles.release_of_ne contested

end InFlight

/-- A claim of the workspace `w` at the start of the clock. -/
def expiredClaim : BootstrapClaim :=
  ⟨"w".toList, none, "a".toList, 10⟩

/-- The claim that takes it over after it expired. -/
def takeover : BootstrapClaim :=
  ⟨"w".toList, some [], "b".toList, 25⟩

/-- The first claimer comes back after its claim was taken over: two holders are left,
of which only the second has not expired, and its marker stays. -/
theorem late_release_spares_takeover :
    ∃ labels state, Run (InFlightStep id 10) (.start (fun _ => none) 0) labels state ∧
      state.holders = [takeover, expiredClaim] ∧ state.Carries id takeover ∧
      (state.files.release id "w".toList none expiredClaim.token).2 (takeover.path id) =
        state.files (takeover.path id) := by
  have claimed : Run (InFlightStep id 10) (.start (fun _ => none) 0) _ _ :=
    Run.single (.granted _ "w".toList none 0 0 "a".toList _ nofun le_rfl le_rfl rfl)
  have waited := Run.tail claimed (.tick _ 15 (by decide))
  have fresh : ∀ claim ∈ [expiredClaim], claim.token ≠ "b".toList := by decide
  have taken := Run.tail waited
    (.granted _ "w".toList (some []) 15 15 "b".toList _ fresh le_rfl le_rfl rfl)
  refine ⟨_, _, taken, rfl, ⟨_, rfl, rfl, rfl⟩, ?_⟩
  apply (bootstraps_are_exclusive taken).2 expiredClaim _ takeover
  · exact List.mem_cons_self
  · intro same
    exact absurd (congrArg BootstrapClaim.token same) (by decide)
  · exact ⟨_, rfl, rfl, rfl⟩
  · exact List.mem_cons_of_mem _ List.mem_cons_self

end DataOlympus
