import DataOlympus.Storage.Cache
import DataOlympus.Transition.Run

/-!
# Durable writes of whole files

A document is written to a temporary file, synchronized, and renamed over its target, whose
directory is synchronized last.  Any number of such calls and of removals run beside each
other; every step may raise, and the machine may crash between any two steps.
-/

namespace DataOlympus.Storage

open Lines Transition

/-! ## The calls -/

/-- `os.path.dirname(path)` and `os.path.basename(path)`. -/
structure Path where
  parent : Text
  base : Text
  deriving DecidableEq

/-- A path, or what `tempfile.mkstemp` made in a directory for a call. -/
inductive Name where
  | target (path : Path)
  | temp (parent : Text) (call : Nat)
  deriving DecidableEq

def Name.parent : Name → Text
  | target path => path.parent
  | temp parent _ => parent

/-- How far a call is: a temporary file was opened, written and flushed, synchronized and
renamed, and the directory was synchronized.  A removal starts with the unlinking. -/
inductive Stage where
  | opened
  | flushed
  | synced
  | published
  | durable
  | failing
  | ended
  deriving DecidableEq

/-- The name is not changed yet. -/
def Stage.isEarly : Stage → Bool
  | opened | flushed | synced => true
  | _ => false

/-- A call of `atomic_write_json`, with the text that `json.dump` writes, or of
`atomic_remove`, which has none. -/
structure Call where
  path : Path
  goal : Option Text
  stage : Stage

/-- The file that the call puts under its path. -/
def Call.file (call : Call) (number : Nat) : Option Nat :=
  call.goal.map fun _ => number

/-- The steps of a call, and the crash of the machine. -/
inductive Act where
  /-- The call, up to the end of `mkstemp`. -/
  | start (number : Nat) (path : Path) (goal : Option Text)
  /-- A part of the text leaves the buffer. -/
  | write (number count : Nat)
  | flush (number : Nat)
  | fsync (number : Nat)
  /-- `os.replace(tmp, path)` or `os.unlink(path)`. -/
  | publish (number : Nat)
  /-- `except FileNotFoundError: return`. -/
  | missing (number : Nat)
  | fsyncParent (number : Nat)
  | finish (number : Nat)
  /-- A step of a write raises, and its handler begins. -/
  | fail (number : Nat)
  /-- The handler removes the temporary file, if it is there, and raises. -/
  | cleanup (number : Nat)
  /-- An exception leaves the call without the handler. -/
  | abandon (number : Nat)
  | crash

/-- The files and all calls so far, by their numbers. -/
structure Machine where
  cache : Cache Name Nat
  calls : Nat → Option Call

namespace Machine

/-- No file and no call. -/
def empty : Machine :=
  ⟨Cache.empty, fun _ => none⟩

/-- A step of one call. -/
def turn (machine : Machine) (number : Nat) (ready : Call → Bool) (stage : Stage)
    (effect : Call → Cache Name Nat → Cache Name Nat) : Option Machine :=
  match machine.calls number with
  | none => none
  | some call =>
      if ready call then
        some ⟨effect call machine.cache,
          Function.update machine.calls number (some { call with stage := stage })⟩
      else none

/-- A program reads under a path. -/
def read (machine : Machine) (path : Path) : Option Text :=
  machine.cache.read (.target path)

/-- A file stands under a path. -/
def isPresent (machine : Machine) (path : Path) : Bool :=
  (machine.cache.entries (.target path)).newest.isSome

/-- The steps of `atomic_write_json(path, payload)` and `atomic_remove(path)`. -/
def apply (machine : Machine) : Act → Option Machine
  | .start number path goal =>
      match machine.calls number with
      | some _ => none
      | none =>
          let opened := if goal.isSome then
            (machine.cache.write number []).bind (.temp path.parent number) (some number)
          else machine.cache
          some ⟨opened, Function.update machine.calls number (some ⟨path, goal, .opened⟩)⟩
  | .write number count =>
      machine.turn number (fun call => call.stage = .opened && call.goal.isSome) .opened
        fun call cache => cache.write number ((call.goal.getD []).take count)
  | .flush number =>
      machine.turn number (fun call => call.stage = .opened && call.goal.isSome) .flushed
        fun call cache => cache.write number (call.goal.getD [])
  | .fsync number =>
      machine.turn number (fun call => call.stage = .flushed) .synced
        fun _ cache => cache.fsync number
  | .publish number =>
      machine.turn number (fun call => if call.goal.isSome then call.stage = .synced
          else call.stage = .opened && machine.isPresent call.path) .published
        fun call cache =>
          let moved := if call.goal.isSome then cache.bind (.temp call.path.parent number) none
            else cache
          moved.bind (.target call.path) (call.file number)
  | .missing number =>
      machine.turn number (fun call => call.stage = .opened && call.goal.isNone &&
        !machine.isPresent call.path) .ended fun _ cache => cache
  | .fsyncParent number =>
      machine.turn number (fun call => call.stage = .published) .durable
        fun call cache => cache.syncNames fun name => name.parent = call.path.parent
  | .finish number =>
      machine.turn number (fun call => call.stage = .durable) .ended fun _ cache => cache
  | .fail number =>
      machine.turn number (fun call => call.goal.isSome && call.stage ≠ .failing &&
        call.stage ≠ .ended) .failing fun _ cache => cache
  | .cleanup number =>
      machine.turn number (fun call => call.stage = .failing) .ended fun call cache =>
        let temp := Name.temp call.path.parent number
        if (cache.entries temp).newest.isSome then cache.bind temp none else cache
  | .abandon number =>
      machine.turn number (fun call => call.stage ≠ .ended) .ended fun _ cache => cache
  | .crash => none

/-- The calls end where they are, and the disk keeps what it likes. -/
inductive Step : System Machine Act
  | act {source target : Machine} {act : Act} :
      source.apply act = some target → Step source act target
  | crash {source : Machine} {cache : Cache Name Nat} : source.cache.Crashes cache →
      Step source .crash ⟨cache, fun number =>
        (source.calls number).map fun call => { call with stage := .ended }⟩

/-! ## What one step does -/

section Steps

variable {source target : Machine} {act : Act} {number : Nat} {call : Call}

/-- A call of the source is at this stage of the target, where nothing else happened to the
calls. -/
structure Moves (source target : Machine) (number : Nat) (call : Call) (stage : Stage) :
    Prop where
  known : source.calls number = some call
  moved : target.calls = Function.update source.calls number (some { call with stage := stage })

theorem turn_eq_some {ready : Call → Bool} {stage : Stage}
    {effect : Call → Cache Name Nat → Cache Name Nat}
    (turned : source.turn number ready stage effect = some target) :
    ∃ call, Moves source target number call stage ∧ ready call = true ∧
      target.cache = effect call source.cache := by
  unfold turn at turned
  cases known : source.calls number with
  | none => simp [known] at turned
  | some call =>
      simp only [known] at turned
      by_cases isReady : ready call = true
      · rw [if_pos isReady] at turned
        cases turned
        exact ⟨call, ⟨known, rfl⟩, isReady, rfl⟩
      · rw [if_neg isReady] at turned
        cases turned

/-- Every path stands for what it stood for. -/
def SameNames (source target : Machine) : Prop :=
  ∀ path, target.cache.entries (.target path) = source.cache.entries (.target path)

/-- What a step does. -/
inductive Does (source target : Machine) : Act → Prop
  | start {number : Nat} {path : Path} {goal : Option Text} :
      source.calls number = none →
      target.calls = Function.update source.calls number (some ⟨path, goal, .opened⟩) →
      SameNames source target →
      (∀ other, other ≠ number → target.cache.files other = source.cache.files other) →
      Does source target (.start number path goal)
  | write {number count : Nat} {call : Call} :
      Moves source target number call .opened → call.stage = .opened →
      SameNames source target →
      (∀ other, other ≠ number → target.cache.files other = source.cache.files other) →
      Does source target (.write number count)
  | flush {number : Nat} {call : Call} :
      Moves source target number call .flushed → call.stage = .opened →
      SameNames source target →
      (∀ other, other ≠ number → target.cache.files other = source.cache.files other) →
      (target.cache.files number).content = call.goal.getD [] →
      Does source target (.flush number)
  | fsync {number : Nat} {call : Call} :
      Moves source target number call .synced → call.stage = .flushed →
      SameNames source target →
      (∀ other, other ≠ number → target.cache.files other = source.cache.files other) →
      target.cache.files number = ⟨(source.cache.files number).content, true⟩ →
      Does source target (.fsync number)
  | publish {number : Nat} {call : Call} :
      Moves source target number call .published → call.stage.isEarly = true →
      (call.goal.isSome → call.stage = .synced) →
      (∀ path, target.cache.entries (.target path) = if path = call.path then
        (source.cache.entries (.target path)).set (call.file number)
        else source.cache.entries (.target path)) →
      target.cache.files = source.cache.files →
      Does source target (.publish number)
  | fsyncParent {number : Nat} {call : Call} :
      Moves source target number call .durable → call.stage = .published →
      target.cache = source.cache.syncNames (fun name => name.parent = call.path.parent) →
      Does source target (.fsyncParent number)
  | finish {number : Nat} {call : Call} :
      Moves source target number call .ended → call.stage = .durable →
      target.cache = source.cache → Does source target (.finish number)
  | quit {act : Act} {number : Nat} {call : Call} {stage : Stage} :
      (act = .missing number ∨ act = .fail number ∨ act = .cleanup number ∨
        act = .abandon number) →
      Moves source target number call stage → stage = .failing ∨ stage = .ended →
      SameNames source target → target.cache.files = source.cache.files →
      Does source target act
  | crash : (target.calls = fun number =>
        (source.calls number).map fun call => { call with stage := .ended }) →
      source.cache.Crashes target.cache → Does source target .crash

theorem entries_bind_temp (cache : Cache Name Nat) (parent : Text) (number : Nat)
    (file : Option Nat) (path : Path) :
    (cache.bind (.temp parent number) file).entries (.target path) =
      cache.entries (.target path) := by
  rw [Cache.entries_bind, if_neg (by simp)]

theorem Step.does (taken : Step source act target) : Does source target act := by
  cases taken with
  | crash crashes => exact .crash rfl crashes
  | act applied =>
      cases act with
      | crash => cases applied
      | start number path goal =>
          unfold apply at applied
          cases unused : source.calls number with
          | some call => simp [unused] at applied
          | none =>
              simp only [unused, Option.some.injEq] at applied
              subst target
              refine .start unused rfl ?_ ?_
              · intro other
                cases goal with
                | none => rfl
                | some text => exact entries_bind_temp _ _ _ _ _
              · intro other different
                cases goal with
                | none => rfl
                | some text => exact Cache.files_write.trans (if_neg different)
      | write number count =>
          unfold apply at applied
          rcases turn_eq_some applied with ⟨call, moves, ready, made⟩
          rw [Bool.and_eq_true, decide_eq_true_eq] at ready
          refine .write moves ready.1 ?_ ?_
          · intro path
            rw [made]
            rfl
          · intro other different
            rw [made, Cache.files_write, if_neg different]
      | flush number =>
          unfold apply at applied
          rcases turn_eq_some applied with ⟨call, moves, ready, made⟩
          rw [Bool.and_eq_true, decide_eq_true_eq] at ready
          refine .flush moves ready.1 ?_ ?_ ?_
          · intro path
            rw [made]
            rfl
          · intro other different
            rw [made, Cache.files_write, if_neg different]
          · rw [made, Cache.files_write, if_pos rfl]
      | fsync number =>
          unfold apply at applied
          rcases turn_eq_some applied with ⟨call, moves, ready, made⟩
          refine .fsync moves (of_decide_eq_true ready) ?_ ?_ ?_
          · intro path
            rw [made]
            rfl
          · intro other different
            rw [made, Cache.files_fsync, if_neg different]
          · rw [made, Cache.files_fsync, if_pos rfl]
      | publish number =>
          unfold apply at applied
          rcases turn_eq_some applied with ⟨call, moves, ready, made⟩
          refine .publish moves ?_ ?_ ?_ ?_
          · split at ready
            · rw [of_decide_eq_true ready]
              rfl
            · rw [Bool.and_eq_true, decide_eq_true_eq] at ready
              rw [ready.1]
              rfl
          · intro isWrite
            rw [if_pos isWrite] at ready
            exact of_decide_eq_true ready
          · intro path
            rw [made]
            by_cases same : path = call.path
            · subst path
              cases call.goal with
              | none => simp [Cache.bind]
              | some text => simp [Cache.bind]
            · cases call.goal with
              | none => simp [Cache.bind, same]
              | some text => simp [Cache.bind, same]
          · rw [made]
            cases call.goal with
            | none => rfl
            | some text => rfl
      | fsyncParent number =>
          unfold apply at applied
          rcases turn_eq_some applied with ⟨call, moves, ready, made⟩
          exact .fsyncParent moves (of_decide_eq_true ready) made
      | finish number =>
          unfold apply at applied
          rcases turn_eq_some applied with ⟨call, moves, ready, made⟩
          exact .finish moves (of_decide_eq_true ready) made
      | missing number =>
          unfold apply at applied
          rcases turn_eq_some applied with ⟨call, moves, -, made⟩
          exact .quit (.inl rfl) moves (.inr rfl) (fun path => by rw [made]) (by rw [made])
      | fail number =>
          unfold apply at applied
          rcases turn_eq_some applied with ⟨call, moves, -, made⟩
          exact .quit (.inr (.inl rfl)) moves (.inl rfl) (fun path => by rw [made]) (by rw [made])
      | cleanup number =>
          unfold apply at applied
          rcases turn_eq_some applied with ⟨call, moves, -, made⟩
          refine .quit (.inr (.inr (.inl rfl))) moves (.inr rfl) ?_ ?_
          · intro path
            simp only [made]
            split
            · exact entries_bind_temp _ _ _ _ _
            · rfl
          · simp only [made]
            split
            · rfl
            · rfl
      | abandon number =>
          unfold apply at applied
          rcases turn_eq_some applied with ⟨call, moves, -, made⟩
          exact .quit (.inr (.inr (.inr rfl))) moves (.inr rfl) (fun path => by rw [made])
            (by rw [made])

namespace Moves

variable {stage : Stage} {other : Nat} {held : Call}

theorem calls_self (moves : Moves source target number call stage) :
    target.calls number = some { call with stage := stage } := by
  rw [moves.moved, Function.update_self]

theorem calls_of_ne (moves : Moves source target number call stage) (different : other ≠ number) :
    target.calls other = source.calls other := by
  rw [moves.moved, Function.update_of_ne different]

theorem of_calls_eq_some (moves : Moves source target number call stage)
    (known : target.calls other = some held) :
    other = number ∧ held = { call with stage := stage } ∨
      other ≠ number ∧ source.calls other = some held := by
  by_cases same : other = number
  · subst other
    exact .inl ⟨rfl, Option.some.inj (known.symm.trans moves.calls_self)⟩
  · exact .inr ⟨same, moves.calls_of_ne same ▸ known⟩

end Moves

namespace Does

/-- A call is new, or one call moves to another stage, or all end. -/
theorem calls (does : Does source target act) :
    (∃ number path goal, act = .start number path goal ∧ source.calls number = none ∧
      target.calls = Function.update source.calls number (some ⟨path, goal, .opened⟩)) ∨
    (∃ number call stage, Moves source target number call stage) ∨
    target.calls = fun number =>
      (source.calls number).map fun call => { call with stage := .ended } := by
  cases does with
  | start unused moved => exact .inl ⟨_, _, _, rfl, unused, moved⟩
  | write moves => exact .inr (.inl ⟨_, _, _, moves⟩)
  | flush moves => exact .inr (.inl ⟨_, _, _, moves⟩)
  | fsync moves => exact .inr (.inl ⟨_, _, _, moves⟩)
  | publish moves => exact .inr (.inl ⟨_, _, _, moves⟩)
  | fsyncParent moves => exact .inr (.inl ⟨_, _, _, moves⟩)
  | finish moves => exact .inr (.inl ⟨_, _, _, moves⟩)
  | quit _ moves => exact .inr (.inl ⟨_, _, _, moves⟩)
  | crash ended => exact .inr (.inr ended)

/-- No call forgets its path or its text. -/
theorem calls_eq_some (does : Does source target act) (known : source.calls number = some call) :
    ∃ stage, target.calls number = some { call with stage := stage } := by
  rcases does.calls with ⟨new, path, goal, -, unused, moved⟩ | ⟨turning, turned, stage, moves⟩ |
    ended
  · have different : number ≠ new := by
      rintro rfl
      cases unused.symm.trans known
    exact ⟨call.stage, by rw [moved, Function.update_of_ne different, known]⟩
  · by_cases same : number = turning
    · subst number
      cases moves.known.symm.trans known
      exact ⟨stage, moves.calls_self⟩
    · exact ⟨call.stage, (moves.calls_of_ne same).trans known⟩
  · exact ⟨.ended, by simp only [ended, known, Option.map_some]⟩

/-- A call was known before, or it is new. -/
theorem of_calls_eq_some (does : Does source target act)
    (known : target.calls number = some call) :
    (∃ stage, source.calls number = some { call with stage := stage }) ∨
      act = .start number call.path call.goal := by
  rcases does.calls with ⟨new, path, goal, rfl, unused, moved⟩ | ⟨turning, turned, stage, moves⟩ |
    ended
  · by_cases same : number = new
    · subst number
      rw [moved, Function.update_self] at known
      cases known
      exact .inr rfl
    · rw [moved, Function.update_of_ne same] at known
      exact .inl ⟨call.stage, known⟩
  · rcases moves.of_calls_eq_some known with ⟨rfl, rfl⟩ | ⟨-, before⟩
    · exact .inl ⟨turned.stage, moves.known⟩
    · exact .inl ⟨call.stage, before⟩
  · simp only [ended] at known
    rcases Option.map_eq_some_iff.mp known with ⟨before, earlier, rfl⟩
    exact .inl ⟨before.stage, earlier⟩

/-- The paths stand for what they stood for, or a directory is synchronized, or a call
publishes, or the disk keeps what it likes. -/
theorem names (does : Does source target act) :
    SameNames source target ∨ (∃ inside, target.cache = source.cache.syncNames inside) ∨
    (∃ number call, act = .publish number ∧ source.calls number = some call ∧
      ∀ path, target.cache.entries (.target path) = if path = call.path then
        (source.cache.entries (.target path)).set (call.file number)
        else source.cache.entries (.target path)) ∨
    act = .crash ∧ source.cache.Crashes target.cache := by
  cases does with
  | start _ _ names => exact .inl names
  | write _ _ names => exact .inl names
  | flush _ _ names => exact .inl names
  | fsync _ _ names => exact .inl names
  | publish moves _ _ names => exact .inr (.inr (.inl ⟨_, _, rfl, moves.known, names⟩))
  | fsyncParent _ _ same => exact .inr (.inl ⟨_, same⟩)
  | finish _ _ same => exact .inl fun path => by rw [same]
  | quit _ _ _ names => exact .inl names
  | crash _ crashes => exact .inr (.inr (.inr ⟨rfl, crashes⟩))

/-- The disk may hold under a path what it could hold before, or what a call just published. -/
theorem holds (does : Does source target act) {path : Path} {file : Option Nat}
    (held : (target.cache.entries (.target path)).Holds file) :
    (source.cache.entries (.target path)).Holds file ∨ ∃ number call, act = .publish number ∧
      source.calls number = some call ∧ call.path = path ∧ file = call.file number := by
  rcases does.names with same | ⟨inside, same⟩ | ⟨number, call, rfl, known, names⟩ | ⟨-, crashes⟩
  · exact .inl (same path ▸ held)
  · rw [same] at held
    exact .inl (Cache.holds_of_holds_syncNames held)
  · rw [names path] at held
    split at held
    · rename_i same
      rcases Entry.holds_set.mp held with new | old
      · exact .inr ⟨number, call, rfl, known, same.symm, new⟩
      · exact .inl old
    · exact .inl held
  · exact .inl (crashes.holds held)

/-- Without a crash programs read what they read before, or what a call just published. -/
theorem newest (does : Does source target act) (alive : act ≠ .crash) (path : Path) :
    (target.cache.entries (.target path)).newest =
        (source.cache.entries (.target path)).newest ∨
      ∃ number call, act = .publish number ∧ source.calls number = some call ∧
        call.path = path ∧
        (target.cache.entries (.target path)).newest = call.file number := by
  rcases does.names with same | ⟨inside, same⟩ | ⟨number, call, rfl, known, names⟩ | ⟨crash, -⟩
  · exact .inl (by rw [same path])
  · exact .inl (by rw [same, Cache.newest_syncNames])
  · rw [names path]
    split
    · rename_i same
      exact .inr ⟨number, call, rfl, known, same.symm, rfl⟩
    · exact .inl rfl
  · exact absurd crash alive

end Does

end Steps

/-! ## The calls of a run -/

section Runs

variable {labels : List Act} {target : Machine} {number : Nat} {path : Path} {goal : Option Text}

/-- The calls of a run are the ones that were started. -/
theorem start_mem_of_run (run : Run Step empty labels target) {call : Call}
    (known : target.calls number = some call) : .start number call.path call.goal ∈ labels := by
  induction run generalizing call with
  | refl => cases known
  | tail before last ih =>
      rcases last.does.of_calls_eq_some known with ⟨stage, earlier⟩ | rfl
      · exact List.mem_append_left _ (@ih { call with stage := stage } earlier)
      · exact List.mem_append_right _ List.mem_cons_self

/-- A number names one call. -/
theorem calls_of_start_mem (run : Run Step empty labels target)
    (started : .start number path goal ∈ labels) :
    ∃ stage, target.calls number = some ⟨path, goal, stage⟩ := by
  induction run with
  | refl => cases started
  | tail before last ih =>
      rcases List.mem_append.mp started with early | late
      · rcases ih early with ⟨stage, known⟩
        exact last.does.calls_eq_some known
      · have does := last.does
        rw [← List.mem_singleton.mp late] at does
        cases does with
        | start _ moved => exact ⟨.opened, by rw [moved, Function.update_self]⟩
        | quit which => simp at which

/-- What the disk may hold under a path was published there. -/
theorem publish_mem_of_run (run : Run Step empty labels target) {file : Nat}
    (held : (target.cache.entries (.target path)).Holds (some file)) :
    .publish file ∈ labels := by
  induction run with
  | refl =>
      rcases held with new | old
      · cases new
      · cases old
  | tail before last ih =>
      rcases last.does.holds held with earlier | ⟨publishing, call, rfl, -, -, named⟩
      · exact List.mem_append_left _ (ih earlier)
      · rcases Option.map_eq_some_iff.mp named.symm with ⟨text, -, rfl⟩
        exact List.mem_append_right _ List.mem_cons_self

end Runs

/-! ## Whole files -/

section Whole

variable {source target : Machine} {act : Act} {number : Nat} {call : Call} {path : Path}

/-- A write call published this file under the path, and the disk holds all of its text. -/
def Whole (machine : Machine) (path : Path) (file : Nat) : Prop :=
  ∃ call text, machine.calls file = some call ∧ call.path = path ∧ call.goal = some text ∧
    call.stage.isEarly = false ∧ machine.cache.files file = ⟨text, true⟩

/-- A call that flushed its text has all of it in its file, and the disk has it behind `fsync`. -/
def Filled (machine : Machine) (number : Nat) (call : Call) : Prop :=
  (call.stage = .flushed → (machine.cache.files number).content = call.goal.getD []) ∧
    (call.stage = .synced → machine.cache.files number = ⟨call.goal.getD [], true⟩)

/-- What the disk may hold under a path is whole. -/
structure Sound (machine : Machine) : Prop where
  whole : ∀ path file, (machine.cache.entries (.target path)).Holds (some file) →
    Whole machine path file
  filled : ∀ number call, machine.calls number = some call → Filled machine number call

/-- A call that still works on its own file leaves the published ones alone. -/
theorem Whole.of_early {stage : Stage} {file : Nat} (whole : Whole source path file)
    (moves : Moves source target number call stage) (early : call.stage.isEarly = true)
    (files : ∀ other, other ≠ number → target.cache.files other = source.cache.files other) :
    Whole target path file := by
  rcases whole with ⟨held, text, known, under, goal, late, content⟩
  have different : file ≠ number := by
    rintro rfl
    cases known.symm.trans moves.known
    exact Bool.false_ne_true (late.symm.trans early)
  exact ⟨held, text, (moves.calls_of_ne different).trans known, under, goal, late,
    (files file different).trans content⟩

/-- A call that is done with its file stays so. -/
theorem Whole.of_late {stage : Stage} {file : Nat} (whole : Whole source path file)
    (moves : Moves source target number call stage) (late : stage.isEarly = false)
    (files : target.cache.files = source.cache.files) : Whole target path file := by
  rcases whole with ⟨held, text, known, under, goal, lateHeld, content⟩
  by_cases same : file = number
  · subst file
    cases known.symm.trans moves.known
    exact ⟨_, text, moves.calls_self, under, goal, late, by rw [files, content]⟩
  · exact ⟨held, text, (moves.calls_of_ne same).trans known, under, goal, lateHeld,
      by rw [files, content]⟩

/-- The other calls keep what they have in their files. -/
theorem filled_of_moves {stage : Stage} (sound : Sound source)
    (moves : Moves source target number call stage)
    (files : ∀ other, other ≠ number → target.cache.files other = source.cache.files other)
    (moved : Filled target number { call with stage := stage }) :
    ∀ other held, target.calls other = some held → Filled target other held := by
  intro other held known
  rcases moves.of_calls_eq_some known with ⟨rfl, rfl⟩ | ⟨different, before⟩
  · exact moved
  · have filled := sound.filled other held before
    unfold Filled at filled ⊢
    rwa [files other different]

theorem filled_of_stage {machine : Machine} {stage : Stage} (flushed : stage ≠ .flushed)
    (synced : stage ≠ .synced) : Filled machine number { call with stage := stage } :=
  ⟨fun same => absurd same flushed, fun same => absurd same synced⟩

/-- Every step keeps the files whole. -/
theorem sound_preserves : Step.Preserves Sound := by
  intro source act target taken sound
  have does := taken.does
  cases does with
  | @start number path goal unused moved names files =>
      constructor
      · intro under file held
        rw [names under] at held
        rcases sound.whole under file held with ⟨call, text, known, rest⟩
        have different : file ≠ number := by
          rintro rfl
          cases unused.symm.trans known
        refine ⟨call, text, ?_, ?_⟩
        · rw [moved, Function.update_of_ne different, known]
        · rw [files file different]
          exact rest
      · intro other call known
        by_cases same : other = number
        · subst other
          rw [moved, Function.update_self] at known
          cases known
          exact ⟨nofun, nofun⟩
        · rw [moved, Function.update_of_ne same] at known
          have filled := sound.filled other call known
          unfold Filled at filled ⊢
          rwa [files other same]
  | @write number count call moves opened names files =>
      have early : call.stage.isEarly = true := by rw [opened]; rfl
      constructor
      · intro under file held
        rw [names under] at held
        exact (sound.whole under file held).of_early moves early files
      · exact filled_of_moves sound moves files (filled_of_stage nofun nofun)
  | @flush number call moves opened names files content =>
      have early : call.stage.isEarly = true := by rw [opened]; rfl
      constructor
      · intro under file held
        rw [names under] at held
        exact (sound.whole under file held).of_early moves early files
      · exact filled_of_moves sound moves files ⟨fun _ => content, nofun⟩
  | @fsync number call moves flushed names files content =>
      have early : call.stage.isEarly = true := by rw [flushed]; rfl
      constructor
      · intro under file held
        rw [names under] at held
        exact (sound.whole under file held).of_early moves early files
      · refine filled_of_moves sound moves files ⟨nofun, fun _ => ?_⟩
        rw [content, (sound.filled number call moves.known).1 flushed]
  | @publish number call moves _ synced names files =>
      constructor
      · intro under file held
        rw [names under] at held
        split at held
        · rename_i same
          rcases Entry.holds_set.mp held with new | old
          · rcases Option.map_eq_some_iff.mp new.symm with ⟨text, goal, rfl⟩
            have written : call.goal.getD [] = text := by rw [goal]; rfl
            have content := (sound.filled number call moves.known).2
              (synced (Option.isSome_of_eq_some goal))
            exact ⟨_, text, moves.calls_self, same.symm, goal, rfl,
              by rw [files, content, written]⟩
          · exact (sound.whole under file old).of_late moves rfl files
        · exact (sound.whole under file held).of_late moves rfl files
      · exact filled_of_moves sound moves (fun _ _ => by rw [files])
          (filled_of_stage nofun nofun)
  | @fsyncParent number call moves published same =>
      have files : target.cache.files = source.cache.files := by rw [same]; rfl
      constructor
      · intro under file held
        rw [same] at held
        exact (sound.whole under file (Cache.holds_of_holds_syncNames held)).of_late moves rfl
          files
      · exact filled_of_moves sound moves (fun _ _ => by rw [files])
          (filled_of_stage nofun nofun)
  | @finish number call moves durable same =>
      constructor
      · intro under file held
        rw [same] at held
        exact (sound.whole under file held).of_late moves rfl (by rw [same])
      · exact filled_of_moves sound moves (fun _ _ => by rw [same])
          (filled_of_stage nofun nofun)
  | @quit act number call stage _ moves stopped names files =>
      have late : stage.isEarly = false ∧ stage ≠ .flushed ∧ stage ≠ .synced := by
        rcases stopped with rfl | rfl
        · exact ⟨rfl, nofun, nofun⟩
        · exact ⟨rfl, nofun, nofun⟩
      constructor
      · intro under file held
        rw [names under] at held
        exact (sound.whole under file held).of_late moves late.1 files
      · exact filled_of_moves sound moves (fun _ _ => by rw [files])
          (filled_of_stage late.2.1 late.2.2)
  | crash ended crashes =>
      constructor
      · intro under file held
        rcases sound.whole under file (crashes.holds held) with
          ⟨call, text, known, path, goal, -, content⟩
        refine ⟨{ call with stage := .ended }, text, ?_, path, goal, rfl, ?_⟩
        · simp only [ended, known, Option.map_some]
        · rw [crashes.kept file (by rw [content]), content]
      · intro number call known
        simp only [ended] at known
        rcases Option.map_eq_some_iff.mp known with ⟨before, -, rfl⟩
        exact filled_of_stage nofun nofun

theorem sound_empty : Sound empty where
  whole := by
    intro path file held
    rcases held with new | old
    · cases new
    · cases old
  filled := nofun

/-- Programs read under a path what one published call wrote. -/
theorem read_of_newest {labels : List Act} (run : Run Step empty labels target) {file : Nat}
    (newest : (target.cache.entries (.target path)).newest = some file) :
    ∃ text, .start file path (some text) ∈ labels ∧ .publish file ∈ labels ∧
      target.read path = some text := by
  have held : (target.cache.entries (.target path)).Holds (some file) := .inl newest.symm
  rcases (run.invariant sound_preserves sound_empty).whole path file held with
    ⟨call, text, known, under, goal, -, content⟩
  have started := start_mem_of_run run known
  rw [under, goal] at started
  refine ⟨text, started, publish_mem_of_run run held, ?_⟩
  rw [read, Cache.read, newest, Option.map_some, content]

/-- However the calls run beside each other, whatever raises, and wherever the machine crashes:
a program that reads a path finds no file, or all of the text of one call that published it. -/
theorem read_whole {labels : List Act} (run : Run Step empty labels target) (path : Path) :
    target.read path = none ∨ ∃ number text, .start number path (some text) ∈ labels ∧
      .publish number ∈ labels ∧ target.read path = some text := by
  cases newest : (target.cache.entries (.target path)).newest with
  | none =>
      left
      rw [read, Cache.read, newest]
      rfl
  | some file => exact .inr ⟨file, read_of_newest run newest⟩

/-- The file of a queued commit. -/
def queueEntry : Path :=
  ⟨"push_queue".toList, "abc.json".toList⟩

/-- A write of a short text, up to its return. -/
def returning : List Act :=
  [.start 0 queueEntry (some "queued".toList), .flush 0, .fsync 0, .publish 0, .fsyncParent 0,
    .finish 0]

theorem exists_run_returning : ∃ target, Run Step empty returning target ∧
    target.read queueEntry = some "queued".toList :=
  ⟨_, (((((Run.refl.tail (.act rfl)).tail (.act rfl)).tail (.act rfl)).tail (.act rfl)).tail
    (.act rfl)).tail (.act rfl), rfl⟩

/-- A crash may leave on the disk exactly what programs read. -/
theorem crashes_sync (cache : Cache Name Nat) :
    cache.Crashes { cache with entries := fun name => (cache.entries name).sync } where
  kept _ _ := rfl
  held _ := .inl rfl
  forgotten _ := rfl

/-- A crash behind a write. -/
theorem read_whole_crash : ∃ target, Run Step empty (returning ++ [.crash]) target ∧
    target.read queueEntry = some "queued".toList ∧
    ∃ number text, .start number queueEntry (some text) ∈ returning ++ [.crash] ∧
      target.read queueEntry = some text := by
  rcases exists_run_returning with ⟨middle, run, found⟩
  have crashed := run.tail (.crash (crashes_sync middle.cache))
  refine ⟨_, crashed, found, ?_⟩
  rcases read_whole crashed queueEntry with nothing | ⟨number, text, started, -, read⟩
  · cases nothing.symm.trans found
  · exact ⟨number, text, started, read⟩

end Whole

/-! ## What returned stays -/

section Lasting

variable {source target : Machine} {act : Act} {labels early later : List Act} {number : Nat}
  {path : Path} {goal : Option Text}

/-- A call on the path put this file there, and its publication is one of the `later` steps. -/
def Published (labels later : List Act) (path : Path) (file : Option Nat) : Prop :=
  ∃ number goal, .start number path goal ∈ labels ∧ .publish number ∈ later ∧
    file = goal.map fun _ => number

theorem Published.append {file : Option Nat} (published : Published labels later path file)
    (act : Act) : Published (labels ++ [act]) (later ++ [act]) path file := by
  rcases published with ⟨number, goal, started, publish, rfl⟩
  exact ⟨number, goal, List.mem_append_left _ started, List.mem_append_left _ publish, rfl⟩

/-- How far a call is that published under the path: its directory is not synchronized yet, or
the disk holds nothing older than what it published, or it will not return. -/
inductive Lasting (labels later : List Act) (path : Path) (number : Nat) (machine : Machine) : Prop
  | pending {call : Call} : machine.calls number = some call → call.stage = .published →
      call.path = path → .finish number ∉ later →
      Published labels later path (machine.cache.entries (.target path)).newest →
      Lasting labels later path number machine
  | lasting : (∀ file, (machine.cache.entries (.target path)).Holds file →
      Published labels later path file) → Lasting labels later path number machine
  | lost {call : Call} : machine.calls number = some call →
      call.stage = .failing ∨ call.stage = .ended → .finish number ∉ later →
      Lasting labels later path number machine

/-- What a step publishes under the path is published later. -/
theorem published_of_publish (run : Run Step empty labels source) {publishing : Nat}
    {call : Call} (known : source.calls publishing = some call) (under : call.path = path) :
    Published (labels ++ [.publish publishing]) (later ++ [.publish publishing]) path
      (call.file publishing) := by
  have started := start_mem_of_run run known
  rw [under] at started
  exact ⟨publishing, call.goal, List.mem_append_left _ started,
    List.mem_append_right _ List.mem_cons_self, rfl⟩

theorem finish_not_mem_append (absent : .finish number ∉ later) (other : act ≠ .finish number) :
    .finish number ∉ later ++ [act] := by
  intro member
  rcases List.mem_append.mp member with before | last
  · exact absent before
  · exact other (List.mem_singleton.mp last).symm

/-- A call that failed or ended does not return. -/
theorem Does.of_stopped {call : Call} (does : Does source target act)
    (known : source.calls number = some call)
    (stopped : call.stage = .failing ∨ call.stage = .ended) :
    act ≠ .finish number ∧ ∃ held, target.calls number = some held ∧
      (held.stage = .failing ∨ held.stage = .ended) := by
  have apart {turning : Nat} {turned : Call} {stage : Stage}
      (moves : Moves source target turning turned stage)
      (going : turned.stage ≠ .failing ∧ turned.stage ≠ .ended) : number ≠ turning := by
    rintro rfl
    cases known.symm.trans moves.known
    rcases stopped with failing | ended
    · exact going.1 failing
    · exact going.2 ended
  have stays {turning : Nat} {turned : Call} {stage : Stage}
      (moves : Moves source target turning turned stage)
      (going : turned.stage ≠ .failing ∧ turned.stage ≠ .ended) :
      ∃ held, target.calls number = some held ∧
        (held.stage = .failing ∨ held.stage = .ended) :=
    ⟨call, (moves.calls_of_ne (apart moves going)).trans known, stopped⟩
  cases does with
  | @start new path goal unused moved =>
      have different : number ≠ new := by
        rintro rfl
        cases unused.symm.trans known
      exact ⟨nofun, call, by rw [moved, Function.update_of_ne different, known], stopped⟩
  | write moves opened => exact ⟨nofun, stays moves (by simp [opened])⟩
  | flush moves opened => exact ⟨nofun, stays moves (by simp [opened])⟩
  | fsync moves flushed => exact ⟨nofun, stays moves (by simp [flushed])⟩
  | @publish _ turned moves early =>
      have going : turned.stage ≠ .failing ∧ turned.stage ≠ .ended := by
        constructor
        · intro failing
          rw [failing] at early
          cases early
        · intro ended
          rw [ended] at early
          cases early
      exact ⟨nofun, stays moves going⟩
  | fsyncParent moves published => exact ⟨nofun, stays moves (by simp [published])⟩
  | finish moves durable =>
      have different := apart moves (by simp [durable])
      exact ⟨fun same => different (Act.finish.inj same).symm, stays moves (by simp [durable])⟩
  | @quit _ turning turned stage which moves ending =>
      refine ⟨by rintro rfl; simp at which, ?_⟩
      by_cases same : number = turning
      · subst number
        exact ⟨_, moves.calls_self, ending⟩
      · exact ⟨call, (moves.calls_of_ne same).trans known, stopped⟩
  | crash ended =>
      exact ⟨nofun, { call with stage := .ended }, by simp only [ended, known, Option.map_some],
        .inr rfl⟩

/-- Every step keeps a call on its way. -/
theorem Lasting.step (run : Run Step empty labels source) (taken : Step source act target)
    (lasting : Lasting labels later path number source) :
    Lasting (labels ++ [act]) (later ++ [act]) path number target := by
  have does := taken.does
  cases lasting with
  | lasting all =>
      refine .lasting fun file held => ?_
      rcases does.holds held with before | ⟨publishing, call, rfl, known, under, rfl⟩
      · exact (all file before).append act
      · exact published_of_publish run known under
  | lost known stopped absent =>
      rcases does.of_stopped known stopped with ⟨other, held, after, still⟩
      exact .lost after still (finish_not_mem_append absent other)
  | @pending call known published under absent newest =>
      have newestAfter (alive : act ≠ .crash) : Published (labels ++ [act]) (later ++ [act]) path
          (target.cache.entries (.target path)).newest := by
        rcases does.newest alive path with same | ⟨publishing, held, rfl, before, there, same⟩
        · exact same ▸ newest.append act
        · exact same ▸ published_of_publish run before there
      have stays {turning : Nat} {turned : Call} {stage : Stage}
          (moves : Moves source target turning turned stage) (different : number ≠ turning)
          (alive : act ≠ .crash) (other : act ≠ .finish number) :
          Lasting (labels ++ [act]) (later ++ [act]) path number target :=
        .pending ((moves.calls_of_ne different).trans known) published under
          (finish_not_mem_append absent other) (newestAfter alive)
      have apart {turning : Nat} {turned : Call} {stage : Stage}
          (moves : Moves source target turning turned stage)
          (elsewhere : turned.stage ≠ .published) : number ≠ turning := by
        rintro rfl
        cases known.symm.trans moves.known
        exact elsewhere published
      cases does with
      | @start new _ goal unused moved =>
          have different : number ≠ new := by
            rintro rfl
            cases unused.symm.trans known
          exact .pending (by rw [moved, Function.update_of_ne different, known]) published under
            (finish_not_mem_append absent nofun) (newestAfter nofun)
      | write moves opened => exact stays moves (apart moves (by simp [opened])) nofun nofun
      | flush moves opened => exact stays moves (apart moves (by simp [opened])) nofun nofun
      | fsync moves flushed => exact stays moves (apart moves (by simp [flushed])) nofun nofun
      | @publish _ turned moves early =>
          have elsewhere : turned.stage ≠ .published := by
            intro same
            rw [same] at early
            cases early
          exact stays moves (apart moves elsewhere) nofun nofun
      | @fsyncParent turning turned moves _ synced =>
          by_cases same : number = turning
          · subst number
            cases known.symm.trans moves.known
            refine .lasting fun file held => ?_
            rw [synced] at held
            have isNewest : file = (source.cache.entries (.target path)).newest := by
              refine Cache.eq_newest_of_holds_syncNames ?_ held
              rw [under]
              exact decide_eq_true rfl
            rw [isNewest]
            exact newest.append _
          · exact stays moves same nofun nofun
      | finish moves durable =>
          have different := apart moves (by simp [durable])
          exact stays moves different nofun fun same => different (Act.finish.inj same).symm
      | @quit _ turning turned stage which moves ending =>
          have others : act ≠ .crash ∧ act ≠ .finish number := by
            constructor
            · rintro rfl
              simp at which
            · rintro rfl
              simp at which
          by_cases same : number = turning
          · subst number
            exact .lost moves.calls_self ending (finish_not_mem_append absent others.2)
          · exact stays moves same others.1 others.2
      | crash ended =>
          have after : target.calls number = some { call with stage := .ended } := by
            simp only [ended, known, Option.map_some]
          exact .lost after (.inr rfl) (finish_not_mem_append absent nofun)

/-- From its publication on, every call is on its way. -/
theorem lasting_of_run (run : Run Step empty (early ++ .publish number :: later) target)
    (started : .start number path goal ∈ early) :
    Lasting (early ++ .publish number :: later) (.publish number :: later) path number target := by
  induction later using List.reverseRecOn generalizing target with
  | nil =>
      rcases run.exists_last with ⟨middle, before, last⟩
      rcases calls_of_start_mem before started with ⟨stage, known⟩
      have does := last.does
      cases does with
      | @publish _ call moves _ _ names =>
          cases known.symm.trans moves.known
          refine .pending moves.calls_self rfl rfl (by simp) ?_
          rw [names path, if_pos rfl]
          exact ⟨number, goal, List.mem_append_left _ started, List.mem_cons_self, rfl⟩
      | quit which => simp at which
  | append_singleton others act ih =>
      rw [← List.cons_append, ← List.append_assoc] at run ⊢
      rcases run.exists_last with ⟨middle, before, last⟩
      exact (ih before).step before last

/-- What a write or a removal did is there to stay once it returned: however the calls run
beside each other and wherever the machine crashes afterwards, a program that reads the path
finds what this call, or one that published behind it, put there. -/
theorem returned_lasts (run : Run Step empty (early ++ .publish number :: later) target)
    (started : .start number path goal ∈ early) (returned : .finish number ∈ later) :
    ∃ other held, .start other path held ∈ early ++ .publish number :: later ∧
      .publish other ∈ .publish number :: later ∧ target.read path = held := by
  have inLater : .finish number ∈ Act.publish number :: later :=
    List.mem_cons_of_mem _ returned
  cases lasting_of_run run started with
  | pending _ _ _ absent => exact absurd inLater absent
  | lost _ _ absent => exact absurd inLater absent
  | lasting all =>
      rcases all _ (Entry.holds_newest _) with ⟨other, held, startedOther, published, newest⟩
      refine ⟨other, held, startedOther, published, ?_⟩
      cases held with
      | none =>
          rw [read, Cache.read, newest]
          rfl
      | some text =>
          rcases read_of_newest run newest with ⟨read, startedRead, -, found⟩
          rcases calls_of_start_mem run startedOther with ⟨_, first⟩
          rcases calls_of_start_mem run startedRead with ⟨_, second⟩
          cases first.symm.trans second
          exact found

/-- Whatever a crash leaves behind a write that returned, its text is there. -/
theorem returned_lasts_crash : (∃ target, Run Step empty (returning ++ [.crash]) target) ∧
    ∀ target, Run Step empty (returning ++ [.crash]) target →
      target.read queueEntry = some "queued".toList := by
  constructor
  · rcases exists_run_returning with ⟨middle, run, -⟩
    exact ⟨_, run.tail (.crash (crashes_sync middle.cache))⟩
  · intro target run
    rcases @returned_lasts target [.start 0 queueEntry (some "queued".toList), .flush 0, .fsync 0]
      [.fsyncParent 0, .finish 0, .crash] 0 queueEntry (some "queued".toList) run
      List.mem_cons_self (by simp) with ⟨other, held, started, published, read⟩
    simp only [List.mem_cons, Act.publish.injEq, reduceCtorEq, List.not_mem_nil, or_false]
      at published
    subst published
    simp only [List.cons_append, List.nil_append, List.mem_cons, Act.start.injEq, reduceCtorEq,
      List.not_mem_nil, or_false, true_and] at started
    rw [read, started]

end Lasting

end Machine

end DataOlympus.Storage
