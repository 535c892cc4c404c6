import BatchRun.Launch.Executor
import BatchRun.Proofs.Log

/-! # Slots of worker pools

All clones of a pool share one count of the slots that are taken. A task takes its slot in one step
and gives it back in another one, and any steps of other tasks may come between: more tasks are
handed in, workers are started or fail to start, tasks end or panic. Whatever the order, the count
is the number of tasks that have a slot. It neither exceeds the limit nor falls below zero, a task
is turned away exactly if all slots are taken at its turn, and a task that is not taken is never
run.
-/

namespace BatchRun

/-! ## The two steps of handing in a task -/

namespace WorkerPool

variable {pool busier : WorkerPool} {start : Except String Unit}

/-- Starts a worker in a slot that has been taken, or gives the slot back. -/
def begin (pool : WorkerPool) (start : Except String Unit) : Submission × WorkerPool :=
  if pool.isNameable then
    match start with
    | .ok () => (.runOnWorker, pool)
    | .error reason => (.rejected (notStarted reason), pool.release)
  else (.panicked, pool.release)

private theorem acquire?_of_free (free : pool.active < pool.maxConcurrent.toNat) :
    pool.acquire? = some { pool with active := pool.active + 1 } :=
  if_pos free

private theorem acquire?_of_full (full : pool.maxConcurrent.toNat ≤ pool.active) :
    pool.acquire? = none :=
  if_neg (Nat.not_lt.2 full)

private theorem execute_of_full (full : pool.acquire? = none) :
    pool.execute start = (.rejected pool.exhausted, pool) := by
  simp only [execute, full]

private theorem execute_of_free (free : pool.acquire? = some busier) :
    pool.execute start = busier.begin start := by
  have named : busier.isNameable = pool.isNameable := by
    unfold acquire? at free
    split at free
    · rw [← Option.some.inj free]
      rfl
    · contradiction
  cases start <;> simp only [execute, free, begin, named]

/-- A worker runs the task, or the slot is given back and the answer tells another reason than that
all slots are taken. -/
theorem begin_cases (pool : WorkerPool) (start : Except String Unit) :
    pool.begin start = (.runOnWorker, pool) ∨
    ∃ answer, (answer = .panicked ∨ ∃ reason, answer = .rejected (notStarted reason)) ∧
      pool.begin start = (answer, pool.release) := by
  unfold begin
  split
  · cases start with
    | ok => exact .inl rfl
    | error reason => exact .inr ⟨_, .inr ⟨reason, rfl⟩, rfl⟩
  · exact .inr ⟨_, .inl rfl, rfl⟩

private theorem exists_exhausted_eq (pool : WorkerPool) :
    ∃ rest, pool.exhausted.reason = "pool exhausted: " ++ rest := by
  unfold exhausted
  simp only [String.append_assoc]
  exact Exists.intro _ rfl

/-- The two kinds of rejections read differently. -/
theorem notStarted_ne_exhausted (reason : String) (pool : WorkerPool) :
    notStarted reason ≠ pool.exhausted := by
  intro same
  obtain ⟨rest, text⟩ := pool.exists_exhausted_eq
  have texts : "failed to spawn worker thread: " ++ reason = "pool exhausted: " ++ rest :=
    (congrArg TaskRejected.reason same).trans text
  have letters := congrArg String.toList texts
  simp at letters

end WorkerPool

/-! ## Tasks and slots, step by step -/

/-- How a task ends that is run. -/
inductive TaskEnding
  | completed
  | panicked
deriving DecidableEq, Repr

/-- How far a task has come that was handed in. -/
inductive TaskStage
  /-- It has a slot, and a worker of this name is being started for it. -/
  | starting (name : String)
  /-- It has been accepted, and a worker runs it. -/
  | running
  /-- It has been run. -/
  | ended (ending : TaskEnding)
  /-- It has not been accepted, and this was the answer. -/
  | refused (answer : Submission)
deriving DecidableEq, Repr

namespace TaskStage

/-- The task has a slot: it has been taken, and has neither ended nor been refused since. -/
def holdsSlot : TaskStage → Bool
  | starting _ | running => true
  | ended _ | refused _ => false

/-- The task is or has been run. -/
def hasRun : TaskStage → Bool
  | running | ended _ => true
  | starting _ | refused _ => false

end TaskStage

/-- What clones of a pool share, and the tasks that they have been given, in the order in which
these came. -/
structure Workload where
  /-- The number of slots that are taken. -/
  active : Nat
  tasks : List TaskStage
deriving DecidableEq, Repr

/-- A single step on the slots of a pool. -/
inductive SlotEvent
  /-- A task is handed in through a clone of some name, and asks for a slot. -/
  | call (name : String)
  /-- It turns out whether the worker of a task could be started. -/
  | start (task : Nat) (result : Except String Unit)
  /-- A task that is run comes to its end, and the worker with it. -/
  | finish (task : Nat) (ending : TaskEnding)

namespace Workload

variable {slots : UInt64} {state next : Workload} {event : SlotEvent} {answer : Option Submission}
  {task : Nat} {stage : TaskStage} {name : String}

/-- No task has been handed in. -/
def idle : Workload := ⟨0, []⟩

/-- The pool as a clone of some name sees it. -/
def clone (slots : UInt64) (state : Workload) (name : String) : WorkerPool :=
  ⟨name, slots, state.active⟩

/-- The number of tasks that have been taken and whose end has not come. -/
def unended (state : Workload) : Nat := state.tasks.countP TaskStage.holdsSlot

/-- The answer to a task for which there is no slot. -/
def turnedAway (slots : UInt64) : Submission := .rejected (WorkerPool.ofSlots slots).exhausted

/-- The stage of a task after its worker was to be started. -/
def stageOf : Submission → TaskStage
  | .runOnWorker => .running
  | answer => .refused answer

/-- The clones of a pool at work, and what a caller is answered. Nothing happens to a task that is
not at the stage in question. -/
def serving (slots : UInt64) : Service Workload SlotEvent (Option Submission)
  | state, .call name =>
    match (clone slots state name).acquire? with
    | none =>
      (some (turnedAway slots), ⟨state.active, state.tasks ++ [.refused (turnedAway slots)]⟩)
    | some busier => (none, ⟨busier.active, state.tasks ++ [.starting name]⟩)
  | state, .start task result =>
    match state.tasks[task]? with
    | some (.starting name) =>
      let begun := (clone slots state name).begin result
      (some begun.1, ⟨begun.2.active, state.tasks.set task (stageOf begun.1)⟩)
    | _ => (none, state)
  | state, .finish task ending =>
    match state.tasks[task]? with
    | some .running =>
      (none, ⟨(clone slots state "").release.active, state.tasks.set task (.ended ending)⟩)
    | _ => (none, state)

/-- All that can happen in one step. -/
inductive Turn (slots : UInt64) (state : Workload) :
    SlotEvent → Option Submission → Workload → Prop
  | turnedAway {name : String} (full : slots.toNat ≤ state.active) :
      Turn slots state (.call name) (some (turnedAway slots))
        ⟨state.active, state.tasks ++ [.refused (Workload.turnedAway slots)]⟩
  | taken {name : String} (free : state.active < slots.toNat) :
      Turn slots state (.call name) none ⟨state.active + 1, state.tasks ++ [.starting name]⟩
  | started {task : Nat} {name : String} {result : Except String Unit}
      (waiting : state.tasks[task]? = some (.starting name)) :
      Turn slots state (.start task result) (some .runOnWorker)
        ⟨state.active, state.tasks.set task .running⟩
  | failed {task : Nat} {name : String} {result : Except String Unit} {refusal : Submission}
      (waiting : state.tasks[task]? = some (.starting name))
      (told : refusal = .panicked ∨ ∃ reason, refusal = .rejected (WorkerPool.notStarted reason)) :
      Turn slots state (.start task result) (some refusal)
        ⟨state.active - 1, state.tasks.set task (.refused refusal)⟩
  | finished {task : Nat} {ending : TaskEnding} (works : state.tasks[task]? = some .running) :
      Turn slots state (.finish task ending) none
        ⟨state.active - 1, state.tasks.set task (.ended ending)⟩
  | idle {event : SlotEvent} : Turn slots state event none state

private theorem serving_call_of_free (free : state.active < slots.toNat) (name : String) :
    serving slots state (.call name) =
      (none, ⟨state.active + 1, state.tasks ++ [.starting name]⟩) := by
  have taken : (clone slots state name).acquire? = some (clone slots ⟨state.active + 1, []⟩ name) :=
    WorkerPool.acquire?_of_free free
  simp only [serving, taken]
  rfl

private theorem serving_call_of_full (full : slots.toNat ≤ state.active) (name : String) :
    serving slots state (.call name) =
      (some (turnedAway slots),
        ⟨state.active, state.tasks ++ [.refused (turnedAway slots)]⟩) := by
  have none : (clone slots state name).acquire? = none := WorkerPool.acquire?_of_full full
  simp only [serving, none]

private theorem serving_start (slots : UInt64) (state : Workload)
    (waiting : state.tasks[task]? = some (.starting name)) (result : Except String Unit) :
    serving slots state (.start task result) =
      (some ((clone slots state name).begin result).1,
        ⟨((clone slots state name).begin result).2.active,
          state.tasks.set task (stageOf ((clone slots state name).begin result).1)⟩) := by
  simp only [serving, waiting]

private theorem turn_serving (slots : UInt64) (state : Workload) (event : SlotEvent) :
    Turn slots state event (serving slots state event).1 (serving slots state event).2 := by
  cases event with
  | call name =>
    by_cases free : state.active < slots.toNat
    · rw [serving_call_of_free free]
      exact .taken free
    · rw [serving_call_of_full (Nat.not_lt.1 free)]
      exact .turnedAway (Nat.not_lt.1 free)
  | start task result =>
    simp only [serving]
    split
    · rename_i name waiting
      rcases (clone slots state name).begin_cases result with begun | ⟨refusal, told, begun⟩
      · simp only [begun]
        exact .started waiting
      · have refused : stageOf refusal = .refused refusal := by
          rcases told with rfl | ⟨reason, rfl⟩ <;> rfl
        simp only [begun, refused]
        exact .failed waiting told
    · exact .idle
  | finish task ending =>
    simp only [serving]
    split
    · rename_i works
      exact .finished works
    · exact .idle

/-! ## The count of slots -/

/-- What a step does to the number of slots that are taken: nothing, or it takes one that is free,
or it gives one back that was taken. -/
inductive SlotMove (slots : UInt64) : Nat → Nat → Prop
  | none {active : Nat} : SlotMove slots active active
  | taken {active : Nat} (free : active < slots.toNat) : SlotMove slots active (active + 1)
  | givenBack {active : Nat} : SlotMove slots (active + 1) active

/-- The slots that are taken are those of the tasks that have one. -/
structure Accounted (slots : UInt64) (state : Workload) : Prop where
  active : state.active = state.unended
  within : state.active ≤ slots.toNat

private theorem unended_append (state : Workload) (active : Nat) (stage : TaskStage) :
    unended ⟨active, state.tasks ++ [stage]⟩ = state.unended + stage.holdsSlot.toNat := by
  cases held : stage.holdsSlot <;> simp [unended, held]

/-- A task that moves on keeps its slot or gives it back. -/
theorem unended_set (active : Nat) {old : TaskStage} (present : state.tasks[task]? = some old)
    (held : old.holdsSlot = true) (stage : TaskStage) :
    unended ⟨active, state.tasks.set task stage⟩ + 1 =
      state.unended + stage.holdsSlot.toNat := by
  obtain ⟨inside, found⟩ := List.getElem?_eq_some_iff.1 present
  have some : 0 < state.unended :=
    List.countP_pos_iff.2 ⟨old, List.mem_of_getElem? present, held⟩
  simp only [unended] at some ⊢
  rw [List.countP_set inside, found, if_pos held]
  cases stage.holdsSlot <;> simp <;> omega

/-- A task that gives its slot back had one. -/
theorem Accounted.giveBack (accounted : Accounted slots state) {old : TaskStage}
    (present : state.tasks[task]? = some old) (held : old.holdsSlot = true)
    (given : stage.holdsSlot = false) :
    Accounted slots ⟨state.active - 1, state.tasks.set task stage⟩ ∧
      SlotMove slots state.active (state.active - 1) := by
  have moved := unended_set (state.active - 1) present held stage
  rw [given, ← accounted.active] at moved
  have within := accounted.within
  refine ⟨⟨?_, ?_⟩, ?_⟩
  · exact Nat.sub_eq_of_eq_add moved.symm
  · exact Nat.le_trans (Nat.sub_le ..) within
  · have one : state.active = state.active - 1 + 1 := by
      change _ + 1 = state.active + 0 at moved
      omega
    generalize state.active - 1 = rest at one
    rw [one]
    exact .givenBack

/-- One event moves at most one slot, and all stay accounted for. -/
theorem Accounted.turn (accounted : Accounted slots state)
    (turn : Turn slots state event answer next) :
    Accounted slots next ∧ SlotMove slots state.active next.active := by
  obtain ⟨active, within⟩ := accounted
  cases turn with
  | turnedAway => exact ⟨⟨by rw [unended_append]; exact active, within⟩, .none⟩
  | taken free => exact ⟨⟨by rw [unended_append, ← active]; rfl, free⟩, .taken free⟩
  | started waiting =>
    have moved := unended_set state.active waiting rfl .running
    exact ⟨⟨active.trans (Nat.succ.inj moved).symm, within⟩, .none⟩
  | failed waiting => exact Accounted.giveBack ⟨active, within⟩ waiting rfl rfl
  | finished works => exact Accounted.giveBack ⟨active, within⟩ works rfl rfl
  | idle => exact ⟨⟨active, within⟩, .none⟩

private theorem accounted_idle (slots : UInt64) : Accounted slots idle := ⟨rfl, Nat.zero_le _⟩

/-- Whatever happens, the slots stay accounted for. -/
theorem accounted_afterAll (slots : UInt64) (events : List SlotEvent) :
    Accounted slots ((serving slots).afterAll idle events) := by
  induction events using List.reverseRecOn with
  | nil => exact accounted_idle slots
  | append_singleton events event ih =>
    rw [Service.afterAll_append]
    exact (ih.turn (turn_serving slots _ event)).1

/-- Without a worker that is being started, the tasks that have slots are those that are run. -/
theorem unended_of_none_starting (settled : ∀ name, .starting name ∉ state.tasks) :
    state.unended = state.tasks.count .running := by
  unfold unended List.count
  refine List.countP_congr fun stage member => ?_
  cases stage with
  | starting name => exact absurd member (settled name)
  | running | ended | refused => simp [TaskStage.holdsSlot]

end Workload

/-! ## The way of a task -/

namespace TaskStage

variable {stage later : TaskStage} {slots : UInt64}

/-- How a stage is followed by another one in a step. -/
inductive Leads : TaskStage → TaskStage → Prop
  | stay {stage : TaskStage} : Leads stage stage
  | started {name : String} : Leads (.starting name) .running
  | failed {name : String} {refusal : Submission}
      (told : refusal = .panicked ∨ ∃ reason, refusal = .rejected (WorkerPool.notStarted reason)) :
      Leads (.starting name) (.refused refusal)
  | finished {ending : TaskEnding} : Leads .running (.ended ending)

private theorem Leads.hasRun (leads : Leads stage later) (run : stage.hasRun = true) :
    later.hasRun = true := by
  cases leads with
  | stay => exact run
  | started => rfl
  | failed => contradiction
  | finished => rfl

theorem Leads.refused {refusal : Submission} (leads : Leads stage later)
    (refused : stage = .refused refusal) : later = .refused refusal := by
  cases leads with
  | stay => exact refused
  | started | failed | finished => contradiction

/-- A task that has got a slot is never told that there was none. -/
theorem Leads.ne_turnedAway (leads : Leads stage later)
    (taken : stage ≠ .refused (Workload.turnedAway slots)) :
    later ≠ .refused (Workload.turnedAway slots) := by
  cases leads with
  | stay => exact taken
  | started | finished => nofun
  | failed told =>
    rintro ⟨⟩
    rcases told with panicked | ⟨reason, same⟩
    · contradiction
    · exact WorkerPool.notStarted_ne_exhausted reason _ (Submission.rejected.inj same).symm

end TaskStage

namespace Workload

variable {slots : UInt64} {state next : Workload} {event : SlotEvent} {answer : Option Submission}
  {task : Nat} {stage : TaskStage} {name : String}

private theorem leads_set {other : Nat} {old new : TaskStage}
    (present : state.tasks[task]? = some stage) (replaced : state.tasks[other]? = some old)
    (leads : TaskStage.Leads old new) :
    ∃ later, (state.tasks.set other new)[task]? = some later ∧ TaskStage.Leads stage later := by
  by_cases same : other = task
  · subst same
    obtain rfl := Option.some.inj (present.symm.trans replaced)
    obtain ⟨inside, -⟩ := List.getElem?_eq_some_iff.1 present
    exact ⟨new, List.getElem?_set_self inside, leads⟩
  · exact ⟨stage, (List.getElem?_set_ne same).trans present, .stay⟩

/-- Events take tasks on from stage to stage. -/
theorem Turn.leads (turn : Turn slots state event answer next)
    (present : state.tasks[task]? = some stage) :
    ∃ later, next.tasks[task]? = some later ∧ TaskStage.Leads stage later := by
  obtain ⟨inside, -⟩ := List.getElem?_eq_some_iff.1 present
  cases turn with
  | turnedAway => exact ⟨stage, (List.getElem?_append_left inside).trans present, .stay⟩
  | taken => exact ⟨stage, (List.getElem?_append_left inside).trans present, .stay⟩
  | started waiting => exact leads_set present waiting .started
  | failed waiting told => exact leads_set present waiting (.failed told)
  | finished works => exact leads_set present works .finished
  | idle => exact ⟨stage, present, .stay⟩

/-- What a task keeps from stage to stage it keeps whatever happens. -/
theorem exists_stage_afterAll (slots : UInt64) (Kept : TaskStage → Prop)
    (keeps : ∀ {stage later}, TaskStage.Leads stage later → Kept stage → Kept later)
    (present : state.tasks[task]? = some stage) (kept : Kept stage) (events : List SlotEvent) :
    ∃ later, ((serving slots).afterAll state events).tasks[task]? = some later ∧ Kept later := by
  induction events generalizing state stage with
  | nil => exact ⟨stage, present, kept⟩
  | cons event rest ih =>
    obtain ⟨later, there, leads⟩ := (turn_serving slots state event).leads present
    exact ih there (keeps leads kept)

private theorem refused_afterAll {refusal : Submission}
    (refused : state.tasks[task]? = some (.refused refusal)) (events : List SlotEvent) :
    ((serving slots).afterAll state events).tasks[task]? = some (.refused refusal) := by
  obtain ⟨later, there, same⟩ := exists_stage_afterAll slots (· = .refused refusal)
    TaskStage.Leads.refused refused rfl events
  rw [there, same]

private theorem not_turnedAway_afterAll (starting : state.tasks[task]? = some (.starting name))
    (events : List SlotEvent) : ((serving slots).afterAll state events).tasks[task]? ≠
      some (.refused (turnedAway slots)) := by
  intro refused
  obtain ⟨later, there, taken⟩ := exists_stage_afterAll slots (· ≠ .refused (turnedAway slots))
    TaskStage.Leads.ne_turnedAway starting nofun events
  exact taken (Option.some.inj (there.symm.trans refused))

/-- A task is told that there is no slot just in case that all of them are taken when it asks. -/
theorem refused_turnedAway_iff (state : Workload) (name : String) (later : List SlotEvent) :
    ((serving slots).afterAll state (.call name :: later)).tasks[state.tasks.length]? =
      some (.refused (turnedAway slots)) ↔ slots.toNat ≤ state.active := by
  change ((serving slots).afterAll (serving slots state (.call name)).2 later).tasks[_]? = _ ↔ _
  by_cases free : state.active < slots.toNat
  · refine iff_of_false (fun refused => ?_) (Nat.not_le.2 free)
    rw [serving_call_of_free free] at refused
    exact not_turnedAway_afterAll List.getElem?_concat_length later refused
  · refine iff_of_true ?_ (Nat.not_lt.1 free)
    rw [serving_call_of_full (Nat.not_lt.1 free)]
    exact refused_afterAll List.getElem?_concat_length later

/-- A call that nothing comes between asks for a slot and starts a worker in it. -/
theorem execute_eq_steps (slots : UInt64) (state : Workload) (name : String)
    (result : Except String Unit) :
    let steps := [.call name, .start state.tasks.length result]
    let executed := (clone slots state name).execute result
    ((serving slots).log state steps).filterMap LogEntry.answer = [executed.1] ∧
      clone slots ((serving slots).afterAll state steps) name = executed.2 := by
  intro steps executed
  by_cases free : state.active < slots.toNat
  · have begun : executed = (clone slots ⟨state.active + 1, state.tasks ++ [.starting name]⟩
        name).begin result :=
      WorkerPool.execute_of_free (WorkerPool.acquire?_of_free free)
    have waiting : (state.tasks ++ [.starting name])[state.tasks.length]? =
        some (.starting name) := List.getElem?_concat_length
    have started := serving_start slots ⟨state.active + 1, _⟩ waiting result
    rw [← begun] at started
    simp only [steps, Service.log, Service.entryOf, Service.afterAll, List.foldl_cons,
      List.foldl_nil, serving_call_of_free free, started, List.filterMap_cons, List.filterMap_nil,
      true_and]
    -- starting a worker leaves the name and the limit
    rcases WorkerPool.begin_cases _ result with kept | ⟨refusal, -, released⟩
    · rw [begun, kept]
      rfl
    · rw [begun, released]
      rfl
  · have full := Nat.not_lt.1 free
    have turned : executed = (turnedAway slots, clone slots state name) :=
      WorkerPool.execute_of_full (WorkerPool.acquire?_of_full full)
    have ignored : serving slots ⟨state.active, state.tasks ++ [.refused (turnedAway slots)]⟩
        (.start state.tasks.length result) =
          (none, ⟨state.active, state.tasks ++ [.refused (turnedAway slots)]⟩) := by
      simp only [serving, List.getElem?_concat_length]
    simp only [steps, Service.log, Service.entryOf, Service.afterAll, List.foldl_cons,
      List.foldl_nil, serving_call_of_full full, ignored, List.filterMap_cons, List.filterMap_nil,
      turned, true_and]
    rfl

/-- Clones of a pool are given tasks, workers start or fail to start, and tasks end, in any order.
At any time the count of slots is the number of tasks that have been taken and have not ended, which
are those that are run once no worker is being started, and it is within the limit. It is counted
down only if a slot is taken. A task is told that there is no slot just in case that as many tasks
as there are slots have one when it asks. A task that is refused, for whatever reason, has not been
run before and stays refused, so that it is not run and has no slot later on either. A whole call is
the two steps of asking for a slot and of starting a worker. -/
theorem slots_accounted_for (slots : UInt64) (events : List SlotEvent) :
    let state := (serving slots).afterAll idle events
    (state.active = state.unended ∧ state.active ≤ slots.toNat) ∧
    ((∀ name, .starting name ∉ state.tasks) → state.active = state.tasks.count .running) ∧
    (∀ entry ∈ (serving slots).log idle events,
      SlotMove slots entry.before.active entry.after.active) ∧
    (∀ former name later, events = former ++ .call name :: later →
      let before := (serving slots).afterAll idle former
      state.tasks[before.tasks.length]? = some (.refused (turnedAway slots)) ↔
        before.unended = slots.toNat) ∧
    (∀ former later (task : Nat) answer, events = former ++ later →
      let before := (serving slots).afterAll idle former
      (state.tasks[task]? = some (.refused answer) →
        ∀ stage ∈ before.tasks[task]?, stage.hasRun = false) ∧
      (before.tasks[task]? = some (.refused answer) →
        state.tasks[task]? = some (.refused answer))) ∧
    ∀ name result,
      let steps := [.call name, .start state.tasks.length result]
      let executed := (clone slots state name).execute result
      ((serving slots).log state steps).filterMap LogEntry.answer = [executed.1] ∧
        clone slots ((serving slots).afterAll state steps) name = executed.2 := by
  intro state
  have accounted : Accounted slots state := accounted_afterAll slots events
  refine ⟨⟨accounted.active, accounted.within⟩, fun settled => ?settled, ?moves, ?turnedAway,
    ?refused, execute_eq_steps slots state⟩
  case settled => exact accounted.active.trans (unended_of_none_starting settled)
  case moves =>
    intro entry member
    obtain ⟨former, event, later, -, rfl⟩ := Service.exists_of_mem_log member
    exact ((accounted_afterAll slots former).turn (turn_serving slots _ event)).2
  case turnedAway =>
    rintro former name later rfl before
    have earlier : Accounted slots before := accounted_afterAll slots former
    have reached : state = (serving slots).afterAll before (.call name :: later) :=
      (Service.afterAll_afterAll ..).symm
    rw [reached, refused_turnedAway_iff, ← earlier.active]
    exact ⟨Nat.le_antisymm earlier.within, Nat.le_of_eq ∘ Eq.symm⟩
  case refused =>
    rintro former later task answer rfl before
    have reached : state = (serving slots).afterAll before later :=
      (Service.afterAll_afterAll ..).symm
    refine ⟨fun refused stage present => Bool.eq_false_iff.2 fun run => ?_,
      fun refused => reached ▸ refused_afterAll refused later⟩
    -- what has been run would have been run at the end as well
    obtain ⟨last, there, stillRun⟩ := exists_stage_afterAll slots (TaskStage.hasRun · = true)
      TaskStage.Leads.hasRun present run later
    rw [← reached, refused] at there
    rw [← Option.some.inj there] at stillRun
    contradiction

/-- In a pool with one slot, the second task finds no slot. The slot is given back when the first
task panics, and when no worker can be started for the third one. -/
def oneSlot : List SlotEvent :=
  [.call "a", .call "b", .start 0 (.ok ()), .finish 0 .panicked, .call "a",
    .start 2 (.error "no thread")]

/-- A pool with one slot refuses the second task until the first one has ended. -/
theorem slots_accounted_for_one_slot :
    let state := (serving 1).afterAll idle oneSlot
    ((serving 1).afterAll idle (oneSlot.take 1)).unended = 1 ∧
      state.tasks = [.ended .panicked, .refused (turnedAway 1),
        .refused (.rejected (WorkerPool.notStarted "no thread"))] ∧
      state.tasks[1]? = some (.refused (turnedAway 1)) ∧
      state.active = 0 := by
  intro state
  have stages : state.tasks = [.ended .panicked, .refused (turnedAway 1),
      .refused (.rejected (WorkerPool.notStarted "no thread"))] := rfl
  obtain ⟨⟨active, -⟩, -, -, turned, -⟩ := slots_accounted_for 1 oneSlot
  refine ⟨rfl, stages, (turned [.call "a"] "b" (oneSlot.drop 2) rfl).2 rfl, active.trans ?_⟩
  change state.tasks.countP TaskStage.holdsSlot = 0
  rw [stages]
  rfl

end Workload

end BatchRun
