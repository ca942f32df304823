import Etch.Java.IdName
import Etch.Library.Transition

/-!
# The Java `TodoManager`

Todos are queued, and worker threads take them from the queue.  A worker that
has lingered without a todo quits if there are more workers than there have to
be; any worker that finds the manager stopped quits as well.  The counter of
workers is not in the hands of the threads that it counts.
-/

namespace Etch.Java

open Etch.Library.Transition

/-- What a manager is made with. -/
structure TodoSettings where
  maxEntries : Int32
  entryDelay : Int32
  minWorkers : Int32
  maxWorkers : Int32
  workerLinger : Int32
  threshold : Int32
  one_le_maxWorkers : 1 ≤ maxWorkers.toInt

/-- Where a worker thread is. -/
inductive TodoWorker (Todo : Type) where
  /-- about to call `getNextTodo` -/
  | fetching
  /-- in the `wait` of `getNextTodo` -/
  | waiting
  | doing (todo : Todo)
deriving DecidableEq

/-- A manager with its worker threads. -/
structure TodoManager (Todo : Type) where
  settings : TodoSettings
  started : Bool
  /-- the todos in the queue, from its head -/
  queue : List Todo
  entries : Int
  workers : Int
  threads : List (TodoWorker Todo)

namespace TodoManager

variable {Todo : Type}

/-- `new TodoManager(..)` -/
def new (maxEntries entryDelay minWorkers maxWorkers workerLinger
    threshold : Int32) : Except Thrown (TodoManager Todo) :=
  if maxEntries < 1 then
    .error (.illegalArgumentException (text "maxEntries < 1"))
  else if entryDelay < 1 then
    .error (.illegalArgumentException (text "entryDelay < 1"))
  else if minWorkers < 0 then
    .error (.illegalArgumentException (text "minWorkers < 0"))
  else if few : maxWorkers < 1 then
    .error (.illegalArgumentException (text "maxWorkers < 1"))
  else if maxWorkers < minWorkers then
    .error (.illegalArgumentException (text "maxWorkers < minWorkers"))
  else if workerLinger < 1 then
    .error (.illegalArgumentException (text "workerLinger < 1"))
  else if threshold < 0 then
    .error (.illegalArgumentException (text "threshold < 0"))
  else
    .ok
      { settings :=
          { maxEntries, entryDelay, minWorkers, maxWorkers, workerLinger,
            threshold
            one_le_maxWorkers := Int32.le_iff_toInt_le.mp
              (Int32.not_lt.mp few) }
        started := false
        queue := []
        entries := 0
        workers := 0
        threads := [] }

/-! ## Calls -/

def numWorkers (manager : TodoManager Todo) : Int :=
  manager.workers

def numEntries (manager : TodoManager Todo) : Int :=
  manager.entries

def checkIsStarted (manager : TodoManager Todo) : Except Thrown Unit :=
  if manager.started then .ok ()
  else .error (.illegalStateException (text "is not started"))

def start (manager : TodoManager Todo) : Except Thrown (TodoManager Todo) :=
  if manager.started then
    .error (.illegalStateException (text "is already started"))
  else
    .ok { manager with started := true }

/-- `stop()`, up to `stop0()`, which wakes nobody: it calls `notifyAll()`
without the monitor, and throws. -/
def stop (manager : TodoManager Todo) :
    Except Thrown (TodoManager Todo) := do
  manager.checkIsStarted
  return { manager with started := false }

/-- `addEntry(todo)`, with the number of entries it returns. -/
def addEntry (manager : TodoManager Todo) (todo : Todo) :
    Int × TodoManager Todo :=
  (manager.entries + 1,
    { manager with
      queue := manager.queue ++ [todo]
      entries := manager.entries + 1 })

/-- `removeEntry()` -/
def removeEntry (manager : TodoManager Todo) :
    Option Todo × TodoManager Todo :=
  match manager.queue with
  | [] => (none, manager)
  | todo :: queue =>
      (some todo, { manager with queue, entries := manager.entries - 1 })

def startAWorker (manager : TodoManager Todo) : TodoManager Todo :=
  { manager with
    workers := manager.workers + 1
    threads := manager.threads ++ [.fetching] }

def considerStartingAWorker (manager : TodoManager Todo) (qlen : Int) :
    TodoManager Todo :=
  let n := manager.numWorkers
  if n ≥ manager.settings.maxWorkers.toInt then
    manager
  else if n = 0 ∨ (qlen + n - 1).tdiv n > manager.settings.threshold.toInt then
    manager.startAWorker
  else
    manager

/-- `add(todo)`, apart from its delays. -/
def add (manager : TodoManager Todo) (todo : Todo) :
    Except Thrown (TodoManager Todo) := do
  manager.checkIsStarted
  let (n, manager) := manager.addEntry todo
  return manager.considerStartingAWorker n

/-! ## Workers -/

/-- The worker at an index, once it has come somewhere else. -/
def goes (manager : TodoManager Todo) (index : Nat)
    (worker : TodoWorker Todo) : TodoManager Todo :=
  { manager with threads := manager.threads.set index worker }

/-- The thread at an index ends. -/
def ends (manager : TodoManager Todo) (index : Nat) : TodoManager Todo :=
  { manager with threads := manager.threads.eraseIdx index }

/-- `workers.adjust(-1)` -/
def adjustWorkers (manager : TodoManager Todo) : TodoManager Todo :=
  { manager with workers := manager.workers - 1 }

/-- `getNextTodo()` from the test of its loop to the next `wait`, or to the
end of the thread if there is no todo. -/
def getNextTodo (manager : TodoManager Todo) (index : Nat)
    (lingered : Bool) : TodoManager Todo :=
  if manager.started then
    match manager.removeEntry with
    | (some todo, manager) => manager.goes index (.doing todo)
    | (none, manager) =>
        if lingered ∧ manager.workers > manager.settings.minWorkers.toInt then
          manager.adjustWorkers.ends index
        else
          manager.goes index .waiting
  else
    -- `run` leaves its loop, and adjusts nothing
    manager.ends index

inductive Action (Todo : Type) where
  | start
  | stop
  | add (todo : Todo)
  /-- a worker runs `getNextTodo`, or goes on after its `wait` -/
  | getNextTodo (index : Nat)
  /-- a todo returns, or throws an exception that it takes itself -/
  | finish (index : Nat)
  /-- a todo throws out of `run` -/
  | escape (index : Nat)

/-- The manager after a call; where the call throws, nothing has changed. -/
def called (manager : TodoManager Todo) :
    Except Thrown (TodoManager Todo) → TodoManager Todo
  | .ok next => next
  | .error _ => manager

def step (manager : TodoManager Todo) :
    Action Todo → Option (TodoManager Todo)
  | .start => some (manager.called manager.start)
  | .stop => some (manager.called manager.stop)
  | .add todo => some (manager.called (manager.add todo))
  | .getNextTodo index =>
      match manager.threads[index]? with
      | some .fetching => some (manager.getNextTodo index false)
      | some .waiting => some (manager.getNextTodo index true)
      | _ => none
  | .finish index =>
      match manager.threads[index]? with
      | some (.doing _) => some (manager.goes index .fetching)
      | _ => none
  | .escape index =>
      match manager.threads[index]? with
      | some (.doing _) => some (manager.adjustWorkers.ends index)
      | _ => none

/-! ## Accounting -/

/-- The counter is right and bounded, and no todo waits for nobody. -/
structure Accounts (manager : TodoManager Todo) : Prop where
  counted : manager.numWorkers = manager.threads.length
  bounded : manager.numWorkers ≤ manager.settings.maxWorkers.toInt
  served : manager.started = true → manager.queue ≠ [] →
    manager.threads ≠ []

/-- No worker is lost to a manager that is stopped, nor the last one to a todo
while others are queued. -/
def Sound (manager : TodoManager Todo) : Action Todo → Prop
  | .getNextTodo _ => manager.started = true
  | .escape _ => manager.queue = [] ∨ 1 < manager.threads.length
  | _ => True

/-- What is kept, also while the manager is stopped. -/
structure Invariant (manager : TodoManager Todo) : Prop where
  counted : manager.workers = manager.threads.length
  bounded : manager.workers ≤ manager.settings.maxWorkers.toInt
  served : manager.queue ≠ [] → manager.threads ≠ []

theorem Invariant.accounted {manager : TodoManager Todo}
    (invariant : Invariant manager) : Accounts manager :=
  ⟨invariant.counted, invariant.bounded, fun _ => invariant.served⟩

section Steps

variable {manager next : TodoManager Todo}

theorem Invariant.called (invariant : Invariant manager)
    {result : Except Thrown (TodoManager Todo)}
    (holds : ∀ next, result = .ok next → Invariant next) :
    Invariant (manager.called result) := by
  cases result with
  | ok next => exact holds next rfl
  | error thrown => exact invariant

theorem Invariant.start (invariant : Invariant manager)
    (does : manager.start = .ok next) : Invariant next := by
  unfold TodoManager.start at does
  split_ifs at does
  obtain rfl := Except.ok.inj does
  exact ⟨invariant.counted, invariant.bounded, invariant.served⟩

theorem Invariant.stop (invariant : Invariant manager)
    (does : manager.stop = .ok next) : Invariant next := by
  obtain ⟨_, _, returned⟩ := Etch.Library.Fallible.bind_eq_ok_iff.mp does
  obtain rfl := Except.ok.inj returned
  exact ⟨invariant.counted, invariant.bounded, invariant.served⟩

theorem Invariant.startAWorker (counted : manager.workers =
      manager.threads.length)
    (few : manager.workers < manager.settings.maxWorkers.toInt) :
    Invariant manager.startAWorker where
  counted := by
    change manager.workers + 1 = (manager.threads ++ _).length
    rw [counted, List.length_append]
    rfl
  bounded := Int.add_one_le_of_lt few
  served _ := List.append_ne_nil_of_right_ne_nil _ (List.cons_ne_nil _ _)

/-- A todo is added, and a worker is there or is started. -/
theorem Invariant.add (invariant : Invariant manager) {todo : Todo}
    (does : manager.add todo = .ok next) : Invariant next := by
  obtain ⟨_, _, returned⟩ := Etch.Library.Fallible.bind_eq_ok_iff.mp does
  obtain rfl := Except.ok.inj returned
  have enough := manager.settings.one_le_maxWorkers
  obtain ⟨counted, bounded, served⟩ := invariant
  have many (some : 0 < manager.workers) : manager.threads ≠ [] := by
    intro none
    rw [counted, none] at some
    exact Int.lt_irrefl 0 some
  unfold considerStartingAWorker
  dsimp only [numWorkers, addEntry]
  split_ifs with full due
  · exact ⟨counted, bounded, fun _ => many (by omega)⟩
  · exact Invariant.startAWorker counted (Int.not_le.mp full)
  · refine ⟨counted, bounded, fun _ => many ?_⟩
    have some : manager.workers ≠ 0 := fun none => due (Or.inl none)
    omega

theorem Invariant.goes (counted : manager.workers = manager.threads.length)
    (bounded : manager.workers ≤ manager.settings.maxWorkers.toInt)
    {index : Nat} (there : index < manager.threads.length)
    (worker : TodoWorker Todo) :
    Invariant (manager.goes index worker) where
  counted := by
    change manager.workers = (manager.threads.set index worker).length
    rw [List.length_set]
    exact counted
  bounded := bounded
  served _ := by
    refine List.ne_nil_of_length_pos ?_
    change 0 < (manager.threads.set index worker).length
    rw [List.length_set]
    omega

/-- A thread ends that has taken itself off the counter. -/
theorem Invariant.ends (counted : manager.workers = manager.threads.length)
    (bounded : manager.workers ≤ manager.settings.maxWorkers.toInt)
    {index : Nat} (there : index < manager.threads.length)
    (idle : manager.queue = [] ∨ 1 < manager.threads.length) :
    Invariant (manager.adjustWorkers.ends index) where
  counted := by
    change manager.workers - 1 = (manager.threads.eraseIdx index).length
    rw [List.length_eraseIdx_of_lt there, counted]
    omega
  bounded := by
    change manager.workers - 1 ≤ manager.settings.maxWorkers.toInt
    omega
  served queued := by
    refine List.ne_nil_of_length_pos ?_
    change 0 < (manager.threads.eraseIdx index).length
    rw [List.length_eraseIdx_of_lt there]
    rcases idle with empty | others
    · exact absurd empty queued
    · omega

theorem Invariant.getNextTodo (invariant : Invariant manager) {index : Nat}
    (there : index < manager.threads.length)
    (started : manager.started = true) (lingered : Bool) :
    Invariant (manager.getNextTodo index lingered) := by
  obtain ⟨counted, bounded, served⟩ := invariant
  unfold TodoManager.getNextTodo removeEntry
  rw [if_pos started]
  cases queue : manager.queue with
  | nil =>
      dsimp only
      split_ifs
      · exact Invariant.ends counted bounded there (Or.inl queue)
      · exact Invariant.goes counted bounded there _
  | cons todo rest =>
      let fewer : TodoManager Todo :=
        { manager with queue := rest, entries := manager.entries - 1 }
      have goes : ∀ worker, Invariant (fewer.goes index worker) :=
        @Invariant.goes _ fewer counted bounded _ there
      exact goes (.doing todo)

theorem Invariant.step (invariant : Invariant manager)
    {action : Action Todo} (sound : Sound manager action)
    (does : step manager action = some next) : Invariant next := by
  have there {index : Nat} {worker : TodoWorker Todo}
      (is : manager.threads[index]? = some worker) :
      index < manager.threads.length :=
    (List.getElem?_eq_some_iff.mp is).choose
  cases action with
  | start =>
      obtain rfl := Option.some.inj does
      exact invariant.called fun _ => invariant.start
  | stop =>
      obtain rfl := Option.some.inj does
      exact invariant.called fun _ => invariant.stop
  | add todo =>
      obtain rfl := Option.some.inj does
      exact invariant.called fun _ => invariant.add
  | getNextTodo index =>
      dsimp only [TodoManager.step] at does
      split at does
      · rename_i is
        obtain rfl := Option.some.inj does
        exact invariant.getNextTodo (there is) sound false
      · rename_i is
        obtain rfl := Option.some.inj does
        exact invariant.getNextTodo (there is) sound true
      · exact nomatch does
  | finish index =>
      dsimp only [TodoManager.step] at does
      split at does
      · rename_i is
        obtain rfl := Option.some.inj does
        exact .goes invariant.counted invariant.bounded (there is) _
      · exact nomatch does
  | escape index =>
      dsimp only [TodoManager.step] at does
      split at does
      · rename_i is
        obtain rfl := Option.some.inj does
        exact .ends invariant.counted invariant.bounded (there is) sound
      · exact nomatch does

end Steps

/-- A manager with at most one worker, which lingers for ever. -/
def small : TodoManager Nat where
  settings := ⟨50, 10, 0, 1, 5000, 0, by decide⟩
  started := false
  queue := []
  entries := 0
  workers := 0
  threads := []

/-- A worker finds the manager stopped, which is then started again. -/
def restarted : List (Action Nat) :=
  [.start, .add 1, .getNextTodo 0, .finish 0, .stop, .getNextTodo 0, .start,
    .add 2]

/-- The last worker is lost to a todo, and the next one waits for nobody. -/
example : (run step small [.start, .add 1, .add 2, .getNextTodo 0,
    .escape 0]).map (fun manager => (manager.threads, manager.queue)) =
      some ([], [2]) := by decide +kernel

end TodoManager

end Etch.Java
