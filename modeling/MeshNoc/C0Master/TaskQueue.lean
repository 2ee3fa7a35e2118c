import Mathlib.Data.List.ReduceOption
import MeshNoc.C0Master.Tasks
import MeshNoc.Lib.EveryState
import MeshNoc.Lib.Refinement
import MeshNoc.Lib.RingBuffer

/-!
# The task queue

The queue of tasks in the platform, from `c0_master/c0_controller.c`. Pushing and popping
are critical sections of its lock. `T` stands for the contents of a `task_t`, which the
queue copies whole and never looks at.

The queue is a ring buffer, and so first in, first out. But a consumer gets the address of
a slot that the queue already counts as free: a producer that comes round to it overwrites
the task the consumer is working on.

## Main results

* `TaskQueue.fifo` — what has been popped, followed by what is queued, is what was pushed
* `always_intact_iff` — popped tasks stay intact exactly if no push meets a held slot
-/

namespace MeshNoc

open Lib

variable {T : Type*}

/-- `task_queue_t`. -/
structure TaskQueue (T : Type*) where
  /-- The slots; those outside of the array are never used. -/
  tasks : ℤ → T
  head : ℤ
  tail : ℤ
  count : ℤ

/-- The queue `task_queue_init` leaves, when the lock and the conditions can be made. -/
def taskQueueInit (zeroed : T) : TaskQueue T where
  tasks := fun _ => zeroed
  head := 0
  tail := 0
  count := 0

/-- `task_queue_push`, from the point where it holds the lock. It waits on a full queue: it
gives the lock back, and tests again when it next holds it. -/
def taskQueuePush (queue : TaskQueue T) (task : Option T) : Option (ℤ × TaskQueue T) :=
  match task with
  | none => some (-1, queue)
  | some task =>
    if maxPendingTasks ≤ queue.count then none
    else
      some (0, { queue with
        tasks := Function.update queue.tasks queue.tail task
        tail := (queue.tail + 1).tmod maxPendingTasks
        count := queue.count + 1 })

/-- `task_queue_pop`, from the point where it holds the lock: the slot the returned pointer
leads to. It waits on an empty queue. -/
def taskQueuePop (queue : TaskQueue T) : Option (ℤ × TaskQueue T) :=
  if queue.count = 0 then none
  else
    some (queue.head, { queue with
      head := (queue.head + 1).tmod maxPendingTasks
      count := queue.count - 1 })

/-! ### The queue as a ring buffer -/

namespace TaskQueue

/-- The queue is this ring buffer. -/
structure Represents (queue : TaskQueue T) (r : RingBuffer T maxPendingTasks) : Prop where
  tasks : ∀ i : Fin maxPendingTasks, queue.tasks i.val = r.slots i
  head : queue.head = r.head.val
  tail : queue.tail = (r.index r.count).val
  count : queue.count = r.count

variable {queue queue' : TaskQueue T} {r : RingBuffer T maxPendingTasks} {task : T} {slot : ℤ}

/-- The indices are in range, and the tail is where head and count put it. -/
structure InRange (queue : TaskQueue T) : Prop where
  count : 0 ≤ queue.count ∧ queue.count ≤ maxPendingTasks
  head : 0 ≤ queue.head ∧ queue.head < maxPendingTasks
  tail : 0 ≤ queue.tail ∧ queue.tail < maxPendingTasks
  tail_eq : queue.tail = (queue.head + queue.count) % maxPendingTasks

/-- The tasks in the queue, in their order. -/
def contents (queue : TaskQueue T) : List T :=
  (List.range queue.count.toNat).map fun i : ℕ => queue.tasks ((queue.head + i) % maxPendingTasks)

/-- The ring of a queue just initialised. -/
def emptyRing (zeroed : T) : RingBuffer T maxPendingTasks where
  slots := fun _ => zeroed
  head := ⟨0, by decide⟩
  count := 0
  count_le := Nat.zero_le _

theorem represents_init (zeroed : T) : (taskQueueInit zeroed).Represents (emptyRing zeroed) where
  tasks _ := rfl
  head := rfl
  tail := rfl
  count := rfl

/-- Advancing an index of the source is advancing it around the ring. -/
theorem index_advance (r : RingBuffer T maxPendingTasks) (i : ℕ) :
    (((r.index i).val : ℤ) + 1).tmod maxPendingTasks = (r.index (i + 1)).val := by
  have hnonneg : 0 ≤ ((r.index i).val : ℤ) + 1 := by omega
  rw [Int.tmod_eq_emod_of_nonneg hnonneg]
  change (((r.head.val + i) % maxPendingTasks : ℕ) + 1 : ℤ) % maxPendingTasks =
    ((r.head.val + (i + 1)) % maxPendingTasks : ℕ)
  push_cast
  rw [Int.emod_add_emod, Int.add_assoc]

namespace Represents

variable (h : queue.Represents r)

include h

theorem contents_eq : queue.contents = r.contents := by
  have hcount : queue.count.toNat = r.count := by
    rw [h.count]
    rfl
  unfold contents RingBuffer.contents
  rw [hcount]
  refine List.map_congr_left fun i _ => ?_
  have hindex : (queue.head + i) % (maxPendingTasks : ℤ) = (r.index i).val := by
    rw [h.head]
    rfl
  rw [hindex, h.tasks]

theorem in_range : queue.InRange := by
  have hcount := r.count_le
  have hhead := r.head.isLt
  have htail := (r.index r.count).isLt
  refine ⟨?_, ?_, ?_, ?_⟩
  · rw [h.count]
    omega
  · rw [h.head]
    omega
  · rw [h.tail]
    omega
  · rw [h.tail, h.head, h.count]
    rfl

/-- A push that does not wait is a push on the ring. -/
theorem push {result : ℤ} (pushed : taskQueuePush queue (some task) = some (result, queue')) :
    ∃ room : r.count < maxPendingTasks, queue'.Represents (r.push room task) := by
  have hcount := h.count
  simp only [taskQueuePush] at pushed
  split_ifs at pushed with hfull
  have room : r.count < maxPendingTasks := by omega
  obtain ⟨-, rfl⟩ := Prod.mk.inj (Option.some.inj pushed)
  refine ⟨room, ⟨fun i => ?_, h.head, ?_, ?_⟩⟩
  · change Function.update queue.tasks queue.tail task i.val =
      Function.update r.slots (r.index r.count) task i
    rw [h.tail]
    by_cases hi : i = r.index r.count
    · rw [hi, Function.update_self, Function.update_self]
    · have hval : (i.val : ℤ) ≠ (r.index r.count).val := by
        intro same
        exact hi (Fin.ext (Int.ofNat.inj same))
      rw [Function.update_of_ne hi, Function.update_of_ne hval, h.tasks]
  · change (queue.tail + 1).tmod maxPendingTasks = _
    rw [h.tail, index_advance]
    rfl
  · change queue.count + 1 = ((r.count + 1 : ℕ) : ℤ)
    rw [hcount]
    rfl

/-- A pop that does not wait is a pop on the ring, and returns its head. -/
theorem pop (popped : taskQueuePop queue = some (slot, queue')) :
    0 < r.count ∧ slot = r.head.val ∧ queue'.tasks = queue.tasks ∧ queue'.Represents r.pop := by
  have hcount := h.count
  simp only [taskQueuePop] at popped
  split_ifs at popped with hempty
  have hpos : 0 < r.count := by omega
  obtain ⟨rfl, rfl⟩ := Prod.mk.inj (Option.some.inj popped)
  refine ⟨hpos, h.head, rfl, ⟨h.tasks, ?_, ?_, ?_⟩⟩
  · change (queue.head + 1).tmod maxPendingTasks = (r.index 1).val
    rw [h.head, ← index_advance r 0, r.index_zero]
  · -- the tail stays: one entry less, from one slot further on
    change queue.tail = (r.pop.index (r.count - 1)).val
    rw [r.index_pop, Nat.sub_add_cancel hpos, h.tail]
  · change queue.count - 1 = ((r.count - 1 : ℕ) : ℤ)
    omega

end Represents

/-! ### First in, first out -/

/-- A call of a task queue function. -/
inductive Call (T : Type*)
  | push (task : T)
  | pop

/-- The task a call pushes. -/
def Call.pushed : Call T → Option T
  | .push task => some task
  | .pop => none

def Call.isPop : Call T → Bool
  | .push _ => false
  | .pop => true

/-- The guard under which a call does not wait. -/
def Admits (queue : TaskQueue T) : Call T → Prop
  | .push _ => queue.count < maxPendingTasks
  | .pop => 0 < queue.count

instance (queue : TaskQueue T) : (c : Call T) → Decidable (queue.Admits c)
  | .push _ => inferInstanceAs (Decidable (queue.count < maxPendingTasks))
  | .pop => inferInstanceAs (Decidable (0 < queue.count))

/-- A call that does not wait; a pop with the task in the returned slot at that moment. -/
def call (queue : TaskQueue T) : Call T → Option (Option T × TaskQueue T)
  | .push task => (taskQueuePush queue (some task)).map fun r => (none, r.2)
  | .pop => (taskQueuePop queue).map fun r => (some (r.2.tasks r.1), r.2)

/-- Under its guard a call does not wait. -/
theorem exists_call {c : Call T} (admitted : queue.Admits c) :
    ∃ found queue', queue.call c = some (found, queue') := by
  cases c with
  | push task =>
    have hroom : ¬ (maxPendingTasks : ℤ) ≤ queue.count := not_le.mpr admitted
    simp only [call, taskQueuePush, if_neg hroom]
    exact ⟨_, _, rfl⟩
  | pop =>
    have hnonempty : queue.count ≠ 0 := admitted.ne'
    simp only [call, taskQueuePop, if_neg hnonempty]
    exact ⟨_, _, rfl⟩

/-- What one call does to the ring: a push appends its task, a pop takes the first and finds
it. -/
theorem Represents.call (h : queue.Represents r) {c : Call T} {found : Option T}
    (called : queue.call c = some (found, queue')) :
    ∃ r' : RingBuffer T maxPendingTasks, queue'.Represents r' ∧ found.isSome = c.isPop ∧
      r.contents ++ c.pushed.toList = found.toList ++ r'.contents := by
  cases c with
  | push task =>
    obtain ⟨⟨result, after⟩, hpush, heq⟩ := Option.map_eq_some_iff.mp called
    obtain ⟨rfl, rfl⟩ := Prod.mk.inj heq
    obtain ⟨room, hafter⟩ := h.push hpush
    exact ⟨_, hafter, rfl, (r.contents_push room task).symm⟩
  | pop =>
    obtain ⟨⟨slot, after⟩, hpop, heq⟩ := Option.map_eq_some_iff.mp called
    obtain ⟨rfl, rfl⟩ := Prod.mk.inj heq
    obtain ⟨hpos, rfl, htasks, hafter⟩ := h.pop hpop
    refine ⟨_, hafter, rfl, ?_⟩
    change r.contents ++ [] = after.tasks r.head.val :: r.pop.contents
    rw [htasks, h.tasks, List.append_nil, r.contents_pop hpos]

/-- What calls that meet their guards do to a queue: none of them waits, exactly the pops find
a task, and what they find is what was in the queue, followed by what is pushed. -/
structure Served (queue : TaskQueue T) (calls : List (Call T)) (found : List (Option T))
    (queue' : TaskQueue T) : Prop where
  ran : tryRun TaskQueue.call queue calls = some (found, queue')
  in_range : queue'.InRange
  pops : found.map Option.isSome = calls.map Call.isPop
  order : found.reduceOption ++ queue'.contents =
    queue.contents ++ calls.filterMap Call.pushed

/-- A run of guarded calls, from any queue that is a ring buffer. -/
theorem Represents.served (h : queue.Represents r) {calls : List (Call T)}
    (admitted : Guarded TaskQueue.call Admits queue calls) :
    ∃ found queue', queue.Served calls found queue' := by
  induction calls generalizing queue r with
  | nil => exact ⟨[], queue, rfl, h.in_range, rfl, (List.append_nil _).symm⟩
  | cons c rest ih =>
    obtain ⟨hadmits, hrest⟩ := admitted
    obtain ⟨answer, next, hcall⟩ := exists_call hadmits
    obtain ⟨r', h', hpop, hfirst⟩ := h.call hcall
    obtain ⟨answers, final, hserved⟩ := ih h' (hrest _ hcall)
    have hfound : (answer :: answers).reduceOption = answer.toList ++ answers.reduceOption := by
      cases answer <;> rfl
    have hpushed : (c :: rest).filterMap Call.pushed =
        c.pushed.toList ++ rest.filterMap Call.pushed := by
      cases c <;> rfl
    refine ⟨answer :: answers, final, tryRun_cons hcall hserved.ran, hserved.in_range, ?_, ?_⟩
    · rw [List.map_cons, List.map_cons, hpop, hserved.pops]
    · calc (answer :: answers).reduceOption ++ final.contents
        _ = answer.toList ++ (answers.reduceOption ++ final.contents) := by
          rw [hfound, List.append_assoc]
        _ = answer.toList ++ r'.contents ++ rest.filterMap Call.pushed := by
          rw [hserved.order, h'.contents_eq, List.append_assoc]
        _ = queue.contents ++ (c :: rest).filterMap Call.pushed := by
          rw [← hfirst, hpushed, h.contents_eq, List.append_assoc]

/-- After the initialisation, whatever calls are made, each under its guard: none of them
waits, and afterwards the indices are in range; exactly the pops have found a task, and what
they have found, in their order, followed by what is queued, is what was pushed. -/
theorem fifo (zeroed : T) {calls : List (Call T)}
    (admitted : Guarded call Admits (taskQueueInit zeroed) calls) :
    ∃ found queue, tryRun call (taskQueueInit zeroed) calls = some (found, queue) ∧
      queue.InRange ∧ found.map Option.isSome = calls.map Call.isPop ∧
        found.reduceOption ++ queue.contents = calls.filterMap Call.pushed := by
  obtain ⟨found, queue, hserved⟩ := (represents_init zeroed).served admitted
  exact ⟨found, queue, hserved.ran, hserved.in_range, hserved.pops, hserved.order⟩

/-- Two tasks pushed, one popped. -/
theorem fifo_twoPushed :
    ∃ found queue, tryRun call (taskQueueInit ({} : Task))
        [.push { taskId := 1 }, .push { taskId := 2 }, .pop] = some (found, queue) ∧
      queue.InRange ∧ found.map Option.isSome = [false, false, true] ∧
        found.reduceOption ++ queue.contents = [{ taskId := 1 }, { taskId := 2 }] := by
  refine fifo ({} : Task) ⟨by decide, ?_⟩
  rintro _ ⟨⟩
  refine ⟨by decide, ?_⟩
  rintro _ ⟨⟩
  refine ⟨by decide, ?_⟩
  rintro _ ⟨⟩
  trivial

end TaskQueue

/-! ### Producers and consumers -/

/-- A pointer `task_queue_pop` returned, while its consumer still works on the task. -/
structure PoppedTask where
  /-- The slot it leads to. -/
  slot : ℤ
  /-- How many tasks were popped before. -/
  order : ℕ
  deriving DecidableEq

/-- A queue and the threads that use it. Which thread takes a step makes no difference to
the queue, so the threads are not told apart. -/
structure QueueSystem (T : Type*) where
  queue : TaskQueue T
  /-- The tasks pushed so far, in their order. -/
  pushed : List T := []
  /-- How many tasks were popped so far. -/
  popped : ℕ := 0
  /-- The popped tasks that are being worked on. -/
  held : List PoppedTask := []

/-- What some thread does next. -/
inductive QueueAction (T : Type*)
  /-- A producer with the lock goes on in `task_queue_push`. -/
  | push (task : T)
  /-- A consumer with the lock goes on in `task_queue_pop`. -/
  | pop
  /-- A consumer has finished with a popped task. -/
  | finish (task : PoppedTask)

namespace QueueSystem

/-- The system around a queue just initialised. -/
def start (zeroed : T) : QueueSystem T where
  queue := taskQueueInit zeroed

/-- A step of some thread; one that has to wait does nothing. -/
def step (s : QueueSystem T) : QueueAction T → QueueSystem T
  | .push task =>
    match taskQueuePush s.queue (some task) with
    | some (_, queue) => { s with queue := queue, pushed := s.pushed ++ [task] }
    | none => s
  | .pop =>
    match taskQueuePop s.queue with
    | some (slot, queue) =>
      { s with
        queue := queue
        popped := s.popped + 1
        held := ⟨slot, s.popped⟩ :: s.held }
    | none => s
  | .finish task => { s with held := s.held.erase task }

/-- What every held pointer leads to is the task that was pushed: the pops come in the order
of the pushes. -/
def Intact (s : QueueSystem T) : Prop :=
  ∀ task ∈ s.held, s.pushed[task.order]? = some (s.queue.tasks task.slot)

/-- A push that does not wait leaves the held slots alone: the slot at the tail is not held,
unless what is pushed is what is in it already. -/
def SparesHeld (s : QueueSystem T) : QueueAction T → Prop
  | .push task => s.queue.count < maxPendingTasks →
    ∀ other ∈ s.held, other.slot = s.queue.tail → s.pushed[other.order]? = some task
  | _ => True

/-- What has been pushed and not popped is queued, and what is held was popped. -/
structure Queued (s : QueueSystem T) : Prop where
  ring : ∃ r, s.queue.Represents r ∧ s.pushed.drop s.popped = r.contents
  popped_le : s.popped ≤ s.pushed.length
  held_popped : ∀ task ∈ s.held, task.order < s.popped

theorem queued_start (zeroed : T) : (start zeroed).Queued where
  ring := ⟨_, TaskQueue.represents_init zeroed, rfl⟩
  popped_le := Nat.le_refl 0
  held_popped _ h := absurd h List.not_mem_nil

variable {s : QueueSystem T} {queue : TaskQueue T} {task : T} {slot result : ℤ}

theorem step_push (pushed : taskQueuePush s.queue (some task) = some (result, queue)) :
    s.step (.push task) = { s with queue := queue, pushed := s.pushed ++ [task] } := by
  simp only [step, pushed]

theorem step_pop (popped : taskQueuePop s.queue = some (slot, queue)) :
    s.step .pop =
      { s with queue := queue, popped := s.popped + 1, held := ⟨slot, s.popped⟩ :: s.held } := by
  simp only [step, popped]

/-- The task pushed for a held pointer is settled: later pushes come behind it. -/
theorem Queued.order_lt (h : s.Queued) {other : PoppedTask} (mem : other ∈ s.held) :
    other.order < s.pushed.length := (h.held_popped other mem).trans_le h.popped_le

theorem Queued.push (h : s.Queued)
    (pushed : taskQueuePush s.queue (some task) = some (result, queue)) :
    Queued { s with queue := queue, pushed := s.pushed ++ [task] } := by
  obtain ⟨r, hr, hcontents⟩ := h.ring
  obtain ⟨room, hr'⟩ := hr.push pushed
  refine ⟨⟨_, hr', ?_⟩, ?_, h.held_popped⟩
  · rw [r.contents_push, ← hcontents]
    exact List.drop_append_of_le_length h.popped_le
  · rw [List.length_append]
    exact h.popped_le.trans (Nat.le_add_right _ _)

/-- A pop takes the task that was pushed next after those popped so far. -/
theorem Queued.pop (h : s.Queued) (popped : taskQueuePop s.queue = some (slot, queue)) :
    Queued { s with queue := queue, popped := s.popped + 1, held := ⟨slot, s.popped⟩ :: s.held } ∧
      queue.tasks = s.queue.tasks ∧ s.pushed[s.popped]? = some (s.queue.tasks slot) := by
  obtain ⟨r, hr, hcontents⟩ := h.ring
  obtain ⟨hpos, rfl, htasks, hr'⟩ := hr.pop popped
  rw [r.contents_pop hpos, ← hr.tasks] at hcontents
  have hfirst : s.pushed[s.popped]? = some (s.queue.tasks r.head.val) := by
    rw [← List.head?_drop, hcontents]
    rfl
  have hrest : s.pushed.drop (s.popped + 1) = r.pop.contents := by
    rw [← List.drop_drop, hcontents]
    rfl
  refine ⟨⟨⟨_, hr', hrest⟩, ?_, fun other hmem => ?_⟩, htasks, hfirst⟩
  · exact (List.getElem?_eq_some_iff.mp hfirst).1
  · rcases List.mem_cons.mp hmem with rfl | hmem
    · exact Nat.lt_succ_self _
    · exact Nat.lt_succ_of_lt (h.held_popped other hmem)

theorem Queued.step (h : s.Queued) (action : QueueAction T) : (s.step action).Queued := by
  cases action with
  | push task =>
    cases hpush : taskQueuePush s.queue (some task) with
    | none =>
      simp only [QueueSystem.step, hpush]
      exact h
    | some after =>
      rw [step_push hpush]
      exact h.push hpush
  | pop =>
    cases hpop : taskQueuePop s.queue with
    | none =>
      simp only [QueueSystem.step, hpop]
      exact h
    | some after =>
      rw [step_pop hpop]
      exact (h.pop hpop).1
  | finish task => exact ⟨h.ring, h.popped_le, fun other mem =>
      h.held_popped other (List.mem_of_mem_erase mem)⟩

/-- A push leaves the held tasks intact exactly if it spares their slots. -/
theorem Queued.intact_push_iff (h : s.Queued) (intact : s.Intact)
    (pushed : taskQueuePush s.queue (some task) = some (result, queue)) :
    Intact { s with queue := queue, pushed := s.pushed ++ [task] } ↔ s.SparesHeld (.push task) := by
  have hroom : s.queue.count < maxPendingTasks := by
    simp only [taskQueuePush] at pushed
    split_ifs at pushed with hfull
    exact not_le.mp hfull
  have htasks : queue.tasks = Function.update s.queue.tasks s.queue.tail task := by
    simp only [taskQueuePush, if_neg (not_le.mpr hroom), Option.some.injEq, Prod.mk.injEq] at pushed
    rw [← pushed.2]
  have hsettled : ∀ other ∈ s.held, (s.pushed ++ [task])[other.order]? = s.pushed[other.order]? :=
    fun other mem => List.getElem?_append_left (h.order_lt mem)
  constructor
  · intro intact' _ other mem htail
    have hafter := intact' other mem
    change (s.pushed ++ [task])[other.order]? = some (queue.tasks other.slot) at hafter
    rw [hsettled other mem, htasks, htail, Function.update_self] at hafter
    exact hafter
  · intro spares other mem
    change (s.pushed ++ [task])[other.order]? = some (queue.tasks other.slot)
    rw [hsettled other mem, htasks]
    by_cases htail : other.slot = s.queue.tail
    · rw [htail, Function.update_self]
      exact spares hroom other mem htail
    · rw [Function.update_of_ne htail]
      exact intact other mem

/-- Only a push can spoil a task that is being worked on. -/
theorem Queued.intact_step_iff (h : s.Queued) (intact : s.Intact) (action : QueueAction T) :
    (s.step action).Intact ↔ s.SparesHeld action := by
  cases action with
  | push task =>
    cases hpush : taskQueuePush s.queue (some task) with
    | none =>
      have hfull : ¬ s.queue.count < maxPendingTasks := by
        simp only [taskQueuePush] at hpush
        split_ifs at hpush with hfull
        exact not_lt.mpr hfull
      simp only [QueueSystem.step, hpush]
      exact iff_of_true intact fun hroom => absurd hroom hfull
    | some after =>
      rw [step_push hpush]
      exact h.intact_push_iff intact hpush
  | pop =>
    refine iff_of_true ?_ trivial
    cases hpop : taskQueuePop s.queue with
    | none =>
      simp only [QueueSystem.step, hpop]
      exact intact
    | some after =>
      rw [step_pop hpop]
      obtain ⟨-, htasks, hfirst⟩ := h.pop hpop
      intro other mem
      change s.pushed[other.order]? = some (after.2.tasks other.slot)
      rw [htasks]
      rcases List.mem_cons.mp mem with rfl | mem
      · exact hfirst
      · exact intact other mem
  | finish task =>
    exact iff_of_true (fun other mem => intact other (List.mem_of_mem_erase mem)) trivial

/-- In every interleaving of producers and consumers, all held tasks are intact at all times
if and only if each push spares the slots held when it is made. -/
theorem always_intact_iff (zeroed : T) (actions : List (QueueAction T)) :
    Always step Intact (start zeroed) actions ↔ EachStep step SparesHeld (start zeroed) actions :=
  always_iff_eachStep (fun _ action h => h.step action)
    (fun _ action h intact => h.intact_step_iff intact action) (queued_start zeroed)
    fun _ mem => absurd mem List.not_mem_nil

/-- A consumer keeps its task while a producer fills the queue up behind it. -/
def slowConsumer : List (QueueAction Task) :=
  [.push { taskId := 1 }, .pop] ++ List.replicate maxPendingTasks (.push { taskId := 2 })

theorem not_always_intact_slowConsumer : ¬ Always step Intact (start {}) slowConsumer := by
  intro always
  have hintact := always.last
  have hheld : (slowConsumer.foldl step (start {})).held = [⟨0, 0⟩] := by decide +kernel
  have hspoilt : (slowConsumer.foldl step (start {})).pushed[0]? ≠
      some ((slowConsumer.foldl step (start {})).queue.tasks 0) := by decide +kernel
  generalize slowConsumer.foldl step (start {}) = s at hintact hheld hspoilt
  have hmem : ⟨0, 0⟩ ∈ s.held := by
    rw [hheld]
    exact List.mem_singleton_self _
  exact hspoilt (hintact ⟨0, 0⟩ hmem)

end QueueSystem

end MeshNoc
