import CheckHarness.Connection.Pipe
import Mathlib.Data.List.DropRight
import Mathlib.Data.List.Induction

namespace CheckHarness

namespace Pipe

/-- What can be done with a pipe. A wait is looked at once and given up if it is not let through. -/
inductive Use where
  | commit (data : Bytes)
  | complete
  | take (n : Nat)
  | pollReadable
  | pollWritable
  deriving DecidableEq, Repr

/-- A use together with what came of it. -/
inductive Event where
  | committed (data : Bytes)
  | completed
  | took (n : Nat) (bytes : Bytes)
  | polledReadable (ready : Bool)
  | polledWritable (ready : Bool)
  deriving DecidableEq, Repr

namespace Event

/-- What was done. -/
def use : Event → Use
  | committed data => .commit data
  | completed => .complete
  | took n _ => .take n
  | polledReadable _ => .pollReadable
  | polledWritable _ => .pollWritable

/-- The bytes that were put in. -/
def entered : Event → Bytes
  | committed data => data
  | _ => []

/-- The bytes that came out. -/
def left : Event → Bytes
  | took _ bytes => bytes
  | _ => []

/-- Whether something changed that the consumer waits for. -/
def tellsConsumer : Event → Bool
  | committed _ => true
  | completed => true
  | _ => false

/-- Whether something changed that the producer waits for. -/
def tellsProducer : Event → Bool
  | took _ bytes => !bytes.isEmpty
  | _ => false

/-- Whether a wait of the consumer was let through. -/
def wakesConsumer : Event → Bool
  | polledReadable ready => ready
  | _ => false

/-- Whether a wait of the producer was let through. -/
def wakesProducer : Event → Bool
  | polledWritable ready => ready
  | _ => false

end Event

/-- One use: what comes of it and what the pipe becomes. -/
def step (pipe : Pipe) : Use → Event × Pipe
  | .commit data => (.committed data, pipe.commit data)
  | .complete => (.completed, pipe.complete)
  | .take n => (.took n (pipe.take n).1, (pipe.take n).2)
  | .pollReadable => (.polledReadable pipe.pollReadable.1, pipe.pollReadable.2)
  | .pollWritable => (.polledWritable pipe.pollWritable.1, pipe.pollWritable.2)

/-- Several uses, one after another. -/
def run (pipe : Pipe) : List Use → List Event × Pipe
  | [] => ([], pipe)
  | use :: uses =>
    ((pipe.step use).1 :: ((pipe.step use).2.run uses).1, ((pipe.step use).2.run uses).2)

/-- What happens on a new pipe. -/
def history (capacity : Nat) (uses : List Use) : List Event :=
  ((empty capacity).run uses).1

/-- What a new pipe becomes. -/
def after (capacity : Nat) (uses : List Use) : Pipe :=
  ((empty capacity).run uses).2

/-- What has happened since the last event of a kind, or ever if there was none. -/
def since (last : Event → Bool) (events : List Event) : List Event :=
  events.rtakeWhile fun event => !last event

variable {pipe : Pipe} {use : Use} {capacity : Nat} {events : List Event}

theorem use_step (pipe : Pipe) (use : Use) : (pipe.step use).1.use = use := by
  cases use <;> rfl

theorem capacity_step (pipe : Pipe) (use : Use) : (pipe.step use).2.capacity = pipe.capacity := by
  cases use <;> rfl

/-- Bytes leave in front and enter behind. -/
theorem buffer_step (pipe : Pipe) (use : Use) :
    (pipe.step use).1.left ++ (pipe.step use).2.buffer =
      pipe.buffer ++ (pipe.step use).1.entered := by
  cases use with
  | commit data => rfl
  | take n => simpa [step, Event.left, Event.entered] using pipe.take_fst_append_buffer n
  | _ => exact (List.append_nil _).symm

/-- A pipe is completed by being completed and stays so. -/
theorem completed_step_iff :
    (pipe.step use).2.completed = true ↔
      pipe.completed = true ∨ (pipe.step use).1 = .completed := by
  cases use <;> simp [step, commit, complete, take, pollReadable, pollWritable]

/-- The consumer has a permit if it was told of something and has not been woken since. -/
theorem readable_step (pipe : Pipe) (use : Use) :
    (pipe.step use).2.readable = (!(pipe.step use).1.wakesConsumer &&
      (pipe.readable || (pipe.step use).1.tellsConsumer)) := by
  cases use <;>
    simp [step, commit, complete, take, pollReadable, pollWritable, Event.wakesConsumer,
      Event.tellsConsumer]

theorem writable_step (pipe : Pipe) (use : Use) :
    (pipe.step use).2.writable = (!(pipe.step use).1.wakesProducer &&
      (pipe.writable || (pipe.step use).1.tellsProducer)) := by
  cases use <;>
    simp [step, commit, complete, take, pollReadable, pollWritable, Event.wakesProducer,
      Event.tellsProducer]

theorem run_append (pipe : Pipe) (uses more : List Use) :
    pipe.run (uses ++ more) =
      ((pipe.run uses).1 ++ ((pipe.run uses).2.run more).1, ((pipe.run uses).2.run more).2) := by
  induction uses generalizing pipe with
  | nil => rfl
  | cons use uses ih => simp only [List.cons_append, run, ih]

/-- The history of more uses goes on from where the pipe is. -/
theorem history_append (capacity : Nat) (uses more : List Use) :
    history capacity (uses ++ more) =
      history capacity uses ++ ((after capacity uses).run more).1 :=
  congrArg Prod.fst (run_append _ uses more)

theorem after_append (capacity : Nat) (uses more : List Use) :
    after capacity (uses ++ more) = ((after capacity uses).run more).2 := by
  rw [after, run_append, after]

theorem map_use_run (pipe : Pipe) (uses : List Use) : (pipe.run uses).1.map Event.use = uses := by
  induction uses generalizing pipe with
  | nil => rfl
  | cons use uses ih => rw [run, List.map_cons, use_step, ih]

/-- A permit that some events give and the events of another kind use up. -/
theorem any_since_concat (gives last : Event → Bool) (events : List Event) (event : Event) :
    (since last (events ++ [event])).any gives =
      (!last event && ((since last events).any gives || gives event)) := by
  rw [since, List.rtakeWhile_concat]
  cases last event <;> simp [since]

/-- The pipe is what these events make of a new one. -/
structure Accounts (capacity : Nat) (events : List Event) (pipe : Pipe) : Prop where
  capacity : pipe.capacity = capacity
  buffer : events.flatMap Event.left ++ pipe.buffer = events.flatMap Event.entered
  completed : pipe.completed = true ↔ Event.completed ∈ events
  readable : pipe.readable = (since Event.wakesConsumer events).any Event.tellsConsumer
  writable : pipe.writable = (since Event.wakesProducer events).any Event.tellsProducer

theorem accounts_empty (capacity : Nat) : Accounts capacity [] (empty capacity) :=
  ⟨rfl, rfl, by simp [empty], rfl, rfl⟩

/-- A use keeps the account. -/
theorem Accounts.step (haccounts : Accounts capacity events pipe) (use : Use) :
    Accounts capacity (events ++ [(pipe.step use).1]) (pipe.step use).2 where
  capacity := (capacity_step pipe use).trans haccounts.capacity
  buffer := by
    simp only [List.flatMap_append, List.flatMap_singleton]
    rw [List.append_assoc, buffer_step, ← List.append_assoc, haccounts.buffer]
  completed := by
    rw [completed_step_iff, haccounts.completed, List.mem_append, List.mem_singleton, eq_comm]
  readable := by rw [readable_step, any_since_concat, haccounts.readable]
  writable := by rw [writable_step, any_since_concat, haccounts.writable]

/-- A pipe accounts for its whole history. -/
theorem accounts_after (capacity : Nat) (uses : List Use) :
    Accounts capacity (history capacity uses) (after capacity uses) := by
  -- From the right: the last use is made of the pipe that the others leave behind.
  induction uses using List.reverseRecOn with
  | nil => exact accounts_empty capacity
  | append_singleton uses use ih =>
    rw [history_append, after_append]
    exact ih.step use

/-- There is room for what the capacity exceeds the buffer by. -/
theorem Accounts.space_eq (haccounts : Accounts capacity events pipe) :
    (pipe.space : Int) = max ((capacity : Int) - pipe.buffer.length) 0 := by
  rw [space, haccounts.capacity]
  omega

theorem history_concat (capacity : Nat) (uses : List Use) (use : Use) :
    history capacity (uses ++ [use]) =
      history capacity uses ++ [((after capacity uses).step use).1] :=
  history_append capacity uses [use]

/-- Whatever is done with a new pipe, its history says all of it: each use is there in its turn,
with a result that nothing later changes. The bytes taken so far and those in the pipe are those put
in, in their order. A take gives as much as is asked for or there is. There is room for the capacity
less what is in the pipe, or none. The stream has ended just if this was said, and then for good. A
wait of the consumer is let through just if there was a commit, be it of no bytes, or the stream was
ended since the last that was, and a wait of the producer just if bytes came out since the last that
was. -/
theorem history_decides (capacity : Nat) (uses : List Use) :
    (history capacity uses).map Event.use = uses ∧
    (∀ more, history capacity uses <+: history capacity (uses ++ more)) ∧
    (history capacity uses).flatMap Event.left ++ (after capacity uses).buffer =
      (history capacity uses).flatMap Event.entered ∧
    (∀ n, ∃ bytes,
      history capacity (uses ++ [.take n]) = history capacity uses ++ [.took n bytes] ∧
      bytes.length = min n (after capacity uses).buffer.length) ∧
    ((after capacity uses).space : Int) =
      max ((capacity : Int) - (after capacity uses).buffer.length) 0 ∧
    ((after capacity uses).completed = true ↔ Event.completed ∈ history capacity uses) ∧
    (∀ more, (after capacity uses).completed = true →
      (after capacity (uses ++ more)).completed = true) ∧
    (∃ ready,
      history capacity (uses ++ [.pollReadable]) =
        history capacity uses ++ [.polledReadable ready] ∧
      (ready = true ↔ ∃ event ∈ since Event.wakesConsumer (history capacity uses),
        event.tellsConsumer = true)) ∧
    ∃ ready,
      history capacity (uses ++ [.pollWritable]) =
        history capacity uses ++ [.polledWritable ready] ∧
      (ready = true ↔ ∃ event ∈ since Event.wakesProducer (history capacity uses),
        event.tellsProducer = true) := by
  have haccounts := accounts_after capacity uses
  refine ⟨map_use_run _ uses, ?_, haccounts.buffer, ?_, haccounts.space_eq, haccounts.completed,
    ?_, ?_, ?_⟩
  · intro more
    rw [history_append]
    exact List.prefix_append _ _
  · intro n
    exact ⟨_, history_concat capacity uses (.take n), List.length_take⟩
  · intro more hcompleted
    have hended := haccounts.completed.mp hcompleted
    rw [(accounts_after capacity (uses ++ more)).completed, history_append]
    exact List.mem_append_left _ hended
  · refine ⟨_, history_concat capacity uses .pollReadable, ?_⟩
    change (after capacity uses).readable = true ↔ _
    rw [haccounts.readable, List.any_eq_true]
  · refine ⟨_, history_concat capacity uses .pollWritable, ?_⟩
    change (after capacity uses).writable = true ↔ _
    rw [haccounts.writable, List.any_eq_true]

/-- Uses that keep to nothing: more is put in than there is room for, also after the end, and waits
are looked at without need. -/
def carelessUses : List Use :=
  [.commit [1, 2, 3], .take 2, .take 9, .take 1, .pollWritable, .pollWritable, .complete,
    .commit [4, 5, 6, 7], .commit [], .pollReadable, .pollReadable]

/-- The end stays and there is no room. All that is there is taken, and a third wait of the
consumer, for which nothing has changed, is not let through. -/
theorem history_decides_careless :
    (after 3 carelessUses).completed = true ∧
    (after 3 (carelessUses ++ [.take 3, .commit [8]])).completed = true ∧
    ((after 3 carelessUses).space : Int) = 0 ∧
    (∃ bytes, history 3 (carelessUses ++ [.take 9]) = history 3 carelessUses ++ [.took 9 bytes] ∧
      bytes.length = 4) ∧
    history 3 (carelessUses ++ [.pollReadable]) =
      history 3 carelessUses ++ [.polledReadable false] := by
  obtain ⟨-, -, -, htake, hspace, -, hkept, ⟨ready, hpoll, hready⟩, -⟩ :=
    history_decides 3 carelessUses
  have hended : (after 3 carelessUses).completed = true := by decide
  have hunchanged : ¬ ∃ event ∈ since Event.wakesConsumer (history 3 carelessUses),
      event.tellsConsumer = true := by decide
  have hpending : ready = false := Bool.eq_false_iff.mpr (mt hready.mp hunchanged)
  refine ⟨hended, hkept _ hended, hspace.trans (by decide), htake 9, ?_⟩
  rw [hpoll, hpending]

end Pipe

end CheckHarness
