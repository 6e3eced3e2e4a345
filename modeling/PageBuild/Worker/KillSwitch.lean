/-!
# Kill switches

A kill switch ends a worker and the bundler that the worker reported, which runs in a process
group of its own. Any number of threads share it without a lock: each operation below is atomic,
and those of different threads interleave in any order. A report stores the group before it looks
whether the switch was used, and a use marks the switch before it takes the group, so that one of
them sees the other.

Groups are reported as numbers of 32 bits without a sign. A call of `kill` takes a signed argument, and
names a group by its negated id. An id of 2^31 or more comes out as a positive argument, which names a
single process, and the id one as minus one, which names all of them (`Target.ofReport`).
-/
namespace PageBuild.Worker

/-- What a call of `kill` reaches. -/
inductive Target where
  | process (id : UInt32)
  /-- The group of the caller. -/
  | ownGroup
  /-- All processes that the caller may signal. -/
  | everyone
  | group (id : UInt32)
  deriving DecidableEq, Repr

/-- What `kill` takes its argument for. -/
def Target.ofArgument (argument : Int32) : Target :=
  if 0 < argument then .process argument.toUInt32
  else if argument = 0 then .ownGroup
  else if argument = -1 then .everyone
  else .group (-argument).toUInt32

/-- The argument that is made from a reported group: the id, taken for a signed number and negated. -/
def reportArgument (id : UInt32) : Int32 := -id.toInt32

/-- What the call for a reported group reaches. -/
def Target.ofReport (id : UInt32) : Target := ofArgument (reportArgument id)

/-- A call of `kill` that ends what it reaches. -/
inductive Signal where
  /-- The process of the worker is named. -/
  | worker
  | call (argument : Int32)
  deriving DecidableEq, Repr

namespace Signal

/-- The call for a reported group. -/
def group (id : UInt32) : Signal := .call (reportArgument id)

/-- What a call reaches, unless it is the worker. -/
def target? : Signal → Option Target
  | .worker => none
  | .call argument => some (.ofArgument argument)

/-- The report that a call is made for. -/
def reported? : Signal → Option UInt32
  | .worker => none
  | .call argument => some (-argument).toUInt32

@[simp] theorem reported?_worker : worker.reported? = none := rfl

@[simp] theorem reported?_group (id : UInt32) : (group id).reported? = some id := by
  rw [group, reported?, reportArgument, Int32.neg_neg, UInt32.toUInt32_toInt32]

@[simp] theorem group_inj {id other : UInt32} : group id = group other ↔ id = other := by
  constructor
  · intro same
    have reports := congrArg reported? same
    rwa [reported?_group, reported?_group, Option.some.injEq] at reports
  · rintro rfl
    rfl

@[simp] theorem group_ne_worker (id : UInt32) : group id ≠ worker := nofun

end Signal

/-- What the threads share. -/
structure KillSwitch where
  /-- Whether the switch was used. -/
  used : Bool
  /-- The group that was reported last and not taken; zero is none. -/
  group : UInt32
  /-- The signals sent, in order. -/
  signals : List Signal
  deriving DecidableEq, Repr

namespace KillSwitch

/-- What the signals reached, apart from the worker. -/
def reached (switch : KillSwitch) : List Target := switch.signals.filterMap Signal.target?

/-- A switch that was not used. -/
def fresh : KillSwitch := ⟨false, 0, []⟩

/-- An atomic operation. -/
inductive Op where
  /-- Store a group. -/
  | store (group : UInt32)
  /-- Look, on behalf of a group that was stored, whether the switch was used. -/
  | check (group : UInt32)
  /-- Mark the switch as used. -/
  | mark
  /-- Take the stored group and leave none. -/
  | take
  | send (signal : Signal)
  deriving DecidableEq, Repr

/-- What a thread does to report a group. -/
def track (group : UInt32) : List Op := [.store group, .check group]

/-- What a thread does to use the switch. -/
def kill : List Op := [.mark, .take]

/-- Do an operation. A thread goes on with the operations given back: only the first use signals
the worker, and only a group that was there is signalled. -/
def apply (switch : KillSwitch) : Op → KillSwitch × List Op
  | .store group => ({ switch with group }, [])
  | .check _ => (switch, if switch.used then [.take] else [])
  | .mark => ({ switch with used := true }, if switch.used then [] else [.send .worker])
  | .take =>
    ({ switch with group := 0 }, if switch.group = 0 then [] else [.send (.group switch.group)])
  | .send signal => ({ switch with signals := switch.signals ++ [signal] }, [])

/-- Do the next operation of a thread. -/
def advance (switch : KillSwitch) : List Op → KillSwitch × List Op
  | [] => (switch, [])
  | op :: ops =>
    let (next, more) := switch.apply op
    (next, more ++ ops)

/-- A switch and what is left to do for each of the threads that use it. -/
structure Shared where
  switch : KillSwitch
  threads : List (List Op)
  deriving DecidableEq, Repr

namespace Shared

/-- A fresh switch with one thread that reports groups in order and some that use the switch. -/
def start (groups : List UInt32) (kills : Nat) : Shared :=
  ⟨fresh, groups.flatMap track :: List.replicate kills kill⟩

/-- The next operation of one of the threads, unless that thread is done. -/
def step (shared : Shared) (thread : Nat) : Option Shared :=
  match shared.threads[thread]? with
  | none | some [] => none
  | some (op :: ops) =>
    let (switch, left) := shared.switch.advance (op :: ops)
    some ⟨switch, shared.threads.set thread left⟩

/-- The operations of threads in some order. -/
def run (shared : Shared) : List Nat → Option Shared
  | [] => some shared
  | thread :: order => (shared.step thread).bind fun next => next.run order

end Shared

end KillSwitch

end PageBuild.Worker
