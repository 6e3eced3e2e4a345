import Mathlib.Data.List.Perm.Subperm
import PageBuild.Proofs.Worker.KillSwitch

/-!
# Switches that are shared

One thread reports groups to a switch while any number of threads use it, their operations in any
order. The next thing that a thread does after an operation that makes a signal due is to send it, so
that the signal counts as issued from then on (`Shared.issued`). What is issued is accounted for at every
operation (`Accounted`): the worker once, by the first use, and each group by one report. A used switch
that holds a group is looked into by the report that stored it, or else by every use, since none of them
has taken the group yet (`Met.sought`). So neither side misses the other (`Met.issued_of_done`).

A use returns without a signal of its own when another one was first, which may not have sent its signal
yet. Only when no use is under way any more is all that was issued sent, and the groups are reached
whose ids `kill` can name (`Shared.kills_meet_reports`).
-/
namespace PageBuild.Worker

/-! ## What the call for a report reaches -/

/-- A call is made for one report, whose group decides what it reaches. -/
theorem Signal.target?_eq (signal : Signal) :
    signal.target? = signal.reported?.map Target.ofReport := by
  cases signal with
  | worker => rfl
  | call argument =>
    have made : reportArgument (-argument).toUInt32 = argument := by
      rw [reportArgument, Int32.toInt32_toUInt32, Int32.neg_neg]
    rw [target?, reported?, Option.map_some, Target.ofReport, made]

/-- The argument that is made from an id below 2^31 is its negative. -/
theorem toInt_reportArgument {id : UInt32} (small : id < 0x80000000) :
    (reportArgument id).toInt = -(id.toNat : Int) := by
  have below : id.toNat < 0x80000000 := UInt32.lt_iff_toNat_lt.mp small
  have signed : id.toInt32.toInt = id.toNat := by
    change id.toBitVec.toInt = _
    apply BitVec.toInt_eq_toNat_of_lt
    change 2 * id.toNat < 0x100000000
    omega
  rw [reportArgument, Int32.toInt_neg, signed]
  apply Int.bmod_eq_of_le <;> omega

/-- A group is reached by the call for it if its id is above one and below 2^31. -/
theorem Target.ofReport_eq_group {id : UInt32} (large : 1 < id) (small : id < 0x80000000) :
    ofReport id = .group id := by
  have above : 1 < id.toNat := UInt32.lt_iff_toNat_lt.mp large
  have value := toInt_reportArgument small
  have negative : ¬0 < reportArgument id := by
    rw [Int32.lt_iff_toInt_lt, value]
    show ¬(0 : Int) < _
    omega
  have nonzero : reportArgument id ≠ 0 := by
    intro zero
    rw [zero] at value
    have value : (0 : Int) = _ := value
    omega
  have single : reportArgument id ≠ -1 := by
    intro one
    rw [one] at value
    have value : (-1 : Int) = _ := value
    omega
  rw [ofReport, ofArgument, if_neg negative, if_neg nonzero, if_neg single, reportArgument,
    Int32.neg_neg, UInt32.toUInt32_toInt32]

/-- The group of the caller is reached by no call but the one for group zero. -/
theorem Target.eq_zero_of_ofReport {id : UInt32} (own : ofReport id = .ownGroup) : id = 0 := by
  rw [ofReport, ofArgument] at own
  split at own
  · cases own
  split at own
  · rename_i zero
    have same : Signal.group id = .group 0 := congrArg Signal.call zero
    exact Signal.group_inj.mp same
  split at own <;> cases own

namespace KillSwitch

/-- The signal that a thread is about to send. -/
def due : List Op → List Signal
  | .send signal :: _ => [signal]
  | _ => []

/-- Whether a thread has no signal left to send but the one that it is about to. -/
def Prompt (ops : List Op) : Prop := ∀ signal, .send signal ∉ ops.tail

/-- The group of the report whose check is the next operation of a thread and sees that the switch was
used. -/
def alarm (switch : KillSwitch) : List Op → List UInt32
  | .check group :: _ => if switch.used then [group] else []
  | _ => []

namespace Shared

/-- The signals that were sent, and those that threads are about to send. -/
def issued (shared : Shared) : List Signal := shared.switch.signals ++ shared.threads.flatMap due

/-- The groups of the reports whose checks see, along some order of operations, that the switch was
used. -/
def alarms (shared : Shared) : List Nat → List UInt32
  | [] => []
  | thread :: order =>
    shared.switch.alarm (shared.threads.getD thread []) ++
      match shared.step thread with
      | some next => next.alarms order
      | none => []

/-- A step is the next operation of one of the threads. -/
theorem split_of_step {shared next : Shared} {thread : Nat} (moved : shared.step thread = some next) :
    ∃ front op ops back, shared.threads = front ++ (op :: ops) :: back ∧ front.length = thread ∧
      next = ⟨(shared.switch.advance (op :: ops)).1,
        front ++ (shared.switch.advance (op :: ops)).2 :: back⟩ := by
  unfold step at moved
  split at moved
  · cases moved
  · cases moved
  · rename_i op ops found
    obtain ⟨inside, same⟩ := List.getElem?_eq_some_iff.mp found
    refine ⟨shared.threads.take thread, op, ops, shared.threads.drop (thread + 1), ?_, ?_, ?_⟩
    · rw [← same, List.getElem_cons_drop, List.take_append_drop]
    · rw [List.length_take]
      omega
    · have same : Shared.mk _ (shared.threads.set thread _) = next := Option.some.inj moved
      rw [← same, List.set_eq_take_append_cons_drop, if_pos inside]
      rfl

end Shared

/-! ## What is issued -/

section Account

variable {stored : List UInt32} {switch : KillSwitch} {front back : List (List Op)} {op : Op}
  {ops : List Op}

/-- An operation sends the signal that was due, and no other. -/
theorem signals_advance : (switch.advance (op :: ops)).1.signals = switch.signals ++ due (op :: ops) := by
  cases op <;> simp [advance, apply, due]

/-- What is due after an operation is what the operation makes due. -/
theorem due_advance (prompt : Prompt (op :: ops)) :
    due (switch.advance (op :: ops)).2 = due (switch.apply op).2 := by
  have quiet : due ops = [] := by
    match ops, prompt with
    | [], _ => rfl
    | .send signal :: _, prompt => exact absurd List.mem_cons_self (prompt signal)
    | .store _ :: _, _ | .check _ :: _, _ | .mark :: _, _ | .take :: _, _ => rfl
  change due ((switch.apply op).2 ++ ops) = _
  cases op <;> simp only [apply] <;> first | exact quiet | (split <;> first | exact quiet | rfl)

/-- An operation issues the signal that it makes due, and no other. -/
theorem issued_perm (switch : KillSwitch) (front back : List (List Op)) (prompt : Prompt (op :: ops)) :
    (Shared.issued ⟨(switch.advance (op :: ops)).1,
        front ++ (switch.advance (op :: ops)).2 :: back⟩).Perm
      (Shared.issued ⟨switch, front ++ (op :: ops) :: back⟩ ++ due (switch.apply op).2) := by
  rw [List.perm_iff_count]
  intro signal
  simp only [Shared.issued, signals_advance, due_advance prompt, List.flatMap_append,
    List.flatMap_cons, List.count_append]
  omega

/-- The group in a switch, if there is one. -/
def held (switch : KillSwitch) : List UInt32 := if switch.group = 0 then [] else [switch.group]

/-- The groups that were issued, and the one in the switch. -/
def spent (shared : Shared) : List UInt32 :=
  shared.issued.filterMap Signal.reported? ++ shared.switch.held

/-- A shared switch in which some groups were stored, with an account of what was issued. -/
structure Accounted (stored : List UInt32) (shared : Shared) : Prop where
  prompt : ∀ ops ∈ shared.threads, Prompt ops
  /-- The first use issues the signal to the worker. -/
  worker : shared.issued.count .worker = shared.switch.used.toNat
  /-- A report issues at most one signal. -/
  groups : (spent shared).Subperm stored
  /-- The group that was stored last is in the switch or was issued. -/
  kept : ∀ group, stored.getLast? = some group → group ≠ 0 →
    shared.switch.group = group ∨ .group group ∈ shared.issued

/-- Threads that have no signal to send account for a fresh switch. -/
theorem Accounted.fresh {threads : List (List Op)}
    (silent : ∀ ops ∈ threads, ∀ signal, .send signal ∉ ops) : Accounted [] ⟨fresh, threads⟩ := by
  have quiet : threads.flatMap due = [] := by
    refine List.flatMap_eq_nil_iff.mpr fun ops member => ?_
    unfold due
    split
    · exact absurd List.mem_cons_self (silent _ member _)
    · rfl
  have issued : Shared.issued ⟨KillSwitch.fresh, threads⟩ = [] := quiet
  exact {
    prompt := fun ops member signal sent => silent ops member signal (List.mem_of_mem_tail sent)
    worker := by rw [issued]; rfl
    groups := by rw [spent, issued]; exact .refl _
    kept := fun _ last => by cases last }

/-- After an operation a thread has no signal left to send but the one that it is about to. -/
theorem Prompt.advance (prompt : Prompt (op :: ops)) : Prompt (switch.advance (op :: ops)).2 := by
  have later : Prompt ops := fun signal sent => prompt signal (List.mem_of_mem_tail sent)
  change Prompt ((switch.apply op).2 ++ ops)
  cases op <;> simp only [apply] <;> first | exact later | (split <;> first | exact later | exact prompt)

/-- A group that is taken was in the switch, and one that is in the switch was there or is stored. -/
theorem held_apply : ((due (switch.apply op).2).filterMap Signal.reported? ++ (switch.apply op).1.held).Sublist
    (switch.held ++ op.stored) := by
  cases op with
  | store group =>
    by_cases empty : group = 0 <;> simp [apply, due, held, Op.stored, empty]
  | check group => by_cases used : switch.used <;> simp [apply, due, Op.stored, used, held]
  | mark => by_cases used : switch.used <;> simp [apply, due, Op.stored, used, held]
  | take => by_cases empty : switch.group = 0 <;> simp [apply, due, held, Op.stored, empty]
  | send signal => exact List.sublist_append_left switch.held []

/-- The groups that are spent after an operation were spent before, or are stored by it. -/
theorem spent_advance (prompt : Prompt (op :: ops)) :
    (spent ⟨(switch.advance (op :: ops)).1,
        front ++ (switch.advance (op :: ops)).2 :: back⟩).Subperm
      (spent ⟨switch, front ++ (op :: ops) :: back⟩ ++ op.stored) := by
  have issued := (issued_perm switch front back prompt).filterMap Signal.reported?
  refine (issued.append_right _).subperm.trans ?_
  rw [List.filterMap_append, List.append_assoc, spent, List.append_assoc]
  exact (held_apply.append_left _).subperm

/-- What holds of what one thread goes on with and of the others holds of all threads. -/
theorem forall_replaced {P : List Op → Prop} {left : List Op} (mine : P left)
    (theirs : ∀ other, other ∈ front ++ back → P other) : ∀ other ∈ front ++ left :: back, P other := by
  intro other member
  rcases List.mem_append.mp member with before | member
  · exact theirs other (List.mem_append_left _ before)
  rcases List.mem_cons.mp member with rfl | after
  · exact mine
  · exact theirs other (List.mem_append_right _ after)

/-- Every operation of a thread is accounted for. -/
theorem Accounted.advance (front : List (List Op))
    (accounted : Accounted stored ⟨switch, front ++ (op :: ops) :: back⟩) :
    Accounted (stored ++ op.stored)
      ⟨(switch.advance (op :: ops)).1, front ++ (switch.advance (op :: ops)).2 :: back⟩ := by
  have prompt : Prompt (op :: ops) := accounted.prompt _ (by simp)
  have issued := issued_perm switch front back prompt
  refine { prompt := ?_, worker := ?_, groups := ?_, kept := ?_ }
  · refine forall_replaced prompt.advance fun other member => accounted.prompt other ?_
    rcases List.mem_append.mp member with before | after
    · simp [before]
    · simp [after]
  · rw [issued.count_eq, List.count_append, accounted.worker]
    cases op with
    | mark => by_cases used : switch.used <;> simp [KillSwitch.advance, apply, due, used]
    | check group => by_cases used : switch.used <;> simp [KillSwitch.advance, apply, due, used]
    | take => by_cases empty : switch.group = 0 <;> simp [KillSwitch.advance, apply, due, empty]
    | store group => simp [KillSwitch.advance, apply, due]
    | send signal => simp [KillSwitch.advance, apply, due]
  · exact (spent_advance prompt).trans ((List.subperm_append_right _).mpr accounted.groups)
  · intro group last filled
    rw [issued.mem_iff, List.mem_append]
    cases op with
    | store other =>
      have same : other = group := by simpa [Op.stored] using last
      exact .inl same
    | take =>
      simp only [Op.stored, List.append_nil] at last
      rcases accounted.kept group last filled with rfl | before
      · exact .inr (.inr (by simp [apply, due, filled]))
      · exact .inr (.inl before)
    | check _ | mark | send _ =>
      simp only [Op.stored, List.append_nil] at last
      exact (accounted.kept group last filled).imp_right .inl

/-- A group that was signalled is reached if `kill` can name it. -/
theorem mem_reached {group : UInt32} (signalled : .group group ∈ switch.signals) (large : 1 < group)
    (small : group < 0x80000000) : .group group ∈ switch.reached := by
  apply List.mem_filterMap.mpr
  refine ⟨.group group, signalled, ?_⟩
  rw [Signal.target?_eq, Signal.reported?_group, Option.map_some, Target.ofReport_eq_group large small]

/-- What was reached was reported. -/
theorem Accounted.reached {threads : List (List Op)} {rest : List UInt32}
    (accounted : Accounted stored ⟨switch, threads⟩) :
    switch.reached.Subperm ((stored ++ rest).map Target.ofReport) := by
  have sent : (switch.signals.filterMap Signal.reported?).Sublist (spent ⟨switch, threads⟩) := by
    rw [spent, Shared.issued, List.filterMap_append, List.append_assoc]
    exact List.sublist_append_left _ _
  have reports : (switch.signals.filterMap Signal.reported?).Subperm (stored ++ rest) :=
    (sent.subperm.trans accounted.groups).trans (List.sublist_append_left stored rest).subperm
  have same : switch.reached = (switch.signals.filterMap Signal.reported?).map Target.ofReport := by
    rw [KillSwitch.reached, List.map_filterMap]
    exact List.filterMap_congr fun signal _ => signal.target?_eq
  obtain ⟨picked, reordered, kept⟩ := reports
  rw [same]
  exact ⟨_, reordered.map Target.ofReport, kept.map Target.ofReport⟩

end Account

/-! ## Who looks for a group -/

/-- A thread that reports groups in order, some of which it stored. -/
inductive Reporter (stored : List UInt32) : List UInt32 → List Op → Prop
  | done : Reporter stored [] []
  | storing {group : UInt32} {rest : List UInt32} :
      Reporter stored (group :: rest) (.store group :: .check group :: rest.flatMap track)
  | checking {group : UInt32} {rest : List UInt32} (last : stored.getLast? = some group) :
      Reporter stored rest (.check group :: rest.flatMap track)
  | taking {rest : List UInt32} : Reporter stored rest (.take :: rest.flatMap track)
  | sending {group : UInt32} {rest : List UInt32} :
      Reporter stored rest (.send (.group group) :: rest.flatMap track)

/-- A thread that uses the switch. -/
inductive Killer (used : Bool) : List Op → Prop
  | marking : Killer used kill
  | signalling (marked : used = true) : Killer used [.send .worker, .take]
  | taking (marked : used = true) : Killer used [.take]
  | sending {group : UInt32} (marked : used = true) : Killer used [.send (.group group)]
  | done (marked : used = true) : Killer used []

/-- Whether a thread is about to look whether the switch was used, or to take the group. -/
def Looks : List Op → Prop
  | .check _ :: _ | .take :: _ => True
  | _ => False

theorem Reporter.between {stored : List UInt32} :
    ∀ rest : List UInt32, Reporter stored rest (rest.flatMap track)
  | [] => .done
  | _ :: _ => .storing

/-- A thread that uses the switch goes on doing so after the switch was marked. -/
theorem Killer.mark {used : Bool} {ops : List Op} (killer : Killer used ops) : Killer true ops := by
  cases killer with
  | marking => exact .marking
  | signalling => exact .signalling rfl
  | taking => exact .taking rfl
  | sending => exact .sending rfl
  | done => exact .done rfl

/-- While the switch was not used all threads that use it are going to take the group. -/
theorem Killer.takes {used : Bool} {ops : List Op} (killer : Killer used ops) (fresh : ¬ used = true) :
    .take ∈ ops := by
  cases killer with
  | marking => simp [kill]
  | signalling marked | taking marked | sending marked | done marked => exact absurd marked fresh

/-- A switch that one thread reports groups to while others use it. Some groups were stored, the
others are still to be reported, and the checks of some reports saw that the switch was used. -/
structure Met (stored rest alarmed : List UInt32) (switch : KillSwitch) (reporter : List Op)
    (killers : List (List Op)) : Prop where
  reports : Reporter stored rest reporter
  kills : ∀ ops ∈ killers, Killer switch.used ops
  accounted : Accounted stored ⟨switch, reporter :: killers⟩
  /-- A used switch with a group is looked into by the report, or else by every use. -/
  sought : switch.used = true → switch.group ≠ 0 → Looks reporter ∨ ∀ ops ∈ killers, .take ∈ ops
  /-- The group of a report that saw the switch used was issued, unless the report is about to take
  it. -/
  heard : ∀ group ∈ alarmed, .group group ∈ Shared.issued ⟨switch, reporter :: killers⟩ ∨
    switch.group = group ∧ group ≠ 0 ∧ reporter.head? = some .take

section Meeting

variable {stored rest alarmed : List UInt32} {switch : KillSwitch} {reporter ops : List Op}
  {killers front back : List (List Op)} {op : Op}

/-- What was issued stays issued. -/
theorem mem_issued_advance (front : List (List Op)) (prompt : Prompt (op :: ops)) {signal : Signal}
    (before : signal ∈ Shared.issued ⟨switch, front ++ (op :: ops) :: back⟩) :
    signal ∈ Shared.issued ⟨(switch.advance (op :: ops)).1,
      front ++ (switch.advance (op :: ops)).2 :: back⟩ :=
  (issued_perm switch front back prompt).mem_iff.mpr (List.mem_append_left _ before)

/-- The group that is taken is issued. -/
theorem mem_issued_take (front : List (List Op)) (prompt : Prompt (.take :: ops))
    (filled : switch.group ≠ 0) :
    .group switch.group ∈ Shared.issued ⟨(switch.advance (.take :: ops)).1,
      front ++ (switch.advance (.take :: ops)).2 :: back⟩ :=
  (issued_perm switch front back prompt).mem_iff.mpr (List.mem_append_right _ (by simp [apply, due, filled]))

/-- The thread that reports groups does its next operation. -/
theorem Met.report (met : Met stored rest alarmed switch (op :: ops) killers)
    (filled : 0 ∉ stored ++ rest) :
    ∃ later, op.stored ++ later = rest ∧
      Met (stored ++ op.stored) later (alarmed ++ switch.alarm (op :: ops))
        (switch.advance (op :: ops)).1 (switch.advance (op :: ops)).2 killers := by
  have accounted := Accounted.advance [] met.accounted
  have prompt : Prompt (op :: ops) := met.accounted.prompt _ (by simp)
  -- The groups of earlier reports were issued before, or are taken now.
  have earlier : ∀ group ∈ alarmed, .group group ∈ Shared.issued
      ⟨(switch.advance (op :: ops)).1, (switch.advance (op :: ops)).2 :: killers⟩ := by
    intro group alarm
    rcases met.heard group alarm with before | ⟨rfl, filled, next⟩
    · exact mem_issued_advance [] prompt before
    · obtain rfl : op = .take := Option.some.inj next
      exact mem_issued_take [] prompt filled
  cases met.reports with
  | @storing group rest =>
    refine ⟨rest, rfl, .checking (by simp [Op.stored]), met.kills, accounted,
      fun _ _ => .inl trivial, fun other alarm => .inl (earlier other ?_)⟩
    simpa [KillSwitch.alarm] using alarm
  | @checking group _ last =>
    refine ⟨rest, rfl, ?_⟩
    have nonzero : group ≠ 0 := by
      rintro rfl
      exact filled (List.mem_append_left _ (List.mem_of_getLast? last))
    simp only [Op.stored, List.append_nil] at accounted ⊢
    by_cases used : switch.used = true
    · have goes : switch.advance (.check group :: rest.flatMap track) =
          (switch, .take :: rest.flatMap track) := by simp [KillSwitch.advance, apply, used]
      rw [goes] at accounted earlier ⊢
      refine ⟨.taking, met.kills, accounted, fun _ _ => .inl trivial, fun other alarm => ?_⟩
      rcases List.mem_append.mp alarm with before | now
      · exact .inl (earlier other before)
      obtain rfl : other = group := by simpa [KillSwitch.alarm, used] using now
      exact (accounted.kept other last nonzero).symm.imp_right fun held => ⟨held, nonzero, rfl⟩
    · have goes : switch.advance (.check group :: rest.flatMap track) =
          (switch, rest.flatMap track) := by simp [KillSwitch.advance, apply, used]
      rw [goes] at accounted earlier ⊢
      refine ⟨.between rest, met.kills, accounted, fun marked => absurd marked used, fun other alarm =>
        .inl (earlier other ?_)⟩
      simpa [KillSwitch.alarm, used] using alarm
  | taking =>
    refine ⟨rest, rfl, ?_, met.kills, accounted, fun _ filled => absurd rfl filled,
      fun other alarm => .inl (earlier other (by simpa [KillSwitch.alarm] using alarm))⟩
    by_cases empty : switch.group = 0
    · simpa [KillSwitch.advance, apply, empty] using Reporter.between rest
    · simpa [KillSwitch.advance, apply, empty] using Reporter.sending
  | sending =>
    refine ⟨rest, rfl, .between rest, met.kills, accounted,
      fun used filled => .inr ?_,
      fun other alarm => .inl (earlier other (by simpa [KillSwitch.alarm] using alarm))⟩
    exact (met.sought used filled).resolve_left id

/-- The group of a report stays issued or in the switch when another thread does an operation, unless
that operation takes it. -/
theorem Met.heard_use (met : Met stored rest alarmed switch reporter (front ++ (op :: ops) :: back))
    (moved : op = .take ∨ (switch.advance (op :: ops)).1.group = switch.group) :
    ∀ group ∈ alarmed,
      .group group ∈ Shared.issued ⟨(switch.advance (op :: ops)).1,
        reporter :: front ++ (switch.advance (op :: ops)).2 :: back⟩ ∨
      (switch.advance (op :: ops)).1.group = group ∧ group ≠ 0 ∧ reporter.head? = some .take := by
  have prompt : Prompt (op :: ops) := met.accounted.prompt _ (by simp)
  intro group alarm
  rcases met.heard group alarm with before | ⟨rfl, filled, next⟩
  · exact .inl (mem_issued_advance (reporter :: front) prompt before)
  rcases moved with rfl | same
  · exact .inl (mem_issued_take (reporter :: front) prompt filled)
  · exact .inr ⟨same, filled, next⟩

/-- A thread that uses the switch does its next operation. -/
theorem Met.use (met : Met stored rest alarmed switch reporter (front ++ (op :: ops) :: back)) :
    switch.alarm (op :: ops) = [] ∧ Met stored rest alarmed (switch.advance (op :: ops)).1 reporter
      (front ++ (switch.advance (op :: ops)).2 :: back) := by
  have accounted := Accounted.advance (reporter :: front) met.accounted
  have within : ∀ other, other ∈ front ++ back → other ∈ front ++ (op :: ops) :: back := by
    intro other member
    rcases List.mem_append.mp member with member | member <;> simp [member]
  have kills : ∀ other, other ∈ front ++ back → Killer switch.used other := fun other member =>
    met.kills other (within other member)
  have sought : ∀ {left : List Op}, .take ∈ left → switch.used = true → switch.group ≠ 0 →
      Looks reporter ∨ ∀ other ∈ front ++ left :: back, .take ∈ other := fun mine used filled =>
    (met.sought used filled).imp_right fun takes =>
      forall_replaced mine fun other member => takes other (within other member)
  cases met.kills (op :: ops) (by simp) with
  | marking =>
    simp only [Op.stored, List.append_nil] at accounted
    have mine : .take ∈ (switch.advance (.mark :: [.take])).2 := by
      simp [KillSwitch.advance]
    refine ⟨rfl, met.reports, forall_replaced ?_ fun other member => (kills other member).mark,
      accounted, fun _ filled => ?_, met.heard_use (.inr rfl)⟩
    · by_cases used : switch.used = true
      · simpa [KillSwitch.advance, apply, used] using Killer.taking rfl
      · simpa [KillSwitch.advance, apply, used] using Killer.signalling rfl
    · by_cases used : switch.used = true
      · exact sought mine used filled
      · exact .inr (forall_replaced mine fun other member => (kills other member).takes used)
  | signalling marked =>
    simp only [Op.stored, List.append_nil] at accounted
    exact ⟨rfl, met.reports, forall_replaced (.taking marked) kills, accounted,
      sought (List.mem_singleton.mpr rfl), met.heard_use (.inr rfl)⟩
  | taking marked =>
    simp only [Op.stored, List.append_nil] at accounted
    refine ⟨rfl, met.reports, forall_replaced ?_ kills, accounted, fun _ filled => absurd rfl filled,
      met.heard_use (.inl rfl)⟩
    by_cases empty : switch.group = 0
    · simpa [KillSwitch.advance, apply, empty] using Killer.done marked
    · simpa [KillSwitch.advance, apply, empty] using Killer.sending marked
  | @sending group marked =>
    simp only [Op.stored, List.append_nil] at accounted
    refine ⟨rfl, met.reports, forall_replaced (.done marked) kills, accounted, fun used filled => ?_,
      met.heard_use (.inr rfl)⟩
    -- A thread that is about to signal a group has taken it, so that the report looks for the other one.
    refine (met.sought used filled).imp_right fun takes => ?_
    have taken : Op.take ∈ [Op.send (.group group)] := takes _ (by simp)
    simp at taken

/-- Once a use and all reports are done, the signal to the worker was issued exactly once, and signals to
the group of the last report and to those of all reports that saw the switch used. -/
theorem Met.issued_of_done (met : Met stored rest alarmed switch [] killers) (filled : 0 ∉ stored ++ rest)
    (used : [] ∈ killers) :
    (Shared.issued ⟨switch, [] :: killers⟩).count .worker = 1 ∧
      ∀ group, (stored ++ rest).getLast? = some group ∨ group ∈ alarmed →
        .group group ∈ Shared.issued ⟨switch, [] :: killers⟩ := by
  have marked : switch.used = true := by
    cases met.kills [] used with
    | done marked => exact marked
  -- Nobody is left to look for a group, so that there is none.
  have empty : switch.group = 0 := by
    by_contra held
    rcases met.sought marked held with looks | takes
    · exact looks
    · exact List.not_mem_nil (takes [] used)
  obtain rfl : rest = [] := by
    cases met.reports
    rfl
  refine ⟨by rw [met.accounted.worker, marked]; rfl, fun group sought => ?_⟩
  rcases sought with last | alarm
  · rw [List.append_nil] at last filled
    have nonzero : group ≠ 0 := by
      rintro rfl
      exact filled (List.mem_of_getLast? last)
    rcases met.accounted.kept group last nonzero with held | issued
    · exact absurd (held.symm.trans empty) nonzero
    · exact issued
  · rcases met.heard group alarm with issued | ⟨held, nonzero, -⟩
    · exact issued
    · exact absurd (held.symm.trans empty) nonzero

end Meeting

/-! ## Any order -/

namespace Shared

variable {groups alarmed : List UInt32} {shared next : Shared} {thread : Nat}

/-- What was issued was sent while no use is under way: a thread that is done, or has not begun, is not
about to send anything. -/
theorem issued_of_settled {switch : KillSwitch} {threads : List (List Op)}
    (settled : ∀ ops ∈ threads, ops = [] ∨ ops = kill) :
    issued ⟨switch, threads⟩ = switch.signals := by
  have quiet : threads.flatMap due = [] := by
    apply List.flatMap_eq_nil_iff.mpr
    intro ops member
    rcases settled ops member with rfl | rfl <;> rfl
  rw [issued, quiet, List.append_nil]

/-- A switch that one thread reports the groups to, in order, while the others use it. -/
def Meets (groups alarmed : List UInt32) (shared : Shared) : Prop :=
  ∃ stored rest reporter killers, stored ++ rest = groups ∧ shared.threads = reporter :: killers ∧
    Met stored rest alarmed shared.switch reporter killers

theorem meets_start (groups : List UInt32) (kills : Nat) : Meets groups [] (start groups kills) := by
  have killers : ∀ ops ∈ List.replicate kills kill, ops = kill :=
    fun ops member => List.eq_of_mem_replicate member
  have silent : ∀ ops ∈ (start groups kills).threads, ∀ signal, .send signal ∉ ops := by
    refine List.forall_mem_cons.mpr ⟨fun signal => by simp [track], fun ops member signal => ?_⟩
    simp [killers ops member, kill]
  refine ⟨[], groups, groups.flatMap track, List.replicate kills kill, rfl, rfl, .between groups,
    fun ops member => ?_, .fresh silent, fun used => ?_, fun group alarm => ?_⟩
  · rw [killers ops member]
    exact .marking
  · cases used
  · cases alarm

/-- Every operation keeps it so, whichever thread does it. -/
theorem Meets.step (meets : Meets groups alarmed shared) (filled : 0 ∉ groups)
    (moved : shared.step thread = some next) :
    Meets groups (alarmed ++ shared.switch.alarm (shared.threads.getD thread [])) next := by
  obtain ⟨front, op, ops, back, split, rfl, rfl⟩ := split_of_step moved
  have moving : shared.threads.getD front.length [] = op :: ops := by simp [split]
  obtain ⟨stored, rest, reporter, killers, rfl, threads, met⟩ := meets
  rw [moving]
  rw [split] at threads
  cases front with
  | nil =>
    obtain ⟨rfl, rfl⟩ := List.cons.inj threads
    obtain ⟨later, rfl, reported⟩ := met.report filled
    exact ⟨stored ++ op.stored, later, _, back, List.append_assoc .., rfl, reported⟩
  | cons first front =>
    obtain ⟨rfl, rfl⟩ := List.cons.inj threads
    obtain ⟨calm, met⟩ := met.use
    rw [calm, List.append_nil]
    exact ⟨stored, rest, first, _, rfl, rfl, met⟩

/-- All operations keep it so, in any order. -/
theorem Meets.run (filled : 0 ∉ groups) {last : Shared} : ∀ {order : List Nat} {alarmed : List UInt32}
    {shared : Shared}, Meets groups alarmed shared → shared.run order = some last →
      Meets groups (alarmed ++ shared.alarms order) last
  | [], alarmed, shared, meets, ran => by
    obtain rfl : shared = last := Option.some.inj ran
    simpa [alarms] using meets
  | thread :: order, alarmed, shared, meets, ran => by
    obtain ⟨next, moved, ran⟩ := Option.bind_eq_some_iff.mp ran
    have met := (meets.step filled moved).run filled ran
    rw [List.append_assoc] at met
    rwa [alarms, moved]

/-- Uses and reports of a switch never miss each other, in whatever order their operations are done.
Each report leads to at most one signal, and none is sent to the group of the caller, which a call for
group zero would reach. Once all reports and at least one use are done and no other use is under way, the
signal to the worker was sent exactly once, and the group of the last report was reached, like those of
all reports that saw the switch used, if `kill` can name it. -/
theorem kills_meet_reports (groups : List UInt32) (kills : Nat) (order : List Nat) (shared : Shared)
    (filled : 0 ∉ groups) (ran : (start groups kills).run order = some shared) :
    shared.switch.reached.Subperm (groups.map Target.ofReport) ∧
      .ownGroup ∉ shared.switch.reached ∧
      (shared.threads.head? = some [] → [] ∈ shared.threads.tail →
        (∀ ops ∈ shared.threads.tail, ops = [] ∨ ops = kill) →
        shared.switch.signals.count .worker = 1 ∧
        ∀ group, groups.getLast? = some group ∨ group ∈ (start groups kills).alarms order →
          1 < group → group < 0x80000000 → .group group ∈ shared.switch.reached) := by
  obtain ⟨stored, rest, reporter, killers, rfl, threads, met⟩ := (meets_start groups kills).run filled ran
  obtain ⟨switch, all⟩ := shared
  obtain rfl : all = reporter :: killers := threads
  have reached : switch.reached.Subperm ((stored ++ rest).map Target.ofReport) := met.accounted.reached
  refine ⟨reached, fun own => ?_, fun reported used settled => ?_⟩
  · obtain ⟨id, member, reaches⟩ := List.mem_map.mp (reached.subset own)
    have zero : id = 0 := Target.eq_zero_of_ofReport reaches
    exact filled (zero ▸ member)
  · obtain rfl : reporter = [] := Option.some.inj reported
    have sent : issued ⟨switch, [] :: killers⟩ = switch.signals :=
      issued_of_settled (List.forall_mem_cons.mpr ⟨.inl rfl, settled⟩)
    obtain ⟨worker, groups⟩ := met.issued_of_done filled used
    rw [sent] at worker groups
    refine ⟨worker, fun group sought large small => ?_⟩
    exact mem_reached (groups group sought) large small

/-- One use marks the switch while group 7 is reported, another takes the group, and only then does the
first go on to signal the worker. The check of group 8 sees that the switch was used. -/
theorem kills_meet_reports_race :
    (start [7, 8] 3).run [0, 1, 0, 2, 2, 2, 0, 0, 0, 0, 0, 1, 1] =
        some ⟨⟨true, 0, [.group 7, .group 8, .worker]⟩, [[], [], [], kill]⟩ ∧
      (start [7, 8] 3).alarms [0, 1, 0, 2, 2, 2, 0, 0, 0, 0, 0, 1, 1] = [7, 8] ∧
      [Signal.group 7, .group 8, .worker].count .worker = 1 ∧
      Target.group 7 ∈ reached ⟨true, 0, [.group 7, .group 8, .worker]⟩ ∧
      Target.group 8 ∈ reached ⟨true, 0, [.group 7, .group 8, .worker]⟩ := by
  have ran : (start [7, 8] 3).run [0, 1, 0, 2, 2, 2, 0, 0, 0, 0, 0, 1, 1] =
      some ⟨⟨true, 0, [.group 7, .group 8, .worker]⟩, [[], [], [], kill]⟩ := by decide
  have seen : (start [7, 8] 3).alarms [0, 1, 0, 2, 2, 2, 0, 0, 0, 0, 0, 1, 1] = [7, 8] := by decide
  obtain ⟨-, -, ended⟩ := kills_meet_reports [7, 8] 3 _ _ (by decide) ran
  obtain ⟨worker, groups⟩ := ended rfl (by simp) (by simp)
  refine ⟨ran, seen, worker, groups 7 (.inr ?_) (by decide) (by decide),
    groups 8 (.inl rfl) (by decide) (by decide)⟩
  rw [seen]
  exact List.mem_cons_self

/-- A use that is not the first may return before the worker is signalled by the one that was. The call
for a group of 2^31 or more reaches a single process in its place, and the call for group one reaches
every process. -/
theorem use_returns_unsignalled :
    (start [] 2).run [1, 2, 2] = some ⟨⟨true, 0, []⟩, [[], [.send .worker, .take], []]⟩ ∧
      ((start [3000000000] 1).run [0, 0, 1, 1, 1, 1]).map
          (fun last => (last.threads, last.switch.reached)) =
        some ([[], []], [.process 1294967296]) ∧
      ((start [1] 1).run [0, 0, 1, 1, 1, 1]).map (fun last => (last.threads, last.switch.reached)) =
        some ([[], []], [.everyone]) := by
  decide

end Shared

end KillSwitch

end PageBuild.Worker
