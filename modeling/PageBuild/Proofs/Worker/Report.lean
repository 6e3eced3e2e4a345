import PageBuild.Proofs.Worker.KillSwitch
import PageBuild.Proofs.Worker.Thread

/-!
# Bundlers that a worker reports

A launch hears of the bundlers of its worker by their process groups. It notes each of them in the
kill switch, which only the time that runs out uses: a launch that ends in any other way signals no
group, and one that runs out of time signals the group it heard of last
(`Launch.last_group_signalled`). All runs of a launch keep `Launch.Watched`.
-/
namespace PageBuild.Worker.Launch

open KillSwitch (Formed Guarded Op)

/-! ## What a launch hears -/

/-- The groups of bundlers that a launch hears of with a move. -/
def heard (launch : Launch) : Move → List UInt32
  | .thread =>
    match launch.pending, launch.stage, launch.handle with
    | [], .reading, some handle =>
      match handle.receive.1 with
      | .response (.bundling group) => [group]
      | _ => []
    | _, _, _ => []
  | _ => []

/-- A launch hears only by its thread. -/
theorem heard_of_ne {launch : Launch} {move : Move} (other : move ≠ .thread) : launch.heard move = [] := by
  cases move <;> first | rfl | exact absurd rfl other

/-- The groups of bundlers that a launch hears of with a sequence of moves, in order. -/
def heardOf (launch : Launch) : List Move → List UInt32
  | [] => []
  | move :: moves =>
    launch.heard move ++
      match launch.step move with
      | some next => next.heardOf moves
      | none => []

/-! ## The invariant -/

/-- The groups that operations store, in order. -/
def storedBy (ops : List Op) : List UInt32 := ops.flatMap Op.stored

/-- Whether a launch that heard of some groups looks after them: each is stored or about to be
stored, and the switch is used as soon as the time runs out, but not before. -/
structure Watched (groups : List UInt32) (launch : Launch) : Prop where
  /-- All groups but those that the thread is about to store are in the care of the switch. -/
  guarded : ∃ stored, groups = stored ++ storedBy launch.pending ∧
    Guarded stored launch.switch [launch.pending, launch.timer]
  /-- The timer reports nothing. -/
  timer : storedBy launch.timer = []
  /-- While there is time the thread does nothing but report. -/
  early : launch.hasExpired = false → launch.timer = [] ∧ launch.switch.used = false ∧
    launch.switch.signals = [] ∧ ∀ op ∈ launch.pending, ∃ group, op = .store group ∨ op = .check group
  /-- Once the time has run out, a switch that was handed over is used or about to be used. -/
  late : launch.hasExpired = true → launch.isRecorded = true →
    launch.switch.used = true ∨ .mark ∈ launch.pending ∨ .mark ∈ launch.timer
  /-- The thread uses the switch only at two stages. -/
  busy : launch.pending ≠ [] → launch.stage = .sending ∨ launch.stage = .reading
  /-- By then it has handed the switch over. -/
  recorded : launch.stage = .sending ∨ launch.stage = .reading → launch.isRecorded = true
  /-- It hears of groups only after that. -/
  silent : launch.isRecorded = false → groups = []
  /-- The outcome comes when the thread is done and the timer has nothing left to do. -/
  concluded : launch.outcome ≠ none → launch.timer = [] ∧ ∃ outcome, launch.stage = .done outcome

/-- What an operation stores is no longer to be stored. -/
theorem stored_append_storedBy (switch : KillSwitch) (op : Op) (ops : List Op) :
    op.stored ++ storedBy (switch.advance (op :: ops)).2 = storedBy (op :: ops) := by
  have more : storedBy (switch.apply op).2 = [] := by
    cases op <;> simp only [KillSwitch.apply] <;> first | rfl | (split <;> rfl)
  have left : (switch.advance (op :: ops)).2 = (switch.apply op).2 ++ ops := rfl
  rw [left, storedBy, List.flatMap_append, ← storedBy, more, List.nil_append]
  rfl

/-- A switch that is about to be used is used by the operation that does it. -/
theorem used_or_mark_mem {switch : KillSwitch} {op : Op} {ops : List Op}
    (uses : switch.used = true ∨ .mark ∈ op :: ops) :
    (switch.advance (op :: ops)).1.used = true ∨ .mark ∈ (switch.advance (op :: ops)).2 := by
  have left : (switch.advance (op :: ops)).2 = (switch.apply op).2 ++ ops := rfl
  rw [left, List.mem_append]
  rcases uses with used | uses
  · left
    cases op <;> first | exact used | rfl
  · rcases List.mem_cons.mp uses with rfl | later
    · exact .inl rfl
    · exact .inr (.inr later)

namespace Watched

variable {groups : List UInt32} {launch next : Launch} {move : Move}

/-- A launch that is about to begin has heard of nothing. -/
theorem begin {path : Path} {limit : Option Duration} {request : BuildRequest} :
    Watched [] (ofRequest path limit request) where
  guarded := ⟨[], rfl, .fresh (by simp [ofRequest])⟩
  timer := rfl
  early _ := ⟨rfl, rfl, rfl, by simp [ofRequest]⟩
  late expired := by cases expired
  busy pending := absurd rfl pending
  recorded stage := by rcases stage with stage | stage <;> cases stage
  silent _ := rfl
  concluded outcome := absurd rfl outcome

/-- The handle, the stage and what happens outside do not matter while the thread has nothing to do
with the switch. -/
theorem move_on (watched : Watched groups launch) (idle : launch.pending = [])
    (running : ∀ outcome, launch.stage ≠ .done outcome) {handle : Option Handle} {stage : Stage}
    (recorded : stage = .sending ∨ stage = .reading → launch.isRecorded = true) :
    Watched groups { launch with handle, stage } where
  guarded := watched.guarded
  timer := watched.timer
  early := watched.early
  late := watched.late
  busy pending := absurd idle pending
  recorded := recorded
  silent := watched.silent
  concluded ended := by
    obtain ⟨-, outcome, stage⟩ := watched.concluded ended
    exact absurd stage (running outcome)

/-- What the worker does and what happens outside does not matter. -/
theorem outside (watched : Watched groups launch) {handle : Option Handle} {events : List Event} :
    Watched groups { launch with handle, events } where
  guarded := watched.guarded
  timer := watched.timer
  early := watched.early
  late := watched.late
  busy := watched.busy
  recorded := watched.recorded
  silent := watched.silent
  concluded := watched.concluded

/-- The thread takes its next step with the switch. -/
theorem thread_uses {op : Op} {ops : List Op} (watched : Watched groups launch)
    (pending : launch.pending = op :: ops) {handle : Option Handle} :
    Watched groups
      { launch with
        handle
        switch := (launch.switch.advance (op :: ops)).1
        pending := (launch.switch.advance (op :: ops)).2 } where
  guarded := by
    obtain ⟨stored, rfl, guarded⟩ := watched.guarded
    rw [pending] at guarded ⊢
    refine ⟨stored ++ op.stored, ?_, guarded.advance⟩
    rw [List.append_assoc, stored_append_storedBy]
  timer := watched.timer
  early unexpired := by
    obtain ⟨timer, unused, signals, reports⟩ := watched.early unexpired
    rw [pending, List.forall_mem_cons] at reports
    obtain ⟨⟨group, rfl | rfl⟩, reports⟩ := reports
    · exact ⟨timer, unused, signals, reports⟩
    · refine ⟨timer, unused, signals, ?_⟩
      simpa [KillSwitch.advance, KillSwitch.apply, unused] using reports
  late expired handed := by
    have uses := watched.late expired handed
    rw [pending, ← or_assoc] at uses
    rw [← or_assoc]
    exact uses.imp_left used_or_mark_mem
  busy _ := watched.busy (by simp [pending])
  recorded := watched.recorded
  silent := watched.silent
  concluded := watched.concluded

/-- The timer takes its next step with the switch. -/
theorem timer_uses {op : Op} {ops : List Op} (watched : Watched groups launch)
    (timer : launch.timer = op :: ops) {handle : Option Handle} :
    Watched groups
      { launch with
        handle
        switch := (launch.switch.advance (op :: ops)).1
        timer := (launch.switch.advance (op :: ops)).2 } where
  guarded := by
    obtain ⟨stored, rfl, guarded⟩ := watched.guarded
    have nothing := watched.timer
    rw [timer, ← stored_append_storedBy launch.switch, List.append_eq_nil_iff] at nothing
    rw [timer] at guarded
    have advanced := (guarded.perm (.swap _ _ _)).advance
    rw [nothing.1, List.append_nil] at advanced
    exact ⟨stored, rfl, advanced.perm (.swap _ _ _)⟩
  timer := by
    have nothing := watched.timer
    rw [timer, ← stored_append_storedBy launch.switch, List.append_eq_nil_iff] at nothing
    exact nothing.2
  early unexpired := by
    have idle := (watched.early unexpired).1
    rw [timer] at idle
    cases idle
  late expired handed := by
    have uses := watched.late expired handed
    rw [timer, or_left_comm] at uses
    rw [or_left_comm]
    exact uses.imp_right used_or_mark_mem
  busy := watched.busy
  recorded := watched.recorded
  silent := watched.silent
  concluded ended := by
    have idle := (watched.concluded ended).1
    rw [timer] at idle
    cases idle

/-- The thread hands over the switch, and uses it if the time has run out already. -/
theorem record (watched : Watched groups launch) (idle : launch.pending = [])
    (stage : launch.stage = .recording) : Watched groups launch.record where
  guarded := by
    obtain ⟨stored, rfl, guarded⟩ := watched.guarded
    rw [idle] at guarded ⊢
    cases expired : launch.hasExpired with
    | false => exact ⟨stored, by simp [Launch.record, expired], by simpa [Launch.record, expired]⟩
    | true =>
      have resumed : Guarded stored launch.switch [KillSwitch.kill, launch.timer] :=
        guarded.resume ⟨rfl, trivial⟩ (by simp [KillSwitch.kill])
      refine ⟨stored, by simp [Launch.record, expired, storedBy, KillSwitch.kill, Op.stored], ?_⟩
      simpa [Launch.record, expired] using resumed
  timer := watched.timer
  early unexpired := by
    obtain ⟨timer, unused, signals, -⟩ := watched.early unexpired
    refine ⟨timer, unused, signals, ?_⟩
    change launch.hasExpired = false at unexpired
    simp [Launch.record, unexpired]
  late expired _ := by
    change launch.hasExpired = true at expired
    simp [Launch.record, expired, KillSwitch.kill]
  busy _ := .inl rfl
  recorded _ := rfl
  silent handed := by cases handed
  concluded ended := by
    obtain ⟨-, outcome, done⟩ := watched.concluded ended
    rw [stage] at done
    cases done

/-- The thread hears of a group and is about to note it. -/
theorem track (watched : Watched groups launch) (idle : launch.pending = [])
    (stage : launch.stage = .reading) {handle : Option Handle} (group : UInt32) :
    Watched (groups ++ [group]) { launch with handle, pending := KillSwitch.track group } where
  guarded := by
    obtain ⟨stored, rfl, guarded⟩ := watched.guarded
    rw [idle] at guarded ⊢
    refine ⟨stored, by simp [storedBy, KillSwitch.track, Op.stored], ?_⟩
    exact guarded.resume ⟨rfl, trivial⟩ (by simp [KillSwitch.track])
  timer := watched.timer
  early unexpired := by
    obtain ⟨timer, unused, signals, -⟩ := watched.early unexpired
    exact ⟨timer, unused, signals, by simp [KillSwitch.track]⟩
  late expired handed := by
    have uses := watched.late expired handed
    rw [idle] at uses
    exact uses.imp_right fun marks => .inr (by simpa using marks)
  busy _ := .inr stage
  recorded := watched.recorded
  silent handed := by
    rw [watched.recorded (.inr stage)] at handed
    cases handed
  concluded ended := by
    obtain ⟨-, outcome, done⟩ := watched.concluded ended
    rw [stage] at done
    cases done

/-- The time runs out. -/
theorem expire (watched : Watched groups launch) (moved : launch.expire = some next) :
    Watched groups next := by
  rw [Launch.expire] at moved
  split at moved
  · rename_i open_
    cases moved
    simp only [Bool.and_eq_true, Bool.not_eq_eq_eq_not, Bool.not_true, Option.isNone_iff_eq_none]
      at open_
    obtain ⟨⟨-, unexpired⟩, running⟩ := open_
    obtain ⟨timer, -, -, -⟩ := watched.early unexpired
    exact {
      guarded := by
        obtain ⟨stored, rfl, guarded⟩ := watched.guarded
        rw [timer] at guarded
        refine ⟨stored, rfl, ?_⟩
        cases handed : launch.isRecorded with
        | false => simpa [handed] using guarded
        | true =>
          have resumed : Guarded stored launch.switch [KillSwitch.kill, launch.pending] :=
            (guarded.perm (.swap _ _ _)).resume ⟨rfl, trivial⟩ (by simp [KillSwitch.kill])
          simpa [handed] using resumed.perm (.swap _ _ _)
      timer := by split <;> rfl
      early := fun expired => by cases expired
      late := fun _ handed => .inr (.inr (by simp_all [KillSwitch.kill]))
      busy := watched.busy
      recorded := watched.recorded
      silent := watched.silent
      concluded := fun ended => by
        obtain ⟨-, outcome, done⟩ := watched.concluded ended
        simp [threadOutcome?, done] at running }
  · cases moved

/-- The launch comes to its outcome. -/
theorem join (watched : Watched groups launch) (moved : launch.join = some next) :
    Watched groups next := by
  rw [Launch.join] at moved
  split at moved
  · rename_i outcome _ idle done
    cases moved
    exact { watched with
      concluded := fun _ => by
        refine ⟨idle, outcome, ?_⟩
        rw [threadOutcome?] at done
        split at done
        · rename_i found stage
          cases done
          exact stage
        · cases done }
  · cases moved

/-- The thread takes a step. -/
theorem act (watched : Watched groups launch) (acts : Acts launch next) :
    Watched (groups ++ launch.heard .thread) next := by
  cases acts with
  | @use op ops pending =>
    have silent : launch.heard .thread = [] := by rw [heard, pending]
    rw [silent, List.append_nil, useSwitch_cons]
    exact watched.thread_uses pending
  | record idle stage =>
    have silent : launch.heard .thread = [] := by simp [heard, idle, stage]
    rw [silent, List.append_nil]
    exact watched.record idle stage
  | @track handle group idle has stage said =>
    have told : launch.heard .thread = [group] := by simp [heard, idle, stage, has, said]
    rw [told]
    exact watched.track idle stage group
  | @advance handle after stage idle has advances =>
    generalize was : launch.stage = before at advances
    have silent : launch.heard .thread = [] := by
      cases advances with
      | @close outcome response said closes =>
        cases response with
        | bundling group => cases closes
        | _ => simp [heard, idle, was, has, said]
      | lose lost => simp [heard, idle, was, has, lost]
      | _ => simp [heard, idle, was]
    have running : ∀ outcome, launch.stage ≠ .done outcome := fun outcome done => by
      rw [done] at was
      subst was
      cases advances
    have recorded : stage = .sending ∨ stage = .reading → launch.isRecorded = true := by
      rintro (rfl | rfl) <;> cases advances
      exact watched.recorded (.inl was)
    rw [silent, List.append_nil]
    exact watched.move_on idle running recorded

/-- The file of the worker is run, or cannot be. -/
theorem start {cause : Option IoCause} (watched : Watched groups launch)
    (moved : launch.step (.start cause) = some next) : Watched groups next := by
  rw [Launch.step] at moved
  split at moved
  · rename_i stage
    cases moved
    have idle : launch.pending = [] := by
      by_contra busy
      rcases watched.busy busy with other | other <;> rw [stage] at other <;> cases other
    have running : ∀ outcome, launch.stage ≠ .done outcome := fun outcome => by simp [stage]
    cases cause with
    | none => exact watched.move_on idle running (by simp)
    | some cause => exact watched.move_on idle running (by simp)
  · cases moved

/-- Every move of a launch keeps it watched. -/
theorem step (watched : Watched groups launch) (moved : launch.step move = some next) :
    Watched (groups ++ launch.heard move) next := by
  cases move with
  | thread =>
    exact watched.act (acts_of_threadStep moved)
  | timer =>
    rw [heard_of_ne (by simp), List.append_nil]
    obtain ⟨op, ops, timer, rfl⟩ := of_timerStep moved
    rw [useSwitch_cons]
    exact watched.timer_uses timer
  | start cause =>
    rw [heard_of_ne (by simp), List.append_nil]
    exact watched.start moved
  | expire =>
    rw [heard_of_ne (by simp), List.append_nil]
    exact watched.expire moved
  | join =>
    rw [heard_of_ne (by simp), List.append_nil]
    exact watched.join moved
  | worker doing =>
    rw [heard_of_ne (by simp), List.append_nil]
    change launch.workerStep doing = some next at moved
    obtain ⟨handle, -, moved⟩ := Option.bind_eq_some_iff.mp moved
    split at moved
    · obtain ⟨process, -, rfl⟩ := Option.map_eq_some_iff.mp moved
      exact watched.outside
    · cases moved
  | endGroup group =>
    rw [heard_of_ne (by simp), List.append_nil]
    cases moved
    exact watched.outside

/-- Every run of a launch keeps it watched. -/
theorem run {moves : List Move} (watched : Watched groups launch) (ran : launch.run moves = some next) :
    Watched (groups ++ launch.heardOf moves) next := by
  induction moves generalizing groups launch with
  | nil =>
    cases ran
    rw [heardOf, List.append_nil]
    exact watched
  | cons move moves ih =>
    rw [Launch.run] at ran
    obtain ⟨after, moved, ran⟩ := Option.bind_eq_some_iff.mp ran
    rw [heardOf, moved, ← List.append_assoc]
    exact ih (watched.step moved) ran

end Watched

/-! ## Launches that have come to an outcome -/

/-- A launch that came to its outcome has signalled only groups that it heard of. Unless its time ran
out it has signalled nothing at all, and if it did, the group that it heard of last. -/
theorem last_group_signalled (path : Path) (limit : Option Duration) (request : BuildRequest)
    (moves : List Move) (last : Launch)
    (ran : (ofRequest path limit request).run moves = some last) (concluded : last.outcome ≠ none) :
    (last.hasExpired = false → last.switch.signals = []) ∧
    (∀ group, .group group ∈ last.switch.signals →
      group ∈ (ofRequest path limit request).heardOf moves) ∧
    ∀ group, ((ofRequest path limit request).heardOf moves).getLast? = some group → group ≠ 0 →
      (.group group ∈ last.switch.signals ↔ last.hasExpired = true) := by
  have watched := Watched.begin.run ran
  rw [List.nil_append] at watched
  obtain ⟨timer, outcome, done⟩ := watched.concluded concluded
  have idle : last.pending = [] := by
    by_contra busy
    rcases watched.busy busy with other | other <;> rw [done] at other <;> cases other
  obtain ⟨stored, heard, guarded⟩ := watched.guarded
  rw [idle, timer] at guarded
  rw [idle, storedBy, List.flatMap_nil, List.append_nil] at heard
  have unused : last.hasExpired = false → last.switch.signals = [] := fun unexpired =>
    (watched.early unexpired).2.2.1
  refine ⟨unused, fun group signalled => heard ▸ (guarded.signals group signalled).1,
    fun group final filled => ⟨fun signalled => ?_, fun expired => ?_⟩⟩
  · by_contra unexpired
    rw [unused (by simpa using unexpired)] at signalled
    cases signalled
  · have handed : last.isRecorded = true := by
      by_contra kept
      rw [watched.silent (by simpa using kept)] at final
      cases final
    have used : last.switch.used = true := by
      simpa [idle, timer] using watched.late expired handed
    rw [heard] at final
    exact guarded.signalled_of_used (by simp) used final filled

/-! ### Sample runs -/

/-- A request. -/
def plainRequest : BuildRequest where
  schemaText := "\x7b\x7d"
  buildId := "b"
  template := "t"
  environment := "fat"
  isPreview := false
  publishTo := none
  stagingRoot := none
  buildCommand := "true"
  timeoutSeconds := none
  publicBaseUrl := none
  keyPrefix := "ls"
  uploadParallelism := 4

/-- A launch with a limit of one second. -/
def plainLaunch : Launch := ofRequest ⟨"loom-worker"⟩ (some (.ofSeconds 1)) plainRequest

/-- The worker is greeted, takes the job and reports a bundler, which is noted. -/
def reported : List Move :=
  [.start none, .thread, .worker .listen, .worker (.say .pong), .thread, .thread, .thread,
    .worker .listen, .worker (.say (.bundling 7)), .thread, .thread, .thread]

/-- The time runs out and the switch is used, before the worker is dismissed. -/
def expiredRun : List Move :=
  reported ++ [.expire, .timer, .timer, .worker .die, .timer, .timer, .thread, .thread, .thread,
    .thread, .thread, .join]

/-- The worker dies and is dismissed. -/
def crashedRun : List Move :=
  reported ++ [.worker (.exit (some 1)), .thread, .thread, .thread, .thread, .thread, .join]

/-- The worker sends a result and is dismissed. -/
def finishedRun : List Move :=
  reported ++ [.worker (.say (.finished (.ofBuild "b"))), .thread, .thread, .worker .listen,
    .worker (.exit (some 0)), .thread, .thread, .join]

/-- What a run came to, what happened outside, and the signals that were sent. -/
def summary (moves : List Move) : Option (Option Outcome × List Event × List Signal) :=
  (plainLaunch.run moves).map fun last => (last.outcome, last.events, last.switch.signals)

/-- The bundler of a worker that runs out of time is signalled. -/
theorem last_group_signalled_expired :
    ∃ last, plainLaunch.run expiredRun = some last ∧
      last.outcome = some (expired (.ofSeconds 1)) ∧ .group 7 ∈ last.switch.signals := by
  have ended : (plainLaunch.run expiredRun).map (fun last => (last.outcome, last.hasExpired)) =
      some (some (expired (.ofSeconds 1)), true) := by decide +kernel
  have heard : (plainLaunch.heardOf expiredRun).getLast? = some 7 := by decide +kernel
  obtain ⟨last, ran, same⟩ := Option.map_eq_some_iff.mp ended
  obtain ⟨outcome, expired⟩ := Prod.mk.inj same
  have concluded : last.outcome ≠ none := by rw [outcome]; simp
  have signalled := (last_group_signalled _ _ _ expiredRun last ran concluded).2.2 7 heard (by decide)
  exact ⟨last, ran, outcome, signalled.mpr expired⟩

/-- Neither the bundler of a worker that dies nor what a bundler leaves running in its group is
signalled: the launch comes to its outcome, and the group goes on. -/
theorem group_outlives_launch :
    summary crashedRun =
      some (some (.exited (some 1)), [.said .pong, .said (.bundling 7), .exited (some 1)], []) ∧
    summary finishedRun =
      some (some (.completed (.ofBuild "b")),
        [.said .pong, .said (.bundling 7), .said (.finished (.ofBuild "b")), .exited (some 0)],
        []) := by
  decide +kernel

end PageBuild.Worker.Launch
