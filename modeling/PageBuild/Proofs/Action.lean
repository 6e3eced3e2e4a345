import Mathlib.Order.Defs.Unbundled
import PageBuild.Build.Host

/-!
# Runs of actions

Actions on files and on hosts change a state and may fail. `Moves relation action` says that every
run of an action, whether it fails or not, takes a state to a related one. For a relation that is
reflexive and transitive it is enough that the parts of an action do so.
-/
namespace PageBuild.Action

variable {ε s α β : Type}

/-! ## Runs -/

/-- The run of an action followed by another. -/
theorem run_bind (action : ExceptT ε (StateM s) α) (next : α → ExceptT ε (StateM s) β) (state : s) :
    (action >>= next).run state =
      match action.run state with
      | (.ok value, state) => (next value).run state
      | (.error failure, state) => (.error failure, state) := by
  change (ExceptT.bindCont next (action.run state).1).run (action.run state).2 = _
  obtain ⟨result, after⟩ := action.run state
  cases result <;> rfl

/-- A run that goes on after an action worked out. -/
theorem run_bind_of_ok {action : ExceptT ε (StateM s) α} {next : α → ExceptT ε (StateM s) β}
    {state after : s} {value : α} (ran : action.run state = (.ok value, after)) :
    (action >>= next).run state = (next value).run after := by
  rw [run_bind, ran]

/-- An action followed by another works out only if both do. -/
theorem of_run_bind_ok {action : ExceptT ε (StateM s) α} {next : α → ExceptT ε (StateM s) β}
    {state last : s} {value : β} (ran : (action >>= next).run state = (.ok value, last)) :
    ∃ middle after, action.run state = (.ok middle, after) ∧
      (next middle).run after = (.ok value, last) := by
  rw [run_bind] at ran
  split at ran
  · rename_i middle after first
    exact ⟨middle, after, first, ran⟩
  · cases ran

/-- An action followed by another fails where one of them does. -/
theorem of_run_bind_error {action : ExceptT ε (StateM s) α} {next : α → ExceptT ε (StateM s) β}
    {state last : s} {failure : ε} (ran : (action >>= next).run state = (.error failure, last)) :
    action.run state = (.error failure, last) ∨
      ∃ middle after, action.run state = (.ok middle, after) ∧
        (next middle).run after = (.error failure, last) := by
  rw [run_bind] at ran
  split at ran
  · rename_i middle after first
    exact .inr ⟨middle, after, first, ran⟩
  · rename_i found after first
    cases ran
    exact .inl first

/-- The run of an action that depends on the state. -/
theorem run_get_bind (next : s → ExceptT ε (StateM s) α) (state : s) :
    (get >>= next).run state = (next state).run state := rfl

/-! ## Moves -/

/-- Every run of an action takes a state to a related one. -/
def Moves (relation : s → s → Prop) (action : ExceptT ε (StateM s) α) : Prop :=
  ∀ state, relation state (action.run state).2

variable {relation : s → s → Prop}

/-- An action that does nothing moves nowhere. -/
theorem moves_pure [Std.Refl relation] (value : α) :
    Moves relation (pure value : ExceptT ε (StateM s) α) :=
  fun state => refl_of relation state

/-- An action that fails at once moves nowhere. -/
theorem moves_throw [Std.Refl relation] (failure : ε) :
    Moves relation (throw failure : ExceptT ε (StateM s) α) :=
  fun state => refl_of relation state

/-- What follows a run goes on from where it ended. -/
theorem related_bind [IsTrans s relation] {action : ExceptT ε (StateM s) α}
    {next : α → ExceptT ε (StateM s) β} {state : s} (first : relation state (action.run state).2)
    (second : ∀ value after, action.run state = (.ok value, after) →
      relation after ((next value).run after).2) :
    relation state ((action >>= next).run state).2 := by
  rw [run_bind]
  split
  · rename_i value after ran
    rw [ran] at first
    exact trans_of relation first (second value after ran)
  · rename_i failure after ran
    rw [ran] at first
    exact first

/-- An action moves as its parts do; what comes second may rely on how the first one ended. -/
theorem Moves.bind_of [IsTrans s relation] {action : ExceptT ε (StateM s) α}
    {next : α → ExceptT ε (StateM s) β} (first : Moves relation action)
    (second : ∀ state value after, action.run state = (.ok value, after) →
      relation after ((next value).run after).2) :
    Moves relation (action >>= next) :=
  fun state => related_bind (first state) (second state)

/-- An action moves as its parts do. -/
theorem Moves.bind [IsTrans s relation] {action : ExceptT ε (StateM s) α}
    {next : α → ExceptT ε (StateM s) β} (first : Moves relation action)
    (second : ∀ value, Moves relation (next value)) : Moves relation (action >>= next) :=
  first.bind_of fun _ value after _ => second value after

/-- An action moves as its parts do, by relations that join into another. -/
theorem Moves.join {first second joined : s → s → Prop} {action : ExceptT ε (StateM s) α}
    {next : α → ExceptT ε (StateM s) β} (moves : Moves first action)
    (onward : ∀ value, Moves second (next value))
    (alone : ∀ {before after}, first before after → joined before after)
    (both : ∀ {before middle after}, first before middle → second middle after → joined before after) :
    Moves joined (action >>= next) := by
  intro state
  have moved := moves state
  rw [run_bind]
  split
  · rename_i value after ran
    rw [ran] at moved
    exact both moved (onward value after)
  · rename_i failure after ran
    rw [ran] at moved
    exact alone moved

/-- What follows an action moves on from where the action ended. -/
theorem related_run_bind [Std.Refl relation] {action : ExceptT ε (StateM s) α}
    {next : α → ExceptT ε (StateM s) β} (onward : ∀ value, Moves relation (next value)) (state : s) :
    relation (action.run state).2 ((action >>= next).run state).2 := by
  rw [run_bind]
  split
  · rename_i value after ran
    rw [ran]
    exact onward value after
  · rename_i failure after ran
    rw [ran]
    exact refl_of relation after

/-- An action that depends on the state moves as it does for each state. -/
theorem moves_get_bind {next : s → ExceptT ε (StateM s) α}
    (moved : ∀ state, relation state ((next state).run state).2) : Moves relation (get >>= next) :=
  fun state => moved state

/-- Steps over a list move as each of them does. -/
theorem moves_foldlM [IsPreorder s relation] {step : β → α → ExceptT ε (StateM s) β}
    {items : List α} (steps : ∀ item ∈ items, ∀ value, Moves relation (step value item))
    (value : β) : Moves relation (items.foldlM step value) := by
  induction items generalizing value with
  | nil => exact moves_pure value
  | cons item items ih =>
    rw [List.foldlM_cons]
    exact (steps item List.mem_cons_self value).bind
      fun next => ih (fun item member => steps item (List.mem_cons_of_mem _ member)) next

/-- Steps over a list that keep their outputs move as each of them does. -/
theorem moves_mapM [IsPreorder s relation] {step : α → ExceptT ε (StateM s) β} {items : List α}
    (steps : ∀ item ∈ items, Moves relation (step item)) : Moves relation (items.mapM step) := by
  induction items with
  | nil => exact moves_pure []
  | cons item items ih =>
    rw [List.mapM_cons]
    exact (steps item List.mem_cons_self).bind fun _ =>
      (ih fun item member => steps item (List.mem_cons_of_mem _ member)).bind fun _ => moves_pure _

/-! ## Runs over lists -/

/-- What steps keep as they go over a list holds of the whole list when all of them work out. -/
theorem of_run_foldlM_ok {step : β → α → ExceptT ε (StateM s) β} {items : List α}
    {invariant : List α → β → s → Prop}
    (kept : ∀ done item rest, items = done ++ item :: rest → ∀ value state next after,
      invariant done value state → (step value item).run state = (.ok next, after) →
        invariant (done ++ [item]) next after)
    {value last : β} {state after : s} (start : invariant [] value state)
    (ran : (items.foldlM step value).run state = (.ok last, after)) :
    invariant items last after := by
  suffices rested : ∀ rest done value state, items = done ++ rest → invariant done value state →
      (rest.foldlM step value).run state = (.ok last, after) → invariant items last after from
    rested items [] value state rfl start ran
  intro rest
  induction rest with
  | nil =>
    intro done value state whole holds ran
    cases ran
    rwa [whole, List.append_nil]
  | cons item rest ih =>
    intro done value state whole holds ran
    rw [List.foldlM_cons] at ran
    obtain ⟨next, middle, stepped, ran⟩ := of_run_bind_ok ran
    exact ih (done ++ [item]) next middle (by rw [whole, List.append_assoc, List.singleton_append])
      (kept done item rest whole value state next middle holds stepped) ran

/-- What steps keep as they go over a list holds of the whole list and of all outputs when all of
them work out. -/
theorem of_run_mapM_ok {step : α → ExceptT ε (StateM s) β} {items : List α}
    {invariant : List α → List β → s → Prop}
    (kept : ∀ done item rest, items = done ++ item :: rest → ∀ outputs state output after,
      invariant done outputs state → (step item).run state = (.ok output, after) →
        invariant (done ++ [item]) (outputs ++ [output]) after)
    {outputs : List β} {state after : s} (start : invariant [] [] state)
    (ran : (items.mapM step).run state = (.ok outputs, after)) :
    invariant items outputs after := by
  suffices rested : ∀ rest done before more state, items = done ++ rest →
      invariant done before state → (rest.mapM step).run state = (.ok more, after) →
        invariant items (before ++ more) after from
    rested items [] [] outputs state rfl start ran
  intro rest
  induction rest with
  | nil =>
    intro done before more state whole holds ran
    cases ran
    simpa [whole] using holds
  | cons item rest ih =>
    intro done before more state whole holds ran
    rw [List.mapM_cons] at ran
    obtain ⟨output, middle, stepped, ran⟩ := of_run_bind_ok ran
    obtain ⟨others, last, ran, ended⟩ := of_run_bind_ok ran
    cases ended
    have holds := kept done item rest whole before state output middle holds stepped
    simpa using ih (done ++ [item]) (before ++ [output]) others middle
      (by rw [whole, List.append_assoc, List.singleton_append]) holds ran

/-- Steps over a list that fail do so at one item, up to which they keep what they keep. -/
theorem of_run_mapM_error {step : α → ExceptT ε (StateM s) β} {items : List α}
    {invariant : List α → List β → s → Prop}
    (kept : ∀ done item rest, items = done ++ item :: rest → ∀ outputs state output after,
      invariant done outputs state → (step item).run state = (.ok output, after) →
        invariant (done ++ [item]) (outputs ++ [output]) after)
    {failure : ε} {state after : s} (start : invariant [] [] state)
    (ran : (items.mapM step).run state = (.error failure, after)) :
    ∃ done item rest outputs middle, items = done ++ item :: rest ∧
      invariant done outputs middle ∧ (step item).run middle = (.error failure, after) := by
  suffices rested : ∀ rest done before state, items = done ++ rest → invariant done before state →
      (rest.mapM step).run state = (.error failure, after) →
        ∃ done item rest outputs middle, items = done ++ item :: rest ∧
          invariant done outputs middle ∧ (step item).run middle = (.error failure, after) from
    rested items [] [] state rfl start ran
  intro rest
  induction rest with
  | nil =>
    intro done before state whole holds ran
    cases ran
  | cons item rest ih =>
    intro done before state whole holds ran
    rw [List.mapM_cons] at ran
    rcases of_run_bind_error ran with failed | ⟨output, middle, stepped, ran⟩
    · exact ⟨done, item, rest, before, state, whole, holds, failed⟩
    · have holds := kept done item rest whole before state output middle holds stepped
      rcases of_run_bind_error ran with failed | ⟨others, last, -, ended⟩
      · exact ih (done ++ [item]) (before ++ [output]) middle
          (by rw [whole, List.append_assoc, List.singleton_append]) holds failed
      · cases ended

/-! ## Failures -/

/-- Whether an action fails only in some ways. -/
def FailsWith (cause : ε → Prop) (action : ExceptT ε (StateM s) α) : Prop :=
  ∀ state failure after, action.run state = (.error failure, after) → cause failure

variable {cause : ε → Prop}

/-- An action that does nothing does not fail. -/
theorem failsWith_pure (value : α) : FailsWith cause (pure value : ExceptT ε (StateM s) α) :=
  fun _ _ _ ran => by cases ran

/-- An action that fails at once fails in its way. -/
theorem failsWith_throw {failure : ε} (known : cause failure) :
    FailsWith cause (throw failure : ExceptT ε (StateM s) α) :=
  fun _ _ _ ran => by
    cases ran
    exact known

/-- An action fails as its parts do. -/
theorem FailsWith.bind {action : ExceptT ε (StateM s) α} {next : α → ExceptT ε (StateM s) β}
    (first : FailsWith cause action) (second : ∀ value, FailsWith cause (next value)) :
    FailsWith cause (action >>= next) := by
  intro state failure after ran
  rcases of_run_bind_error ran with ran | ⟨value, middle, -, ran⟩
  · exact first state failure after ran
  · exact second value middle failure after ran

/-- An action that depends on the state fails as it does for each state. -/
theorem failsWith_get_bind {next : s → ExceptT ε (StateM s) α}
    (known : ∀ state, FailsWith cause (next state)) : FailsWith cause (get >>= next) :=
  fun state failure after ran => known state state failure after ran

/-! ## Twin runs -/

/-- Whether two runs end alike and in related states. -/
def TwinRuns (relation : s → s → Prop) (first second : Except ε α × s) : Prop :=
  first.1 = second.1 ∧ relation first.2 second.2

/-- Whether an action cannot tell related states apart: it ends alike in both, and leaves related
states. -/
def Twin (relation : s → s → Prop) (action : ExceptT ε (StateM s) α) : Prop :=
  ∀ left right, relation left right → TwinRuns relation (action.run left) (action.run right)

/-- An action that does nothing tells nothing apart. -/
theorem twin_pure (value : α) : Twin relation (pure value : ExceptT ε (StateM s) α) :=
  fun _ _ related => ⟨rfl, related⟩

/-- An action that fails at once tells nothing apart. -/
theorem twin_throw (failure : ε) : Twin relation (throw failure : ExceptT ε (StateM s) α) :=
  fun _ _ related => ⟨rfl, related⟩

/-- An action tells no more apart than its parts do. -/
theorem Twin.bind {action : ExceptT ε (StateM s) α} {next : α → ExceptT ε (StateM s) β}
    (first : Twin relation action) (second : ∀ value, Twin relation (next value)) :
    Twin relation (action >>= next) := by
  intro left right related
  obtain ⟨same, after⟩ := first left right related
  rw [run_bind, run_bind]
  cases ran : action.run left with
  | mk result middle =>
    cases ran' : action.run right with
    | mk result' middle' =>
      rw [ran, ran'] at same after
      obtain rfl : result = result' := same
      cases result with
      | error failure => exact ⟨rfl, after⟩
      | ok value => exact second value middle middle' after

/-- An action that depends on the state tells as much apart as it does for each pair of states. -/
theorem twin_get_bind {next : s → ExceptT ε (StateM s) α}
    (known : ∀ left right, relation left right →
      TwinRuns relation ((next left).run left) ((next right).run right)) :
    Twin relation (get >>= next) :=
  known

/-- Steps over a list tell no more apart than each of them does. -/
theorem twin_foldlM {step : β → α → ExceptT ε (StateM s) β} {items : List α}
    (steps : ∀ item ∈ items, ∀ value, Twin relation (step value item)) (value : β) :
    Twin relation (items.foldlM step value) := by
  induction items generalizing value with
  | nil => exact twin_pure value
  | cons item items ih =>
    rw [List.foldlM_cons]
    exact (steps item List.mem_cons_self value).bind
      fun next => ih (fun item member => steps item (List.mem_cons_of_mem _ member)) next

/-! ## Invariants -/

/-- A relation between states that keep an invariant. -/
def Under (invariant : s → Prop) (relation : s → s → Prop) (before after : s) : Prop :=
  invariant before → invariant after ∧ relation before after

instance {invariant : s → Prop} [IsPreorder s relation] :
    IsPreorder s (Under invariant relation) where
  refl state holds := ⟨holds, refl_of relation state⟩
  trans _ _ _ first second holds :=
    ⟨(second (first holds).1).1,
      trans_of relation (first holds).2 (second (first holds).1).2⟩

/-- What comes second may rely on the invariant before and after the first one. -/
theorem Moves.bind_under {invariant : s → Prop} [IsTrans s relation]
    {action : ExceptT ε (StateM s) α} {next : α → ExceptT ε (StateM s) β}
    (first : Moves (Under invariant relation) action)
    (second : ∀ state value after, invariant state → action.run state = (.ok value, after) →
      Under invariant relation after ((next value).run after).2) :
    Moves (Under invariant relation) (action >>= next) := by
  intro state holds
  obtain ⟨kept, moved⟩ := first state holds
  rw [run_bind]
  split
  · rename_i value after ran
    rw [ran] at kept moved
    obtain ⟨kept, onward⟩ := second state value after holds ran kept
    exact ⟨kept, trans_of relation moved onward⟩
  · rename_i failure after ran
    rw [ran] at kept moved
    exact ⟨kept, moved⟩

/-- What follows an action may rely on the invariant that the action keeps. -/
theorem related_bind_under {invariant : s → Prop} [IsTrans s relation]
    {action : ExceptT ε (StateM s) α} {next : α → ExceptT ε (StateM s) β} {state : s}
    (holds : invariant state) (first : Under invariant relation state (action.run state).2)
    (second : ∀ value after, invariant after → relation after ((next value).run after).2) :
    relation state ((action >>= next).run state).2 := by
  obtain ⟨kept, moved⟩ := first holds
  refine related_bind moved fun value after ran => second value after ?_
  rwa [ran] at kept

end PageBuild.Action
