import Mathlib.Data.List.Perm.Basic
import PageBuild.Worker.KillSwitch

/-!
# What threads do to a kill switch

Any number of threads use one switch, each with the operations that it has left. A group that was
stored last stays in the switch until a thread takes it to signal it, and while a used switch holds a
group some thread is going to look for it (`Guarded`). Every operation keeps this
(`Guarded.advance`), so in the end the group that was stored last is signalled if the switch was used
(`Guarded.signalled_of_used`).
-/
namespace PageBuild.Worker.KillSwitch

/-- Whether each report of a thread goes on with its check, and each use with the taking of the
group. -/
def Formed : List Op → Prop
  | [] => True
  | .store group :: ops => ops.head? = some (.check group) ∧ Formed ops
  | .mark :: ops => ops.head? = some .take ∧ Formed ops
  | _ :: ops => Formed ops

/-- Whether a thread looks for a group before it stores another. -/
def Pursues : List Op → Prop
  | [] => False
  | .take :: _ => True
  | .check _ :: _ => True
  | .store _ :: _ => False
  | _ :: ops => Pursues ops

/-- The group that an operation stores. -/
def Op.stored : Op → List UInt32
  | .store group => [group]
  | _ => []

/-- A switch in which some groups were stored in order, with what its threads have left to do. -/
structure Guarded (stored : List UInt32) (switch : KillSwitch) (threads : List (List Op)) : Prop where
  formed : ∀ ops ∈ threads, Formed ops
  /-- The group in the switch was stored. -/
  held : switch.group ≠ 0 → switch.group ∈ stored
  /-- Only groups that were stored are signalled. -/
  signals : ∀ group, .group group ∈ switch.signals → group ∈ stored ∧ group ≠ 0
  /-- Only groups that were stored are going to be signalled. -/
  sends : ∀ ops ∈ threads, ∀ group, .send (.group group) ∈ ops → group ∈ stored ∧ group ≠ 0
  /-- The group that was stored last is in the switch or was taken to be signalled. -/
  kept : ∀ group, stored.getLast? = some group → group ≠ 0 → switch.group = group ∨
    .group group ∈ switch.signals ∨ ∃ ops ∈ threads, .send (.group group) ∈ ops
  /-- When the switch was used, someone looks for the group in it. -/
  pursued : switch.used = true → switch.group ≠ 0 → ∃ ops ∈ threads, Pursues ops

namespace Guarded

variable {switch : KillSwitch} {stored : List UInt32} {threads others : List (List Op)}
  {op : Op} {ops : List Op} {group : UInt32}

/-- Threads that have nothing to do guard a fresh switch. -/
theorem fresh (idle : ∀ ops ∈ threads, ops = []) : Guarded [] fresh threads where
  formed ops member := by rw [idle ops member]; trivial
  held filled := absurd rfl filled
  signals group signalled := by cases signalled
  sends ops member group sent := by rw [idle ops member] at sent; cases sent
  kept group last := by cases last
  pursued used := by cases used

/-- The order of the threads does not matter. -/
theorem perm {reordered : List (List Op)} (guarded : Guarded stored switch threads)
    (same : threads.Perm reordered) : Guarded stored switch reordered where
  formed ops member := guarded.formed ops (same.mem_iff.mpr member)
  held := guarded.held
  signals := guarded.signals
  sends ops member := guarded.sends ops (same.mem_iff.mpr member)
  kept group last filled := by simpa only [same.mem_iff] using guarded.kept group last filled
  pursued used filled := by simpa only [same.mem_iff] using guarded.pursued used filled

/-- A thread that had nothing left may go on with operations that signal nothing by themselves. -/
theorem resume (guarded : Guarded stored switch ([] :: others)) (formed : Formed ops)
    (silent : ∀ group, .send (.group group) ∉ ops) : Guarded stored switch (ops :: others) where
  formed := List.forall_mem_cons.mpr ⟨formed, (List.forall_mem_cons.mp guarded.formed).2⟩
  held := guarded.held
  signals := guarded.signals
  sends := List.forall_mem_cons.mpr
    ⟨fun group sent => absurd sent (silent group), (List.forall_mem_cons.mp guarded.sends).2⟩
  kept group last filled := by
    have kept := guarded.kept group last filled
    simp only [List.exists_mem_cons_iff, List.not_mem_nil, false_or] at kept
    simp only [List.exists_mem_cons_iff, silent, false_or]
    exact kept
  pursued used filled := by
    have pursued := guarded.pursued used filled
    simp only [List.exists_mem_cons_iff, Pursues, false_or] at pursued
    simp only [List.exists_mem_cons_iff]
    exact .inr pursued

/-- A report stores its group and goes on to its check. -/
theorem store (guarded : Guarded stored switch ((.store group :: ops) :: others)) :
    Guarded (stored ++ [group]) { switch with group } (ops :: others) := by
  obtain ⟨⟨checks, formed⟩, otherFormed⟩ := List.forall_mem_cons.mp guarded.formed
  obtain ⟨rest, rfl⟩ := List.head?_eq_some_iff.mp checks
  have sends := List.forall_mem_cons.mp guarded.sends
  have later : ∀ {other : UInt32}, other ∈ stored ∧ other ≠ 0 → other ∈ stored ++ [group] ∧ other ≠ 0 :=
    fun ⟨member, filled⟩ => ⟨List.mem_append_left _ member, filled⟩
  exact {
    formed := List.forall_mem_cons.mpr ⟨formed, otherFormed⟩
    held := fun _ => by simp
    signals := fun other signalled => later (guarded.signals other signalled)
    sends := List.forall_mem_cons.mpr
      ⟨fun other sent => later (sends.1 other (List.mem_cons_of_mem _ sent)),
        fun thread member other sent => later (sends.2 thread member other sent)⟩
    kept := fun other last _ => .inl (by simpa using last)
    pursued := fun _ _ => ⟨_, List.mem_cons_self, trivial⟩ }

/-- A check of a switch that was used goes on to take the group. -/
theorem check (guarded : Guarded stored switch ((.check group :: ops) :: others)) :
    Guarded stored switch (((if switch.used then [.take] else []) ++ ops) :: others) := by
  obtain ⟨formed, otherFormed⟩ := List.forall_mem_cons.mp guarded.formed
  have sends := List.forall_mem_cons.mp guarded.sends
  have same : ∀ signal, Op.send signal ∈ (if switch.used then [.take] else []) ++ ops ↔
      .send signal ∈ Op.check group :: ops := fun signal => by split <;> simp
  exact {
    formed := List.forall_mem_cons.mpr ⟨by split <;> exact formed, otherFormed⟩
    held := guarded.held
    signals := guarded.signals
    sends := List.forall_mem_cons.mpr ⟨fun other sent => sends.1 other ((same _).mp sent), sends.2⟩
    kept := fun other last filled => by
      simpa only [List.exists_mem_cons_iff, same] using guarded.kept other last filled
    pursued := fun used _ => ⟨_, List.mem_cons_self, by rw [if_pos used]; trivial⟩ }

/-- A thread that marks the switch as used goes on to take the group. -/
theorem mark (guarded : Guarded stored switch ((.mark :: ops) :: others)) :
    Guarded stored { switch with used := true }
      (((if switch.used then [] else [.send .worker]) ++ ops) :: others) := by
  obtain ⟨⟨takes, formed⟩, otherFormed⟩ := List.forall_mem_cons.mp guarded.formed
  obtain ⟨rest, rfl⟩ := List.head?_eq_some_iff.mp takes
  have sends := List.forall_mem_cons.mp guarded.sends
  have same : ∀ other, Op.send (.group other) ∈
      (if switch.used then [] else [.send .worker]) ++ Op.take :: rest ↔
      .send (.group other) ∈ Op.mark :: Op.take :: rest := fun other => by split <;> simp
  exact {
    formed := List.forall_mem_cons.mpr ⟨by split <;> exact formed, otherFormed⟩
    held := guarded.held
    signals := guarded.signals
    sends := List.forall_mem_cons.mpr ⟨fun other sent => sends.1 other ((same _).mp sent), sends.2⟩
    kept := fun other last filled => by
      simpa only [List.exists_mem_cons_iff, same] using guarded.kept other last filled
    pursued := fun _ _ => ⟨_, List.mem_cons_self, by split <;> trivial⟩ }

/-- A thread that takes the group goes on to signal it. -/
theorem take (guarded : Guarded stored switch ((.take :: ops) :: others)) :
    Guarded stored { switch with group := 0 }
      (((if switch.group = 0 then [] else [.send (.group switch.group)]) ++ ops) :: others) := by
  obtain ⟨formed, otherFormed⟩ := List.forall_mem_cons.mp guarded.formed
  have sends := List.forall_mem_cons.mp guarded.sends
  have taken : ∀ other, Op.send (.group other) ∈
      (if switch.group = 0 then [] else [.send (.group switch.group)]) ++ ops ↔
      (switch.group ≠ 0 ∧ other = switch.group) ∨ .send (.group other) ∈ Op.take :: ops := by
    intro other
    split <;> simp_all
  exact {
    formed := List.forall_mem_cons.mpr ⟨by split <;> exact formed, otherFormed⟩
    held := fun filled => absurd rfl filled
    signals := guarded.signals
    sends := by
      refine List.forall_mem_cons.mpr ⟨fun other sent => ?_, sends.2⟩
      rcases (taken other).mp sent with ⟨filled, rfl⟩ | before
      · exact ⟨guarded.held filled, filled⟩
      · exact sends.1 other before
    kept := fun other last filled => by
      rw [List.exists_mem_cons_iff, taken]
      rcases guarded.kept other last filled with rfl | signalled | sent
      · exact .inr (.inr (.inl (.inl ⟨filled, rfl⟩)))
      · exact .inr (.inl signalled)
      · rw [List.exists_mem_cons_iff] at sent
        exact .inr (.inr (sent.imp_left .inr))
    pursued := fun _ filled => absurd rfl filled }

/-- A thread sends a signal. -/
theorem send {signal : Signal} (guarded : Guarded stored switch ((.send signal :: ops) :: others)) :
    Guarded stored { switch with signals := switch.signals ++ [signal] } (ops :: others) := by
  obtain ⟨formed, otherFormed⟩ := List.forall_mem_cons.mp guarded.formed
  have sends := List.forall_mem_cons.mp guarded.sends
  exact {
    formed := List.forall_mem_cons.mpr ⟨formed, otherFormed⟩
    held := guarded.held
    signals := fun other signalled => by
      rcases List.mem_append.mp signalled with before | now
      · exact guarded.signals other before
      · rw [← List.mem_singleton.mp now] at sends
        exact sends.1 other List.mem_cons_self
    sends := List.forall_mem_cons.mpr
      ⟨fun other sent => sends.1 other (List.mem_cons_of_mem _ sent), sends.2⟩
    kept := fun other last filled => by
      rcases guarded.kept other last filled with held | signalled | sent
      · exact .inl held
      · exact .inr (.inl (List.mem_append_left _ signalled))
      · rw [List.exists_mem_cons_iff, List.mem_cons] at sent
        rw [List.exists_mem_cons_iff]
        rcases sent with (now | mine) | theirs
        · cases now
          exact .inr (.inl (List.mem_append_right _ List.mem_cons_self))
        · exact .inr (.inr (.inl mine))
        · exact .inr (.inr (.inr theirs))
    pursued := fun used filled => by
      simpa only [List.exists_mem_cons_iff, Pursues] using guarded.pursued used filled }

/-- Every operation of a thread keeps the switch guarded. -/
theorem advance (guarded : Guarded stored switch ((op :: ops) :: others)) :
    Guarded (stored ++ op.stored) (switch.advance (op :: ops)).1
      ((switch.advance (op :: ops)).2 :: others) := by
  cases op with
  | store group => exact guarded.store
  | check group =>
    simp only [Op.stored, List.append_nil]
    exact guarded.check
  | mark =>
    simp only [Op.stored, List.append_nil]
    exact guarded.mark
  | take =>
    simp only [Op.stored, List.append_nil]
    exact guarded.take
  | send signal =>
    simp only [Op.stored, List.append_nil]
    exact guarded.send

/-- Once all threads are done, the group that was stored last is signalled if the switch was used. -/
theorem signalled_of_used (guarded : Guarded stored switch threads) (idle : ∀ ops ∈ threads, ops = [])
    (used : switch.used = true) (last : stored.getLast? = some group) (filled : group ≠ 0) :
    .group group ∈ switch.signals := by
  rcases guarded.kept group last filled with held | signalled | ⟨ops, member, sent⟩
  · obtain ⟨ops, member, pursues⟩ := guarded.pursued used (held ▸ filled)
    rw [idle ops member] at pursues
    cases pursues
  · exact signalled
  · rw [idle ops member] at sent
    cases sent

end Guarded

end PageBuild.Worker.KillSwitch
