import Mathlib.Data.List.Basic
import Mathlib.Logic.Relation
import Mathlib.Tactic.ByContra
import SolidityAudit.Scan.Basic

/-!
# Every order of steps gives the sequential outcomes

Detectors in a pool start and finish in any order that the number of workers allows. `Faithful` is
what every step keeps: the slots stay in order, no more detectors run than there are workers, and a
detector that is done has the outcome of its own run. A step takes away exactly one of the steps that
are left, so every run ends, and it ends only when all detectors are done.

The scheduler of the library, `Pool.advance`, is one of these orders.
-/

namespace SolidityAudit

namespace Slot

variable (d : Detector) (o : Outcome)

@[simp] theorem isRunning_waiting : (Slot.mk d .waiting).isRunning = false := rfl

@[simp] theorem isRunning_running : (Slot.mk d .running).isRunning = true := rfl

@[simp] theorem isRunning_done : (Slot.mk d (.done o)).isRunning = false := rfl

@[simp] theorem outcome?_waiting : (Slot.mk d .waiting).outcome? = none := rfl

@[simp] theorem outcome?_running : (Slot.mk d .running).outcome? = none := rfl

@[simp] theorem outcome?_done : (Slot.mk d (.done o)).outcome? = some o := rfl

def stepsLeft (s : Slot) : Nat :=
  match s.state with
  | .waiting => 2
  | .running => 1
  | .done _ => 0

theorem stepsLeft_eq_zero_iff (s : Slot) : s.stepsLeft = 0 ↔ s.outcome?.isSome = true := by
  rcases s with ⟨d, _ | _ | o⟩ <;> simp [stepsLeft]

end Slot

namespace Pool

variable {workers : Int} {capacity : Nat} {u : SourceUnit} {detectors : List Detector}
  {slots next : List Slot}

theorem one_le_capacity (workers : Int) : 1 ≤ Pool.capacity workers := by
  unfold Pool.capacity
  omega

theorem cast_capacity (workers : Int) : (Pool.capacity workers : Int) = max 1 workers := by
  unfold Pool.capacity
  omega

def stepsLeft : List Slot → Nat
  | [] => 0
  | s :: rest => s.stepsLeft + stepsLeft rest

theorem stepsLeft_append (before after : List Slot) :
    stepsLeft (before ++ after) = stepsLeft before + stepsLeft after := by
  induction before with
  | nil => simp [stepsLeft]
  | cons s rest ih =>
      simp only [List.cons_append, stepsLeft, ih]
      omega

def Finished (slots : List Slot) : Prop := ∀ s ∈ slots, s.outcome?.isSome = true

theorem stepsLeft_initial (detectors : List Detector) :
    stepsLeft (initial detectors) = 2 * detectors.length := by
  induction detectors with
  | nil => rfl
  | cons d rest ih =>
      have hcons : stepsLeft (initial (d :: rest)) = 2 + stepsLeft (initial rest) := rfl
      rw [hcons, ih, List.length_cons]
      omega

theorem stepsLeft_eq_zero_iff (slots : List Slot) : stepsLeft slots = 0 ↔ Finished slots := by
  induction slots with
  | nil => simp [stepsLeft, Finished]
  | cons s rest ih =>
      simp only [stepsLeft, Nat.add_eq_zero_iff, ih, Slot.stepsLeft_eq_zero_iff, Finished,
        List.forall_mem_cons]

/-! ## What a step keeps -/

theorem Step.stepsLeft_eq (h : Step capacity u slots next) :
    stepsLeft slots = stepsLeft next + 1 := by
  cases h with
  | start before after d free =>
      simp only [stepsLeft_append, stepsLeft, Slot.stepsLeft]
      omega
  | finish before after d =>
      simp only [stepsLeft_append, stepsLeft, Slot.stepsLeft]
      omega

/-- The state of a pool that runs the given detectors. -/
structure Faithful (capacity : Nat) (u : SourceUnit) (detectors : List Detector)
    (slots : List Slot) : Prop where
  order : slots.map (·.detector) = detectors
  within : runningCount slots ≤ capacity
  own : ∀ s ∈ slots, ∀ o, s.outcome? = some o → o = s.detector.run u

theorem faithful_initial (capacity : Nat) (u : SourceUnit) (detectors : List Detector) :
    Faithful capacity u detectors (initial detectors) where
  order := by simp [initial, Function.comp_def]
  within := by
    have hnone : runningCount (initial detectors) = 0 := by
      simp [runningCount, initial, List.countP_map, Function.comp_def]
    omega
  own s hs o ho := by
    obtain ⟨d, _, rfl⟩ := List.mem_map.mp hs
    simp at ho

theorem forall_mem_replace {P : Slot → Prop} {before after : List Slot} {old new : Slot}
    (hold : ∀ s ∈ before ++ old :: after, P s) (hnew : P new) :
    ∀ s ∈ before ++ new :: after, P s := by
  intro s hs
  rcases List.mem_append.mp hs with hs | hs
  · exact hold s (List.mem_append_left _ hs)
  · rcases List.mem_cons.mp hs with rfl | hs
    · exact hnew
    · exact hold s (List.mem_append_right _ (List.mem_cons_of_mem _ hs))

theorem Faithful.step (hslots : Faithful capacity u detectors slots)
    (h : Step capacity u slots next) : Faithful capacity u detectors next := by
  obtain ⟨horder, hwithin, hown⟩ := hslots
  cases h with
  | start before after d free =>
      refine ⟨by simpa using horder, ?_, ?_⟩
      · simp only [runningCount, List.countP_append, List.countP_cons, Slot.isRunning_waiting,
          Slot.isRunning_running] at free ⊢
        simp only [Bool.false_eq_true, if_false, if_true] at free ⊢
        omega
      · exact forall_mem_replace hown (by simp)
  | finish before after d =>
      refine ⟨by simpa using horder, ?_, ?_⟩
      · simp only [runningCount, List.countP_append, List.countP_cons, Slot.isRunning_running,
          Slot.isRunning_done] at hwithin ⊢
        simp only [Bool.false_eq_true, if_false, if_true] at hwithin ⊢
        omega
      · exact forall_mem_replace hown (fun o ho => (Option.some.inj ho).symm)

theorem faithful_of_run
    (h : Relation.ReflTransGen (Step capacity u) (initial detectors) slots) :
    Faithful capacity u detectors slots := by
  induction h with
  | refl => exact faithful_initial capacity u detectors
  | tail _ hstep ih => exact ih.step hstep

/-! ## The end of a run -/

/-- Each step leaves one step less, so there is no run without end. -/
theorem wellFounded_step (capacity : Nat) (u : SourceUnit) :
    WellFounded fun next slots => Step capacity u slots next := by
  apply Subrelation.wf _ (InvImage.wf stepsLeft Nat.lt_wfRel.wf)
  intro next slots h
  have hleft := h.stepsLeft_eq
  show stepsLeft next < stepsLeft slots
  omega

theorem Finished.not_step (h : Finished slots) : ¬ Step capacity u slots next := by
  intro hstep
  have hzero := (stepsLeft_eq_zero_iff slots).mpr h
  have hleft := hstep.stepsLeft_eq
  omega

theorem Faithful.join_eq (hslots : Faithful capacity u detectors slots) (h : Finished slots) :
    join slots = detectors.map (·.run u) := by
  have hown : ∀ s ∈ slots, s.outcome? = some (s.detector.run u) := by
    intro s hs
    obtain ⟨o, ho⟩ := Option.isSome_iff_exists.mp (h s hs)
    rw [ho, hslots.own s hs o ho]
  calc
    join slots = slots.map fun s => s.detector.run u :=
      List.filterMap_eq_map_iff_forall_eq_some.mpr hown
    _ = detectors.map (·.run u) := by rw [← hslots.order, List.map_map]; rfl

/-! ## Progress, by the library's own scheduler -/

theorem exists_startFirst (h : slots.any (·.isWaiting) = true) :
    ∃ before d after, slots = before ++ ⟨d, .waiting⟩ :: after ∧
      startFirst slots = before ++ ⟨d, .running⟩ :: after := by
  induction slots with
  | nil => simp at h
  | cons s rest ih =>
      by_cases hs : s.isWaiting
      · rcases s with ⟨d, _ | _ | o⟩
        · exact ⟨[], d, rest, rfl, by simp [startFirst, hs]⟩
        · cases hs
        · cases hs
      · have hrest : rest.any (·.isWaiting) = true := by simpa [hs] using h
        obtain ⟨before, d, after, heq, hstart⟩ := ih hrest
        exact ⟨s :: before, d, after, by simp [heq], by simp [startFirst, hs, hstart]⟩

theorem exists_finishFirst (u : SourceUnit) (h : slots.any (·.isRunning) = true) :
    ∃ before d after, slots = before ++ ⟨d, .running⟩ :: after ∧
      finishFirst u slots = before ++ ⟨d, .done (d.run u)⟩ :: after := by
  induction slots with
  | nil => simp at h
  | cons s rest ih =>
      by_cases hs : s.isRunning
      · rcases s with ⟨d, _ | _ | o⟩
        · cases hs
        · exact ⟨[], d, rest, rfl, by simp [finishFirst]⟩
        · cases hs
      · have hrest : rest.any (·.isRunning) = true := by simpa [hs] using h
        obtain ⟨before, d, after, heq, hfinish⟩ := ih hrest
        exact ⟨s :: before, d, after, by simp [heq], by simp [finishFirst, hs, hfinish]⟩

/-- If all workers are busy some detector runs, since there is at least one worker; and if a worker
is free and none waits, a detector that is not done runs. -/
theorem any_isRunning_of_not_start (hcapacity : 1 ≤ capacity) (hpending : ¬ Finished slots)
    (h : ¬ (slots.any (·.isWaiting) = true ∧ runningCount slots < capacity)) :
    slots.any (·.isRunning) = true := by
  by_cases hwaiting : slots.any (·.isWaiting) = true
  · have hcount : 0 < runningCount slots := by
      have hbusy := not_and.mp h hwaiting
      omega
    obtain ⟨s, hs, hrunning⟩ := List.countP_pos_iff.mp hcount
    exact List.any_eq_true.mpr ⟨s, hs, hrunning⟩
  · obtain ⟨s, hs, hopen⟩ : ∃ s ∈ slots, s.outcome? = none := by simpa [Finished] using hpending
    refine List.any_eq_true.mpr ⟨s, hs, ?_⟩
    rcases s with ⟨d, _ | _ | o⟩
    · exact absurd (List.any_eq_true.mpr ⟨_, hs, rfl⟩) hwaiting
    · rfl
    · cases hopen

theorem step_advance (hcapacity : 1 ≤ capacity) (u : SourceUnit) (hpending : ¬ Finished slots) :
    Step capacity u slots (advance capacity u slots) := by
  unfold advance
  by_cases h : slots.any (·.isWaiting) = true ∧ runningCount slots < capacity
  · rw [if_pos (by simpa using h)]
    obtain ⟨before, d, after, heq, hstart⟩ := exists_startFirst h.1
    rw [hstart, heq]
    exact .start before after d (heq ▸ h.2)
  · rw [if_neg (by simpa using h)]
    obtain ⟨before, d, after, heq, hfinish⟩ :=
      exists_finishFirst u (any_isRunning_of_not_start hcapacity hpending h)
    rw [hfinish, heq]
    exact .finish before after d

/-- The scheduler runs until all detectors are done, if it takes as many steps as are left. -/
theorem advanceBy_stepsLeft (hcapacity : 1 ≤ capacity) (u : SourceUnit) {n : Nat}
    (hn : stepsLeft slots = n) :
    Relation.ReflTransGen (Step capacity u) slots (advanceBy capacity u n slots) ∧
      Finished (advanceBy capacity u n slots) := by
  induction n generalizing slots with
  | zero => exact ⟨.refl, (stepsLeft_eq_zero_iff slots).mp hn⟩
  | succ n ih =>
      have hpending : ¬ Finished slots := by
        rw [← stepsLeft_eq_zero_iff]
        omega
      have hstep := step_advance hcapacity u hpending
      have hleft := hstep.stepsLeft_eq
      have hn' : stepsLeft (advance capacity u slots) = n := by omega
      obtain ⟨hrun, hfinished⟩ := ih hn'
      exact ⟨.head hstep hrun, hfinished⟩

theorem outcomes_eq_map_run (workers : Int) (u : SourceUnit) (detectors : List Detector) :
    outcomes workers u detectors = detectors.map (·.run u) := by
  obtain ⟨hrun, hfinished⟩ :=
    advanceBy_stepsLeft (one_le_capacity workers) u (stepsLeft_initial detectors)
  exact (faithful_of_run hrun).join_eq hfinished

end Pool

namespace Registry

theorem scanOutcomes_eq_map_run (r : Registry) (workers : Int) (config : ScanConfig)
    (u : SourceUnit) :
    r.scanOutcomes workers config u = (r.select config.detectors).map (·.run u) := by
  unfold scanOutcomes
  dsimp only
  split
  · exact Pool.outcomes_eq_map_run workers u _
  · rfl

theorem scanUnit_eq_ok (r : Registry) (workers : Int) (config : ScanConfig) (u : SourceUnit)
    (hsize : u.byteSize ≤ config.maxSourceBytes) :
    r.scanUnit workers config u =
      .ok (Report.build u ((r.select config.detectors).map (·.run u)) config) := by
  rw [scanUnit, if_neg (Nat.not_lt.mpr hsize), scanOutcomes_eq_map_run]

theorem tryScan_eq_tryBuild (r : Registry) (workers : Int) (config : ScanConfig) (u : SourceUnit)
    (hsize : u.byteSize ≤ config.maxSourceBytes) :
    r.tryScan workers config (.ok u) =
      (Report.tryBuild u ((r.select config.detectors).map (·.run u)) config).mapError
        .unwritable := by
  rw [tryScan, if_neg (Nat.not_lt.mpr hsize), scanOutcomes_eq_map_run]

end Registry

namespace Pool

/-- In every order of steps no more detectors run than there are workers, the run can go on until all
detectors are done, it ends after finitely many steps, and then the outcomes and the report, or the
reason why it cannot be written, are those of the detectors run one after another. -/
theorem every_run_ends_sequentially (detectors : List Detector) (u : SourceUnit) (workers : Int)
    (slots : List Slot)
    (hrun : Relation.ReflTransGen (Step (capacity workers) u) (initial detectors) slots) :
    (runningCount slots : Int) ≤ max 1 workers ∧
      ((∃ s ∈ slots, s.outcome? = none) → ∃ next, Step (capacity workers) u slots next) ∧
      (WellFounded fun next slots => Step (capacity workers) u slots next) ∧
      ((∀ next, ¬ Step (capacity workers) u slots next) →
        join slots = detectors.map (·.run u) ∧
        ∀ (r : Registry) (config : ScanConfig), r.select config.detectors = detectors →
          u.byteSize ≤ config.maxSourceBytes → ∀ parallel,
            r.scanUnit workers { config with parallel := parallel } u =
              .ok (Report.build u (join slots) config) ∧
            r.tryScan workers { config with parallel := parallel } (.ok u) =
              (Report.tryBuild u (join slots) config).mapError .unwritable) := by
  have hfaithful := faithful_of_run hrun
  have hnext : ¬ Finished slots → ∃ next, Step (capacity workers) u slots next :=
    fun hpending => ⟨_, step_advance (one_le_capacity workers) u hpending⟩
  refine ⟨?_, ?_, wellFounded_step _ u, ?_⟩
  · rw [← cast_capacity]
    exact_mod_cast hfaithful.within
  · rintro ⟨s, hs, hopen⟩
    apply hnext
    intro hfinished
    have hdone := hfinished s hs
    simp [hopen] at hdone
  · intro hend
    have hfinished : Finished slots := by
      by_contra hpending
      obtain ⟨next, hstep⟩ := hnext hpending
      exact hend next hstep
    have hjoin := hfaithful.join_eq hfinished
    refine ⟨hjoin, ?_⟩
    intro r config hselect hsize parallel
    have hscan := Registry.scanUnit_eq_ok r workers { config with parallel := parallel } u hsize
    have htry := Registry.tryScan_eq_tryBuild r workers { config with parallel := parallel } u hsize
    rw [hscan, htry, hselect, ← hjoin]
    exact ⟨rfl, rfl⟩

/-- With no workers allowed one detector runs at a time; the second, which fails, runs first. -/
theorem every_run_ends_sequentially_reversed :
    let quiet : Detector := {
      name := "quiet", description := "", vulnerability := .reentrancy, kindName := "Quiet"
      analyze := fun _ => .ok [] }
    let broken : Detector := {
      name := "broken", description := "", vulnerability := .accessControl, kindName := "Broken"
      analyze := fun _ => .error (.raised "ValueError" "") }
    let slots : List Slot := [⟨quiet, .done (quiet.run {})⟩, ⟨broken, .done (broken.run {})⟩]
    Relation.ReflTransGen (Step (capacity 0) {}) (initial [quiet, broken]) slots ∧
      (runningCount slots : Int) ≤ max 1 0 ∧ join slots = [quiet, broken].map (·.run {}) := by
  intro quiet broken slots
  have hrun : Relation.ReflTransGen (Step (capacity 0) {}) (initial [quiet, broken]) slots :=
    .head (.start [⟨quiet, .waiting⟩] [] broken Nat.one_pos)
      (.head (.finish [⟨quiet, .waiting⟩] [] broken)
        (.head (.start [] [⟨broken, .done (broken.run {})⟩] quiet Nat.one_pos)
          (.single (.finish [] [⟨broken, .done (broken.run {})⟩] quiet))))
  have hfinished : Finished slots := (stepsLeft_eq_zero_iff slots).mp rfl
  obtain ⟨hwithin, _, _, hend⟩ := every_run_ends_sequentially [quiet, broken] {} 0 slots hrun
  exact ⟨hrun, hwithin, (hend fun _ => hfinished.not_step).1⟩

end Pool
end SolidityAudit
